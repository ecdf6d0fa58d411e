import Credential.Proofs.Saml.ReadCongr
import Credential.Proofs.XmlSignature.KeyInfo
import Credential.Saml.Verifier

/-!
# What an accepted assertion is

A document is accepted as an assertion exactly if its root is one, a trusted key signed it, the
assertion is what is read from that root, and its conditions hold (`verifyAt_eq_ok_iff_accepts`).
All of it is about one element: what is digested, what is named by the reference and what is read.
-/

namespace Credential.Saml

open Xml (Document Located)
open XmlSignature (Enveloped)

namespace Verifier

variable {v : Verifier} {a : Assertion} {now : Instant}

/-! ## Conditions -/

/-- The assertion is from the expected issuer, for an accepted audience, and the instant lies in its
validity window, which has an end. -/
structure Admits (v : Verifier) (a : Assertion) (now : Instant) : Prop where
  issuer : a.issuer = v.issuer
  audience : ∃ x ∈ a.audiences, x ∈ v.audience.members
  expiration : ∃ e, a.expiration = some e ∧ Window.isExpired e now v.skew = false
  notBefore : ∀ n, a.notBefore = some n → Window.isNotYetValid n now v.skew = false
  issued : Window.isIssuedInFuture a.issueInstant now v.skew = false

theorem checkAudience_eq_ok_iff {u : Unit} :
    v.checkAudience a = .ok u ↔ ∃ x ∈ a.audiences, x ∈ v.audience.members := by
  unfold checkAudience
  simp only [bind_eq_ok_iff, violatedIf_eq_ok_iff, Bool.not_eq_false',
    AudienceSet.intersects_iff]
  constructor
  · rintro ⟨-, -, h⟩
    exact h
  · intro h
    exact ⟨(), AudienceSet.isEmpty_eq_false_of_shared h, h⟩

theorem checkTimes_eq_ok_iff {u : Unit} :
    v.checkTimes a now = .ok u
      ↔ (∃ e, a.expiration = some e ∧ Window.isExpired e now v.skew = false)
        ∧ (∀ n, a.notBefore = some n → Window.isNotYetValid n now v.skew = false)
        ∧ Window.isIssuedInFuture a.issueInstant now v.skew = false := by
  unfold checkTimes
  cases a.expiration with
  | none => simp [bind, Except.bind]
  | some e =>
    cases a.notBefore with
    | none => simp [bind_eq_ok_iff, violatedIf_eq_ok_iff]
    | some n => simp [bind_eq_ok_iff, violatedIf_eq_ok_iff]

theorem check_eq_ok_iff {u : Unit} : v.check a now = .ok u ↔ v.Admits a now := by
  unfold check
  simp only [bind_eq_ok_iff, violatedIf_eq_ok_iff, checkAudience_eq_ok_iff, checkTimes_eq_ok_iff,
    bne_eq_false_iff_eq]
  constructor
  · rintro ⟨-, hissuer, -, haudience, hexpiration, hstart, hissued⟩
    exact ⟨hissuer, haudience, hexpiration, hstart, hissued⟩
  · intro h
    exact ⟨(), h.issuer, (), h.audience, h.expiration, h.notBefore, h.issued⟩

theorem checkConditions_eq_ok_iff {u : Unit} :
    v.checkConditions a now = .ok u ↔ v.Admits a now := by
  rw [← check_eq_ok_iff (u := u), checkConditions]
  cases v.check a now with
  | ok w => exact ⟨fun _ => rfl, fun _ => rfl⟩
  | error e => exact ⟨fun h => (nomatch h), fun h => (nomatch h)⟩

/-! ## Documents -/

/-- What holds of a document, the signature in its root and the assertion that is read from it where
the document is accepted. -/
structure Accepts (v : Verifier) (d : Document) (s : Enveloped) (a : Assertion) (now : Instant) :
    Prop where
  isAssertion : (Located.root d.root).isNamed uri "Assertion" = true
  signature : s.IsVerified d.root (.root d.root) v.keys
  read : Assertion.ofElement (.root d.root) = .ok a
  conditions : v.Admits a now

theorem rootOf_eq_ok_iff {d : Document} {l : Located} :
    Assertion.rootOf d = .ok l
      ↔ (Located.root d.root).isNamed uri "Assertion" = true ∧ l = .root d.root := by
  unfold Assertion.rootOf
  dsimp only
  split
  · next h => rw [h, Except.ok.injEq, eq_self_iff_true, true_and, eq_comm]
  · next h => exact ⟨fun hr => absurd hr refuse_ne_ok, fun hr => absurd hr.1 h⟩

/-- What is read as an assertion does not depend on the signature. -/
theorem alike_eraseSignature {l s : Located} {p n : Nat} (hs : l.children[p]? = some s)
    (hnamed : s.isNamed XmlSignature.uri "Signature" = true) : Alike (l.erase [p, n]) l := by
  refine ⟨rfl, fun name => ?_⟩
  have hne : s.isNamed uri name = false := by
    rw [Located.isNamed, Bool.and_eq_true, beq_iff_eq] at hnamed
    rw [Located.isNamed, hnamed.1]
    rfl
  have hne' : (s.erase [n]).isNamed uri name = false := hne
  rw [children, children, Located.childrenNamed, Located.childrenNamed,
    Located.children_erase_inside hs, Xml.filter_set_of_not hs hne hne']

/-- **A document that is accepted is accepted without the `KeyInfo` of its signature**, if the
signature is itself left out of what is digested. -/
theorem Accepts.withoutKeyInfo {d : Document} {s : Enveloped} {l k : Located} {n : Nat}
    (h : v.Accepts d s a now) (he : s.reference.enveloped = true)
    (hl : (Located.root d.root).children[s.position]? = some l) (hk : l.children[n]? = some k)
    (hinfo : k.isNamed XmlSignature.uri "KeyInfo" = true) :
    v.Accepts { d with root := d.root.erasePath [s.position, n] } s a now where
  isAssertion := h.isAssertion
  signature := h.signature.withoutKeyInfo he hl hk hinfo
  read := by
    have hnamed : l.isNamed XmlSignature.uri "Signature" = true := by
      obtain ⟨signature, honly, hat, -⟩ := h.signature.signature
      obtain rfl : l = signature := Option.some.inj (hl.symm.trans hat)
      have hmem : l ∈ (Located.root d.root).childrenNamed XmlSignature.uri "Signature" := by
        rw [honly]
        exact List.mem_singleton_self l
      exact (List.mem_filter.1 hmem).2
    rw [← h.read]
    exact ofElement_congr (alike_eraseSignature hl hnamed)
  conditions := h.conditions

/-- **A document is accepted as an assertion exactly if all of this holds**, and then it does not
matter what the signature says about keys. -/
theorem verifyAt_eq_ok_iff_accepts (v : Verifier) (xml : String) (now : Instant) (a : Assertion) :
    (v.verifyAt xml now = .ok a
      ↔ ∃ d s, Assertion.readDocument xml = .ok d ∧ v.Accepts d s a now)
    ∧ ∀ d s l k n, v.Accepts d s a now → s.reference.enveloped = true →
        (Located.root d.root).children[s.position]? = some l → l.children[n]? = some k →
        k.isNamed XmlSignature.uri "KeyInfo" = true →
        v.Accepts { d with root := d.root.erasePath [s.position, n] } s a now := by
  refine ⟨?_, fun d s l k n h he hl hk hinfo => h.withoutKeyInfo he hl hk hinfo⟩
  unfold verifyAt
  simp only [bind_eq_ok_iff, rootOf_eq_ok_iff, XmlSignature.verify_eq_ok_iff,
    checkConditions_eq_ok_iff]
  constructor
  · rintro ⟨d, hd, l, ⟨hroot, rfl⟩, m, ⟨s, hs, -⟩, b, hb, -, hc, h⟩
    obtain rfl := Except.ok.inj h
    exact ⟨d, s, hd, hroot, hs, hb, hc⟩
  · rintro ⟨d, s, hd, h⟩
    exact ⟨d, hd, .root d.root, ⟨h.isAssertion, rfl⟩, s.method, ⟨s, h.signature, rfl⟩, a,
      h.read, (),
      h.conditions, rfl⟩

end Verifier

end Credential.Saml
