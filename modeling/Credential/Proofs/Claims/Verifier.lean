import Credential.Claims.Verifier
import Credential.Proofs.Outcome

/-!
# Which claims are accepted

The checks of a verifier, taken together (`verifyAt_eq_ok_iff`). The order in which they run does
not show where all of them pass.
-/

namespace Credential

namespace ClaimsVerifier

variable {v : ClaimsVerifier} {c : Claims} {nonce : Option Nonce} {now : Instant} {u : Unit}

/-- The claims name the expected issuer and some subject, are for an accepted audience and the
expected party, and hold at the instant; and they have the nonce that is expected, if one is. -/
structure Admits (v : ClaimsVerifier) (c : Claims) (nonce : Option Nonce) (now : Instant) :
    Prop where
  issuer : c.issuer = some v.issuer
  subject : c.subject.isSome = true
  audience : ∃ a ∈ c.audience, a ∈ v.audience.members
  authorizedParty : ∀ client, v.authorizedParty = some client → 1 < c.audience.length →
    c.text? "azp" = some client.value
  expiration : ∃ e, c.expiration = some e ∧ Window.isExpired e now v.skew = false
  notBefore : ∀ n, c.notBefore = some n → Window.isNotYetValid n now v.skew = false
  issuedAt : ∀ i, c.issuedAt = some i → Window.isIssuedInFuture i now v.skew = false
  nonce : ∀ n, nonce = some n → c.text? "nonce" = some n.value

theorem checkAudience_eq_ok_iff :
    v.checkAudience c = .ok u ↔ (∃ a ∈ c.audience, a ∈ v.audience.members)
      ∧ ∀ client, v.authorizedParty = some client → 1 < c.audience.length →
        c.text? "azp" = some client.value := by
  unfold checkAudience
  cases v.authorizedParty with
  | none =>
    simp only [bind_eq_ok_iff, violatedIf_eq_ok_iff, Bool.not_eq_false', AudienceSet.intersects_iff]
    constructor
    · rintro ⟨-, -, hshared⟩
      exact ⟨hshared, fun client h => (nomatch h)⟩
    · rintro ⟨hshared, -⟩
      exact ⟨(), AudienceSet.isEmpty_eq_false_of_shared hshared, hshared⟩
  | some client =>
    simp only [bind_eq_ok_iff, violatedIf_eq_ok_iff, Bool.not_eq_false', AudienceSet.intersects_iff]
    constructor
    · rintro ⟨-, -, -, hparty, hshared⟩
      refine ⟨hshared, fun other ho hmany => ?_⟩
      obtain rfl := Option.some.inj ho
      simpa [hmany] using hparty
    · rintro ⟨hshared, hparty⟩
      refine ⟨(), AudienceSet.isEmpty_eq_false_of_shared hshared, (), ?_, hshared⟩
      by_cases hmany : 1 < c.audience.length
      · simp [hparty client rfl hmany]
      · simp [hmany]

theorem checkTimes_eq_ok_iff :
    v.checkTimes c now = .ok u
      ↔ (∃ e, c.expiration = some e ∧ Window.isExpired e now v.skew = false)
        ∧ (∀ n, c.notBefore = some n → Window.isNotYetValid n now v.skew = false)
        ∧ ∀ i, c.issuedAt = some i → Window.isIssuedInFuture i now v.skew = false := by
  unfold checkTimes
  cases c.expiration with
  | none => simp [bind, Except.bind]
  | some e =>
    cases c.notBefore with
    | none =>
      cases c.issuedAt with
      | none => simp [bind_eq_ok_iff, violatedIf_eq_ok_iff, pure, Except.pure]
      | some i => simp [bind_eq_ok_iff, violatedIf_eq_ok_iff]
    | some n =>
      cases c.issuedAt with
      | none => simp [bind_eq_ok_iff, violatedIf_eq_ok_iff, pure, Except.pure]
      | some i => simp [bind_eq_ok_iff, violatedIf_eq_ok_iff]

theorem checkNonce_eq_ok_iff :
    checkNonce c nonce = .ok u ↔ ∀ n, nonce = some n → c.text? "nonce" = some n.value := by
  unfold checkNonce
  cases nonce with
  | none => simp
  | some n =>
    cases c.text? "nonce" with
    | none => simp
    | some s => simp [violatedIf_eq_ok_iff]

/-- **Claims are accepted exactly if all of this holds of them.** -/
theorem verifyAt_eq_ok_iff : v.verifyAt c nonce now = .ok u ↔ v.Admits c nonce now := by
  have hcheck : v.verifyAt c nonce now = .ok u ↔ v.check c nonce now = .ok u := by
    unfold verifyAt
    cases v.check c nonce now with
    | ok w => exact ⟨fun _ => rfl, fun _ => rfl⟩
    | error e => exact ⟨fun h => (nomatch h), fun h => (nomatch h)⟩
  rw [hcheck, check]
  simp only [bind_eq_ok_iff, violatedIf_eq_ok_iff, checkAudience_eq_ok_iff, checkTimes_eq_ok_iff,
    checkNonce_eq_ok_iff, bne_eq_false_iff_eq, Option.isNone_eq_false_iff]
  constructor
  · rintro ⟨-, hissuer, -, hsubject, -, ⟨haudience, hparty⟩, -, ⟨hexpiration, hstart, hissued⟩,
      hnonce⟩
    exact ⟨hissuer, hsubject, haudience, hparty, hexpiration, hstart, hissued, hnonce⟩
  · intro h
    exact ⟨(), h.issuer, (), h.subject, (), ⟨h.audience, h.authorizedParty⟩, (),
      ⟨h.expiration, h.notBefore, h.issuedAt⟩, h.nonce⟩

end ClaimsVerifier

end Credential
