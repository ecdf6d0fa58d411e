import Credential.Jws.Signature
import Credential.Proofs.Outcome

/-!
# Which key verifies a token

Trying keys one after the other finds one exactly if there is one that verifies the token
(`exists_verifyWithAny_iff`), and the one that is found is the first such key.
-/

namespace Credential.SignedToken

variable {s : SignedToken} {k : Jws.Key} {keys : List Jws.Key}

theorem verify_eq_ok_true_iff :
    s.verify k = .ok true ↔ s.algorithm.isVerifiable = true ∧ s.isSignedWith k = true := by
  unfold verify
  split
  · next h => rw [Except.ok.injEq, h, eq_self_iff_true, true_and]
  · next h => exact ⟨fun hv => (nomatch hv), fun hv => absurd hv.1 h⟩

/-- What a key verifies are the token's own header and payload, under the token's own algorithm, and
both are strict. -/
theorem isSignedWith_iff :
    s.isSignedWith k = true ↔ s.isStrict = true ∧ ∃ b, Base64.decodeUrl s.signatureText = some b
      ∧ k.verifies s.algorithm (Utf8.encode s.signingInput) b = true := by
  unfold isSignedWith
  split
  · next b hb =>
    rw [Bool.and_eq_true, hb]
    constructor
    · rintro ⟨hs, hv⟩
      exact ⟨hs, b, rfl, hv⟩
    · rintro ⟨hs, c, hc, hv⟩
      exact ⟨hs, (Option.some.inj hc) ▸ hv⟩
  · next hnone =>
    constructor
    · intro h
      exact absurd h (by simp)
    · rintro ⟨-, b, hb, -⟩
      rw [hnone] at hb
      exact absurd hb (by simp)

/-- A key that verifies a token is of the kind that the algorithm uses. -/
theorem family_of_verify (h : s.verify k = .ok true) : s.algorithm.family = k.material.family := by
  obtain ⟨-, b, -, hv⟩ := isSignedWith_iff.1 (verify_eq_ok_true_iff.1 h).2
  exact Jws.Key.verifies_family hv

/-- The key that is found is one of the keys, and it verifies the token. -/
theorem of_verifyWithAny (h : s.verifyWithAny keys = .ok (some k)) :
    k ∈ keys ∧ s.verify k = .ok true := by
  induction keys with
  | nil => exact absurd h (by simp [verifyWithAny])
  | cons k' keys ih =>
    unfold verifyWithAny at h
    obtain ⟨b, hb, h⟩ := bind_eq_ok_iff.1 h
    cases b with
    | true =>
      obtain rfl : k' = k := Option.some.inj (Except.ok.inj h)
      exact ⟨List.mem_cons_self, hb⟩
    | false =>
      obtain ⟨hk, hv⟩ := ih h
      exact ⟨List.mem_cons_of_mem _ hk, hv⟩

/-- **A key is found exactly if one of them verifies the token.** -/
theorem exists_verifyWithAny_iff :
    (∃ k, s.verifyWithAny keys = .ok (some k)) ↔ ∃ k ∈ keys, s.verify k = .ok true := by
  constructor
  · rintro ⟨k, h⟩
    exact ⟨k, of_verifyWithAny h⟩
  · rintro ⟨k, hk, hv⟩
    have hverifiable := (verify_eq_ok_true_iff.1 hv).1
    induction keys with
    | nil => exact absurd hk (by simp)
    | cons k' keys ih =>
      unfold verifyWithAny
      rw [verify, if_pos hverifiable]
      show ∃ found, (if s.isSignedWith k' = true then _ else _) = _
      split
      · exact ⟨k', rfl⟩
      · next hne =>
        rcases List.mem_cons.1 hk with rfl | hk
        · exact absurd (verify_eq_ok_true_iff.1 hv).2 hne
        · exact ih hk

end Credential.SignedToken
