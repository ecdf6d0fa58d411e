import Credential.Client.Request
import Credential.Proofs.Outcome

/-!
# What requests present

An assertion is presented under the method that its own algorithm belongs to, and for the client
that its subject names (`isTyped_of_presented`).
-/

namespace Credential.Client

/-! ## Assertions -/

/-- The token names its client. -/
def Assertion.NamesClient (a : Assertion) : Prop :=
  a.token.claims.subject.map (·.value) = some a.clientId.value

/-- A token is an assertion just if it names a client, which is then its client. -/
theorem Assertion.ofToken_eq_ok_iff {t : SignedToken} {a : Assertion} :
    Assertion.ofToken t = .ok a ↔ a.token = t ∧ a.NamesClient := by
  unfold ofToken
  constructor
  · intro h
    split at h
    · next s hs =>
      obtain rfl := Except.ok.inj h
      refine ⟨rfl, ?_⟩
      show t.claims.subject.map _ = _
      rw [hs]
      rfl
    · exact absurd h refuse_ne_ok
  · rintro ⟨rfl, hclient⟩
    obtain ⟨s, hs, hvalue⟩ := Option.map_eq_some_iff.1 hclient
    have hid : (⟨s.value, s.value_ne_empty⟩ : ClientId) = a.clientId := Identifier.ext hvalue
    rw [hs]
    show Except.ok (⟨a.token, ⟨s.value, s.value_ne_empty⟩⟩ : Assertion) = .ok a
    rw [hid]

namespace Presented

/-- The assertion is what is presented, under the method for its family of algorithms. -/
inductive IsAssertion (a : Assertion) : Jws.Family → Presented → Prop
  | hmac : IsAssertion a .hmac (.secretJwt a)
  | rsa : IsAssertion a .rsa (.privateKeyJwt a)
  | ec : IsAssertion a .ec (.privateKeyJwt a)

theorem IsAssertion.clientId? {a : Assertion} {f : Jws.Family} {p : Presented}
    (h : IsAssertion a f p) : p.clientId? = some a.clientId := by
  cases h with
  | hmac => rfl
  | rsa => rfl
  | ec => rfl

/-- **A token is presented under the method of its algorithm, for the client that it names.** -/
theorem ofToken_eq_ok_iff {t : SignedToken} {p : Presented} :
    ofToken t = .ok p
      ↔ ∃ a : Assertion, IsAssertion a t.algorithm.family p ∧ a.token = t ∧ a.NamesClient := by
  simp only [← Assertion.ofToken_eq_ok_iff]
  unfold ofToken
  constructor
  · intro h
    split at h
    · next hf =>
      obtain ⟨a, ha, h⟩ := bind_eq_ok_iff.1 h
      obtain rfl := Except.ok.inj h
      exact ⟨a, hf ▸ .hmac, ha⟩
    · next hf =>
      obtain ⟨a, ha, h⟩ := bind_eq_ok_iff.1 h
      obtain rfl := Except.ok.inj h
      exact ⟨a, hf ▸ .rsa, ha⟩
    · next hf =>
      obtain ⟨a, ha, h⟩ := bind_eq_ok_iff.1 h
      obtain rfl := Except.ok.inj h
      exact ⟨a, hf ▸ .ec, ha⟩
    · cases h
    · cases h
  · rintro ⟨a, hp, ha⟩
    rw [ha]
    generalize t.algorithm.family = f at hp ⊢
    cases hp with
    | hmac => rfl
    | rsa => rfl
    | ec => rfl

/-- Other algorithms sign no assertions. -/
theorem ofToken_of_unsupported {t : SignedToken} (hhmac : t.algorithm.family ≠ .hmac)
    (hrsa : t.algorithm.family ≠ .rsa) (hec : t.algorithm.family ≠ .ec) :
    Presented.ofToken t = .error (.unsupportedAlgorithm t.algorithm.name) := by
  unfold ofToken
  cases hf : t.algorithm.family with
  | hmac => exact absurd hf hhmac
  | rsa => exact absurd hf hrsa
  | ec => exact absurd hf hec
  | ed => rfl
  | unsecured => rfl

/-- What is presented under a method that uses tokens is a token of that method. -/
def IsTyped : Presented → Prop
  | .secretJwt a => a.token.algorithm.family = .hmac ∧ a.NamesClient
  | .privateKeyJwt a =>
    (a.token.algorithm.family = .rsa ∨ a.token.algorithm.family = .ec) ∧ a.NamesClient
  | .secretBasic _ _ | .secretPost _ _ | .none _ => True

theorem IsAssertion.isTyped {a : Assertion} {p : Presented}
    (h : IsAssertion a a.token.algorithm.family p) (hclient : a.NamesClient) : p.IsTyped := by
  generalize hf : a.token.algorithm.family = f at h
  cases h with
  | hmac => exact ⟨hf, hclient⟩
  | rsa => exact ⟨Or.inl hf, hclient⟩
  | ec => exact ⟨Or.inr hf, hclient⟩

end Presented

/-! ## Requests -/

namespace Request

variable {p : Presented}

theorem exists_of_readBasic {credentials : Bytes} (h : readBasic credentials = .ok p) :
    ∃ id secret, p = .secretBasic id secret := by
  unfold readBasic at h
  simp only [bind_eq_ok_iff] at h
  obtain ⟨written, -, octets, -, pair, -, ⟨id, secret⟩, -, escaped, -, client, -, value, -, h⟩ := h
  exact ⟨_, _, (Except.ok.inj h).symm⟩

/-- A token is presented for the client that it names, which must be the one that is named beside
it, if one is. -/
theorem readAssertion_eq_ok_iff {assertion : String} {t : SignedToken} {id : Option String}
    (ht : SignedToken.parse assertion = .ok t) :
    readAssertion assertion id = .ok p
      ↔ ∃ a : Assertion, p.IsAssertion a t.algorithm.family ∧ a.token = t ∧ a.NamesClient
        ∧ ∀ s, id = some s → s = a.clientId.value := by
  rw [readAssertion, ht]
  show Presented.ofToken t >>= _ = _ ↔ _
  simp only [bind_eq_ok_iff, Presented.ofToken_eq_ok_iff]
  constructor
  · rintro ⟨q, ⟨a, hq, ha, hclient⟩, h⟩
    rw [hq.clientId?] at h
    cases id with
    | none =>
      obtain rfl := Except.ok.inj h
      exact ⟨a, hq, ha, hclient, fun s hs => nomatch hs⟩
    | some s =>
      by_cases hs : s = a.clientId.value
      · rw [← Except.ok.inj ((if_pos hs).symm.trans h)]
        exact ⟨a, hq, ha, hclient, fun s' hs' => Option.some.inj hs' ▸ hs⟩
      · exact absurd ((if_neg hs).symm.trans h) refuse_ne_ok
  · rintro ⟨a, hp, ha, hclient, hid⟩
    refine ⟨p, ⟨a, hp, ha, hclient⟩, ?_⟩
    rw [hp.clientId?]
    cases id with
    | none => rfl
    | some s => exact if_pos (hid s rfl)

theorem readAssertion_of_unsupported {assertion : String} {t : SignedToken} {id : Option String}
    (ht : SignedToken.parse assertion = .ok t) (hhmac : t.algorithm.family ≠ .hmac)
    (hrsa : t.algorithm.family ≠ .rsa) (hec : t.algorithm.family ≠ .ec) :
    readAssertion assertion id = .error (.unsupportedAlgorithm t.algorithm.name) := by
  rw [readAssertion, ht]
  show Presented.ofToken t >>= _ = _
  rw [Presented.ofToken_of_unsupported hhmac hrsa hec]
  rfl

theorem isTyped_of_readAssertion {assertion : String} {clientId : Option String}
    (h : readAssertion assertion clientId = .ok p) : p.IsTyped := by
  cases ht : SignedToken.parse assertion with
  | error e =>
    rw [readAssertion, ht] at h
    cases h
  | ok t =>
    obtain ⟨a, hp, rfl, hclient, -⟩ := (readAssertion_eq_ok_iff ht).1 h
    exact hp.isTyped hclient

theorem isTyped_of_readForm {ps : List Form.Parameter} (h : readForm ps = .ok p) : p.IsTyped := by
  unfold readForm at h
  split at h
  · obtain ⟨client, -, h⟩ := bind_eq_ok_iff.1 h
    obtain rfl := Except.ok.inj h
    trivial
  · split at h
    · split at h
      · exact isTyped_of_readAssertion h
      · obtain rfl := Except.ok.inj h
        trivial
    · obtain rfl := Except.ok.inj h
      trivial

/-- **An assertion is presented under its own method**, for the client that it names. -/
theorem isTyped_of_presented {r : Request} (h : r.presented = .ok p) : p.IsTyped := by
  unfold presented at h
  split at h
  · obtain ⟨id, secret, rfl⟩ := exists_of_readBasic h
    trivial
  · obtain ⟨ps, -, h⟩ := bind_eq_ok_iff.1 h
    exact isTyped_of_readForm h

end Request

end Credential.Client
