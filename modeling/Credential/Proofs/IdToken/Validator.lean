import Credential.IdToken.Config
import Credential.Proofs.Jose.Token
import Credential.Proofs.Jws.Signature

/-!
# What an accepted ID token is

A validator expects one algorithm, which is fixed when it is made and never changes after
(`Expects`). A token is accepted under this algorithm only: as an unsecured one where none is
expected to be signed, and else as a token whose own signature one of the keys for its own header
verifies, and whose own claims are the ones that come out (`expected_of_validateAt_eq_ok`).

There is one signed token that all of this is about. It is the text itself or what was decrypted of
it; an unsecured token is never found inside an encrypted one.
-/

namespace Credential

/-! ## Selectors -/

theorem Jws.Algorithm.family_eq_unsecured_iff {a : Jws.Algorithm} :
    a.family = .unsecured ↔ a = .unsecured := by
  cases a <;> decide

namespace Jws.Selector

variable {σ : Type} {s : Selector σ}

/-- The selector is one that its makers give. -/
def IsMade (s : Selector σ) : Prop :=
  (∃ a held, ofSecrets a held = .ok s) ∨ ∃ a source, ofSource a source = .ok s

theorem ofSecrets_eq_ok {a : Algorithm} {held : List Secret} (h : ofSecrets a held = .ok s) :
    a.family = .hmac ∧ s = .secrets a held := by
  unfold ofSecrets at h
  split at h
  · exact absurd h (by simp)
  · next hf =>
    split at h
    · exact absurd h (by simp)
    · exact ⟨by simpa using hf, (Except.ok.inj h).symm⟩

theorem ofSource_eq_ok {a : Algorithm} {source : JwkSource σ} (h : ofSource a source = .ok s) :
    a ≠ .unsecured ∧ s = .keySet a source := by
  unfold ofSource at h
  split at h
  · exact absurd h (by simp)
  · next ha => exact ⟨ha, (Except.ok.inj h).symm⟩

/-- No selector is bound to `none`. -/
theorem IsMade.algorithm_ne (h : s.IsMade) : s.algorithm ≠ .unsecured := by
  rcases h with ⟨a, held, h⟩ | ⟨a, source, h⟩
  · obtain ⟨hf, rfl⟩ := ofSecrets_eq_ok h
    intro he
    have hu : a.family = .unsecured := Algorithm.family_eq_unsecured_iff.2 he
    rw [hf] at hu
    exact absurd hu (by decide)
  · obtain ⟨ha, rfl⟩ := ofSource_eq_ok h
    exact ha

end Jws.Selector

/-- The selector that a configuration calls for is bound to its algorithm. -/
theorem IdTokenConfig.selector_eq_ok {ω : Type} {c : IdTokenConfig} {world : RemoteKeys.World ω}
    {o : Option (Jws.Selector (RemoteKeys.State × ω))} (h : c.selector world = .ok o) :
    (o = none ∧ c.algorithm = .unsecured)
      ∨ ∃ s, o = some s ∧ s.IsMade ∧ s.algorithm = c.algorithm := by
  unfold selector at h
  split at h
  · next hf =>
    exact Or.inl ⟨(Except.ok.inj h).symm, Jws.Algorithm.family_eq_unsecured_iff.1 hf⟩
  · split at h
    · exact absurd h (by simp)
    · obtain ⟨s, hs, h⟩ := bind_eq_ok_iff.1 h
      obtain ⟨-, rfl⟩ := Jws.Selector.ofSecrets_eq_ok hs
      exact Or.inr ⟨_, (Except.ok.inj h).symm, Or.inl ⟨_, _, hs⟩, rfl⟩
  · split at h
    · exact absurd h (by simp)
    · obtain ⟨policy, -, h⟩ := bind_eq_ok_iff.1 h
      obtain ⟨s, hs, h⟩ := bind_eq_ok_iff.1 h
      obtain ⟨-, rfl⟩ := Jws.Selector.ofSource_eq_ok hs
      exact Or.inr ⟨_, (Except.ok.inj h).symm, Or.inr ⟨_, _, hs⟩, rfl⟩

namespace IdTokenValidator

variable {σ : Type} {v : IdTokenValidator σ} {a : Jws.Algorithm}

/-! ## Making validators -/

/-- The validator was made to expect an algorithm, in one of the ways there are to make one. -/
inductive Expects : {σ : Type} → Jws.Algorithm → IdTokenValidator σ → Prop
  | unsecured {σ : Type} (issuer : Issuer) (client : ClientId) :
    Expects .unsecured (unsecured issuer client : IdTokenValidator σ)
  | signed {σ : Type} (issuer : Issuer) (client : ClientId) {s : Jws.Selector σ} (h : s.IsMade) :
    Expects s.algorithm (signed issuer client s)
  | configured {ω : Type} {c : IdTokenConfig} {world : RemoteKeys.World ω}
    {v : IdTokenValidator (RemoteKeys.State × ω)} (h : c.build world = .ok v) :
    Expects c.algorithm v
  | withDecryption {σ : Type} {a : Jws.Algorithm} {v : IdTokenValidator σ} (s : Jwe.Selector)
    (h : Expects a v) : Expects a (v.withDecryption s)
  | withSkew {σ : Type} {a : Jws.Algorithm} {v : IdTokenValidator σ} (skew : Duration)
    (h : Expects a v) : Expects a (v.withSkew skew)
  | withAudiences {σ : Type} {a : Jws.Algorithm} {v : IdTokenValidator σ}
    (audiences : List Audience) (h : Expects a v) : Expects a (v.withAudiences audiences)
  | withMaxAuthAge {σ : Type} {a : Jws.Algorithm} {v : IdTokenValidator σ} (age : Duration)
    (h : Expects a v) : Expects a (v.withMaxAuthAge age)

/-- A configured validator takes its keys as the configuration says. -/
theorem signature_build {ω : Type} {c : IdTokenConfig} {world : RemoteKeys.World ω}
    {v : IdTokenValidator (RemoteKeys.State × ω)} (h : c.build world = .ok v) :
    c.selector world = .ok v.signature := by
  unfold IdTokenConfig.build at h
  obtain ⟨o, ho, h⟩ := bind_eq_ok_iff.1 h
  obtain ⟨additional, -, h⟩ := bind_eq_ok_iff.1 h
  rw [ho]
  cases hm : c.maxAuthAgeSeconds with
  | none =>
    rw [hm] at h
    rw [← Except.ok.inj h]
    rfl
  | some n =>
    rw [hm] at h
    rw [← Except.ok.inj h]
    rfl

/-- **The selector is bound to the algorithm that is expected**, and without one none is. -/
theorem Expects.signature (h : Expects a v) :
    (v.signature = none ∧ a = .unsecured)
      ∨ ∃ s, v.signature = some s ∧ s.IsMade ∧ s.algorithm = a := by
  induction h with
  | unsecured issuer client => exact Or.inl ⟨rfl, rfl⟩
  | signed issuer client h => exact Or.inr ⟨_, rfl, h, rfl⟩
  | configured h => exact IdTokenConfig.selector_eq_ok (signature_build h)
  | withDecryption s h ih => exact ih
  | withSkew skew h ih => exact ih
  | withAudiences audiences h ih => exact ih
  | withMaxAuthAge age h ih => exact ih

/-! ## Claims and signatures -/

theorem claims_ofClaims {c : Claims} {d : VerifiedClaims} (h : VerifiedClaims.ofClaims c = .ok d) :
    d.claims = c := by
  unfold VerifiedClaims.ofClaims at h
  split at h
  · exact absurd h (by simp)
  · exact absurd h (by simp)
  · exact absurd h (by simp)
  · obtain ⟨authTime, -, h⟩ := bind_eq_ok_iff.1 h
    rw [← Except.ok.inj h]

/-- What comes out are the claims that were verified, with the algorithm and the key id. -/
theorem verifyClaims_eq_ok {c : Claims} {keyId : Option String} {nonce : Option Nonce}
    {now : Instant} {t : VerifiedIdToken} (h : v.verifyClaims c a keyId nonce now = .ok t) :
    v.claimsVerifier.verifyAt c nonce now = .ok () ∧ t.claims.claims = c ∧ t.algorithm = a
      ∧ t.keyId = keyId := by
  unfold verifyClaims at h
  obtain ⟨_, hverify, h⟩ := bind_eq_ok_iff.1 h
  obtain ⟨d, hd, h⟩ := bind_eq_ok_iff.1 h
  obtain ⟨_, -, h⟩ := bind_eq_ok_iff.1 h
  obtain rfl := Except.ok.inj h
  exact ⟨hverify, claims_ofClaims hd, rfl, rfl⟩

/-! ## Tokens -/

/-- The signed token that a text is, or that was encrypted in it for one of the validator's keys. -/
inductive IsFrom (v : IdTokenValidator σ) (text : String) (s : SignedToken) : Prop
  | plain (h : s.IsIn text)
  | decrypted {e : EncryptedToken} {selector : Jwe.Selector} {k : Jwe.Key} {content : Bytes}
    {inner : String} (parsed : Token.parse text = .ok (.encrypted e))
    (decryption : v.decryption = some selector)
    (keyManagement : e.keyManagement = selector.keyManagement)
    (encryption : e.encryption = selector.encryption) (key : k ∈ selector.keys)
    (opened : e.content? k = some content) (decoded : Utf8.decode content = some inner)
    (h : s.IsIn inner)

/-- What holds where an unsecured token is accepted. -/
structure AcceptsUnsecured (v : IdTokenValidator σ) (text : String) (t : VerifiedIdToken)
    (u : UnsecuredToken) : Prop where
  parsed : Token.parse text = .ok (.unsecured u)
  isIn : u.IsIn text
  signature : v.signature = none
  algorithm : t.algorithm = .unsecured
  claims : t.claims.claims = u.claims
  keyId : t.keyId = none

/-- What holds where a signed token is accepted: `keys` are what the selector gives for its header,
and `k` is the one that verifies it. -/
structure AcceptsSigned (v : IdTokenValidator σ) (text : String) (now : Instant) (state : σ)
    (t : VerifiedIdToken) (s : SignedToken) (k : Jws.Key) : Prop where
  isFrom : v.IsFrom text s
  selector : ∃ selector keys, v.signature = some selector ∧ s.algorithm = selector.algorithm
    ∧ (selector.candidates s.header now state).1 = .ok keys ∧ k ∈ keys
  verified : s.verify k = .ok true
  signature : ∃ b, Base64.decodeUrl s.signatureText = some b
    ∧ k.verifies s.algorithm (Utf8.encode s.signingInput) b = true
  family : s.algorithm.family = k.material.family
  algorithm : t.algorithm = s.algorithm
  claims : t.claims.claims = s.claims
  keyId : t.keyId = (k.keyId <|> s.header.keyId)

variable {text : String} {nonce : Option Nonce} {now : Instant} {state : σ} {t : VerifiedIdToken}

theorem validateUnsecured_eq_ok {u : UnsecuredToken} (hu : Token.parse text = .ok (.unsecured u))
    (h : v.validateUnsecured u nonce now = .ok t) :
    v.AcceptsUnsecured text t u
      ∧ v.claimsVerifier.verifyAt t.claims.claims nonce now = .ok () := by
  unfold validateUnsecured at h
  split at h
  · exact absurd h (by simp)
  · next hs =>
    obtain ⟨hverify, hclaims, halgorithm, hkeyId⟩ := verifyClaims_eq_ok h
    rw [Bool.not_eq_true, Option.isSome_eq_false_iff, Option.isNone_iff_eq_none] at hs
    exact ⟨⟨hu, isIn_of_parse_unsecured hu, hs, halgorithm, hclaims, hkeyId⟩, hclaims ▸ hverify⟩

/-- A signed token is accepted exactly if a key is found that verifies it and its claims hold. -/
theorem acceptSigned_eq_ok_iff {s : SignedToken} {keys : List Jws.Key} :
    v.acceptSigned s keys nonce now = .ok t
      ↔ ∃ k, s.verifyWithAny keys = .ok (some k)
        ∧ v.verifyClaims s.claims s.algorithm (k.keyId <|> s.header.keyId) nonce now = .ok t := by
  unfold acceptSigned
  constructor
  · intro h
    split at h
    · cases h
    · obtain ⟨found, hfound, h⟩ := bind_eq_ok_iff.1 h
      cases found with
      | none => cases h
      | some k => exact ⟨k, hfound, h⟩
  · rintro ⟨k, hk, h⟩
    cases keys with
    | nil => cases hk
    | cons first rest =>
      rw [if_neg (by simp), hk]
      exact h

/-- A signed token is accepted if one of the keys verifies it and its claims hold. -/
theorem acceptSigned_eq_ok {s : SignedToken} {keys : List Jws.Key}
    (h : v.acceptSigned s keys nonce now = .ok t) :
    ∃ k ∈ keys, s.verify k = .ok true
      ∧ v.verifyClaims s.claims s.algorithm (k.keyId <|> s.header.keyId) nonce now = .ok t := by
  obtain ⟨k, hfound, h⟩ := acceptSigned_eq_ok_iff.1 h
  obtain ⟨hk, hv⟩ := SignedToken.of_verifyWithAny hfound
  exact ⟨k, hk, hv, h⟩

theorem validateSigned_eq_ok {s : SignedToken} (hs : v.IsFrom text s)
    (h : (v.validateSigned s nonce now state).1 = .ok t) :
    ∃ k, v.AcceptsSigned text now state t s k
      ∧ v.claimsVerifier.verifyAt t.claims.claims nonce now = .ok () := by
  unfold validateSigned at h
  split at h
  · exact absurd h (by simp)
  · next selector hselector =>
    split at h
    · exact absurd h (by simp)
    · next halg =>
      obtain ⟨keys, hkeys, h⟩ := bind_eq_ok_iff.1 h
      obtain ⟨k, hk, hv, h⟩ := acceptSigned_eq_ok h
      obtain ⟨hverify, hclaims, halgorithm, hkeyId⟩ := verifyClaims_eq_ok h
      have hsignature := (SignedToken.isSignedWith_iff.1
        (SignedToken.verify_eq_ok_true_iff.1 hv).2).2
      exact ⟨k, ⟨hs, ⟨selector, keys, hselector, Decidable.not_not.1 halg, hkeys, hk⟩, hv,
        hsignature, SignedToken.family_of_verify hv, halgorithm, hclaims, hkeyId⟩,
        hclaims ▸ hverify⟩

/-! ## Encrypted tokens -/

theorem openWithAny_eq_ok {e : EncryptedToken} {keys : List Jwe.Key} {content : Bytes}
    (h : openWithAny e keys = .ok content) : ∃ k ∈ keys, e.content? k = some content := by
  unfold openWithAny at h
  split at h
  · exact absurd h (by simp)
  · split at h
    · next hfound =>
      obtain rfl := Except.ok.inj h
      exact List.exists_of_findSome?_eq_some hfound
    · exact absurd h (by simp)

/-- The content of an encrypted token is the text of a signed one, never of an unsecured one. -/
theorem nestedToken_eq_ok {content : Bytes} {s : SignedToken} (h : nestedToken content = .ok s) :
    ∃ inner, Utf8.decode content = some inner ∧ Token.parse inner = .ok (.signed s) := by
  unfold nestedToken at h
  obtain ⟨inner, hinner, h⟩ := bind_eq_ok_iff.1 h
  obtain ⟨token, htoken, h⟩ := bind_eq_ok_iff.1 h
  cases token with
  | signed s' =>
    obtain rfl : s' = s := Except.ok.inj h
    exact ⟨inner, orRefuse_eq_ok_iff.1 hinner, htoken⟩
  | unsecured u => exact absurd h refuse_ne_ok
  | encrypted e' => exact absurd h refuse_ne_ok

/-- What an encrypted token holds is a signed token, and a configured key opens it. -/
theorem isFrom_of_unwrap {e : EncryptedToken} {s : SignedToken}
    (he : Token.parse text = .ok (.encrypted e)) (h : v.unwrap e = .ok s) : v.IsFrom text s := by
  unfold unwrap at h
  split at h
  · exact absurd h (by simp)
  · next selector hselector =>
    split at h
    · exact absurd h (by simp)
    · next hmanagement =>
      split at h
      · exact absurd h (by simp)
      · next hencryption =>
        obtain ⟨content, hcontent, h⟩ := bind_eq_ok_iff.1 h
        obtain ⟨k, hk, hopened⟩ := openWithAny_eq_ok hcontent
        obtain ⟨inner, hinner, hsigned⟩ := nestedToken_eq_ok h
        exact .decrypted he hselector (Decidable.not_not.1 hmanagement)
          (Decidable.not_not.1 hencryption) (List.mem_filter.1 hk).1 hopened hinner
          (isIn_of_parse_signed hsigned)

/-! ## What is accepted -/

/-- **A token that is accepted is accepted under the expected algorithm only**: unsecured if no
other is expected, and else as one signed token that it is or that was encrypted in it. -/
theorem expected_of_validateAt_eq_ok (hv : Expects a v)
    (h : (v.validateAt text nonce now state).1 = .ok t) :
    t.algorithm = a ∧ v.claimsVerifier.verifyAt t.claims.claims nonce now = .ok ()
      ∧ ((a = .unsecured ∧ ∃ u, v.AcceptsUnsecured text t u)
        ∨ (a ≠ .unsecured ∧ ∃ s k, v.AcceptsSigned text now state t s k)) := by
  -- a signed token is accepted in one way, whether or not it was encrypted
  have hsigned : ∀ {s}, v.IsFrom text s → (v.validateSigned s nonce now state).1 = .ok t →
      t.algorithm = a ∧ v.claimsVerifier.verifyAt t.claims.claims nonce now = .ok ()
        ∧ ((a = .unsecured ∧ ∃ u, v.AcceptsUnsecured text t u)
          ∨ (a ≠ .unsecured ∧ ∃ s k, v.AcceptsSigned text now state t s k)) := by
    intro s hs h
    obtain ⟨k, hk, hclaims⟩ := validateSigned_eq_ok hs h
    obtain ⟨selector, keys, hselector, halgorithm, -⟩ := hk.selector
    rcases hv.signature with ⟨hnone, -⟩ | ⟨s', hs', hmade, ha⟩
    · rw [hnone] at hselector
      cases hselector
    · obtain rfl : s' = selector := Option.some.inj (hs'.symm.trans hselector)
      exact ⟨hk.algorithm.trans (halgorithm.trans ha), hclaims,
        Or.inr ⟨ha ▸ hmade.algorithm_ne, s, k, hk⟩⟩
  unfold validateAt at h
  split at h
  · exact absurd h (by simp)
  · next u hu =>
    obtain ⟨hacc, hclaims⟩ := validateUnsecured_eq_ok hu h
    rcases hv.signature with ⟨-, ha⟩ | ⟨s', hs', -⟩
    · exact ⟨hacc.algorithm.trans ha.symm, hclaims, Or.inl ⟨ha, u, hacc⟩⟩
    · have hnone := hacc.signature
      rw [hs'] at hnone
      cases hnone
  · next s hs => exact hsigned (.plain (isIn_of_parse_signed hs)) h
  · next e he =>
    split at h
    · exact absurd h (by simp)
    · next s hs => exact hsigned (isFrom_of_unwrap he hs) h

/-- A secret that the issuer shares with its client. -/
def sharedSecret : Secret := .lasting "a shared secret of the client and the issuer"

/-- A validator for tokens that are signed with the shared secret. -/
def sharing : IdTokenValidator Unit :=
  signed ⟨"https://idp.example", by decide⟩ ⟨"app", by decide⟩ (.secrets .hs256 [sharedSecret])

theorem expects_sharing : Expects .hs256 sharing :=
  .signed _ _ (s := .secrets .hs256 [sharedSecret]) (Or.inl ⟨.hs256, [sharedSecret], rfl⟩)

/-- A token that is signed with the shared secret is accepted, and what is said holds of it. -/
theorem accepted_sharing :
    let text := "eyJhbGciOiJIUzI1NiJ9.eyJhdWQiOiJhcHAiLCJleHAiOjE3MDAwMDA2MDAsImlzcyI6Imh0dHBzOi8"
      ++ "vaWRwLmV4YW1wbGUiLCJzdWIiOiJhbGljZSJ9.NYZMBQRLuLhkEv1klJONsKmEqS8AvPz1edCekM5o2kw"
    let now : Instant := ⟨1700000000, 0, by decide, by decide, by decide⟩
    ∃ t, (sharing.validateAt text none now ()).1 = .ok t ∧ t.algorithm = .hs256
      ∧ ∃ s k, sharing.AcceptsSigned text now () t s k := by
  intro text now
  have hok : (sharing.validateAt text none now ()).1.toOption.isSome = true := by decide +kernel
  obtain ⟨t, ht⟩ := exists_eq_ok_of_isSome hok
  obtain ⟨ha, -, ⟨hu, -⟩ | ⟨-, hs⟩⟩ := expected_of_validateAt_eq_ok expects_sharing ht
  · cases hu
  · exact ⟨t, ht, ha, hs⟩

end IdTokenValidator

end Credential
