import Credential.Proofs.Client.Verifier
import Credential.Proofs.IdToken.Validator
import Credential.Proofs.Saml.Verifier

/-!
# More keys

Whoever trusts more keys accepts no less (`accepted_of_more_keys`): what is accepted with the keys
of one list is accepted with those of any list that has them all, in whatever order and among
whatever other keys. A key that cannot be used, has expired or does not verify is passed over and
never ends the search.

The keys are tried in order, so the key that is found may be another one. Of an ID token its id is
reported, and nothing else can change.
-/

namespace Credential

/-! ## Selecting keys -/

/-- Which keys of a set serve a token is asked of each key by itself. -/
theorem JwkSet.select_subset {s s' : JwkSet} (h : s.keys ⊆ s'.keys) (a : Jws.Algorithm)
    (wanted : Option String) : s.select a wanted ⊆ s'.select a wanted := by
  intro k hk
  obtain ⟨jwk, hjwk, hk⟩ := List.mem_filterMap.1 hk
  obtain ⟨hmem, hserves⟩ := List.mem_filter.1 hjwk
  exact List.mem_filterMap.2 ⟨jwk, List.mem_filter.2 ⟨h hmem, hserves⟩, hk⟩

namespace Jws.Selector

variable {σ : Type}

theorem usableKeys_subset {held held' : List Secret} (h : held ⊆ held') (now : Instant) :
    usableKeys held now ⊆ usableKeys held' now := by
  intro k hk
  obtain ⟨s, hs, rfl⟩ := List.mem_map.1 hk
  obtain ⟨hmem, hgood⟩ := List.mem_filter.1 hs
  exact List.mem_map_of_mem (List.mem_filter.2 ⟨h hmem, hgood⟩)

/-- Both selectors take their keys from a list, and the second has all keys of the first. -/
inductive Within : Selector σ → Selector σ → Prop
  | secrets (a : Algorithm) {held held' : List Secret} (h : held ⊆ held') :
    Within (.secrets a held) (.secrets a held')
  | keySet (a : Algorithm) {set set' : JwkSet} (h : set.keys ⊆ set'.keys) :
    Within (.keySet a (.fixed set)) (.keySet a (.fixed set'))

theorem Within.algorithm {s s' : Selector σ} (h : s.Within s') : s'.algorithm = s.algorithm := by
  cases h with
  | secrets a h => rfl
  | keySet a h => rfl

/-- All keys that the first selector gives for a token the second gives too. -/
theorem Within.candidates {s s' : Selector σ} (h : s.Within s') {header : JoseHeader}
    {now : Instant} {state : σ} {keys : List Key}
    (hkeys : (s.candidates header now state).1 = .ok keys) :
    ∃ keys', (s'.candidates header now state).1 = .ok keys' ∧ keys ⊆ keys' := by
  cases h with
  | secrets a h =>
    obtain rfl := Except.ok.inj hkeys
    exact ⟨_, rfl, usableKeys_subset h now⟩
  | keySet a h =>
    obtain rfl := Except.ok.inj hkeys
    exact ⟨_, rfl, JwkSet.select_subset h a header.keyId⟩

end Jws.Selector

/-! ## Signatures -/

/-- Where one of the keys verifies a token, one of more keys does. -/
theorem SignedToken.exists_verifyWithAny_of_subset {s : SignedToken} {keys keys' : List Jws.Key}
    (hsub : keys ⊆ keys') {k : Jws.Key} (h : s.verifyWithAny keys = .ok (some k)) :
    ∃ k', s.verifyWithAny keys' = .ok (some k') := by
  obtain ⟨hk, hverify⟩ := of_verifyWithAny h
  exact exists_verifyWithAny_iff.2 ⟨k, hsub hk, hverify⟩

/-- A signature that is accepted with some keys is accepted with more. -/
theorem XmlSignature.verify_of_subset {document : Xml.Element} {signed : Xml.Located}
    {keys keys' : List Key} (hsub : keys ⊆ keys') {m : Method}
    (h : verify document signed keys = .ok m) : verify document signed keys' = .ok m := by
  obtain ⟨s, hs, hm⟩ := verify_eq_ok_iff.1 h
  obtain ⟨k, hk, hverify⟩ := hs.key
  exact verify_eq_ok_iff.2 ⟨s, { hs with key := ⟨k, hsub hk, hverify⟩ }, hm⟩

/-! ## ID tokens -/

namespace IdTokenValidator

variable {σ : Type} {v : IdTokenValidator σ} {nonce : Option Nonce} {now : Instant}
  {t : VerifiedIdToken}

/-- The key id has no part in verifying claims. -/
theorem verifyClaims_withKeyId {c : Claims} {a : Jws.Algorithm} {keyId : Option String}
    (h : v.verifyClaims c a keyId nonce now = .ok t) (keyId' : Option String) :
    v.verifyClaims c a keyId' nonce now = .ok { t with keyId := keyId' } := by
  unfold verifyClaims at h ⊢
  obtain ⟨_, hverify, h⟩ := bind_eq_ok_iff.1 h
  obtain ⟨d, hd, h⟩ := bind_eq_ok_iff.1 h
  obtain ⟨_, hage, h⟩ := bind_eq_ok_iff.1 h
  obtain rfl := Except.ok.inj h
  rw [hverify, hd]
  show (v.checkAuthAge d now >>= fun _ => _) = _
  rw [hage]
  rfl

/-- A signed token is accepted with more keys, perhaps under the id of another key. -/
theorem acceptSigned_of_subset {s : SignedToken} {keys keys' : List Jws.Key} (hsub : keys ⊆ keys')
    (h : v.acceptSigned s keys nonce now = .ok t) :
    ∃ keyId, v.acceptSigned s keys' nonce now = .ok { t with keyId := keyId } := by
  obtain ⟨k, hk, hclaims⟩ := acceptSigned_eq_ok_iff.1 h
  obtain ⟨k', hk'⟩ := SignedToken.exists_verifyWithAny_of_subset hsub hk
  exact ⟨k'.keyId <|> s.header.keyId,
    acceptSigned_eq_ok_iff.2 ⟨k', hk', verifyClaims_withKeyId hclaims _⟩⟩

/-- The validator with other keys. -/
def withSelector (v : IdTokenValidator σ) (s : Jws.Selector σ) : IdTokenValidator σ :=
  { v with signature := some s }

variable {selector selector' : Jws.Selector σ} (hwithin : selector.Within selector') {state : σ}
include hwithin

theorem validateSigned_of_within {s : SignedToken}
    (h : ((v.withSelector selector).validateSigned s nonce now state).1 = .ok t) :
    ∃ keyId, ((v.withSelector selector').validateSigned s nonce now state).1
      = .ok { t with keyId := keyId } := by
  unfold validateSigned at h ⊢
  dsimp only [withSelector] at h ⊢
  rw [hwithin.algorithm]
  split at h
  · cases h
  · next halg =>
    rw [if_neg halg]
    obtain ⟨keys, hkeys, h⟩ := bind_eq_ok_iff.1 h
    obtain ⟨keys', hkeys', hsub⟩ := hwithin.candidates hkeys
    obtain ⟨keyId, h⟩ := acceptSigned_of_subset hsub h
    exact ⟨keyId, bind_eq_ok_iff.2 ⟨keys', hkeys', h⟩⟩

/-- What is decrypted does not depend on the keys for signatures, and an unsecured token is accepted
with none. -/
theorem validateAt_of_within {token : String}
    (h : ((v.withSelector selector).validateAt token nonce now state).1 = .ok t) :
    ∃ keyId, ((v.withSelector selector').validateAt token nonce now state).1
      = .ok { t with keyId := keyId } := by
  have hunwrap : ∀ e, (v.withSelector selector').unwrap e = (v.withSelector selector).unwrap e :=
    fun e => rfl
  unfold validateAt at h ⊢
  cases htoken : Token.parse token with
  | error e =>
    rw [htoken] at h
    cases h
  | ok parsed =>
    rw [htoken] at h
    cases parsed with
    | unsecured u => cases h
    | signed s => exact validateSigned_of_within hwithin h
    | encrypted e =>
      dsimp only at h ⊢
      rw [hunwrap]
      cases hinner : (v.withSelector selector).unwrap e with
      | error e' =>
        rw [hinner] at h
        cases h
      | ok s =>
        rw [hinner] at h
        exact validateSigned_of_within hwithin h

end IdTokenValidator

/-! ## Assertions -/

/-- An assertion that is accepted with some keys is accepted with more. -/
theorem Saml.Verifier.verifyAt_of_subset {v : Verifier} {keys : List XmlSignature.Key}
    (hsub : v.keys ⊆ keys) {xml : String} {now : Instant} {a : Assertion}
    (h : v.verifyAt xml now = .ok a) :
    ({ v with keys := keys } : Verifier).verifyAt xml now = .ok a := by
  unfold verifyAt at h ⊢
  obtain ⟨d, hd, h⟩ := bind_eq_ok_iff.1 h
  obtain ⟨l, hl, h⟩ := bind_eq_ok_iff.1 h
  obtain ⟨m, hm, h⟩ := bind_eq_ok_iff.1 h
  exact bind_eq_ok_iff.2 ⟨d, hd, bind_eq_ok_iff.2 ⟨l, hl, bind_eq_ok_iff.2
    ⟨m, XmlSignature.verify_of_subset hsub hm, h⟩⟩⟩

/-! ## Clients -/

namespace Client

/-- The second registration has all credentials of the first, and the same method. -/
structure Registration.Within (entry entry' : Registration) : Prop where
  method : entry'.method = entry.method
  secrets : entry.secrets ⊆ entry'.secrets
  keySet : ∀ set, entry.keySet = some set →
    ∃ set', entry'.keySet = some set' ∧ set.keys ⊆ set'.keys

/-- The second source gives out all credentials that the first does, for clients that use the same
methods. -/
structure CredentialSource.Within (s s' : CredentialSource) : Prop where
  method : ∀ id, s'.method? id = s.method? id
  secrets : ∀ id m, s.secrets id m ⊆ s'.secrets id m
  keySet : ∀ id set, s.keySet? id = some set →
    ∃ set', s'.keySet? id = some set' ∧ set.keys ⊆ set'.keys

/-- Registering a client again with more credentials takes nothing from any client. -/
theorem Registry.source_within {r : Registry} {id : ClientId} {entry entry' : Registration}
    (hentry : r.get? id = some entry) (h : entry.Within entry') :
    r.source.Within (r.register id entry').source := by
  have hother : ∀ {other}, id ≠ other → (r.register id entry').get? other = r.get? other := by
    intro other hne
    rw [get?_register, if_neg hne]
  have hself : (r.register id entry').get? id = some entry' := by
    rw [get?_register, if_pos rfl]
  refine ⟨fun other => ?_, fun other m s hs => ?_, fun other set hset => ?_⟩
  · by_cases hid : id = other
    · subst hid
      simp only [source, hself, hentry, Option.map_some, h.method]
    · simp only [source, hother hid]
  · obtain ⟨hm, e, he, hs⟩ := mem_source_secrets_iff.1 hs
    refine mem_source_secrets_iff.2 ⟨hm, ?_⟩
    by_cases hid : id = other
    · subst hid
      obtain rfl := Option.some.inj (hentry.symm.trans he)
      exact ⟨entry', hself, h.secrets hs⟩
    · exact ⟨e, (hother hid).trans he, hs⟩
  · obtain ⟨e, he, hset⟩ := source_keySet?_eq_some_iff.1 hset
    by_cases hid : id = other
    · subst hid
      obtain rfl := Option.some.inj (hentry.symm.trans he)
      obtain ⟨set', hset', hsub⟩ := h.keySet set hset
      exact ⟨set', source_keySet?_eq_some_iff.2 ⟨entry', hself, hset'⟩, hsub⟩
    · exact ⟨set, source_keySet?_eq_some_iff.2 ⟨e, (hother hid).trans he, hset⟩, fun _ hk => hk⟩

namespace Verifier

/-- The verifier with other credentials. -/
def withSource (v : Verifier) (s : CredentialSource) : Verifier := { v with source := s }

variable {v : Verifier} {s s' : CredentialSource} (hwithin : s.Within s') {now : Instant}
include hwithin

theorem usableSecrets_subset (id : ClientId) (m : Method) :
    (v.withSource s).usableSecrets id m now ⊆ (v.withSource s').usableSecrets id m now := by
  intro secret h
  obtain ⟨hmem, hgood⟩ := List.mem_filter.1 h
  exact List.mem_filter.2 ⟨hwithin.secrets id m hmem, hgood⟩

theorem publicKeys_subset (a : Assertion) :
    (v.withSource s).publicKeys a ⊆ (v.withSource s').publicKeys a := by
  intro k hk
  unfold publicKeys at hk ⊢
  dsimp only [withSource] at hk ⊢
  cases hset : s.keySet? a.clientId with
  | none =>
    rw [hset] at hk
    cases hk
  | some set =>
    rw [hset] at hk
    obtain ⟨set', hset', hsub⟩ := hwithin.keySet a.clientId set hset
    rw [hset']
    exact JwkSet.select_subset hsub _ _ hk

theorem checkSecret_of_within {id : ClientId} {presented : Secret} {m : Method} {u : Unit}
    (h : (v.withSource s).checkSecret id presented m now = .ok u) :
    (v.withSource s').checkSecret id presented m now = .ok u := by
  obtain ⟨secret, hmem, hsame⟩ := checkSecret_eq_ok_iff.1 h
  exact checkSecret_eq_ok_iff.2 ⟨secret, usableSecrets_subset hwithin id m hmem, hsame⟩

omit hwithin in
theorem checkAssertion_of_subset {a : Assertion} {keys keys' : List Jws.Key} (hsub : keys ⊆ keys')
    {t : VerifiedAssertion} (h : (v.withSource s).checkAssertion a keys now = .ok t) :
    (v.withSource s').checkAssertion a keys' now = .ok t := by
  obtain ⟨⟨k, hk, hverify⟩, hgood⟩ := checkAssertion_eq_ok_iff.1 h
  exact checkAssertion_eq_ok_iff.2 ⟨⟨k, hsub hk, hverify⟩, hgood⟩

/-- A client that is authenticated stays so when there are more credentials. -/
theorem verifyAt_of_within {p : Presented} {c : VerifiedClient}
    (h : (v.withSource s).verifyAt p now = .ok c) : (v.withSource s').verifyAt p now = .ok c := by
  have hsource : s'.method? = s.method? := funext hwithin.method
  have hmethod : (v.withSource s').checkMethod p = (v.withSource s).checkMethod p := by
    unfold checkMethod
    dsimp only [withSource]
    rw [hsource]
  unfold verifyAt at h ⊢
  rw [hmethod]
  obtain ⟨_, hpassed, h⟩ := bind_eq_ok_iff.1 h
  refine bind_eq_ok_iff.2 ⟨(), hpassed, ?_⟩
  cases p with
  | secretBasic id presented =>
    obtain ⟨_, hsecret, hc⟩ := bind_eq_ok_iff.1 h
    exact bind_eq_ok_iff.2 ⟨(), checkSecret_of_within hwithin hsecret, hc⟩
  | secretPost id presented =>
    obtain ⟨_, hsecret, hc⟩ := bind_eq_ok_iff.1 h
    exact bind_eq_ok_iff.2 ⟨(), checkSecret_of_within hwithin hsecret, hc⟩
  | secretJwt a =>
    obtain ⟨t, ht, hc⟩ := bind_eq_ok_iff.1 h
    have hsub : ((v.withSource s).usableSecrets a.clientId .secretJwt now).map Jws.Key.ofSecret
        ⊆ ((v.withSource s').usableSecrets a.clientId .secretJwt now).map Jws.Key.ofSecret :=
      List.map_subset _ (usableSecrets_subset hwithin a.clientId .secretJwt)
    exact bind_eq_ok_iff.2 ⟨t, checkAssertion_of_subset hsub ht, hc⟩
  | privateKeyJwt a =>
    obtain ⟨t, ht, hc⟩ := bind_eq_ok_iff.1 h
    exact bind_eq_ok_iff.2 ⟨t, checkAssertion_of_subset (publicKeys_subset hwithin a) ht, hc⟩
  | none o =>
    obtain ⟨id, hid, hc⟩ := bind_eq_ok_iff.1 h
    obtain ⟨ho, hnone⟩ := checkUnauthenticated_eq_ok_iff.1 hid
    have hnone' : (v.withSource s').source.method? id = some .none :=
      (hwithin.method id).trans hnone
    exact bind_eq_ok_iff.2 ⟨id, checkUnauthenticated_eq_ok_iff.2 ⟨ho, hnone'⟩, hc⟩

end Verifier

end Client

/-! ## What is accepted -/

/-- **What is accepted with some keys is accepted with more**: the secrets or the key set that ID
tokens are verified with, the keys for assertions, and what is registered for a client. How the keys
are ordered and what stands between them does not matter. -/
theorem accepted_of_more_keys (now : Instant) :
    (∀ (σ : Type) (v : IdTokenValidator σ) (s s' : Jws.Selector σ), s.Within s' →
        ∀ token nonce state t, ((v.withSelector s).validateAt token nonce now state).1 = .ok t →
          ∃ keyId, ((v.withSelector s').validateAt token nonce now state).1
            = .ok { t with keyId := keyId })
      ∧ (∀ (v : Saml.Verifier) (keys : List XmlSignature.Key), v.keys ⊆ keys →
        ∀ xml a, v.verifyAt xml now = .ok a →
          ({ v with keys := keys } : Saml.Verifier).verifyAt xml now = .ok a)
      ∧ ∀ (v : Client.Verifier) (r : Client.Registry) id entry entry', r.get? id = some entry →
        entry.Within entry' → ∀ p c, (v.withSource r.source).verifyAt p now = .ok c →
          (v.withSource (r.register id entry').source).verifyAt p now = .ok c :=
  ⟨fun _ _ _ _ hwithin _ _ _ _ h => IdTokenValidator.validateAt_of_within hwithin h,
    fun _ _ hsub _ _ h => Saml.Verifier.verifyAt_of_subset hsub h,
    fun _ _ _ _ _ hentry hwithin _ _ h =>
      Client.Verifier.verifyAt_of_within (Client.Registry.source_within hentry hwithin) h⟩

/-- The key of an issuer. -/
def issuerKey : Jwk :=
  ⟨.octets "YSBzaGFyZWQgc2VjcmV0IG9mIHRoZSBjbGllbnQgYW5kIHRoZSBpc3N1ZXI", none, none, some "k"⟩

/-- Keys that say to be the key of the issuer: one cannot be decoded, one is for another algorithm,
one is not for signing, and one is of another type. The last one is tried, but does not verify. -/
def namesakes : List Jwk :=
  [⟨.octets "!", none, none, some "k"⟩, ⟨.octets "AA", none, some "HS512", some "k"⟩,
    ⟨.octets "AA", some "enc", none, some "k"⟩, ⟨.rsa "AA" "AQAB", none, none, some "k"⟩,
    ⟨.octets "AA", none, none, some "k"⟩]

/-- A token that is accepted with the key of the issuer is accepted with its namesakes before it. -/
theorem accepted_among_namesakes :
    let token := "eyJhbGciOiJIUzI1NiIsImtpZCI6ImsifQ.eyJhdWQiOiJhcHAiLCJleHAiOjE3MDAwMDA2MDAsImlzc"
      ++ "yI6Imh0dHBzOi8vaWRwLmV4YW1wbGUiLCJzdWIiOiJhbGljZSJ9.g06gO-HqLYJFg3_j3ZbSd15bRXhy4fTlVd"
      ++ "JmwPHTIO8"
    let now : Instant := ⟨1700000000, 0, by decide, by decide, by decide⟩
    let v : IdTokenValidator Unit :=
      .unsecured ⟨"https://idp.example", by decide⟩ ⟨"app", by decide⟩
    ∃ t keyId,
      ((v.withSelector (.keySet .hs256 (.fixed ⟨[issuerKey]⟩))).validateAt token none now ()).1
        = .ok t
      ∧ ((v.withSelector (.keySet .hs256 (.fixed ⟨namesakes ++ [issuerKey]⟩))).validateAt token none
        now ()).1 = .ok { t with keyId := keyId } := by
  intro token now v
  have hok : ((v.withSelector (.keySet .hs256 (.fixed ⟨[issuerKey]⟩))).validateAt token none now
      ()).1.toOption.isSome = true := by
    decide +kernel
  obtain ⟨t, ht⟩ := exists_eq_ok_of_isSome hok
  have hwithin : (Jws.Selector.keySet .hs256 (.fixed ⟨[issuerKey]⟩) : Jws.Selector Unit).Within
      (.keySet .hs256 (.fixed ⟨namesakes ++ [issuerKey]⟩)) :=
    .keySet _ (List.subset_append_right _ _)
  obtain ⟨keyId, ht'⟩ := (accepted_of_more_keys now).1 Unit v _ _ hwithin token none () t ht
  exact ⟨t, keyId, ht, ht'⟩

end Credential
