import Credential.Proofs.Claims.Verifier
import Credential.Proofs.Client.Registry
import Credential.Proofs.Client.Request
import Credential.Proofs.Jws.Signature

/-!
# Which clients are authenticated

A verifier over a registry decides by what was registered for the client last, and by nothing else:
a client is authenticated exactly if it was registered for the method that it uses and shows one of
the credentials that were registered with it (`verifyAt_eq_ok_iff_registered`). A credential of one
method is worth nothing under another, and a client that is not registered is never authenticated.
-/

namespace Credential.Client

/-! ## Credentials -/

/-- The assertion is made by the client about itself, for an accepted audience, and holds at the
instant; `e` is when it expires. -/
structure Assertion.IsGood (a : Assertion) (audience : AudienceSet) (skew : Duration)
    (now e : Instant) : Prop where
  issuer : a.token.claims.issuer.map (·.value) = some a.clientId.value
  subject : a.token.claims.subject.map (·.value) = some a.clientId.value
  audience : ∃ x ∈ a.token.claims.audience, x ∈ audience.members
  expiration : a.token.claims.expiration = some e
  unexpired : Window.isExpired e now (Window.clampSkew skew) = false
  notBefore : ∀ n, a.token.claims.notBefore = some n →
    Window.isNotYetValid n now (Window.clampSkew skew) = false
  issuedAt : ∀ i, a.token.claims.issuedAt = some i →
    Window.isIssuedInFuture i now (Window.clampSkew skew) = false

/-- The secret was registered and is not expired. -/
def Registration.HasSecret (entry : Registration) (now : Instant) (s : Secret) : Prop :=
  s ∈ entry.secrets ∧ s.isExpiredAt now = false

/-- The key was registered and serves the token. -/
def Registration.HasKey (entry : Registration) (t : SignedToken) (k : Jws.Key) : Prop :=
  ∃ set jwk, entry.keySet = some set ∧ jwk ∈ set.keys
    ∧ jwk.serves t.algorithm t.header.keyId = true ∧ Jws.Key.ofJwk? jwk = some k

/-- What is presented shows one of the registered credentials; under a method that uses assertions
it does so with an assertion. -/
inductive Shows (entry : Registration) (audience : AudienceSet) (skew : Duration) (now : Instant) :
    Presented → Option VerifiedAssertion → Prop
  | secretBasic {id : ClientId} {presented s : Secret} (registered : entry.HasSecret now s)
    (same : s.octets = presented.octets) :
    Shows entry audience skew now (.secretBasic id presented) none
  | secretPost {id : ClientId} {presented s : Secret} (registered : entry.HasSecret now s)
    (same : s.octets = presented.octets) :
    Shows entry audience skew now (.secretPost id presented) none
  | secretJwt {a : Assertion} {s : Secret} {e : Instant}
    (family : a.token.algorithm.family = .hmac) (registered : entry.HasSecret now s)
    (verified : a.token.verify (.ofSecret s) = .ok true) (good : a.IsGood audience skew now e) :
    Shows entry audience skew now (.secretJwt a) (some ⟨a.clientId, e, a.token.claims⟩)
  | privateKeyJwt {a : Assertion} {k : Jws.Key} {e : Instant}
    (family : a.token.algorithm.family = .rsa ∨ a.token.algorithm.family = .ec)
    (registered : entry.HasKey a.token k) (verified : a.token.verify k = .ok true)
    (good : a.IsGood audience skew now e) :
    Shows entry audience skew now (.privateKeyJwt a) (some ⟨a.clientId, e, a.token.claims⟩)
  | none {id : ClientId} : Shows entry audience skew now (.none (some id)) none

namespace Verifier

variable {v : Verifier} {id : ClientId} {p : Presented} {now : Instant} {u : Unit}

/-! ## The checks -/

/-- A presented secret is accepted exactly if it is one of the usable ones. -/
theorem checkSecret_eq_ok_iff {presented : Secret} {m : Method} :
    v.checkSecret id presented m now = .ok u
      ↔ ∃ s ∈ v.usableSecrets id m now, s.octets = presented.octets := by
  have hany : ((v.usableSecrets id m now).any fun s => s.agrees presented) = true
      ↔ ∃ s ∈ v.usableSecrets id m now, s.octets = presented.octets := by
    rw [List.any_eq_true]
    simp only [Secret.agrees_iff]
  rw [← hany, checkSecret]
  split
  · next hempty =>
    rw [List.isEmpty_iff.1 hempty]
    exact ⟨fun h => (nomatch h), fun h => (nomatch h)⟩
  · split
    · next h => exact ⟨fun _ => h, fun _ => rfl⟩
    · next h => exact ⟨fun h' => (nomatch h'), fun h' => absurd h' h⟩

/-- What the claims verifier asks for and what is asked of the subject make a good assertion. -/
theorem isGood_iff {a : Assertion} {e : Instant} :
    a.IsGood v.audience v.skew now e
      ↔ (v.claimsVerifier a.clientId).Admits a.token.claims none now
        ∧ a.token.claims.subject.map (·.value) = some a.clientId.value
        ∧ a.token.claims.expiration = some e := by
  constructor
  · intro h
    refine ⟨⟨?_, ?_, h.audience, fun client hc => (nomatch hc), ⟨e, h.expiration, h.unexpired⟩,
      h.notBefore, h.issuedAt, fun n hn => (nomatch hn)⟩, h.subject, h.expiration⟩
    · obtain ⟨issuer, hissuer, hvalue⟩ := Option.map_eq_some_iff.1 h.issuer
      rw [hissuer]
      exact congrArg some (Identifier.ext hvalue)
    · obtain ⟨subject, hsubject, -⟩ := Option.map_eq_some_iff.1 h.subject
      rw [hsubject]
      rfl
  · rintro ⟨h, hsubject, he⟩
    obtain ⟨e', he', hunexpired⟩ := h.expiration
    obtain rfl : e = e' := Option.some.inj (he.symm.trans he')
    refine ⟨?_, hsubject, h.audience, he, hunexpired, h.notBefore, h.issuedAt⟩
    rw [h.issuer]
    rfl

/-- Claims are accepted exactly if the claims verifier admits them and they are about the client. -/
theorem checkClaims_eq_ok_iff_admits {c : Claims} {t : VerifiedAssertion} :
    v.checkClaims id c now = .ok t
      ↔ (v.claimsVerifier id).Admits c none now ∧ c.subject.map (·.value) = some id.value
        ∧ ∃ e, c.expiration = some e ∧ t = ⟨id, e, c⟩ := by
  unfold checkClaims
  rw [bind_eq_ok_iff]
  constructor
  · rintro ⟨_, hadmits, h⟩
    split at h
    · cases h
    · next hsubject =>
      split at h
      · cases h
      · next e he =>
        exact ⟨ClaimsVerifier.verifyAt_eq_ok_iff.1 hadmits, Decidable.not_not.1 hsubject, e, he,
          (Except.ok.inj h).symm⟩
  · rintro ⟨hadmits, hsubject, e, he, rfl⟩
    refine ⟨(), ClaimsVerifier.verifyAt_eq_ok_iff.2 hadmits, ?_⟩
    rw [if_neg (not_not_intro hsubject), he]
    rfl

/-- The claims of an assertion are accepted exactly if it is good. -/
theorem checkClaims_eq_ok_iff {a : Assertion} {t : VerifiedAssertion} :
    v.checkClaims a.clientId a.token.claims now = .ok t
      ↔ ∃ e, a.IsGood v.audience v.skew now e ∧ t = ⟨a.clientId, e, a.token.claims⟩ := by
  rw [checkClaims_eq_ok_iff_admits]
  simp only [isGood_iff, ← exists_and_left, and_assoc]

/-- An assertion that one of the keys verifies is decided by its claims. -/
theorem checkAssertion_of_verified {a : Assertion} {keys : List Jws.Key}
    (h : ∃ k ∈ keys, a.token.verify k = .ok true) :
    v.checkAssertion a keys now = v.checkClaims a.clientId a.token.claims now := by
  obtain ⟨k, hk⟩ := SignedToken.exists_verifyWithAny_iff.2 h
  have hkeys : keys.isEmpty = false := by
    obtain ⟨k', hk', -⟩ := h
    exact List.isEmpty_eq_false_iff.2 (List.ne_nil_of_mem hk')
  rw [checkAssertion, hkeys, hk]
  rfl

/-- An assertion is accepted exactly if one of the keys verifies it and it is good. -/
theorem checkAssertion_eq_ok_iff {a : Assertion} {keys : List Jws.Key} {t : VerifiedAssertion} :
    v.checkAssertion a keys now = .ok t
      ↔ (∃ k ∈ keys, a.token.verify k = .ok true)
        ∧ ∃ e, a.IsGood v.audience v.skew now e ∧ t = ⟨a.clientId, e, a.token.claims⟩ := by
  rw [← checkClaims_eq_ok_iff]
  constructor
  · intro h
    have hkey : ∃ k ∈ keys, a.token.verify k = .ok true := by
      rw [← SignedToken.exists_verifyWithAny_iff]
      unfold checkAssertion at h
      split at h
      · cases h
      · obtain ⟨found, hfound, h⟩ := bind_eq_ok_iff.1 h
        cases found with
        | none => cases h
        | some k => exact ⟨k, hfound⟩
    rw [checkAssertion_of_verified hkey] at h
    exact ⟨hkey, h⟩
  · rintro ⟨hkey, h⟩
    rw [checkAssertion_of_verified hkey]
    exact h

/-- A registered client that presents something must use its own method. -/
theorem checkMethod_eq_ok_iff {r : Registry} {entry : Registration} (hv : v.source = r.source)
    (hentry : r.get? id = some entry) (hid : p.clientId? = some id) (hm : p.method ≠ .none) :
    v.checkMethod p = .ok u ↔ entry.method = p.method := by
  have hregistered : v.source.method? id = some entry.method := by
    rw [hv]
    exact Registry.source_method?_eq_some_iff.2 ⟨entry, hentry, rfl⟩
  unfold checkMethod
  rw [hid]
  split
  · next h => exact absurd h hm
  · next h _ => cases h
  · next id' hid' _ =>
    obtain rfl := Option.some.inj hid'
    rw [hregistered]
    dsimp only
    split
    · next h => exact ⟨fun _ => h, fun _ => rfl⟩
    · next h => exact ⟨fun h' => (nomatch h'), fun h' => absurd h' h⟩

/-- Who presents nothing must be a client that is registered so. -/
theorem checkUnauthenticated_eq_ok_iff {o : Option ClientId} :
    v.checkUnauthenticated o = .ok id ↔ o = some id ∧ v.source.method? id = some .none := by
  unfold checkUnauthenticated
  cases o with
  | none => exact ⟨fun h => (nomatch h), fun h => (nomatch h.1)⟩
  | some other =>
    dsimp only
    split
    · next hm =>
      constructor
      · intro h
        obtain rfl := Except.ok.inj h
        exact ⟨rfl, hm⟩
      · rintro ⟨h, -⟩
        rw [Option.some.inj h]
    · next hm =>
      constructor
      · intro h
        cases h
      · rintro ⟨h, hid⟩
        obtain rfl := Option.some.inj h
        exact absurd hid hm

/-! ## Credentials of a registry -/

section Registry

variable {r : Registry} (hv : v.source = r.source)

include hv

/-- The secrets that a client may use are those that are registered for it. -/
theorem mem_usableSecrets_iff {m : Method} {s : Secret} :
    s ∈ v.usableSecrets id m now
      ↔ m.usesSecret = true ∧ ∃ entry, r.get? id = some entry ∧ entry.HasSecret now s := by
  rw [usableSecrets, List.mem_filter, Bool.not_eq_true', hv, Registry.mem_source_secrets_iff]
  constructor
  · rintro ⟨⟨hm, entry, hentry, hs⟩, hnow⟩
    exact ⟨hm, entry, hentry, hs, hnow⟩
  · rintro ⟨hm, entry, hentry, hs, hnow⟩
    exact ⟨⟨hm, entry, hentry, hs⟩, hnow⟩

/-- The keys for an assertion are those that are registered for its client and serve it. -/
theorem mem_publicKeys_iff {a : Assertion} {k : Jws.Key} :
    k ∈ v.publicKeys a ↔ ∃ entry, r.get? a.clientId = some entry ∧ entry.HasKey a.token k := by
  unfold publicKeys
  constructor
  · intro h
    split at h
    · next set hset =>
      rw [hv] at hset
      obtain ⟨entry, hentry, hset⟩ := Registry.source_keySet?_eq_some_iff.1 hset
      obtain ⟨jwk, hjwk, hk⟩ := List.mem_filterMap.1 h
      obtain ⟨hmem, hserves⟩ := List.mem_filter.1 hjwk
      exact ⟨entry, hentry, set, jwk, hset, hmem, hserves, hk⟩
    · cases h
  · rintro ⟨entry, hentry, set, jwk, hset, hmem, hserves, hk⟩
    have hsource : v.source.keySet? a.clientId = some set := by
      rw [hv]
      exact Registry.source_keySet?_eq_some_iff.2 ⟨entry, hentry, hset⟩
    rw [hsource]
    exact List.mem_filterMap.2 ⟨jwk, List.mem_filter.2 ⟨hmem, hserves⟩, hk⟩

/-- A secret is accepted exactly if it is registered for the client under the method that the client
uses. -/
theorem check_secret_iff {presented : Secret} (hid : p.clientId? = some id)
    (hm : p.method.usesSecret = true) :
    (v.checkMethod p = .ok () ∧ v.checkSecret id presented p.method now = .ok ())
      ↔ ∃ entry, r.get? id = some entry ∧ entry.method = p.method
        ∧ ∃ s, entry.HasSecret now s ∧ s.octets = presented.octets := by
  have hne : p.method ≠ .none := by
    intro h
    rw [h] at hm
    cases hm
  simp only [checkSecret_eq_ok_iff, mem_usableSecrets_iff hv]
  constructor
  · rintro ⟨hmethod, s, ⟨-, entry, hentry, hs⟩, hsame⟩
    exact ⟨entry, hentry, (checkMethod_eq_ok_iff hv hentry hid hne).1 hmethod, s, hs, hsame⟩
  · rintro ⟨entry, hentry, hmethod, s, hs, hsame⟩
    exact ⟨(checkMethod_eq_ok_iff hv hentry hid hne).2 hmethod, s, ⟨hm, entry, hentry, hs⟩, hsame⟩

/-- A client that is authenticated uses the method that is registered for it and shows one of its
credentials. -/
theorem shows_of_verifyAt {c : VerifiedClient} (hp : p.IsTyped) (h : v.verifyAt p now = .ok c) :
    ∃ id entry assertion, p.clientId? = some id ∧ r.get? id = some entry
      ∧ entry.method = p.method ∧ Shows entry v.audience v.skew now p assertion
      ∧ c = ⟨id, p.method, assertion⟩ := by
  -- the method is checked only for clients that are registered, but without a registration there
  -- is no credential either
  obtain ⟨_, hmethod, h⟩ := bind_eq_ok_iff.1 h
  cases p with
  | secretBasic id presented =>
    obtain ⟨_, hsecret, hc⟩ := bind_eq_ok_iff.1 h
    obtain ⟨entry, hentry, hm, s, hs, hsame⟩ :=
      (check_secret_iff hv rfl rfl).1 ⟨hmethod, hsecret⟩
    exact ⟨id, entry, none, rfl, hentry, hm, .secretBasic hs hsame, (Except.ok.inj hc).symm⟩
  | secretPost id presented =>
    obtain ⟨_, hsecret, hc⟩ := bind_eq_ok_iff.1 h
    obtain ⟨entry, hentry, hm, s, hs, hsame⟩ :=
      (check_secret_iff hv rfl rfl).1 ⟨hmethod, hsecret⟩
    exact ⟨id, entry, none, rfl, hentry, hm, .secretPost hs hsame, (Except.ok.inj hc).symm⟩
  | secretJwt a =>
    obtain ⟨t, ht, hc⟩ := bind_eq_ok_iff.1 h
    obtain ⟨⟨k, hk, hverify⟩, e, hgood, rfl⟩ := checkAssertion_eq_ok_iff.1 ht
    obtain ⟨s, hs, rfl⟩ := List.mem_map.1 hk
    obtain ⟨-, entry, hentry, hs⟩ := (mem_usableSecrets_iff hv).1 hs
    have hm : entry.method = .secretJwt :=
      (checkMethod_eq_ok_iff (p := .secretJwt a) hv hentry rfl (fun h => (nomatch h))).1 hmethod
    exact ⟨a.clientId, entry, _, rfl, hentry, hm, .secretJwt hp.1 hs hverify hgood,
      (Except.ok.inj hc).symm⟩
  | privateKeyJwt a =>
    obtain ⟨t, ht, hc⟩ := bind_eq_ok_iff.1 h
    obtain ⟨⟨k, hk, hverify⟩, e, hgood, rfl⟩ := checkAssertion_eq_ok_iff.1 ht
    obtain ⟨entry, hentry, hkey⟩ := (mem_publicKeys_iff hv).1 hk
    have hm : entry.method = .privateKeyJwt :=
      (checkMethod_eq_ok_iff (p := .privateKeyJwt a) hv hentry rfl (fun h => (nomatch h))).1 hmethod
    exact ⟨a.clientId, entry, _, rfl, hentry, hm, .privateKeyJwt hp.1 hkey hverify hgood,
      (Except.ok.inj hc).symm⟩
  | none o =>
    obtain ⟨id, hid, hc⟩ := bind_eq_ok_iff.1 h
    obtain ⟨rfl, hnone⟩ := checkUnauthenticated_eq_ok_iff.1 hid
    rw [hv] at hnone
    obtain ⟨entry, hentry, hm⟩ := Registry.source_method?_eq_some_iff.1 hnone
    exact ⟨id, entry, none, rfl, hentry, hm, .none, (Except.ok.inj hc).symm⟩

/-- A client that uses the method that is registered for it and shows one of its credentials is
authenticated. -/
theorem verifyAt_of_shows {entry : Registration} {assertion : Option VerifiedAssertion}
    (hid : p.clientId? = some id) (hentry : r.get? id = some entry) (hm : entry.method = p.method)
    (hshows : Shows entry v.audience v.skew now p assertion) :
    v.verifyAt p now = .ok ⟨id, p.method, assertion⟩ := by
  cases hshows with
  | secretBasic hs hsame =>
    obtain rfl := Option.some.inj hid
    obtain ⟨hmethod, hsecret⟩ := (check_secret_iff hv rfl rfl).2 ⟨entry, hentry, hm, _, hs, hsame⟩
    exact bind_eq_ok_iff.2 ⟨(), hmethod, bind_eq_ok_iff.2 ⟨(), hsecret, rfl⟩⟩
  | secretPost hs hsame =>
    obtain rfl := Option.some.inj hid
    obtain ⟨hmethod, hsecret⟩ := (check_secret_iff hv rfl rfl).2 ⟨entry, hentry, hm, _, hs, hsame⟩
    exact bind_eq_ok_iff.2 ⟨(), hmethod, bind_eq_ok_iff.2 ⟨(), hsecret, rfl⟩⟩
  | secretJwt family hs hverify hgood =>
    obtain rfl := Option.some.inj hid
    have hmethod := (checkMethod_eq_ok_iff (u := ()) hv hentry hid (fun h => (nomatch h))).2 hm
    have hkey := List.mem_map_of_mem (f := Jws.Key.ofSecret)
      ((mem_usableSecrets_iff (m := .secretJwt) hv).2 ⟨rfl, entry, hentry, hs⟩)
    have hassertion := checkAssertion_eq_ok_iff.2 ⟨⟨_, hkey, hverify⟩, _, hgood, rfl⟩
    exact bind_eq_ok_iff.2 ⟨(), hmethod, bind_eq_ok_iff.2 ⟨_, hassertion, rfl⟩⟩
  | privateKeyJwt family hkey hverify hgood =>
    obtain rfl := Option.some.inj hid
    have hmethod := (checkMethod_eq_ok_iff (u := ()) hv hentry hid (fun h => (nomatch h))).2 hm
    have hkey := (mem_publicKeys_iff hv).2 ⟨entry, hentry, hkey⟩
    have hassertion := checkAssertion_eq_ok_iff.2 ⟨⟨_, hkey, hverify⟩, _, hgood, rfl⟩
    exact bind_eq_ok_iff.2 ⟨(), hmethod, bind_eq_ok_iff.2 ⟨_, hassertion, rfl⟩⟩
  | none =>
    obtain rfl := Option.some.inj hid
    have hnone := Registry.source_method?_eq_some_iff.2 ⟨entry, hentry, hm⟩
    rw [← hv] at hnone
    exact bind_eq_ok_iff.2 ⟨(), rfl,
      bind_eq_ok_iff.2 ⟨_, checkUnauthenticated_eq_ok_iff.2 ⟨rfl, hnone⟩, rfl⟩⟩

end Registry

/-! ## Registered clients -/

/-- **A client is authenticated exactly if it uses the method that was registered for it last and
shows one of the credentials that were registered with it.** -/
theorem verifyAt_eq_ok_iff_registered {request : Request} {steps : List Registering}
    {c : VerifiedClient} (hp : request.presented = .ok p)
    (hv : v.source = (Registry.after steps).source) :
    v.verifyAt p now = .ok c
      ↔ ∃ id entry assertion, p.clientId? = some id ∧ IsLast steps id entry
        ∧ entry.method = p.method ∧ Shows entry v.audience v.skew now p assertion
        ∧ c = ⟨id, p.method, assertion⟩ := by
  constructor
  · intro h
    obtain ⟨id, entry, assertion, hid, hentry, hm, hshows, hc⟩ :=
      shows_of_verifyAt hv (Request.isTyped_of_presented hp) h
    exact ⟨id, entry, assertion, hid, Registry.get?_after_eq_some_iff.1 hentry, hm, hshows, hc⟩
  · rintro ⟨id, entry, assertion, hid, hlast, hm, hshows, rfl⟩
    exact verifyAt_of_shows hv hid (Registry.get?_after_eq_some_iff.2 hlast) hm hshows

/-- A client that is registered twice. -/
def web : ClientId := ⟨"web", by decide⟩

/-- A request of the client with the secret `new`. -/
def basicRequest : Request where
  method := "POST"
  headers := [("authorization", Utf8.encode "Basic d2ViOm5ldw==")]
  body := []

/-- A verifier of the client, whose secret `old` was replaced by `new`. -/
def replacing : Verifier where
  source := (Registry.after [.secrets web .secretBasic [.lasting "old"],
    .secrets web .secretBasic [.lasting "new"]]).source
  audience := .singleton ⟨"https://op.example", by decide⟩
  skew := 0
  skew_nonneg := by decide

/-- The client is authenticated with the secret that was registered last. -/
theorem verifyAt_replacing :
    ∃ p, basicRequest.presented = .ok p
      ∧ replacing.verifyAt p Instant.latest = .ok ⟨web, .secretBasic, none⟩ := by
  have hlast : IsLast [.secrets web .secretBasic [.lasting "old"],
      .secrets web .secretBasic [.lasting "new"]] web ⟨.secretBasic, [.lasting "new"], none⟩ :=
    ⟨[_], _, [], rfl, rfl, rfl, fun later h => (nomatch h)⟩
  have hread : (match basicRequest.presented with
      | .ok (.secretBasic id s) => decide (id = web ∧ s = .lasting "new")
      | _ => false) = true := by
    decide +kernel
  split at hread
  · next id s hp =>
    obtain ⟨rfl, rfl⟩ := of_decide_eq_true hread
    refine ⟨_, hp, (verifyAt_eq_ok_iff_registered hp rfl).2 ?_⟩
    exact ⟨web, _, none, rfl, hlast, rfl, .secretBasic ⟨List.mem_singleton_self _, rfl⟩ rfl, rfl⟩
  · cases hread

end Verifier

end Credential.Client
