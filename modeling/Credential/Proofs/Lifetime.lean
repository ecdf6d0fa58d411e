import Credential.Proofs.Skew
import Credential.Proofs.TrustedKeys

/-!
# When credentials are accepted

A credential is accepted during one stretch of time (`accepted_between`): between two instants at
which it is accepted there is none at which it is not, and what comes out is the same throughout.

Every time check is of one of two kinds. One that compares with the end of something passes until it
fails, and then never again; one that compares with a start fails until it passes. Secrets only ever
expire, so that earlier there are more of them, and more keys do no harm.

No instant may lie within a leap second: a second after the middle of one comes before a second
after its start.
-/

namespace Credential

/-! ## Instants -/

/-- The second instant lies between the two others, and no leap second is involved. -/
structure Instant.Between (t₁ t₂ t₃ : Instant) : Prop where
  ordinary₁ : t₁.isLeap = false
  ordinary₂ : t₂.isLeap = false
  le₁ : t₁ ≤ t₂
  le₂ : t₂ ≤ t₃

/-- The same duration after an earlier instant lies earlier, if it does not lead out of the
calendar. -/
theorem Instant.exists_add?_le_of_le {t₁ t₂ b : Instant} (h₁ : t₁.isLeap = false)
    (h₂ : t₂.isLeap = false) (h : t₁ ≤ t₂) {d : Int} (hd : 0 ≤ d) (hb : t₂.add? d = some b) :
    ∃ a, t₁.add? d = some a ∧ a ≤ b := by
  rw [add?_of_isLeap_eq_false h₁]
  rw [add?_of_isLeap_eq_false h₂] at hb
  have htotal := (le_iff_total h₁ h₂).1 h
  exact exists_ofTotal?_le (t := t₁) (by rw [total]; omega) (by omega) hb

namespace Window

variable {t₁ t₂ t₃ : Instant} (h : Instant.Between t₁ t₂ t₃) {skew : Duration}
include h

/-- What is not expired later is not expired. -/
theorem isExpired_of_between {e : Instant} (he : isExpired e t₃ skew = false) :
    isExpired e t₂ skew = false := by
  rw [← Bool.not_eq_true, isExpired_eq_true_iff] at he ⊢
  rintro ⟨limit, hlimit, hle⟩
  exact he ⟨limit, hlimit, Instant.le_trans hle h.le₂⟩

/-- What was valid already is valid, as far as its start is concerned. -/
theorem isNotYetValid_of_between {n : Instant} (hskew : 0 ≤ skew)
    (hn : isNotYetValid n t₁ skew = false) : isNotYetValid n t₂ skew = false := by
  rw [← Bool.not_eq_true, isNotYetValid_eq_true_iff] at hn ⊢
  rintro ⟨b, hb, hlt⟩
  -- if the later instant with the skew is in the calendar, then so is the earlier one
  obtain ⟨a, ha, hab⟩ := Instant.exists_add?_le_of_le h.ordinary₁ h.ordinary₂ h.le₁ hskew hb
  exact hn ⟨a, ha, Instant.lt_of_le_of_lt hab hlt⟩

/-- The issue is compared as the start is. -/
theorem isIssuedInFuture_of_between {i : Instant} (hskew : 0 ≤ skew)
    (hi : isIssuedInFuture i t₁ skew = false) : isIssuedInFuture i t₂ skew = false :=
  isNotYetValid_of_between h hskew hi

end Window

/-- What will have been authenticated recently enough has been so. -/
theorem IdTokenValidator.authTooOld_of_between {t t₁ t₂ t₃ : Instant} {age skew : Duration}
    (h : Instant.Between t₁ t₂ t₃) (ht : authTooOld t age skew t₃ = false) :
    authTooOld t age skew t₂ = false := by
  rw [← Bool.not_eq_true, authTooOld_eq_true_iff] at ht ⊢
  rintro ⟨deadline, hdeadline, limit, hlimit, hlt⟩
  exact ht ⟨deadline, hdeadline, limit, hlimit, Instant.lt_of_lt_of_le hlt h.le₂⟩

/-- A secret that is good was good before. -/
theorem Secret.isExpiredAt_eq_false_of_le {s : Secret} {t₁ t₂ : Instant} (h : t₁ ≤ t₂)
    (hs : s.isExpiredAt t₂ = false) : s.isExpiredAt t₁ = false := by
  unfold isExpiredAt at hs ⊢
  cases he : s.expiresAt with
  | none => rfl
  | some e =>
    rw [he] at hs
    rw [decide_eq_false_iff_not] at hs ⊢
    exact fun hle => hs (Instant.le_trans hle h)

/-- The secrets of a list that are good were good before. -/
theorem Secret.filter_good_subset_of_le {held : List Secret} {t₁ t₂ : Instant} (h : t₁ ≤ t₂) :
    (held.filter fun s => !s.isExpiredAt t₂) ⊆ held.filter fun s => !s.isExpiredAt t₁ := by
  intro s hs
  obtain ⟨hmem, hgood⟩ := List.mem_filter.1 hs
  rw [Bool.not_eq_true'] at hgood
  refine List.mem_filter.2 ⟨hmem, ?_⟩
  rw [isExpiredAt_eq_false_of_le h hgood]
  rfl

/-! ## Operations that depend on the time -/

/-- Between two instants at which the operation succeeds it succeeds, always with the same value. -/
def Contiguous {α : Type} (f : Instant → Result α) : Prop :=
  ∀ ⦃t₁ t₂ t₃ a b⦄, Instant.Between t₁ t₂ t₃ → f t₁ = .ok a → f t₃ = .ok b →
    b = a ∧ f t₂ = .ok a

namespace Contiguous

variable {α β : Type} {f : Instant → Result α}

/-- What does not depend on the time. -/
theorem const (x : Result α) : Contiguous fun _ => x := by
  intro t₁ t₂ t₃ a b _ h₁ h₃
  exact ⟨Except.ok.inj (h₃.symm.trans h₁), h₁⟩

/-- One step after the other. -/
theorem bind (hf : Contiguous f) {g : α → Instant → Result β} (hg : ∀ a, Contiguous (g a)) :
    Contiguous fun t => f t >>= fun a => g a t := by
  intro t₁ t₂ t₃ b b' hbetween h₁ h₃
  obtain ⟨a, ha, hb⟩ := bind_eq_ok_iff.1 h₁
  obtain ⟨a', ha', hb'⟩ := bind_eq_ok_iff.1 h₃
  obtain ⟨rfl, hmid⟩ := hf hbetween ha ha'
  obtain ⟨rfl, hmid'⟩ := hg a' hbetween hb hb'
  exact ⟨rfl, bind_eq_ok_iff.2 ⟨a', hmid, hmid'⟩⟩

/-- A check that gives no value. -/
theorem ofChecks {f : Instant → Result Unit} (h : ∀ ⦃t₁ t₂ t₃⦄, Instant.Between t₁ t₂ t₃ →
    f t₁ = .ok () → f t₃ = .ok () → f t₂ = .ok ()) : Contiguous f := by
  intro t₁ t₂ t₃ a b hbetween h₁ h₃
  exact ⟨rfl, h hbetween h₁ h₃⟩

end Contiguous

/-! ## Claims -/

namespace ClaimsVerifier

/-- Claims that are accepted before and after are accepted in between. -/
theorem Admits.between {v : ClaimsVerifier} {c : Claims} {nonce : Option Nonce} {t₁ t₂ t₃ : Instant}
    (h : Instant.Between t₁ t₂ t₃) (h₁ : v.Admits c nonce t₁) (h₃ : v.Admits c nonce t₃) :
    v.Admits c nonce t₂ :=
  { h₁ with
    expiration := by
      obtain ⟨e, he, hexpired⟩ := h₃.expiration
      exact ⟨e, he, Window.isExpired_of_between h hexpired⟩
    notBefore := fun n hn => Window.isNotYetValid_of_between h v.skew_nonneg (h₁.notBefore n hn)
    issuedAt := fun i hi =>
      Window.isIssuedInFuture_of_between h v.skew_nonneg (h₁.issuedAt i hi) }

theorem contiguous_verifyAt (v : ClaimsVerifier) (c : Claims) (nonce : Option Nonce) :
    Contiguous (v.verifyAt c nonce) := by
  refine .ofChecks fun t₁ t₂ t₃ hbetween h₁ h₃ => ?_
  rw [verifyAt_eq_ok_iff] at h₁ h₃ ⊢
  exact h₁.between hbetween h₃

end ClaimsVerifier

/-! ## ID tokens -/

theorem Jws.Selector.usableKeys_subset_of_le {held : List Secret} {t₁ t₂ : Instant} (h : t₁ ≤ t₂) :
    usableKeys held t₂ ⊆ usableKeys held t₁ :=
  List.map_subset Key.ofSecret (Secret.filter_good_subset_of_le h)

/-- The selector takes its keys from a list, of secrets or of public keys. -/
inductive Jws.Selector.IsLocal {σ : Type} : Jws.Selector σ → Prop
  | secrets (a : Algorithm) (held : List Secret) : IsLocal (.secrets a held)
  | keySet (a : Algorithm) (set : JwkSet) : IsLocal (.keySet a (.fixed set))

namespace IdTokenValidator

variable {σ : Type} (v : IdTokenValidator σ) (nonce : Option Nonce)

theorem contiguous_checkAuthAge (c : VerifiedClaims) : Contiguous (v.checkAuthAge c) := by
  refine .ofChecks fun t₁ t₂ t₃ hbetween h₁ h₃ => ?_
  unfold checkAuthAge at h₁ h₃ ⊢
  split at h₃
  · rfl
  · split at h₃
    · cases h₃
    · split at h₃
      · cases h₃
      · next hold =>
        rw [Bool.not_eq_true] at hold
        rw [authTooOld_of_between hbetween hold]
        rfl

theorem contiguous_verifyClaims (c : Claims) (a : Jws.Algorithm) (keyId : Option String) :
    Contiguous (v.verifyClaims c a keyId nonce) :=
  (v.claimsVerifier.contiguous_verifyAt c nonce).bind fun _ =>
    (Contiguous.const (VerifiedClaims.ofClaims c)).bind fun d =>
      (v.contiguous_checkAuthAge d).bind fun _ => .const _

/-- A token that some secret verifies is accepted under its own key id, whichever secret it is. -/
theorem acceptSigned_usableKeys_eq_ok_iff {s : SignedToken} {held : List Secret}
    {now now' : Instant} {t : VerifiedIdToken} :
    v.acceptSigned s (Jws.Selector.usableKeys held now) nonce now' = .ok t
      ↔ (∃ k ∈ Jws.Selector.usableKeys held now, s.verify k = .ok true)
        ∧ v.verifyClaims s.claims s.algorithm s.header.keyId nonce now' = .ok t := by
  have hkeyId : ∀ k ∈ Jws.Selector.usableKeys held now, k.keyId = none := by
    intro k hk
    obtain ⟨secret, -, rfl⟩ := List.mem_map.1 hk
    rfl
  rw [acceptSigned_eq_ok_iff, ← SignedToken.exists_verifyWithAny_iff]
  constructor
  · rintro ⟨k, hk, h⟩
    rw [hkeyId k (SignedToken.of_verifyWithAny hk).1] at h
    exact ⟨⟨k, hk⟩, h⟩
  · rintro ⟨⟨k, hk⟩, h⟩
    refine ⟨k, hk, ?_⟩
    rw [hkeyId k (SignedToken.of_verifyWithAny hk).1]
    exact h

theorem contiguous_acceptSigned_usableKeys (s : SignedToken) (held : List Secret) :
    Contiguous fun t => v.acceptSigned s (Jws.Selector.usableKeys held t) nonce t := by
  intro t₁ t₂ t₃ a b hbetween h₁ h₃
  rw [acceptSigned_usableKeys_eq_ok_iff] at h₁ h₃ ⊢
  obtain ⟨hb, hmid⟩ := v.contiguous_verifyClaims nonce _ _ _ hbetween h₁.2 h₃.2
  -- the key comes from the later instant, since it was good before that too
  obtain ⟨k, hk, hverify⟩ := h₃.1
  exact ⟨hb, ⟨k, Jws.Selector.usableKeys_subset_of_le hbetween.le₂ hk, hverify⟩, hmid⟩

theorem contiguous_acceptSigned (s : SignedToken) (keys : List Jws.Key) :
    Contiguous fun t => v.acceptSigned s keys nonce t := by
  unfold acceptSigned
  split
  · exact .const _
  · refine (Contiguous.const (s.verifyWithAny keys)).bind fun found => ?_
    cases found with
    | none => exact .const _
    | some k => exact v.contiguous_verifyClaims nonce _ _ _

/-- Only the claims and the secrets look at the time. What states the source of the keys is in does
not matter, since it always gives the same. -/
theorem contiguous_validateSigned (hv : ∀ s, v.signature = some s → s.IsLocal) (s : SignedToken)
    (state : Instant → σ) : Contiguous fun t => (v.validateSigned s nonce t (state t)).1 := by
  unfold validateSigned
  cases hselector : v.signature with
  | none => exact .const _
  | some selector =>
    dsimp only
    split
    · exact .const _
    · cases hv selector hselector with
      | secrets a held => exact v.contiguous_acceptSigned_usableKeys nonce s held
      | keySet a set => exact v.contiguous_acceptSigned nonce s _

theorem contiguous_validateAt (hv : ∀ s, v.signature = some s → s.IsLocal) (token : String)
    (state : Instant → σ) : Contiguous fun t => (v.validateAt token nonce t (state t)).1 := by
  unfold validateAt
  cases Token.parse token with
  | error e => exact .const _
  | ok parsed =>
    cases parsed with
    | unsecured u =>
      dsimp only [validateUnsecured]
      split
      · exact .const _
      · exact v.contiguous_verifyClaims nonce _ _ _
    | signed s => exact v.contiguous_validateSigned nonce hv s state
    | encrypted e =>
      dsimp only
      cases v.unwrap e with
      | error e' => exact .const _
      | ok s => exact v.contiguous_validateSigned nonce hv s state

end IdTokenValidator

/-! ## Clients -/

/-- An assertion that is good before and after is good in between; it expires only once. -/
theorem Client.Assertion.IsGood.between {a : Client.Assertion} {audience : AudienceSet}
    {skew : Duration} {t₁ t₂ t₃ e e' : Instant} (h : Instant.Between t₁ t₂ t₃)
    (h₁ : a.IsGood audience skew t₁ e) (h₃ : a.IsGood audience skew t₃ e') :
    e' = e ∧ a.IsGood audience skew t₂ e := by
  have hskew := Window.clampSkew_nonneg skew
  obtain rfl : e' = e := Option.some.inj (h₃.expiration.symm.trans h₁.expiration)
  exact ⟨rfl, { h₁ with
    unexpired := Window.isExpired_of_between h h₃.unexpired
    notBefore := fun n hn => Window.isNotYetValid_of_between h hskew (h₁.notBefore n hn)
    issuedAt := fun i hi => Window.isIssuedInFuture_of_between h hskew (h₁.issuedAt i hi) }⟩

namespace Client.Verifier

variable (v : Verifier)

theorem usableSecrets_subset_of_le {id : ClientId} {m : Method} {t₁ t₂ : Instant} (h : t₁ ≤ t₂) :
    v.usableSecrets id m t₂ ⊆ v.usableSecrets id m t₁ :=
  Secret.filter_good_subset_of_le h

theorem contiguous_checkSecret (id : ClientId) (presented : Secret) (m : Method) :
    Contiguous (v.checkSecret id presented m) := by
  refine .ofChecks fun t₁ t₂ t₃ hbetween _ h₃ => ?_
  rw [checkSecret_eq_ok_iff] at h₃ ⊢
  obtain ⟨s, hs, hsame⟩ := h₃
  exact ⟨s, v.usableSecrets_subset_of_le hbetween.le₂ hs, hsame⟩

/-- The keys may only become fewer. -/
theorem contiguous_checkAssertion (a : Assertion) {keys : Instant → List Jws.Key}
    (hkeys : ∀ ⦃t₁ t₂⦄, t₁ ≤ t₂ → keys t₂ ⊆ keys t₁) :
    Contiguous fun t => v.checkAssertion a (keys t) t := by
  intro t₁ t₂ t₃ b b' hbetween h₁ h₃
  rw [checkAssertion_eq_ok_iff] at h₁ h₃ ⊢
  obtain ⟨-, e, hgood, rfl⟩ := h₁
  obtain ⟨⟨k, hk, hverify⟩, e', hgood', rfl⟩ := h₃
  obtain ⟨rfl, hmid⟩ := hgood.between hbetween hgood'
  exact ⟨rfl, ⟨k, hkeys hbetween.le₂ hk, hverify⟩, e', hmid, rfl⟩

theorem contiguous_verifyAt (p : Presented) : Contiguous (v.verifyAt p) := by
  refine (Contiguous.const (v.checkMethod p)).bind fun _ => ?_
  cases p with
  | secretBasic id presented =>
    exact (v.contiguous_checkSecret id presented .secretBasic).bind fun _ => .const _
  | secretPost id presented =>
    exact (v.contiguous_checkSecret id presented .secretPost).bind fun _ => .const _
  | secretJwt a =>
    have hkeys : ∀ ⦃t₁ t₂⦄, t₁ ≤ t₂ →
        (v.usableSecrets a.clientId .secretJwt t₂).map Jws.Key.ofSecret
          ⊆ (v.usableSecrets a.clientId .secretJwt t₁).map Jws.Key.ofSecret :=
      fun _ _ h => List.map_subset _ (v.usableSecrets_subset_of_le h)
    exact (v.contiguous_checkAssertion a hkeys).bind fun _ => .const _
  | privateKeyJwt a =>
    have hkeys : ∀ ⦃t₁ t₂ : Instant⦄, t₁ ≤ t₂ → v.publicKeys a ⊆ v.publicKeys a :=
      fun _ _ _ => List.Subset.refl _
    exact (v.contiguous_checkAssertion a hkeys).bind fun _ => .const _
  | none id => exact .const _

end Client.Verifier

/-! ## Assertions -/

namespace Saml.Verifier

/-- An assertion that is accepted before and after is accepted in between. -/
theorem Admits.between {v : Verifier} {a : Assertion} {t₁ t₂ t₃ : Instant}
    (h : Instant.Between t₁ t₂ t₃) (h₁ : v.Admits a t₁) (h₃ : v.Admits a t₃) : v.Admits a t₂ :=
  { h₁ with
    expiration := by
      obtain ⟨e, he, hexpired⟩ := h₃.expiration
      exact ⟨e, he, Window.isExpired_of_between h hexpired⟩
    notBefore := fun n hn => Window.isNotYetValid_of_between h v.skew_nonneg (h₁.notBefore n hn)
    issued := Window.isIssuedInFuture_of_between h v.skew_nonneg h₁.issued }

theorem contiguous_checkConditions (v : Verifier) (a : Assertion) :
    Contiguous (v.checkConditions a) := by
  refine .ofChecks fun t₁ t₂ t₃ hbetween h₁ h₃ => ?_
  rw [checkConditions_eq_ok_iff] at h₁ h₃ ⊢
  exact h₁.between hbetween h₃

/-- The document is read and its signature verified without looking at the time. -/
theorem contiguous_verifyAt (v : Verifier) (xml : String) : Contiguous (v.verifyAt xml) :=
  (Contiguous.const (Assertion.readDocument xml)).bind fun document =>
    (Contiguous.const (Assertion.rootOf document)).bind fun root =>
      (Contiguous.const (XmlSignature.verify document.root root v.keys)).bind fun _ =>
        (Contiguous.const (Assertion.ofElement root)).bind fun a =>
          (v.contiguous_checkConditions a).bind fun _ => .const _

end Saml.Verifier

/-! ## What is accepted -/

/-- **What is accepted at two instants is accepted between them, with the same result**: ID tokens,
if the keys are held locally, clients, whatever of their credentials expires, and assertions. -/
theorem accepted_between {t₁ t₂ t₃ : Instant} (h : Instant.Between t₁ t₂ t₃) :
    (∀ (σ : Type) (v : IdTokenValidator σ), (∀ s, v.signature = some s → s.IsLocal) →
        ∀ token nonce (state : Instant → σ) a b,
          (v.validateAt token nonce t₁ (state t₁)).1 = .ok a →
          (v.validateAt token nonce t₃ (state t₃)).1 = .ok b →
          b = a ∧ (v.validateAt token nonce t₂ (state t₂)).1 = .ok a)
      ∧ (∀ (v : Client.Verifier) p a b, v.verifyAt p t₁ = .ok a → v.verifyAt p t₃ = .ok b →
        b = a ∧ v.verifyAt p t₂ = .ok a)
      ∧ ∀ (v : Saml.Verifier) xml a b, v.verifyAt xml t₁ = .ok a → v.verifyAt xml t₃ = .ok b →
        b = a ∧ v.verifyAt xml t₂ = .ok a :=
  ⟨fun _ v hv token nonce state _ _ h₁ h₃ => v.contiguous_validateAt nonce hv token state h h₁ h₃,
    fun v p _ _ h₁ h₃ => v.contiguous_verifyAt p h h₁ h₃,
    fun v xml _ _ h₁ h₃ => v.contiguous_verifyAt xml h h₁ h₃⟩

/-- Between the instants the shorter one of two equal secrets expires. -/
theorem accepted_between_expiring :
    let clock (n : Fin 60) : Instant :=
      ⟨n.val, 0, by rw [Calendar.firstSecond]; omega, by rw [Calendar.lastSecond]; omega, by decide⟩
    let v : Client.Verifier := .make
      (Client.Registry.empty.withSecrets Client.Verifier.web .secretBasic
        [⟨"old", some (clock 20)⟩, ⟨"old", some (clock 40)⟩]).source
      (.singleton ⟨"https://op.example", by decide⟩)
    let p : Client.Presented := .secretBasic Client.Verifier.web (.lasting "old")
    let c : Client.VerifiedClient := ⟨Client.Verifier.web, .secretBasic, none⟩
    v.verifyAt p (clock 10) = .ok c ∧ v.verifyAt p (clock 39) = .ok c
      ∧ v.verifyAt p (clock 30) = .ok c := by
  intro clock v p c
  have h : Instant.Between (clock 10) (clock 30) (clock 39) := ⟨rfl, rfl, by decide, by decide⟩
  have h₁ : v.verifyAt p (clock 10) = .ok c := rfl
  have h₃ : v.verifyAt p (clock 39) = .ok c := rfl
  exact ⟨h₁, h₃, ((accepted_between h).2.1 v p c c h₁ h₃).2⟩

end Credential
