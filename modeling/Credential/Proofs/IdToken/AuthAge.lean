import Credential.Proofs.Claims.Exact
import Credential.Proofs.IdToken.Settings
import Credential.Proofs.IdToken.Validator

/-!
# The age of the authentication

A validator may be told the greatest age of the authentication. It asks for the age last: what the
validator without a greatest age refuses is refused for the same reason, and of what that one
accepts the age decides (`validateAt_eq_askAge`).

The age is judged in exact time as long as it is not negative. Nothing clamps it, and a negative one
may lead from the authentication out of the calendar at its start. There is no sum to compare then,
and the token counts as recent, though every instant lies after the exact sum
(`not_recent_of_accepted`). A configured validator has no such age (`exists_setAll_of_build`).
-/

namespace Credential

/-! ## Exact time -/

/-- The start of a second is not in a leap second. -/
theorem Claims.isLeap_of_date? {c : Claims} {name : String} {t : Instant}
    (h : c.date? name = .ok (some t)) : t.isLeap = false := by
  unfold date? at h
  split at h
  · cases h
  · obtain ⟨t', ht', h⟩ := bind_eq_ok_iff.1 h
    obtain rfl : t' = t := Option.some.inj (Except.ok.inj h)
    unfold readDate at ht'
    split at ht'
    · obtain ⟨s, -, hs⟩ := Option.bind_eq_some_iff.1 (orRefuse_eq_ok_iff.1 ht')
      have hnano : t'.nano = 0 := (Instant.ofParts?_eq_some_iff.1 hs).2
      rw [Instant.isLeap_eq_false_iff, hnano]
      decide
    · exact absurd ht' refuse_ne_ok

namespace IdTokenValidator

/-- The authentication is recent in exact time, or a negative age leads from it to before the start
of the calendar. -/
def CountsAsRecent (auth : Instant) (age skew : Duration) (now : Instant) : Prop :=
  now.total ≤ auth.total + age + skew ∨ age < 0 ∧ auth.total + age < Instant.earliest.total

instance (auth : Instant) (age skew : Duration) (now : Instant) :
    Decidable (CountsAsRecent auth age skew now) :=
  inferInstanceAs (Decidable (_ ∨ _))

/-- With an age that is not negative only a recent authentication counts as recent. -/
theorem countsAsRecent_iff_of_nonneg {auth now : Instant} {age skew : Duration} (h : 0 ≤ age) :
    CountsAsRecent auth age skew now ↔ now.total ≤ auth.total + age + skew :=
  or_iff_left fun hbelow => Int.not_lt.2 h hbelow.1

/-- **What is not too old counts as recent.** -/
theorem authTooOld_eq_false_iff {auth now : Instant} {age skew : Int} (hauth : auth.isLeap = false)
    (hnow : now.isLeap = false) (hskew : 0 ≤ skew) :
    authTooOld auth age skew now = false ↔ CountsAsRecent auth age skew now := by
  unfold authTooOld CountsAsRecent
  rcases Instant.add?_signed (d := age) hauth with
    ⟨deadline, hdeadline, hleap, htotal⟩ | ⟨hnone, hout⟩
  · -- a deadline in the calendar is not before its start
    have hin := deadline.earliest_total_le
    rw [hdeadline, Option.bind_some, ← htotal, or_iff_left fun h => Int.not_lt.2 hin h.2]
    rcases Instant.add?_exact hleap hskew with ⟨limit, hlimit, hleap', htotal'⟩ | ⟨hnone, hbeyond⟩
    · rw [hlimit]
      show decide (limit < now) = false ↔ _
      rw [decide_eq_false_iff_not, Instant.not_lt, Instant.le_iff_total hnow hleap', htotal']
    · rw [hnone]
      exact iff_of_true rfl (Int.le_of_lt (hbeyond now hnow))
  · have hstart := auth.earliest_total_le
    rw [hnone]
    refine iff_of_true rfl ?_
    rcases hout with hbelow | hbeyond
    · have hneg : age < 0 := by omega
      exact Or.inr ⟨hneg, hbelow⟩
    · have hlate := hbeyond now hnow
      exact Or.inl (by omega)

/-! ## The age is asked for last -/

section

variable {σ : Type} (v : IdTokenValidator σ)

/-- The validator as if it had not been told a greatest age. -/
def withoutMaxAuthAge : IdTokenValidator σ := { v with maxAuthAge := none }

/-- Ask a verified token for the age of its authentication. -/
def askAge (now : Instant) (t : VerifiedIdToken) : Result VerifiedIdToken := do
  v.checkAuthAge t.claims now
  return t

theorem unwrap_withoutMaxAuthAge (t : EncryptedToken) :
    v.withoutMaxAuthAge.unwrap t = v.unwrap t := rfl

theorem signature_withoutMaxAuthAge : v.withoutMaxAuthAge.signature = v.signature := rfl

variable (nonce : Option Nonce) (now : Instant)

theorem verifyClaims_eq_askAge (c : Claims) (a : Jws.Algorithm) (keyId : Option String) :
    v.verifyClaims c a keyId nonce now
      = v.withoutMaxAuthAge.verifyClaims c a keyId nonce now >>= v.askAge now := by
  unfold verifyClaims
  simp only [bind_assoc]
  rfl

theorem acceptSigned_eq_askAge (t : SignedToken) (keys : List Jws.Key) :
    v.acceptSigned t keys nonce now
      = v.withoutMaxAuthAge.acceptSigned t keys nonce now >>= v.askAge now := by
  unfold acceptSigned
  split
  · rfl
  · rw [bind_assoc]
    refine congrArg _ (funext fun found => ?_)
    cases found with
    | none => rfl
    | some k => exact v.verifyClaims_eq_askAge nonce now t.claims t.algorithm _

theorem validateUnsecured_eq_askAge (t : UnsecuredToken) :
    v.validateUnsecured t nonce now
      = v.withoutMaxAuthAge.validateUnsecured t nonce now >>= v.askAge now := by
  unfold validateUnsecured
  rw [signature_withoutMaxAuthAge]
  split
  · rfl
  · exact v.verifyClaims_eq_askAge nonce now t.claims .unsecured none

theorem validateSigned_eq_askAge (t : SignedToken) (state : σ) :
    (v.validateSigned t nonce now state).1
        = (v.withoutMaxAuthAge.validateSigned t nonce now state).1 >>= v.askAge now
      ∧ (v.validateSigned t nonce now state).2
        = (v.withoutMaxAuthAge.validateSigned t nonce now state).2 := by
  unfold validateSigned
  rw [signature_withoutMaxAuthAge]
  cases v.signature with
  | none => exact ⟨rfl, rfl⟩
  | some selector =>
    dsimp only
    split
    · exact ⟨rfl, rfl⟩
    · refine ⟨?_, rfl⟩
      cases (selector.candidates t.header now state).1 with
      | error e => rfl
      | ok keys => exact v.acceptSigned_eq_askAge nonce now t keys

/-- **The age is asked for last.** Without a greatest age the validator says the same up to there,
and asks the source of the keys the same. -/
theorem validateAt_eq_askAge (token : String) (state : σ) :
    (v.validateAt token nonce now state).1
        = (v.withoutMaxAuthAge.validateAt token nonce now state).1 >>= v.askAge now
      ∧ (v.validateAt token nonce now state).2
        = (v.withoutMaxAuthAge.validateAt token nonce now state).2 := by
  unfold validateAt
  cases Token.parse token with
  | error e => exact ⟨rfl, rfl⟩
  | ok parsed =>
    cases parsed with
    | unsecured t => exact ⟨v.validateUnsecured_eq_askAge nonce now t, rfl⟩
    | signed t => exact v.validateSigned_eq_askAge nonce now t state
    | encrypted t =>
      dsimp only
      rw [unwrap_withoutMaxAuthAge]
      cases v.unwrap t with
      | error e => exact ⟨rfl, rfl⟩
      | ok inner => exact v.validateSigned_eq_askAge nonce now inner state

variable {v nonce now}

/-- What is accepted are claims that were verified. -/
theorem exists_verifyClaims_of_validateAt {token : String} {state : σ} {t : VerifiedIdToken}
    (h : (v.validateAt token nonce now state).1 = .ok t) :
    ∃ c a keyId, v.verifyClaims c a keyId nonce now = .ok t := by
  have hsigned : ∀ {s : SignedToken}, (v.validateSigned s nonce now state).1 = .ok t →
      ∃ c a keyId, v.verifyClaims c a keyId nonce now = .ok t := by
    intro s h
    unfold validateSigned at h
    split at h
    · cases h
    · split at h
      · cases h
      · obtain ⟨keys, -, h⟩ := bind_eq_ok_iff.1 h
        obtain ⟨k, -, h⟩ := acceptSigned_eq_ok_iff.1 h
        exact ⟨_, _, _, h⟩
  unfold validateAt at h
  split at h
  · cases h
  · unfold validateUnsecured at h
    split at h
    · cases h
    · exact ⟨_, _, _, h⟩
  · exact hsigned h
  · split at h
    · cases h
    · exact hsigned h

theorem date?_of_ofClaims {c : Claims} {d : VerifiedClaims}
    (h : VerifiedClaims.ofClaims c = .ok d) : d.claims.date? "auth_time" = .ok d.authTime := by
  unfold VerifiedClaims.ofClaims at h
  split at h
  · cases h
  · cases h
  · cases h
  · obtain ⟨authTime, hauth, h⟩ := bind_eq_ok_iff.1 h
    obtain rfl := Except.ok.inj h
    exact hauth

/-- The time of authentication of what is accepted is the one that its claims state. -/
theorem date?_of_validateAt {token : String} {state : σ} {t : VerifiedIdToken}
    (h : (v.validateAt token nonce now state).1 = .ok t) :
    t.claims.claims.date? "auth_time" = .ok t.claims.authTime := by
  obtain ⟨c, a, keyId, h⟩ := exists_verifyClaims_of_validateAt h
  unfold verifyClaims at h
  obtain ⟨_, -, h⟩ := bind_eq_ok_iff.1 h
  obtain ⟨d, hd, h⟩ := bind_eq_ok_iff.1 h
  obtain ⟨_, -, h⟩ := bind_eq_ok_iff.1 h
  obtain rfl := Except.ok.inj h
  exact date?_of_ofClaims hd

end

theorem date?_of_authTime? {c : Claims} {auth : Instant} (h : authTime? c = some auth) :
    c.date? "auth_time" = .ok (some auth) := by
  unfold authTime? at h
  cases hdate : c.date? "auth_time" with
  | error e =>
    rw [hdate] at h
    cases h
  | ok stated =>
    rw [hdate] at h
    exact congrArg _ h

/-- A result with claims that state a time of authentication. -/
theorem exists_date?_of_authTime? {x : Result VerifiedIdToken} {auth : Instant}
    (h : (x.toOption.bind fun t => authTime? t.claims.claims) = some auth) :
    ∃ t, x = .ok t ∧ t.claims.claims.date? "auth_time" = .ok (some auth) := by
  obtain ⟨t, ht, hauth⟩ := Option.bind_eq_some_iff.1 h
  obtain ⟨t', rfl⟩ := exists_eq_ok_of_isSome (Option.isSome_of_eq_some ht)
  obtain rfl := Option.some.inj ht
  exact ⟨t', rfl, date?_of_authTime? hauth⟩

/-! ## What the greatest age demands -/

/-- What a validator with a greatest age says of a token, by what the one without it says. -/
structure AsksAge {σ : Type} (age skew : Duration) (now : Instant)
    (plain aged : Result VerifiedIdToken × σ) : Prop where
  /-- The source of the keys is asked the same. -/
  state_eq : aged.2 = plain.2
  /-- What is refused without a greatest age is refused for the same reason with one. -/
  of_error : ∀ e, plain.1 = .error e → aged.1 = .error e
  /-- What is accepted without one is accepted with one just if the claims state when the
  authentication was, and that counts as recent. -/
  accepts_iff : ∀ t, aged.1 = .ok t ↔ plain.1 = .ok t
    ∧ ∃ auth, t.claims.claims.date? "auth_time" = .ok (some auth)
      ∧ CountsAsRecent auth age skew now
  of_missing : ∀ t, plain.1 = .ok t → t.claims.claims.date? "auth_time" = .ok none →
    aged.1 = .error (.claim .missingAuthTime)
  of_old : ∀ t auth, plain.1 = .ok t → t.claims.claims.date? "auth_time" = .ok (some auth) →
    ¬ CountsAsRecent auth age skew now → aged.1 = .error (.claim .authTimeTooOld)

section

variable {σ : Type} {v : IdTokenValidator σ} {age : Duration} {now : Instant} {t : VerifiedIdToken}
  {auth : Instant} (hage : v.maxAuthAge = some age)

include hage

theorem askAge_of_missing (ht : t.claims.authTime = none) :
    v.askAge now t = .error (.claim .missingAuthTime) := by
  rw [askAge, checkAuthAge, hage, ht]
  rfl

theorem askAge_of_stated (ht : t.claims.authTime = some auth) :
    v.askAge now t
      = if authTooOld auth age v.skew now then .error (.claim .authTimeTooOld) else .ok t := by
  rw [askAge, checkAuthAge, hage, ht]
  dsimp only
  split
  · rfl
  · rfl

variable (hnow : now.isLeap = false)

include hnow

section

variable (hdate : t.claims.claims.date? "auth_time" = .ok (some auth))
  (ht : t.claims.authTime = some auth)

include hdate ht

theorem askAge_of_recent (h : CountsAsRecent auth age v.skew now) : v.askAge now t = .ok t := by
  have hrecent : authTooOld auth age v.skew now = false :=
    (authTooOld_eq_false_iff (Claims.isLeap_of_date? hdate) hnow v.skew_nonneg).2 h
  rw [askAge_of_stated hage ht, hrecent]
  rfl

theorem askAge_of_old (h : ¬ CountsAsRecent auth age v.skew now) :
    v.askAge now t = .error (.claim .authTimeTooOld) := by
  have hold : authTooOld auth age v.skew now = true := Bool.not_eq_false _ ▸ fun hfalse =>
    h ((authTooOld_eq_false_iff (Claims.isLeap_of_date? hdate) hnow v.skew_nonneg).1 hfalse)
  rw [askAge_of_stated hage ht, if_pos hold]

end

/-- A token that passes is given back, and its authentication counts as recent. -/
theorem recent_of_askAge {t' : VerifiedIdToken}
    (hdate : t.claims.claims.date? "auth_time" = .ok t.claims.authTime)
    (h : v.askAge now t = .ok t') :
    t = t' ∧ ∃ auth, t.claims.claims.date? "auth_time" = .ok (some auth)
      ∧ CountsAsRecent auth age v.skew now := by
  obtain ⟨_, -, hsame⟩ := bind_eq_ok_iff.1 h
  refine ⟨Except.ok.inj hsame, ?_⟩
  cases hauth : t.claims.authTime with
  | none =>
    rw [askAge_of_missing hage hauth] at h
    cases h
  | some auth =>
    rw [hauth] at hdate
    refine ⟨auth, hdate, Decidable.byContradiction fun hold => ?_⟩
    rw [askAge_of_old hage hnow hdate hauth hold] at h
    cases h

end

variable {σ : Type}

/-- A configured validator is made and told settings like any other. Its greatest age, if it has one,
is not negative, so what counts as recent is only what time says. -/
theorem exists_setAll_of_build {ω : Type} {c : IdTokenConfig} {world : RemoteKeys.World ω}
    {v : IdTokenValidator (RemoteKeys.State × ω)} (h : c.build world = .ok v) :
    ∃ signature l, v = (make c.issuer c.clientId signature).setAll l
      ∧ ∀ age, Setting.last? Setting.maxAuthAge? l = some age → ∀ auth now skew,
        CountsAsRecent auth age skew now ↔ now.total ≤ auth.total + age + skew := by
  unfold IdTokenConfig.build at h
  obtain ⟨signature, -, h⟩ := bind_eq_ok_iff.1 h
  obtain ⟨additional, -, h⟩ := bind_eq_ok_iff.1 h
  obtain rfl := Except.ok.inj h
  let l : List Setting :=
    [.skew (Window.skewOfSeconds c.clockSkewSeconds), .audiences additional]
  cases c.maxAuthAgeSeconds with
  | none => exact ⟨signature, l, rfl, fun _ hage => nomatch hage⟩
  | some n =>
    refine ⟨signature, l ++ [.maxAuthAge (Window.skewOfSeconds n)], rfl,
      fun age hage _ _ _ => ?_⟩
    obtain rfl : Window.skewOfSeconds n = age := Option.some.inj hage
    exact countsAsRecent_iff_of_nonneg (Window.skewOfSeconds_nonneg n)

/-- **A greatest age demands that the claims state a recent authentication, in exact time.** Nothing
else changes. A negative age is satisfied, too, by what it leads out of the calendar. -/
theorem asksAge_of_maxAuthAge (issuer : Issuer) (client : ClientId)
    (signature : Option (Jws.Selector σ)) {l : List Setting} {age : Duration}
    (hage : Setting.last? Setting.maxAuthAge? l = some age) {now : Instant}
    (hnow : now.isLeap = false) (token : String) (nonce : Option Nonce) (state : σ) :
    AsksAge age (Setting.skewAfter l) now
      (((make issuer client signature).setAll l).withoutMaxAuthAge.validateAt token nonce now state)
      (((make issuer client signature).setAll l).validateAt token nonce now state) := by
  have hreflects := reflects_setAll issuer client signature l
  generalize (make issuer client signature).setAll l = v at hreflects ⊢
  obtain ⟨hresult, hstate⟩ := v.validateAt_eq_askAge nonce now token state
  have hv : v.maxAuthAge = some age := hreflects.maxAuthAge_eq.trans hage
  rw [← hreflects.skew_eq]
  -- the time that is judged is the one that the claims state
  have htime : ∀ {t stated}, (v.withoutMaxAuthAge.validateAt token nonce now state).1 = .ok t →
      t.claims.claims.date? "auth_time" = .ok stated → t.claims.authTime = stated :=
    fun ht hdate => Except.ok.inj ((date?_of_validateAt ht).symm.trans hdate)
  exact {
    state_eq := hstate
    of_error := fun e he => by rw [hresult, he]; rfl
    accepts_iff := fun t => by
      rw [hresult, bind_eq_ok_iff]
      constructor
      · rintro ⟨t', ht', hask⟩
        obtain ⟨rfl, hrecent⟩ := recent_of_askAge hv hnow (date?_of_validateAt ht') hask
        exact ⟨ht', hrecent⟩
      · rintro ⟨ht, auth, hdate, hrecent⟩
        exact ⟨t, ht, askAge_of_recent hv hnow hdate (htime ht hdate) hrecent⟩
    of_missing := fun t ht hdate => by
      rw [hresult, ht]
      exact askAge_of_missing hv (htime ht hdate)
    of_old := fun t auth ht hdate hold => by
      rw [hresult, ht]
      exact askAge_of_old hv hnow hdate (htime ht hdate) hold }

/-- An authentication ten minutes ago is recent for as long as the skew of a minute allows, and too
long ago one nanosecond later. -/
theorem asksAge_ten_minutes :
    let v : IdTokenValidator Unit :=
      unsecured ⟨"https://idp.example", by decide⟩ ⟨"app", by decide⟩
    let l : List Setting := [.maxAuthAge (Duration.ofSeconds 600)]
    let text := "eyJhbGciOiJub25lIn0.eyJhdWQiOiJhcHAiLCJhdXRoX3RpbWUiOjE2OTk5OTk0MDAsImV4cCI6MTcwMDA"
      ++ "wMDYwMCwiaXNzIjoiaHR0cHM6Ly9pZHAuZXhhbXBsZSIsInN1YiI6ImFsaWNlIn0."
    let last : Instant := ⟨1700000060, 0, by decide, by decide, by decide⟩
    let next : Instant := ⟨1700000060, 1, by decide, by decide, by decide⟩
    Setting.last? Setting.maxAuthAge? l = some (Duration.ofSeconds 600)
      ∧ last.isLeap = false ∧ next.isLeap = false
      ∧ (∃ t, ((v.setAll l).validateAt text none last ()).1 = .ok t)
      ∧ ((v.setAll l).validateAt text none next ()).1 = .error (.claim .authTimeTooOld) := by
  intro v l text last next
  have hage : Setting.last? Setting.maxAuthAge? l = some (Duration.ofSeconds 600) := rfl
  have hlast : last.isLeap = false := rfl
  have hnext : next.isLeap = false := rfl
  have hasks := fun (now : Instant) (hnow : now.isLeap = false) =>
    asksAge_of_maxAuthAge (σ := Unit) v.issuer v.clientId none hage hnow text none ()
  let auth : Instant := ⟨1699999400, 0, by decide, by decide, by decide⟩
  have hstated : ∀ now ∈ [last, next],
      ((((v.setAll l).withoutMaxAuthAge.validateAt text none now ()).1.toOption.bind fun t =>
        authTime? t.claims.claims) = some auth) := by
    decide +kernel
  obtain ⟨t, ht, hdate⟩ := exists_date?_of_authTime? (hstated last (by decide))
  obtain ⟨t', ht', hdate'⟩ := exists_date?_of_authTime? (hstated next (by decide))
  exact ⟨hage, hlast, hnext,
    ⟨t, ((hasks last hlast).accepts_iff t).2 ⟨ht, auth, hdate, by decide⟩⟩,
    (hasks next hnext).of_old t' auth ht' hdate' (by decide)⟩

/-- An age of minus one second leads out of the calendar from the first second of it, where someone
was authenticated. The token is accepted though every instant lies after the exact sum. -/
theorem not_recent_of_accepted :
    let v : IdTokenValidator Unit :=
      unsecured ⟨"https://idp.example", by decide⟩ ⟨"app", by decide⟩
    let age := Duration.ofSeconds (-1)
    let text := "eyJhbGciOiJub25lIn0.eyJhdWQiOiJhcHAiLCJhdXRoX3RpbWUiOi04MzM0NjAxMjI4ODAwLCJleHAiOjE"
      ++ "3MDAwMDA2MDAsImlzcyI6Imh0dHBzOi8vaWRwLmV4YW1wbGUiLCJzdWIiOiJhbGljZSJ9."
    let now : Instant := ⟨1700000000, 0, by decide, by decide, by decide⟩
    now.isLeap = false
      ∧ (∃ t, ((v.withMaxAuthAge age).validateAt text none now ()).1 = .ok t
        ∧ t.claims.claims.date? "auth_time" = .ok (some .earliest))
      ∧ ¬ now.total ≤ Instant.earliest.total + age + (v.withMaxAuthAge age).skew := by
  intro v age text now
  exact ⟨rfl, exists_date?_of_authTime? (by decide +kernel), by decide⟩

end IdTokenValidator

end Credential
