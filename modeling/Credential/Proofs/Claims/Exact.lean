import Credential.Proofs.Checks
import Credential.Proofs.Time.Window
import Mathlib.Data.List.Forall2

/-!
# Claims in exact time

Outside of leap seconds an instant is as good as its nanoseconds since the epoch, and so the checks
of the validity window can be said without a calendar: they compare sums of integers. Adding a skew
may lead out of the calendar, where the checks have no sum to compare, but the exact sum is then
beyond every instant (`Instant.add?_exact`), and they decide as it would.

So a claims verifier does what its list of demands says (`Demand`, `ClaimsVerifier.demands`): it
accepts claims that meet all of them and reports the first that they do not meet
(`ClaimsVerifier.verifyAt_exact`).
-/

namespace Credential

/-! ## Exact time -/

namespace Instant

theorem earliest_total_le (t : Instant) : earliest.total ≤ t.total := by
  have hfirst := t.first_le
  simp only [total, earliest]
  omega

/-- Adding a duration is exact, and where it leads out of the calendar the exact sum lies before its
start or after every instant. -/
theorem add?_signed {t : Instant} {d : Int} (ht : t.isLeap = false) :
    (∃ a, t.add? d = some a ∧ a.isLeap = false ∧ a.total = t.total + d)
      ∨ (t.add? d = none ∧ (t.total + d < earliest.total
        ∨ ∀ u : Instant, u.isLeap = false → u.total < t.total + d)) := by
  rw [add?_of_isLeap_eq_false ht]
  cases ha : ofTotal? (t.total + d) with
  | some a => exact Or.inl ⟨a, rfl, ofTotal?_eq_some_iff.1 ha⟩
  | none =>
    refine Or.inr ⟨rfl, or_iff_not_imp_left.2 fun hin u hu => Int.not_le.1 fun hle => ?_⟩
    have hlast := u.le_last
    rw [isLeap_eq_false_iff] at hu
    simp only [total, earliest] at hin hle ha
    -- a sum that is neither before the start nor after some instant is in the calendar
    obtain ⟨a, ha'⟩ := exists_ofTotal? (n := t.second * 1000000000 + t.nano + d) (by omega)
      (by omega)
    rw [ha] at ha'
    cases ha'

/-- Adding a duration that is not negative is exact, and where it leads out of the calendar every
instant lies before the exact sum. -/
theorem add?_exact {t : Instant} {d : Int} (ht : t.isLeap = false) (hd : 0 ≤ d) :
    (∃ a, t.add? d = some a ∧ a.isLeap = false ∧ a.total = t.total + d)
      ∨ (t.add? d = none ∧ ∀ u : Instant, u.isLeap = false → u.total < t.total + d) := by
  have hstart := t.earliest_total_le
  exact (add?_signed ht).imp_right <| And.imp_right fun h => h.resolve_left (by omega)

end Instant

namespace Window

variable {now : Instant} {skew : Int} (hnow : now.isLeap = false) (hskew : 0 ≤ skew)

include hnow hskew

theorem isExpired_eq_false_iff_exact {e : Instant} (he : e.isLeap = false) :
    isExpired e now skew = false ↔ now.total < e.total + skew := by
  unfold isExpired
  rcases Instant.add?_exact he hskew with ⟨limit, hlimit, hleap, htotal⟩ | ⟨hnone, hbeyond⟩
  · rw [hlimit]
    show decide (limit ≤ now) = false ↔ _
    rw [decide_eq_false_iff_not, Instant.not_le, Instant.lt_iff_total hnow hleap, htotal]
  · rw [hnone]
    exact iff_of_true rfl (hbeyond now hnow)

theorem isNotYetValid_eq_false_iff_exact {n : Instant} (hn : n.isLeap = false) :
    isNotYetValid n now skew = false ↔ n.total ≤ now.total + skew := by
  unfold isNotYetValid
  rcases Instant.add?_exact hnow hskew with ⟨shifted, hshifted, hleap, htotal⟩ | ⟨hnone, hbeyond⟩
  · rw [hshifted]
    show decide (shifted < n) = false ↔ _
    rw [decide_eq_false_iff_not, Instant.not_lt, Instant.le_iff_total hn hleap, htotal]
  · rw [hnone]
    exact iff_of_true rfl (Int.le_of_lt (hbeyond n hn))

/-- The issue is compared as the start is. -/
theorem isIssuedInFuture_eq_false_iff_exact {i : Instant} (hi : i.isLeap = false) :
    isIssuedInFuture i now skew = false ↔ i.total ≤ now.total + skew :=
  isNotYetValid_eq_false_iff_exact hnow hskew hi

end Window

/-! ## Demands -/

/-- What is demanded of claims, and the violation where it is not met. -/
structure Demand where
  violation : ClaimViolation
  isMet : Prop

/-- The first of the demands that is not met is one for this violation. -/
inductive FirstUnmet (violation : ClaimViolation) : List Demand → Prop
  | here {d : Demand} {ds : List Demand} (unmet : ¬ d.isMet) (names : d.violation = violation) :
    FirstUnmet violation (d :: ds)
  | later {d : Demand} {ds : List Demand} (met : d.isMet) (rest : FirstUnmet violation ds) :
    FirstUnmet violation (d :: ds)

/-- Where not all demands are met, one of them is the first that is not. -/
theorem exists_firstUnmet {ds : List Demand} (h : ¬ ∀ d ∈ ds, d.isMet) :
    ∃ violation, FirstUnmet violation ds := by
  induction ds with
  | nil => exact absurd (fun d hd => nomatch hd) h
  | cons d ds ih =>
    by_cases hmet : d.isMet
    · rw [List.forall_mem_cons] at h
      obtain ⟨violation, hrest⟩ := ih fun hall => h ⟨hmet, hall⟩
      exact ⟨violation, .later hmet hrest⟩
    · exact ⟨d.violation, .here hmet rfl⟩

/-- The check reports the demand's violation, and passes exactly if the demand is met. -/
def Check.Tests (k : Check) (d : Demand) : Prop :=
  k.reports = .claim d.violation ∧ (k.fails = false ↔ d.isMet)

section

variable {ks : List Check} {ds : List Demand} (h : List.Forall₂ Check.Tests ks ds)

include h

theorem runChecks_eq_ok_iff_forall_isMet {u : Unit} :
    runChecks ks = .ok u ↔ ∀ d ∈ ds, d.isMet := by
  induction h with
  | nil => exact iff_of_true rfl (fun d hd => nomatch hd)
  | @cons k d ks ds hk _ ih =>
    rw [List.forall_mem_cons, ← hk.2, ← ih]
    cases hfails : k.fails with
    | true => simp [runChecks_cons_of_fails hfails]
    | false => simp [runChecks_cons_of_passes hfails]

theorem runChecks_eq_error_iff_firstUnmet {violation : ClaimViolation} :
    runChecks ks = .error (.claim violation) ↔ FirstUnmet violation ds := by
  induction h with
  | nil => exact iff_of_false (fun h => nomatch h) (fun h => nomatch h)
  | @cons k d ks ds hk _ ih =>
    cases hfails : k.fails with
    | true =>
      have hunmet : ¬ d.isMet := fun hmet => by
        rw [hk.2.2 hmet] at hfails
        cases hfails
      rw [runChecks_cons_of_fails hfails, hk.1]
      constructor
      · intro he
        exact .here hunmet (Error.claim.inj (Except.error.inj he))
      · rintro (⟨-, rfl⟩ | ⟨hmet, -⟩)
        · rfl
        · exact absurd hmet hunmet
    | false =>
      have hmet := hk.2.1 hfails
      rw [runChecks_cons_of_passes hfails, ih]
      constructor
      · exact .later hmet
      · rintro (⟨hunmet, -⟩ | ⟨-, hrest⟩)
        · exact absurd hmet hunmet
        · exact hrest

end

/-! ## Claims -/

/-- The dates of the claims lie outside of leap seconds. -/
structure Claims.OutsideLeap (c : Claims) : Prop where
  expiration : ∀ e, c.expiration = some e → e.isLeap = false
  notBefore : ∀ n, c.notBefore = some n → n.isLeap = false
  issuedAt : ∀ i, c.issuedAt = some i → i.isLeap = false

namespace ClaimsVerifier

variable (v : ClaimsVerifier) (skew : Int) (c : Claims) (nonce : Option Nonce) (now : Instant)

/-- What is demanded of claims, in order, with the times in nanoseconds. -/
def demands : List Demand :=
  [⟨.missingOrWrongIssuer, c.issuer = some v.issuer⟩,
    ⟨.missingSubject, c.subject.isSome = true⟩,
    ⟨.missingAudience, c.audience ≠ []⟩,
    ⟨.authorizedPartyMismatch, ∀ client, v.authorizedParty = some client →
      1 < c.audience.length → c.text? "azp" = some client.value⟩,
    ⟨.audienceMismatch, ∃ a ∈ c.audience, a ∈ v.audience.members⟩,
    ⟨.missingExpiration, c.expiration.isSome = true⟩,
    ⟨.expired, ∀ e, c.expiration = some e → now.total < e.total + skew⟩,
    ⟨.notYetValid, ∀ n, c.notBefore = some n → n.total ≤ now.total + skew⟩,
    ⟨.issuedInFuture, ∀ i, c.issuedAt = some i → i.total ≤ now.total + skew⟩,
    ⟨.missingNonce, nonce.isSome = true → (c.text? "nonce").isSome = true⟩,
    ⟨.nonceMismatch, ∀ n, nonce = some n → c.text? "nonce" = some n.value⟩]

/-- The claims name the expected issuer and some subject, are for an accepted audience and the
expected party, and hold at the instant in exact time; and they have the nonce that is expected, if
one is. -/
structure AdmitsExactly : Prop where
  issuer : c.issuer = some v.issuer
  subject : c.subject.isSome = true
  audience : ∃ a ∈ c.audience, a ∈ v.audience.members
  authorizedParty : ∀ client, v.authorizedParty = some client → 1 < c.audience.length →
    c.text? "azp" = some client.value
  expiration : ∃ e, c.expiration = some e ∧ now.total < e.total + skew
  notBefore : ∀ n, c.notBefore = some n → n.total ≤ now.total + skew
  issuedAt : ∀ i, c.issuedAt = some i → i.total ≤ now.total + skew
  nonce : ∀ n, nonce = some n → c.text? "nonce" = some n.value

variable {v skew c nonce now}

/-- Some of the demands follow from others. -/
theorem forall_demands_isMet_iff :
    (∀ d ∈ v.demands skew c nonce now, d.isMet) ↔ v.AdmitsExactly skew c nonce now := by
  simp only [demands, List.forall_mem_cons]
  constructor
  · rintro ⟨hissuer, hsubject, -, hparty, haudience, hends, hexpiration, hstart, hissued, -, hnonce, -⟩
    obtain ⟨e, he⟩ := Option.isSome_iff_exists.1 hends
    exact ⟨hissuer, hsubject, haudience, hparty, ⟨e, he, hexpiration e he⟩, hstart, hissued, hnonce⟩
  · intro h
    obtain ⟨a, ha, hshared⟩ := h.audience
    obtain ⟨e, he, hexpiration⟩ := h.expiration
    refine ⟨h.issuer, h.subject, List.ne_nil_of_mem ha, h.authorizedParty, ⟨a, ha, hshared⟩,
      Option.isSome_of_eq_some he, fun e' he' => ?_, h.notBefore, h.issuedAt, fun hn => ?_, h.nonce,
      fun d hd => nomatch hd⟩
    · obtain rfl := Option.some.inj (he.symm.trans he')
      exact hexpiration
    · obtain ⟨n, hn⟩ := Option.isSome_iff_exists.1 hn
      exact Option.isSome_of_eq_some (h.nonce n hn)

/-- A check of what may be missing passes exactly if it does for what is there. -/
theorem any_eq_false_iff {α : Type} {o : Option α} {f : α → Bool} {p : α → Prop}
    (h : ∀ a, o = some a → (f a = false ↔ p a)) : o.any f = false ↔ ∀ a, o = some a → p a := by
  cases o with
  | none => exact iff_of_true rfl (fun a ha => nomatch ha)
  | some a =>
    rw [Option.any_some, h a rfl]
    exact ⟨fun hp b hb => Option.some.inj hb ▸ hp, fun hp => hp a rfl⟩

/-- The checks test the demands one by one. -/
theorem tests_checks (hnow : now.isLeap = false) (hc : c.OutsideLeap) :
    List.Forall₂ Check.Tests (v.checks c nonce now) (v.demands v.skew c nonce now) := by
  have hparty : (v.authorizedParty.any fun client =>
      1 < c.audience.length && c.text? "azp" != some client.value) = false
        ↔ ∀ client, v.authorizedParty = some client → 1 < c.audience.length →
          c.text? "azp" = some client.value :=
    any_eq_false_iff fun client _ => by simp
  have haudience : (!v.audience.intersects c.audience) = false
      ↔ ∃ a ∈ c.audience, a ∈ v.audience.members := by
    rw [Bool.not_eq_false', AudienceSet.intersects_iff]
  have hmissing : (nonce.isSome && (c.text? "nonce").isNone) = false
      ↔ (nonce.isSome = true → (c.text? "nonce").isSome = true) := by
    cases nonce <;> cases c.text? "nonce" <;> simp
  have htimes : List.Forall₂ Check.Tests
      (timeChecks c.expiration c.notBefore c.issuedAt now v.skew)
      [⟨.missingExpiration, c.expiration.isSome = true⟩,
        ⟨.expired, ∀ e, c.expiration = some e → now.total < e.total + v.skew⟩,
        ⟨.notYetValid, ∀ n, c.notBefore = some n → n.total ≤ now.total + v.skew⟩,
        ⟨.issuedInFuture, ∀ i, c.issuedAt = some i → i.total ≤ now.total + v.skew⟩] :=
    .cons ⟨rfl, Option.isNone_eq_false_iff⟩ <|
    .cons ⟨rfl, any_eq_false_iff fun e he =>
      Window.isExpired_eq_false_iff_exact hnow v.skew_nonneg (hc.expiration e he)⟩ <|
    .cons ⟨rfl, any_eq_false_iff fun n hn =>
      Window.isNotYetValid_eq_false_iff_exact hnow v.skew_nonneg (hc.notBefore n hn)⟩ <|
    .cons ⟨rfl, any_eq_false_iff fun i hi =>
      Window.isIssuedInFuture_eq_false_iff_exact hnow v.skew_nonneg (hc.issuedAt i hi)⟩ .nil
  exact .cons ⟨rfl, bne_eq_false_iff_eq⟩ <|
    .cons ⟨rfl, Option.isNone_eq_false_iff⟩ <|
    .cons ⟨rfl, List.isEmpty_eq_false_iff⟩ <|
    .cons ⟨rfl, hparty⟩ <|
    .cons ⟨rfl, haudience⟩ <|
    List.rel_append htimes <|
    .cons ⟨rfl, hmissing⟩ <|
    .cons ⟨rfl, any_eq_false_iff fun n _ => bne_eq_false_iff_eq⟩ .nil

/-- Outside of leap seconds the checks of the window are those of exact time. -/
theorem admits_iff_admitsExactly (hnow : now.isLeap = false) (hc : c.OutsideLeap) :
    v.Admits c nonce now ↔ v.AdmitsExactly v.skew c nonce now := by
  have hruns : v.Admits c nonce now ↔ runChecks (v.checks c nonce now) = .ok () := by
    rw [← verifyAt_eq_runChecks, verifyAt_eq_ok_iff]
  rw [hruns, runChecks_eq_ok_iff_forall_isMet (tests_checks hnow hc), forall_demands_isMet_iff]

/-- **Claims are judged as if time were the integers.** They are accepted exactly if they meet the
demands in exact time, and else refused for the first demand that they do not meet. A negative skew
counts as none, and no skew is too long. -/
theorem verifyAt_exact (v : ClaimsVerifier) (skew : Duration) (nonce : Option Nonce)
    (hnow : now.isLeap = false) (hc : c.OutsideLeap) :
    ((v.withSkew skew).verifyAt c nonce now = .ok () ↔ v.AdmitsExactly (max skew 0) c nonce now)
      ∧ (∀ violation, (v.withSkew skew).verifyAt c nonce now = .error (.claim violation)
        ↔ FirstUnmet violation (v.demands (max skew 0) c nonce now))
      ∧ (¬ v.AdmitsExactly (max skew 0) c nonce now →
        ∃ violation, FirstUnmet violation (v.demands (max skew 0) c nonce now)) := by
  have htests : List.Forall₂ Check.Tests ((v.withSkew skew).checks c nonce now)
      (v.demands (max skew 0) c nonce now) := tests_checks hnow hc
  rw [verifyAt_eq_runChecks, ← forall_demands_isMet_iff]
  exact ⟨runChecks_eq_ok_iff_forall_isMet htests,
    fun _ => runChecks_eq_error_iff_firstUnmet htests, exists_firstUnmet⟩

/-- At the end of the calendar any skew leads out of it. Claims that end there are still accepted
there with one, and expired without one. -/
theorem verifyAt_exact_latest :
    let app : Audience := ⟨"app", by decide⟩
    let v : ClaimsVerifier := .make ⟨"https://op.example", by decide⟩ (.singleton app) 0
    let c : Claims :=
      ⟨some v.issuer, some ⟨"alice", by decide⟩, [app], some .latest, some .latest, none, none, []⟩
    Instant.latest.isLeap = false ∧ c.OutsideLeap
      ∧ (v.withSkew 1).verifyAt c none .latest = .ok ()
      ∧ (v.withSkew (-1)).verifyAt c none .latest = .error (.claim .expired) := by
  intro app v c
  have hnow : Instant.latest.isLeap = false := rfl
  have hc : c.OutsideLeap :=
    ⟨fun _ he => Option.some.inj he ▸ hnow, fun _ hn => Option.some.inj hn ▸ hnow,
      fun _ hi => nomatch hi⟩
  have hadmits : v.AdmitsExactly (max 1 0) c none .latest := {
    issuer := rfl
    subject := rfl
    audience := ⟨app, List.mem_singleton_self app, List.mem_singleton_self app⟩
    authorizedParty := fun _ h => nomatch h
    expiration := ⟨.latest, rfl, by decide⟩
    notBefore := fun _ hn => Option.some.inj hn ▸ (by decide)
    issuedAt := fun _ hi => nomatch hi
    nonce := fun _ h => nomatch h }
  have hunmet : FirstUnmet .expired (v.demands (max (-1) 0) c none .latest) :=
    .later rfl <| .later rfl <| .later (List.cons_ne_nil app []) <| .later (fun _ h => nomatch h) <|
      .later ⟨app, List.mem_singleton_self app, List.mem_singleton_self app⟩ <| .later rfl <|
        .here (fun h => absurd (h .latest rfl) (by decide)) rfl
  exact ⟨hnow, hc, (verifyAt_exact v 1 none hnow hc).1.2 hadmits,
    ((verifyAt_exact v (-1) none hnow hc).2.1 .expired).2 hunmet⟩

end ClaimsVerifier

end Credential
