import Credential.Time.Window

/-!
# Longer durations

A longer duration leads to a later instant, or out of the calendar (`Instant.exists_add?_le`). So
more skew only widens the validity window. Nothing of this needs the instants to lie outside of leap
seconds: from within one, a duration that stays in it leads less far than one that leaves it.
-/

namespace Credential

namespace Instant

variable {t a b : Instant} {d n : Int}

/-! ## Totals -/

theorem ofParts?_eq_some_iff {second : Int} {nano : Nat} :
    ofParts? second nano = some a ↔ a.second = second ∧ a.nano = nano := by
  unfold ofParts?
  constructor
  · intro h
    split at h
    · obtain rfl := Option.some.inj h
      exact ⟨rfl, rfl⟩
    · cases h
  · rintro ⟨rfl, rfl⟩
    rw [dif_pos ⟨a.first_le, a.le_last, a.nano_lt⟩]

theorem isLeap_eq_false_iff : t.isLeap = false ↔ t.nano < 1000000000 := by
  rw [isLeap, decide_eq_false_iff_not, Nat.not_le]

theorem isLeap_floorSecond (t : Instant) : t.floorSecond.isLeap = false :=
  isLeap_eq_false_iff.2 (Nat.zero_lt_succ _)

theorem isLeap_eq_true_iff : t.isLeap = true ↔ 1000000000 ≤ t.nano := decide_eq_true_iff

/-- A total names the instant outside of leap seconds that has it. -/
theorem ofTotal?_eq_some_iff : ofTotal? n = some a ↔ a.isLeap = false ∧ a.total = n := by
  rw [ofTotal?, ofParts?_eq_some_iff, isLeap_eq_false_iff, total,
    Int.fdiv_eq_ediv_of_nonneg n (by decide), Int.fmod_eq_emod_of_nonneg n (by decide)]
  omega

/-- A total between two that are in the calendar is in it too. -/
theorem exists_ofTotal? (hfirst : Calendar.firstSecond * 1000000000 ≤ n)
    (hlast : n < (Calendar.lastSecond + 1) * 1000000000) : ∃ a, ofTotal? n = some a := by
  rw [ofTotal?, Int.fdiv_eq_ediv_of_nonneg n (by decide),
    Int.fmod_eq_emod_of_nonneg n (by decide), ofParts?]
  have hparts : Calendar.firstSecond ≤ n / 1000000000 ∧ n / 1000000000 ≤ Calendar.lastSecond
      ∧ (n % 1000000000).toNat < 2000000000 := by
    omega
  rw [dif_pos hparts]
  exact ⟨_, rfl⟩

/-! ## Adding -/

theorem add?_of_isLeap_eq_false (ht : t.isLeap = false) : t.add? d = ofTotal? (t.total + d) := by
  rw [isLeap_eq_false_iff] at ht
  exact if_neg (Nat.not_le.2 ht)

/-- A short duration stays within the leap second. -/
theorem add?_of_stays (ht : t.isLeap = true) (hd : 0 ≤ d) (h : t.nano + d < 2000000000) :
    t.add? d = ofParts? t.second (t.nano + d).toNat := by
  rw [isLeap_eq_true_iff] at ht
  have hs : d.tdiv 1000000000 = 0 := by
    rw [Int.tdiv_eq_ediv_of_nonneg hd]
    omega
  have hf : d.tmod 1000000000 = d := by
    rw [Int.tmod_eq_emod_of_nonneg hd]
    omega
  simp only [add?, hs, hf]
  rw [if_pos ht, if_neg (by omega), if_neg (by omega)]

/-- A longer one leaves it, as if it were the second that it shares its number with. -/
theorem add?_of_leaves (ht : t.isLeap = true) (hd : 0 ≤ d) (h : 2000000000 ≤ t.nano + d) :
    t.add? d = ofTotal? (t.total - 1000000000 + d) := by
  rw [isLeap_eq_true_iff] at ht
  have hnano := t.nano_lt
  have hleaves : 0 < d.tdiv 1000000000
      ∨ 0 < d.tmod 1000000000 ∧ 2000000000 ≤ t.nano + d.tmod 1000000000 := by
    rw [Int.tdiv_eq_ediv_of_nonneg hd, Int.tmod_eq_emod_of_nonneg hd]
    omega
  simp only [add?]
  rw [if_pos ht, if_pos hleaves]

theorem add?_zero (t : Instant) : t.add? 0 = some t := by
  cases ht : t.isLeap with
  | false =>
    rw [add?_of_isLeap_eq_false ht, Int.add_zero]
    exact ofTotal?_eq_some_iff.2 ⟨ht, rfl⟩
  | true =>
    have hnano := t.nano_lt
    rw [add?_of_stays ht (Int.le_refl 0) (by omega), Int.add_zero]
    exact ofParts?_eq_some_iff.2 ⟨rfl, rfl⟩

/-- Of two totals that lie after an instant, the lesser one is an instant if the greater one is. -/
theorem exists_ofTotal?_le {m : Int} (ht : t.second * 1000000000 ≤ m) (hmn : m ≤ n)
    (hb : ofTotal? n = some b) : ∃ a, ofTotal? m = some a ∧ a ≤ b := by
  obtain ⟨hleap, rfl⟩ := ofTotal?_eq_some_iff.1 hb
  have hfirst := t.first_le
  have hlast := b.le_last
  obtain ⟨a, ha⟩ := exists_ofTotal? (n := m) (by omega) (by
    rw [isLeap_eq_false_iff] at hleap
    rw [total] at hmn
    omega)
  obtain ⟨hleap', rfl⟩ := ofTotal?_eq_some_iff.1 ha
  exact ⟨a, ha, (le_iff_total hleap' hleap).2 hmn⟩

/-- **A longer duration leads to a later instant.** Where it does not lead out of the calendar, a
shorter one does not either. -/
theorem exists_add?_le {d₁ d₂ : Int} (h₁ : 0 ≤ d₁) (h : d₁ ≤ d₂) (hb : t.add? d₂ = some b) :
    ∃ a, t.add? d₁ = some a ∧ a ≤ b := by
  have h₂ := Int.le_trans h₁ h
  cases ht : t.isLeap with
  | false =>
    rw [add?_of_isLeap_eq_false ht] at hb ⊢
    exact exists_ofTotal?_le (t := t) (by rw [total]; omega) (by omega) hb
  | true =>
    by_cases hstays : t.nano + d₁ < 2000000000
    · rw [add?_of_stays ht h₁ hstays]
      have ha : ofParts? t.second (t.nano + d₁).toNat
          = some ⟨t.second, (t.nano + d₁).toNat, t.first_le, t.le_last, by omega⟩ :=
        ofParts?_eq_some_iff.2 ⟨rfl, rfl⟩
      refine ⟨_, ha, le_def.2 ?_⟩
      by_cases hstays' : t.nano + d₂ < 2000000000
      · rw [add?_of_stays ht h₂ hstays', ofParts?_eq_some_iff] at hb
        exact Or.inr ⟨hb.1.symm, by dsimp only; omega⟩
      · -- the longer duration leads into a later second
        rw [add?_of_leaves ht h₂ (by omega), ofTotal?_eq_some_iff, isLeap_eq_false_iff, total,
          total] at hb
        exact Or.inl (by dsimp only; omega)
    · rw [isLeap_eq_true_iff] at ht
      rw [add?_of_leaves (isLeap_eq_true_iff.2 ht) h₁ (by omega)]
      rw [add?_of_leaves (isLeap_eq_true_iff.2 ht) h₂ (by omega)] at hb
      exact exists_ofTotal?_le (t := t) (by rw [total]; omega) (by omega) hb

/-- What holds of no instant a short duration later holds of none a long one later, if it holds of
earlier instants whenever it holds of later ones. -/
theorem add?_before_of_le {P : Instant → Prop} (hP : ∀ x y, x ≤ y → P y → P x) {d₁ d₂ : Int}
    (h₁ : 0 ≤ d₁) (h : d₁ ≤ d₂) (h₂ : ∃ y, t.add? d₂ = some y ∧ P y) :
    ∃ x, t.add? d₁ = some x ∧ P x := by
  obtain ⟨y, hy, hPy⟩ := h₂
  obtain ⟨x, hx, hxy⟩ := exists_add?_le h₁ h hy
  exact ⟨x, hx, hP x y hxy hPy⟩

end Instant

/-! ## The window -/

namespace Window

variable {now : Instant} {s₁ s₂ : Int}

theorem isExpired_eq_true_iff {e : Instant} {skew : Duration} :
    isExpired e now skew = true ↔ ∃ limit, e.add? skew = some limit ∧ limit ≤ now := by
  unfold isExpired
  cases e.add? skew with
  | none => simp
  | some limit => simp

theorem isNotYetValid_eq_true_iff {n : Instant} {skew : Duration} :
    isNotYetValid n now skew = true ↔ ∃ shifted, now.add? skew = some shifted ∧ shifted < n := by
  unfold isNotYetValid
  cases now.add? skew with
  | none => simp
  | some shifted => simp

/-- What is expired with more skew is expired with less. -/
theorem isExpired_of_le {e : Instant} (h₁ : 0 ≤ s₁) (h : s₁ ≤ s₂)
    (he : isExpired e now s₂ = true) : isExpired e now s₁ = true := by
  rw [isExpired_eq_true_iff] at he ⊢
  exact Instant.add?_before_of_le (fun _ _ hxy hy => Instant.le_trans hxy hy) h₁ h he

/-- What is not yet valid with more skew is not yet valid with less. -/
theorem isNotYetValid_of_le {n : Instant} (h₁ : 0 ≤ s₁) (h : s₁ ≤ s₂)
    (hn : isNotYetValid n now s₂ = true) : isNotYetValid n now s₁ = true := by
  rw [isNotYetValid_eq_true_iff] at hn ⊢
  exact Instant.add?_before_of_le (fun _ _ hxy hy => Instant.lt_of_le_of_lt hxy hy) h₁ h hn

/-- The issue is compared as the start is. -/
theorem isIssuedInFuture_of_le {i : Instant} (h₁ : 0 ≤ s₁) (h : s₁ ≤ s₂)
    (hi : isIssuedInFuture i now s₂ = true) : isIssuedInFuture i now s₁ = true :=
  isNotYetValid_of_le h₁ h hi

/-- What starts at the start of a second has started within it, leap second or not. -/
theorem isNotYetValid_floorSecond {t : Instant} {skew : Duration} (hskew : 0 ≤ skew)
    (h : t.second ≤ now.second) : isNotYetValid t.floorSecond now skew = false := by
  rw [← Bool.not_eq_true]
  intro hfails
  -- more skew only helps
  obtain ⟨shifted, hshifted, hlt⟩ :=
    isNotYetValid_eq_true_iff.1 (isNotYetValid_of_le (Int.le_refl 0) hskew hfails)
  rw [Instant.add?_zero] at hshifted
  obtain rfl := Option.some.inj hshifted
  rw [Instant.lt_def] at hlt
  simp only [Instant.floorSecond] at hlt
  omega

/-- The issue is compared as the start is. -/
theorem isIssuedInFuture_floorSecond {t : Instant} {skew : Duration} (hskew : 0 ≤ skew)
    (h : t.second ≤ now.second) : isIssuedInFuture t.floorSecond now skew = false :=
  isNotYetValid_floorSecond hskew h

theorem clampSkew_le (h : s₁ ≤ s₂) : clampSkew s₁ ≤ clampSkew s₂ :=
  Int.max_le.2 ⟨Int.le_trans h (Int.le_max_left s₂ 0), Int.le_max_right s₂ 0⟩

end Window

end Credential
