import Credential.Proofs.Claims.Reading
import Credential.Proofs.Number.Binary64
import Credential.Proofs.Time.Window

/-!
# Dates in exact seconds

A NumericDate may be an integer of 64 bits, a greater one that is rounded to a double first, or a
double that is cut off at the ends of 64 bits. None of this shows: the calendar lies well within 64
bits, so that the instant is always the start of the second that the exact number falls into
(`dateOfNumber?_eq`), and a number outside of the calendar is no date at all.
-/

namespace Credential

/-! ## Seconds of the calendar -/

/-- The calendar has the second. -/
def Calendar.Contains (second : Int) : Prop := firstSecond ≤ second ∧ second ≤ lastSecond

instance (second : Int) : Decidable (Calendar.Contains second) :=
  inferInstanceAs (Decidable (_ ∧ _))

/-- The calendar lies well within 64 bits. -/
theorem Calendar.Contains.lt_and_lt {second : Int} (h : Calendar.Contains second) :
    -9223372036854775808 < second ∧ second < 9223372036854775807 := by
  unfold Contains firstSecond lastSecond at h
  omega

namespace Instant

variable {s : Int} {t : Instant}

/-- The instant is the start of the second. -/
def Starts (t : Instant) (second : Int) : Prop := t.second = second ∧ t.nano = 0

theorem ofSecond?_eq_some_iff : ofSecond? s = some t ↔ t.Starts s := ofParts?_eq_some_iff

theorem ofSecond?_eq_none_iff : ofSecond? s = none ↔ ¬ Calendar.Contains s := by
  unfold ofSecond? ofParts? Calendar.Contains
  split
  · next h => exact iff_of_false (Option.some_ne_none _) (not_not_intro ⟨h.1, h.2.1⟩)
  · next h => exact iff_of_true rfl fun hs => h ⟨hs.1, hs.2, by decide⟩

theorem exists_starts (h : Calendar.Contains s) : ∃ t : Instant, t.Starts s :=
  ⟨⟨s, 0, h.1, h.2, by decide⟩, rfl, rfl⟩

/-- What is cut off at the ends of 64 bits is no second of the calendar either way. -/
theorem ofSecond?_clamp (s : Int) :
    ofSecond? (max (-9223372036854775808) (min s 9223372036854775807)) = ofSecond? s := by
  by_cases h : -9223372036854775808 ≤ s ∧ s ≤ 9223372036854775807
  · rw [Int.min_eq_left h.2, Int.max_eq_right h.1]
  · have hclamped : ¬ Calendar.Contains
        (max (-9223372036854775808) (min s 9223372036854775807)) :=
      mt Calendar.Contains.lt_and_lt (by omega)
    have hs : ¬ Calendar.Contains s := mt Calendar.Contains.lt_and_lt (by omega)
    rw [ofSecond?_eq_none_iff.2 hclamped, ofSecond?_eq_none_iff.2 hs]

theorem Starts.contains (h : t.Starts s) : Calendar.Contains s :=
  h.1 ▸ ⟨t.first_le, t.le_last⟩

theorem Starts.unique {u : Instant} (ht : t.Starts s) (hu : u.Starts s) : t = u :=
  ext (ht.1.trans hu.1.symm) (ht.2.trans hu.2.symm)

theorem Starts.le {u : Instant} {s' : Int} (ht : t.Starts s) (hu : u.Starts s') (h : s ≤ s') :
    t ≤ u := by
  rw [le_def, ht.1, ht.2, hu.1]
  omega

end Instant

/-! ## Numbers -/

namespace Json.Number

/-- The number itself. -/
def value : Number → ℚ
  | .int n _ => n
  | .double x => x.toRat

variable {n : Int} {hfits : Fits n}

theorem asInt64?_eq_none_iff : (Number.int n hfits).asInt64? = none ↔ 9223372036854775807 < n := by
  rw [asInt64?]
  split
  · exact iff_of_false (fun h => nomatch h) (by omega)
  · exact iff_of_true rfl (by omega)

/-- An integer beyond the signed ones of 64 bits is so as a double too. -/
theorem lt_floor_asDouble {x : Binary64} (h : 9223372036854775807 < n)
    (hx : (Number.int n hfits).asDouble? = some x) : 9223372036854775807 < x.floor := by
  obtain ⟨hsign, hmagnitude⟩ :=
    Binary64.le_magnitude_of_ofNat (k := 63) (by decide) (by omega) hx
  have hpositive : ¬ n < 0 := by omega
  rw [Binary64.floor_eq, Binary64.toRat, hsign, if_neg (by simpa using hpositive),
    Int.lt_iff_add_one_le, Int.le_floor]
  push_cast
  linarith

end Json.Number

namespace Claims

/-- **A date is the start of the second that the exact number falls into.** -/
theorem dateOfNumber?_eq (n : Json.Number) : dateOfNumber? n = Instant.ofSecond? ⌊n.value⌋ := by
  unfold dateOfNumber? wholeSeconds?
  cases n with
  | double x =>
    show Instant.ofSecond? x.floorInt64 = Instant.ofSecond? ⌊x.toRat⌋
    rw [← Binary64.floor_eq]
    exact Instant.ofSecond?_clamp x.floor
  | int n hfits =>
    show _ = Instant.ofSecond? ⌊(n : ℚ)⌋
    rw [Int.floor_intCast]
    cases h : (Json.Number.int n hfits).asInt64? with
    | some s =>
      obtain ⟨-, hs⟩ := Option.ite_none_right_eq_some.1 h
      rw [← Option.some.inj hs]
      rfl
    | none =>
      have hn := Json.Number.asInt64?_eq_none_iff.1 h
      rw [Instant.ofSecond?_eq_none_iff.2 fun hin => by have := hin.lt_and_lt; omega]
      cases hx : (Json.Number.int n hfits).asDouble? with
      | none => rfl
      | some x =>
        show Instant.ofSecond? x.floorInt64 = none
        have hx' := Json.Number.lt_floor_asDouble hn hx
        rw [Binary64.floorInt64, Instant.ofSecond?_clamp, Instant.ofSecond?_eq_none_iff]
        exact fun hin => by have := hin.lt_and_lt; omega

theorem dateOfNumber?_eq_some_iff {n : Json.Number} {t : Instant} :
    dateOfNumber? n = some t ↔ t.Starts ⌊n.value⌋ := by
  rw [dateOfNumber?_eq, Instant.ofSecond?_eq_some_iff]

/-- A number is read as the date that it is. -/
theorem readDate_number_eq_ok_iff {name : String} {n : Json.Number} {o : Option Instant} :
    (do return some (← readDate name (.number n)) : Except Error (Option Instant)) = .ok o
      ↔ ∃ t : Instant, t.Starts ⌊n.value⌋ ∧ o = some t := by
  rw [bind_eq_ok_iff]
  refine exists_congr fun t => and_congr (orRefuse_eq_ok_iff.trans dateOfNumber?_eq_some_iff) ?_
  exact ⟨fun h => (Except.ok.inj h).symm, fun h => congrArg _ h.symm⟩

/-! ## Claims that are dates -/

section

variable {ms : Json.Members} {c : Claims} {n : Json.Number} {d : DateClaim} {name : String}
  {o : Option Instant}

theorem readOptionalDate_eq_ok_iff (h : ms.get? name = some (.number n)) :
    readOptionalDate ms name = .ok o ↔ ∃ t : Instant, t.Starts ⌊n.value⌋ ∧ o = some t := by
  rw [readOptionalDate, h]
  exact readDate_number_eq_ok_iff

theorem date?_eq_ok_iff (h : c.get? name = some (.number n)) :
    c.date? name = .ok o ↔ ∃ t : Instant, t.Starts ⌊n.value⌋ ∧ o = some t := by
  rw [date?, h]
  exact readDate_number_eq_ok_iff

theorem date?_of_not_contains (h : c.get? name = some (.number n))
    (hout : ¬ Calendar.Contains ⌊n.value⌋) :
    c.date? name = .error (.malformed (.dateOutOfRange name)) := by
  rw [date?, h]
  show (do return some (← readDate name (.number n))) = _
  rw [readDate, dateOfNumber?_eq, Instant.ofSecond?_eq_none_iff.2 hout]
  rfl

/-- A number in place of a registered date decides that date and nothing else. -/
theorem ofMembers_number_eq_ok_iff (h : ms.get? d.name = some (.number n)) :
    ofMembers ms = .ok c ↔ ∃ t : Instant, t.Starts ⌊n.value⌋
      ∧ ∃ rest, ofMembers (ms.erase d.name) = .ok rest ∧ c = d.set (some t) rest := by
  simp only [ofMembers_eq_ok_iff]
  rw [readFrom_iff_erase d, readOptionalDate_eq_ok_iff h]
  constructor
  · rintro ⟨⟨t, ht, hget⟩, hrest⟩
    exact ⟨t, ht, _, hrest, by rw [d.set_set, ← hget, d.set_get?]⟩
  · rintro ⟨t, ht, rest, hrest, rfl⟩
    refine ⟨⟨t, ht, d.get?_set _ _⟩, ?_⟩
    rw [d.set_set, ← hrest.get?_of_erased, d.set_get?]
    exact hrest

end

/-! ## No date wraps -/

/-- **Dates are exact.** A number is read as the start of the second that it falls into, and is
refused if the calendar does not have that second. -/
structure ReadsExactDates (read : Json.Members → Result Claims)
    (date? : Claims → String → Result (Option Instant)) : Prop where
  /-- A registered date is read so, whatever the other members are read as. -/
  registered : ∀ (d : DateClaim) ms n, ms.get? d.name = some (.number n) →
    Calendar.Contains ⌊n.value⌋ → ∃ t : Instant, t.Starts ⌊n.value⌋ ∧ ∀ c, read ms = .ok c ↔
      ∃ rest, read (ms.erase d.name) = .ok rest ∧ c = d.set (some t) rest
  registered_out : ∀ (d : DateClaim) ms n, ms.get? d.name = some (.number n) →
    ¬ Calendar.Contains ⌊n.value⌋ → ∃ cause, read ms = .error (.malformed cause)
  /-- So is a date under any other name. -/
  other : ∀ c name n, c.get? name = some (.number n) → Calendar.Contains ⌊n.value⌋ →
    ∃ t : Instant, t.Starts ⌊n.value⌋ ∧ date? c name = .ok (some t)
  other_out : ∀ c name n, c.get? name = some (.number n) → ¬ Calendar.Contains ⌊n.value⌋ →
    date? c name = .error (.malformed (.dateOutOfRange name))
  /-- A greater number is no earlier date. -/
  registered_mono : ∀ (d : DateClaim) ms ms' n n' c c' t t', ms.get? d.name = some (.number n) →
    ms'.get? d.name = some (.number n') → n.value ≤ n'.value → read ms = .ok c →
    read ms' = .ok c' → d.get? c = some t → d.get? c' = some t' → t ≤ t'
  other_mono : ∀ c c' name name' n n' t t', c.get? name = some (.number n) →
    c'.get? name' = some (.number n') → n.value ≤ n'.value → date? c name = .ok (some t) →
    date? c' name' = .ok (some t') → t ≤ t'

/-- **No number wraps around to another date.** -/
theorem readsExactDates : ReadsExactDates ofMembers date? where
  registered := fun d ms n h hin => by
    obtain ⟨t, ht⟩ := Instant.exists_starts hin
    refine ⟨t, ht, fun c => ?_⟩
    rw [ofMembers_number_eq_ok_iff h]
    constructor
    · rintro ⟨t', ht', hc⟩
      rwa [ht.unique ht']
    · exact fun hc => ⟨t, ht, hc⟩
  registered_out := fun d ms n h hout => by
    cases hread : ofMembers ms with
    | error e =>
      obtain ⟨cause, rfl⟩ := onlyMalformed_ofMembers ms e hread
      exact ⟨cause, rfl⟩
    | ok c =>
      obtain ⟨t, ht, -⟩ := (ofMembers_number_eq_ok_iff h).1 hread
      exact absurd ht.contains hout
  other := fun c name n h hin => by
    obtain ⟨t, ht⟩ := Instant.exists_starts hin
    exact ⟨t, ht, (date?_eq_ok_iff h).2 ⟨t, ht, rfl⟩⟩
  other_out := fun c name n h hout => date?_of_not_contains h hout
  registered_mono := fun d ms ms' n n' c c' t t' h h' hle hread hread' ht ht' => by
    obtain ⟨u, hu, rest, -, rfl⟩ := (ofMembers_number_eq_ok_iff h).1 hread
    obtain ⟨u', hu', rest', -, rfl⟩ := (ofMembers_number_eq_ok_iff h').1 hread'
    rw [d.get?_set] at ht ht'
    obtain rfl := Option.some.inj ht
    obtain rfl := Option.some.inj ht'
    exact hu.le hu' (Int.floor_le_floor hle)
  other_mono := fun c c' name name' n n' t t' h h' hle ht ht' => by
    obtain ⟨u, hu, hsame⟩ := (date?_eq_ok_iff h).1 ht
    obtain ⟨u', hu', hsame'⟩ := (date?_eq_ok_iff h').1 ht'
    obtain rfl := Option.some.inj hsame
    obtain rfl := Option.some.inj hsame'
    exact hu.le hu' (Int.floor_le_floor hle)

/-- Three quarters into a second, and the greatest integer of 64 bits, which would wrap around to
the second before the epoch: the one is read as the start of the second, and the other is
refused. -/
theorem readsExactDates_fraction :
    let n : Json.Number := .double ⟨false, 7130316803145728, -22⟩
    let ms : Json.Members := [("exp", .number n), ("iss", .string "https://idp.example"),
      ("sub", .string "alice")]
    let start : Instant := ⟨1700000000, 0, by decide, by decide, by decide⟩
    n.value = 1700000000.75
      ∧ (∃ c, ofMembers ms = .ok c ∧ c.expiration = some start ∧ c.subject.isSome = true)
      ∧ ∃ cause, ofMembers (ms.insert "exp" (.number (.int 18446744073709551615 (by decide))))
        = .error (.malformed cause) := by
  intro n ms start
  have hvalue : n.value = 1700000000.75 := by
    simp only [n, Json.Number.value, Binary64.toRat, Binary64.magnitude]
    norm_num
  have hfloor : ⌊n.value⌋ = start.second := by
    rw [hvalue]
    norm_num [start]
  have hin : Calendar.Contains ⌊n.value⌋ := hfloor ▸ by decide
  obtain ⟨t, ht, hread⟩ := readsExactDates.registered .expiration ms n rfl hin
  obtain rfl : t = start := (hfloor ▸ ht).unique ⟨rfl, rfl⟩
  obtain ⟨rest, hrest, hsubject⟩ :
      ∃ rest, ofMembers (ms.erase "exp") = .ok rest ∧ rest.subject.isSome = true := ⟨_, rfl, rfl⟩
  refine ⟨hvalue, ⟨_, (hread _).2 ⟨rest, hrest, rfl⟩, rfl, hsubject⟩, ?_⟩
  refine readsExactDates.registered_out .expiration _ (.int 18446744073709551615 (by decide)) rfl ?_
  show ¬ Calendar.Contains ⌊((18446744073709551615 : Int) : ℚ)⌋
  rw [Int.floor_intCast]
  decide

end Claims

end Credential
