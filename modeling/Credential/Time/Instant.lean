/-!
# Instants

An instant is a second of the Unix time scale and a number of nanoseconds into it. Within a leap
second, which shares its second with the one before, the nanoseconds run from one to two thousand
millions. Instants compare by second, then by nanosecond.

The calendar is bounded; adding a duration that leads out of it has no result (`add?`).
-/

namespace Credential

/-- A signed duration in nanoseconds. -/
abbrev Duration := Int

/-- A duration of whole seconds. -/
def Duration.ofSeconds (n : Int) : Duration := n * 1000000000

namespace Calendar

/-- The first second of the calendar, the start of year -262143. -/
def firstSecond : Int := -8334601228800

/-- The last second of the calendar, the end of year 262142. -/
def lastSecond : Int := 8210266876799

end Calendar

/-- A point in time within the calendar. -/
structure Instant where
  second : Int
  nano : Nat
  first_le : Calendar.firstSecond ≤ second
  le_last : second ≤ Calendar.lastSecond
  nano_lt : nano < 2000000000
  deriving DecidableEq

namespace Instant

@[ext] theorem ext {a b : Instant} (hs : a.second = b.second) (hn : a.nano = b.nano) : a = b := by
  cases a; cases b; simp_all

/-- The instant with these parts, if they are within the calendar. -/
def ofParts? (second : Int) (nano : Nat) : Option Instant :=
  if h : Calendar.firstSecond ≤ second ∧ second ≤ Calendar.lastSecond ∧ nano < 2000000000 then
    some ⟨second, nano, h.1, h.2.1, h.2.2⟩
  else none

/-- The start of a second. -/
def ofSecond? (second : Int) : Option Instant := ofParts? second 0

/-- The greatest instant outside a leap second. -/
def latest : Instant := ⟨Calendar.lastSecond, 999999999, by decide, by decide, by decide⟩

/-- The least instant. -/
def earliest : Instant := ⟨Calendar.firstSecond, 0, by decide, by decide, by decide⟩

/-- Is the instant within a leap second? -/
def isLeap (t : Instant) : Bool := 1000000000 ≤ t.nano

/-- The start of the instant's second. -/
def floorSecond (t : Instant) : Instant := ⟨t.second, 0, t.first_le, t.le_last, by decide⟩

/-! ## Order -/

/-- By second, then by nanosecond. -/
def le (a b : Instant) : Prop := a.second < b.second ∨ (a.second = b.second ∧ a.nano ≤ b.nano)

def lt (a b : Instant) : Prop := a.second < b.second ∨ (a.second = b.second ∧ a.nano < b.nano)

instance : LE Instant := ⟨le⟩
instance : LT Instant := ⟨lt⟩

theorem le_def {a b : Instant} :
    a ≤ b ↔ a.second < b.second ∨ (a.second = b.second ∧ a.nano ≤ b.nano) := Iff.rfl

theorem lt_def {a b : Instant} :
    a < b ↔ a.second < b.second ∨ (a.second = b.second ∧ a.nano < b.nano) := Iff.rfl

instance (a b : Instant) : Decidable (a ≤ b) := decidable_of_iff _ le_def.symm
instance (a b : Instant) : Decidable (a < b) := decidable_of_iff _ lt_def.symm

theorem not_lt {a b : Instant} : ¬ a < b ↔ b ≤ a := by rw [lt_def, le_def]; omega
theorem not_le {a b : Instant} : ¬ a ≤ b ↔ b < a := by rw [lt_def, le_def]; omega
theorem le_refl (a : Instant) : a ≤ a := by rw [le_def]; omega
theorem le_trans {a b c : Instant} (h : a ≤ b) (k : b ≤ c) : a ≤ c := by
  rw [le_def] at *; omega
theorem lt_of_lt_of_le {a b c : Instant} (h : a < b) (k : b ≤ c) : a < c := by
  rw [le_def] at *; rw [lt_def] at *; omega
theorem lt_of_le_of_lt {a b c : Instant} (h : a ≤ b) (k : b < c) : a < c := by
  rw [le_def] at *; rw [lt_def] at *; omega

/-! ## Nanoseconds since the epoch -/

/-- The nanoseconds since the epoch. Only outside leap seconds do they keep the order. -/
def total (t : Instant) : Int := t.second * 1000000000 + t.nano

theorem le_iff_total {a b : Instant} (ha : a.isLeap = false) (hb : b.isLeap = false) :
    a ≤ b ↔ a.total ≤ b.total := by
  simp only [isLeap, decide_eq_false_iff_not] at ha hb
  rw [le_def, total, total]
  omega

theorem lt_iff_total {a b : Instant} (ha : a.isLeap = false) (hb : b.isLeap = false) :
    a < b ↔ a.total < b.total := by
  simp only [isLeap, decide_eq_false_iff_not] at ha hb
  rw [lt_def, total, total]
  omega

/-! ## Adding durations -/

/-- The instant at a number of nanoseconds since the epoch, if it is in the calendar. -/
def ofTotal? (n : Int) : Option Instant :=
  ofParts? (n.fdiv 1000000000) (n.fmod 1000000000).toNat

/--
The instant that lies a duration later. From within a leap second a duration of less than a second
may stay within it; any other leaves it, forward as if the leap second were the second it shares its
number with, backward as if it were the next one.
-/
def add? (t : Instant) (d : Duration) : Option Instant :=
  let s := d.tdiv 1000000000
  let f := d.tmod 1000000000
  if 1000000000 ≤ t.nano then
    -- whole seconds forward, or a fraction that passes the end of the leap second
    if 0 < s ∨ (0 < f ∧ 2000000000 ≤ t.nano + f) then ofTotal? (t.total - 1000000000 + d)
    else if s < 0 then ofTotal? (t.total + d)
    else ofParts? t.second (t.nano + f).toNat
  else ofTotal? (t.total + d)

end Instant

end Credential
