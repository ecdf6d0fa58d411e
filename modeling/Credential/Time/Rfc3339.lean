import Credential.Time.Instant

/-!
# Dates and times as text

An instant is written as a date of the Gregorian calendar, a time of day and an offset from
universal time: `2024-02-29T12:30:00.5+01:00`. A fraction may have any number of digits, of which
the first nine count. The second 60 of a minute is a leap second.
-/

namespace Credential.Calendar

/-! ## Dates -/

def isLeapYear (year : Nat) : Bool := year % 4 == 0 && (year % 100 != 0 || year % 400 == 0)

/-- The number of days of a month; months that do not exist have none. -/
def daysInMonth (year month : Nat) : Nat :=
  match month with
  | 2 => if isLeapYear year then 29 else 28
  | 4 | 6 | 9 | 11 => 30
  | m => if 1 ≤ m && m ≤ 12 then 31 else 0

/-- The days from the start of the year zero to that of another. -/
def daysBeforeYear (year : Nat) : Nat :=
  365 * year + (year + 3) / 4 - (year + 99) / 100 + (year + 399) / 400

/-- The days of a year before a month. -/
def daysBeforeMonth (year : Nat) : Nat → Nat
  | 0 | 1 => 0
  | m + 2 => daysBeforeMonth year (m + 1) + daysInMonth year (m + 1)

/-- The days from the start of 1970 to a date, if there is such a date. -/
def dayNumber? (year month day : Nat) : Option Int :=
  if 1 ≤ day ∧ day ≤ daysInMonth year month then
    some (daysBeforeYear year + daysBeforeMonth year month + (day - 1 : Nat) - 719528)
  else none

example : dayNumber? 1970 1 1 = some 0 := by decide
example : dayNumber? 2000 2 29 = some 11016 := by decide
example : dayNumber? 1900 2 29 = none := by decide

end Credential.Calendar

namespace Credential.Rfc3339

/-! ## Fields -/

/-- A number of exactly so many digits at the front of `cs`, added to the one before it. -/
def digits (before : Nat) : Nat → List Char → Option (Nat × List Char)
  | 0, cs => some (before, cs)
  | _ + 1, [] => none
  | n + 1, c :: cs => if c.isDigit then digits (before * 10 + (c.toNat - 48)) n cs else none

/-- Two digits. -/
def pair? (cs : List Char) : Option (Nat × List Char) := digits 0 2 cs

/-- One character of those given. -/
def mark? (allowed : List Char) : List Char → Option (List Char)
  | c :: cs => if allowed.contains c then some cs else none
  | [] => none

/-- The nanoseconds that the digits of a fraction make. -/
def fraction (ds : List Char) : Nat :=
  let ds := ds.take 9
  ds.foldl (fun n c => n * 10 + (c.toNat - 48)) 0 * Nat.pow 10 (9 - ds.length)

/-- The nanoseconds of a fraction, if there is one. -/
def fraction? (cs : List Char) : Option (Nat × List Char) :=
  match cs with
  | '.' :: cs =>
    let ds := cs.takeWhile Char.isDigit
    if ds.isEmpty then none else some (fraction ds, cs.dropWhile Char.isDigit)
  | cs => some (0, cs)

/-- The hours and minutes of an offset, in seconds. -/
def offsetSize? (cs : List Char) : Option (Nat × List Char) := do
  let (hour, cs) ← pair? cs
  let cs ← mark? [':'] cs
  let (minute, cs) ← pair? cs
  if hour ≤ 23 ∧ minute ≤ 59 then some (hour * 3600 + minute * 60, cs) else none

/-- How far the written time is ahead of universal time, in seconds. The minus sign proper counts as
a hyphen. -/
def offset? (cs : List Char) : Option (Int × List Char) :=
  match cs with
  | [] => none
  | c :: cs =>
    if c = 'Z' ∨ c = 'z' then some (0, cs)
    else if c = '+' then (offsetSize? cs).map fun r => ((r.1 : Int), r.2)
    else if c = '-' ∨ c = '\u2212' then (offsetSize? cs).map fun r => (-(r.1 : Int), r.2)
    else none

/-- A date as a day number. -/
def date? (cs : List Char) : Option (Int × List Char) := do
  let (year, cs) ← digits 0 4 cs
  let cs ← mark? ['-'] cs
  let (month, cs) ← pair? cs
  let cs ← mark? ['-'] cs
  let (day, cs) ← pair? cs
  return (← Calendar.dayNumber? year month day, cs)

/-- A time of day as seconds and nanoseconds. A leap second is the one before it with a thousand
million nanoseconds more. -/
def time? (cs : List Char) : Option (Nat × Nat × List Char) := do
  let (hour, cs) ← pair? cs
  let cs ← mark? [':'] cs
  let (minute, cs) ← pair? cs
  let cs ← mark? [':'] cs
  let (second, cs) ← pair? cs
  let (nano, cs) ← fraction? cs
  if hour ≤ 23 ∧ minute ≤ 59 ∧ second ≤ 60 then
    let start := hour * 3600 + minute * 60
    if second = 60 then some (start + 59, nano + 1000000000, cs)
    else some (start + second, nano, cs)
  else none

/-- The instant that a text writes. -/
def instant? (s : String) : Option Instant := do
  let (day, cs) ← date? s.toList
  let cs ← mark? ['T', 't', ' '] cs
  let (second, nano, cs) ← time? cs
  let (ahead, cs) ← offset? cs
  if cs.isEmpty then Instant.ofParts? (day * 86400 + second - ahead) nano else none

end Credential.Rfc3339
