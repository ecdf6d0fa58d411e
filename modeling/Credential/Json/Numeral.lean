import Credential.Number.Binary64

/-!
# JSON numbers

A numeral is what the grammar of RFC 8259 says: digits without superfluous leading zeros, an
optional fraction, an optional exponent. As a value it is an integer when it has neither fraction
nor exponent and fits 64 bits (signed or unsigned); otherwise it is a finite double.

A double is read with a 64-bit significand: digits are taken while the significand fits, the others
only count for the decimal exponent, and one rounded scaling by a power of ten follows. For numerals
with many digits this is not always the nearest double; it is the value that readers without
arbitrary precision agree on.
-/

namespace Credential.Json

/-- The integers of 64 bits, signed or unsigned: those from `-2 ^ 63` to `2 ^ 64 - 1`. -/
def Number.Fits (n : Int) : Prop := -9223372036854775808 ≤ n ∧ n ≤ 18446744073709551615

instance (n : Int) : Decidable (Number.Fits n) := inferInstanceAs (Decidable (_ ∧ _))

/-- A number that a JSON text can hold. -/
inductive Number where
  /-- An integer that fits 64 bits. -/
  | int (value : Int) (fits : Number.Fits value)
  /-- Any other finite number. -/
  | double (value : Binary64)
  deriving DecidableEq, Repr

namespace Number

theorem fits_natCast {v : Nat} (h : v < Nat.pow 2 64) : Fits v := by
  have hpow : Nat.pow 2 64 = 18446744073709551616 := rfl
  unfold Fits
  omega

theorem fits_neg {v : Nat} (h : v ≤ Nat.pow 2 63) : Fits (-v) := by
  have hpow : Nat.pow 2 63 = 9223372036854775808 := rfl
  unfold Fits
  omega

/-- The number as a signed integer of 64 bits, if it is one. -/
def asInt64? : Number → Option Int
  | .int n _ => if n ≤ 9223372036854775807 then some n else none
  | .double _ => none

/-- The number as a double; an integer is rounded to the nearest one. -/
def asDouble? : Number → Option Binary64
  | .int n _ => Binary64.ofNat (n < 0) n.natAbs
  | .double x => some x

end Number

/-- A written number: its digits as values below ten. An empty fraction stands for none. -/
structure Numeral where
  negative : Bool
  digits : List Nat
  fraction : List Nat
  exponent : Option (Bool × List Nat)
  deriving DecidableEq, Repr

namespace Numeral

/-- Append digits to a significand while it stays below `2 ^ 64`; the digits left over. -/
def takeDigits (significand : Nat) : List Nat → Nat × List Nat
  | [] => (significand, [])
  | d :: ds =>
    if significand * 10 + d < Nat.pow 2 64 then takeDigits (significand * 10 + d) ds
    else (significand, d :: ds)

/-- The number that decimal digits write. -/
def decimal (ds : List Nat) : Nat := ds.foldl (fun n d => n * 10 + d) 0

/-- The written exponent; without one it is zero. -/
def writtenExponent (n : Numeral) : Int :=
  match n.exponent with
  | none => 0
  | some (negative, ds) => if negative then -(decimal ds : Int) else decimal ds

/-- The value as a double; `none` when it is not finite. -/
def toDouble (n : Numeral) : Option Binary64 := do
  let (s, restInt) := takeDigits 0 n.digits
  let (s, restFrac) := takeDigits s n.fraction
  -- digits left over before the point raise the exponent, digits taken after it lower it
  let shift : Int := (restInt.length : Int) - (n.fraction.length - restFrac.length : Nat)
  let x ← Binary64.ofNat n.negative s
  x.scaleByTen (shift + n.writtenExponent)

/-- Is the numeral written without fraction and exponent? -/
def isInteger (n : Numeral) : Bool := n.fraction.isEmpty && n.exponent.isNone

/-- The value of a numeral; `none` when it is too large for a finite double. Minus zero is a
double. -/
def toNumber (n : Numeral) : Option Number :=
  let v := decimal n.digits
  if h : n.isInteger ∧ n.negative = false ∧ v < Nat.pow 2 64 then
    some (.int v (Number.fits_natCast h.2.2))
  else if h : n.isInteger ∧ n.negative = true ∧ 0 < v ∧ v ≤ Nat.pow 2 63 then
    some (.int (-v) (Number.fits_neg h.2.2.2))
  else n.toDouble.map .double

end Numeral

end Credential.Json
