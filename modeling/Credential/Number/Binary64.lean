/-!
# Finite binary floating-point numbers

The finite numbers of the 64-bit format of IEEE 754, as a sign and a value `significand · 2 ^
scale`. Arithmetic is exact rational arithmetic followed by one rounding to nearest, ties to even
(`roundRatio`), so nothing here depends on the machine.

The floor is that of the exact value (`floor`), which is what a date in seconds needs. As an integer
of 64 bits it saturates (`floorInt64`).
-/

namespace Credential

/-- A finite number of the 64-bit format. The significand has at most 53 bits; it has fewer only at
the least scale, `-1074`. Negative zero is told apart from zero. -/
structure Binary64 where
  negative : Bool
  significand : Nat
  scale : Int
  deriving DecidableEq, Repr

namespace Binary64

/-- The least scale, that of the subnormal numbers. -/
def minScale : Int := -1074

/-- The greatest scale: numbers from `2 ^ 1024` on are not finite. -/
def maxScale : Int := 971

def zero (negative : Bool) : Binary64 := ⟨negative, 0, minScale⟩

/-- The nearest natural number to `num / den`, ties to even. -/
def roundQuotient (num den : Nat) : Nat :=
  let q := num / den
  let r := num % den
  if 2 * r < den then q else if den < 2 * r then q + 1 else q + q % 2

/-- The magnitude nearest to `num / den`, ties to even; `none` when it is too large to be finite.
The scale is the one at which the quotient has 53 bits, but never below the least. -/
def roundRatio (negative : Bool) (num den : Nat) : Option Binary64 :=
  if num = 0 ∨ den = 0 then some (zero negative)
  else
    let estimate : Int := (Nat.log2 num : Int) - Nat.log2 den - 52
    let quotientAt (e : Int) : Nat :=
      if 0 ≤ e then num / (den <<< e.toNat) else (num <<< (-e).toNat) / den
    let exact := if quotientAt estimate < Nat.pow 2 52 then estimate - 1 else estimate
    let scale := max minScale exact
    let m := if 0 ≤ scale then roundQuotient num (den <<< scale.toNat)
      else roundQuotient (num <<< (-scale).toNat) den
    -- rounding up may have carried into a 54th bit
    let (m, scale) := if m = Nat.pow 2 53 then (Nat.pow 2 52, scale + 1) else (m, scale)
    if maxScale < scale then none else some ⟨negative, m, scale⟩

/-- The nearest number to a natural number. -/
def ofNat (negative : Bool) (n : Nat) : Option Binary64 := roundRatio negative n 1

/-- Numerator and denominator of the magnitude. -/
def ratio (x : Binary64) : Nat × Nat :=
  if 0 ≤ x.scale then (x.significand <<< x.scale.toNat, 1)
  else (x.significand, 1 <<< (-x.scale).toNat)

/-- The rounded product of magnitudes, with the sign of the first factor. -/
def mul (x y : Binary64) : Option Binary64 :=
  roundRatio x.negative (x.ratio.1 * y.ratio.1) (x.ratio.2 * y.ratio.2)

/-- The rounded quotient of magnitudes, with the sign of the dividend. -/
def div (x y : Binary64) : Option Binary64 :=
  roundRatio x.negative (x.ratio.1 * y.ratio.2) (x.ratio.2 * y.ratio.1)

/-- The greatest integer that is not above the value. -/
def floor (x : Binary64) : Int :=
  let n : Int := if x.negative then -(x.ratio.1 : Int) else x.ratio.1
  Int.fdiv n x.ratio.2

/-- The floor as a signed integer of 64 bits; beyond them it is the last one on its side. -/
def floorInt64 (x : Binary64) : Int :=
  max (-9223372036854775808) (min x.floor 9223372036854775807)

/-- The 64 bits of the interchange format. -/
def toBits (x : Binary64) : Nat :=
  let sign := if x.negative then Nat.pow 2 63 else 0
  let magnitude :=
    if x.significand < Nat.pow 2 52 then x.significand
    else (x.scale + 1075).toNat * Nat.pow 2 52 + (x.significand - Nat.pow 2 52)
  sign + magnitude

/-- The number nearest to a power of ten. -/
def powerOfTen (k : Nat) : Option Binary64 := ofNat false (Nat.pow 10 k)

/--
Scale by a power of ten the way a reader with a table of the powers `10 ^ 0` to `10 ^ 308` does it:
one rounded multiplication or division, after dividing by `10 ^ 308` while the exponent lies below
the table. `none` when the result is not finite.
-/
def scaleByTen (x : Binary64) (exponent : Int) : Option Binary64 :=
  if exponent < -308 then
    if x.significand = 0 then some x
    else do scaleByTen (← x.div (← powerOfTen 308)) (exponent + 308)
  else if 308 < exponent then
    if x.significand = 0 then some x else none
  else do
    let p ← powerOfTen exponent.natAbs
    if 0 ≤ exponent then x.mul p else x.div p
termination_by (-exponent).toNat
decreasing_by omega

end Binary64

end Credential
