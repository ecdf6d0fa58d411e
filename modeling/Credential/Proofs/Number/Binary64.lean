import Credential.Number.Binary64
import Mathlib.Data.Rat.Floor
import Mathlib.Tactic.Linarith
import Mathlib.Tactic.NormNum

/-!
# Doubles as rational numbers

A finite double stands for a rational number (`toRat`), and its floor is the floor of that number
(`floor_eq`). An integer that is rounded to a double keeps its power of two: from `2 ^ 52` on, what
is at least `2 ^ k` is so after rounding too (`le_magnitude_of_ofNat`).
-/

namespace Credential.Binary64

variable {x : Binary64} {k n : Nat} {negative : Bool}

/-! ## Values -/

/-- The value without its sign. -/
def magnitude (x : Binary64) : ℚ := x.significand * 2 ^ x.scale

/-- The number that the double stands for. -/
def toRat (x : Binary64) : ℚ := if x.negative then -x.magnitude else x.magnitude

theorem ratio_div (x : Binary64) : (x.ratio.1 : ℚ) / x.ratio.2 = x.magnitude := by
  unfold ratio magnitude
  split
  · next hscale =>
    obtain ⟨e, he⟩ := Int.eq_ofNat_of_zero_le hscale
    rw [he, Int.toNat_natCast, Nat.shiftLeft_eq, zpow_natCast]
    push_cast
    ring
  · next hscale =>
    obtain ⟨e, he⟩ := Int.eq_ofNat_of_zero_le (Int.neg_nonneg_of_nonpos (Int.le_of_not_le hscale))
    rw [he, Int.toNat_natCast, Nat.one_shiftLeft, show x.scale = -(e : Int) by omega, zpow_neg,
      zpow_natCast]
    push_cast
    rw [div_eq_mul_inv]

/-- **The floor of a double is that of the number it stands for.** -/
theorem floor_eq (x : Binary64) : x.floor = ⌊x.toRat⌋ := by
  rw [floor, Int.fdiv_eq_ediv_of_nonneg _ (Int.natCast_nonneg _), ← Rat.floor_intCast_div_natCast,
    toRat, ← ratio_div]
  split
  · push_cast
    rw [neg_div]
  · push_cast
    rfl

/-! ## Rounded integers -/

/-- A quotient is never rounded below its floor. -/
theorem div_le_roundQuotient (num den : Nat) : num / den ≤ roundQuotient num den := by
  unfold roundQuotient
  dsimp only
  split
  · exact Nat.le_refl _
  · split <;> omega

/-- From `2 ^ 52` on, a rounded integer is a multiple of the place of the lowest bit that fits. -/
theorem of_ofNat (h : 2 ^ 52 ≤ n) (hx : ofNat negative n = some x) :
    x.negative = negative ∧ ∃ e : Nat, x.scale = e ∧ 2 ^ n.log2 ≤ x.significand * 2 ^ e := by
  have hn : n ≠ 0 := by omega
  have hlog : 52 ≤ n.log2 := (Nat.le_log2 hn).2 h
  have hplace : (n.log2 : Int) - (Nat.log2 1 : Nat) - 52 = ((n.log2 - 52 : Nat) : Int) := by
    rw [show Nat.log2 1 = 0 by decide]
    omega
  have hpow : 2 ^ 52 * 2 ^ (n.log2 - 52) = 2 ^ n.log2 := by
    rw [← Nat.pow_add, Nat.add_sub_cancel' hlog]
  have hquotient : 2 ^ 52 ≤ n / 2 ^ (n.log2 - 52) := by
    rw [Nat.le_div_iff_mul_le (by positivity), hpow]
    exact Nat.log2_self_le hn
  have hscale : max minScale ((n.log2 - 52 : Nat) : Int) = (n.log2 - 52 : Nat) :=
    Int.max_eq_right (by rw [minScale]; omega)
  rw [ofNat, roundRatio, if_neg (by omega)] at hx
  simp only [hplace, Int.natCast_nonneg, if_true, Int.toNat_natCast, Nat.one_shiftLeft,
    if_neg (Nat.not_lt.2 hquotient), Nat.pow_eq, hscale] at hx
  split at hx
  · -- rounding up carried into a further bit
    obtain ⟨-, hx⟩ := Option.ite_none_left_eq_some.1 hx
    obtain rfl := Option.some.inj hx
    refine ⟨rfl, n.log2 - 52 + 1, rfl, ?_⟩
    rw [← hpow]
    exact Nat.mul_le_mul_left _ (Nat.pow_le_pow_right (by decide) (Nat.le_succ _))
  · obtain ⟨-, hx⟩ := Option.ite_none_left_eq_some.1 hx
    obtain rfl := Option.some.inj hx
    refine ⟨rfl, n.log2 - 52, rfl, ?_⟩
    rw [← hpow]
    exact Nat.mul_le_mul_right _ (hquotient.trans (div_le_roundQuotient _ _))

/-- **Rounding keeps the power of two**: an integer from `2 ^ k` on stays so. -/
theorem le_magnitude_of_ofNat (hk : 52 ≤ k) (hn : 2 ^ k ≤ n) (hx : ofNat negative n = some x) :
    x.negative = negative ∧ 2 ^ k ≤ x.magnitude := by
  have hpos : n ≠ 0 := Nat.ne_of_gt (Nat.lt_of_lt_of_le (by positivity) hn)
  obtain ⟨hsign, e, hscale, hle⟩ := of_ofNat ((Nat.pow_le_pow_right (by decide) hk).trans hn) hx
  refine ⟨hsign, ?_⟩
  rw [magnitude, hscale, zpow_natCast]
  have hlog : 2 ^ k ≤ x.significand * 2 ^ e :=
    (Nat.pow_le_pow_right (by decide) ((Nat.le_log2 hpos).2 hn)).trans hle
  exact_mod_cast hlog

end Credential.Binary64
