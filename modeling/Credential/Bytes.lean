/-!
# Octet strings

Everything that is signed, hashed or encrypted is a list of octets. This module holds what does not
depend on any encoding of text: big-endian numbers, hexadecimal, and the octet-wise exclusive or.

Main statements: `toNat_ofNat` (a number survives being written at a fixed width) and
`xor_xor_cancel` (masking twice with the same mask gives the octets back).
-/

namespace Credential

/-- A string of octets. -/
abbrev Bytes := List UInt8

namespace Bytes

/-! ## Numbers -/

/-- The number that the octets write in base 256, most significant first. -/
def toNat (b : Bytes) : Nat := b.foldl (fun n x => n * 256 + x.toNat) 0

/-- The last `width` base-256 digits of a number, most significant first. -/
def ofNat : (width : Nat) → (n : Nat) → Bytes
  | 0, _ => []
  | w + 1, n => ofNat w (n / 256) ++ [UInt8.ofNat n]

theorem length_ofNat (w n : Nat) : (ofNat w n).length = w := by
  induction w generalizing n with
  | zero => rfl
  | succ w ih => simp [ofNat, ih]

/-- **A number that fits the width is read back.** -/
theorem toNat_ofNat (w n : Nat) (h : n < Nat.pow 256 w) : toNat (ofNat w n) = n := by
  induction w generalizing n with
  | zero =>
    obtain rfl : n = 0 := Nat.lt_one_iff.1 h
    rfl
  | succ w ih =>
    have hq : n / 256 < Nat.pow 256 w := by
      rw [Nat.pow_eq, Nat.pow_succ, ← Nat.pow_eq] at h
      exact Nat.div_lt_of_lt_mul (by rw [Nat.mul_comm]; exact h)
    have := ih (n / 256) hq
    unfold toNat at this ⊢
    rw [ofNat, List.foldl_append, this]
    simp [Nat.div_add_mod']

/-- How many octets a number needs; zero needs none. -/
def width (n : Nat) : Nat := if n = 0 then 0 else Nat.log2 n / 8 + 1

/-! ## Hexadecimal -/

def hexDigit (d : Nat) : Char :=
  if d < 10 then Char.ofNat (48 + d) else Char.ofNat (87 + d)

/-- Two lower-case digits for each octet. -/
def toHex (b : Bytes) : String :=
  String.ofList (b.flatMap fun x => [hexDigit (x.toNat / 16), hexDigit (x.toNat % 16)])

/-- The value of a digit in either case. -/
def hexValue (c : Char) : Option Nat :=
  let n := c.toNat
  if 48 ≤ n && n ≤ 57 then some (n - 48)
  else if 97 ≤ n && n ≤ 102 then some (n - 87)
  else if 65 ≤ n && n ≤ 70 then some (n - 55)
  else none

/-- The octets that pairs of digits write. -/
def ofHex : List Char → Option Bytes
  | [] => some []
  | [_] => none
  | a :: b :: rest => do
    let hi ← hexValue a
    let lo ← hexValue b
    return UInt8.ofNat (hi * 16 + lo) :: (← ofHex rest)

/-! ## Masks -/

/-- Octet-wise exclusive or, as long as the shorter string. -/
def xor (a b : Bytes) : Bytes := List.zipWith (· ^^^ ·) a b

theorem length_xor (a b : Bytes) : (xor a b).length = min a.length b.length := by simp [xor]

/-- **Masking twice with the same mask gives the octets back.** -/
theorem xor_xor_cancel (a m : Bytes) (h : a.length ≤ m.length) : xor (xor a m) m = a := by
  induction a generalizing m with
  | nil => simp [xor]
  | cons x a ih =>
    cases m with
    | nil => simp at h
    | cons y m =>
      have hx : x ^^^ y ^^^ y = x := by rw [UInt8.xor_assoc, UInt8.xor_self, UInt8.xor_zero]
      have := ih m (by simpa using h)
      simp only [xor] at this
      simp [xor, hx, this]

/-- The string cut into pieces of `n` octets, the last one possibly shorter. -/
def chunks (n : Nat) (b : Bytes) : List Bytes :=
  if _h : b = [] ∨ n = 0 then []
  else b.take n :: chunks n (b.drop n)
termination_by b.length
decreasing_by
  have : b.length ≠ 0 := by
    intro hb; exact _h (Or.inl (List.length_eq_zero_iff.mp hb))
  simp only [List.length_drop]; omega

end Bytes

end Credential
