/-!
# Labels outside ASCII

A label of a domain that is not ASCII is written with the letters and digits of RFC 3492: first its
ASCII characters, then, for each other character in increasing order, how far it lies from the one
before, as a number with digits of varying weight.

## Termination

`scale` divides by 35, `digits` divides by at least one after subtracting, and `deltas` recurses on
the list of characters still to be written.
-/

namespace Credential.Url.Punycode

/-- The digit of a value below 36. -/
def digit (d : Nat) : Char := Char.ofNat (if d < 26 then 97 + d else 22 + d)

/-- Divide by 35 until at most 455 remains, counting steps of 36. -/
def scale (delta steps : Nat) : Nat :=
  if _h : 455 < delta then scale (delta / 35) (steps + 36)
  else steps + 36 * delta / (delta + 38)
termination_by delta
decreasing_by omega

/-- The bias for the next number. -/
def adapt (delta count : Nat) (first : Bool) : Nat :=
  let d := if first then delta / 700 else delta / 2
  scale (d + d / count) 0

/-- How many values the digit at weight position `k` keeps for itself. -/
def threshold (k bias : Nat) : Nat := max 1 (min 26 (k - bias))

/-- The digits of a number under a bias. -/
def digits (bias k q : Nat) : List Char :=
  let t := threshold k bias
  if _h : q < t then [digit q]
  else digit (t + (q - t) % (36 - t)) :: digits bias (k + 36) ((q - t) / (36 - t))
termination_by q
decreasing_by
  have h1 : 1 ≤ threshold k bias := Nat.le_max_left 1 _
  have h2 : threshold k bias ≤ 26 := by unfold threshold; omega
  have := Nat.div_le_self (q - threshold k bias) (36 - threshold k bias)
  omega

/-- What is known between two numbers. -/
structure Progress where
  delta : Nat
  bias : Nat
  written : Nat
  first : Bool
  output : List Char

/-- Pass over the characters of the label once for the character number `n`. -/
def pass (n basic : Nat) (p : Progress) (c : Nat) : Progress :=
  if c < n then { p with delta := p.delta + 1 }
  else if c = n then
    { delta := 0
      bias := adapt p.delta (p.written + 1) (p.written == basic)
      written := p.written + 1
      first := false
      output := p.output ++ digits p.bias 36 p.delta }
  else p

/-- Write the characters with the listed numbers, which increase. -/
def deltas (label : List Nat) (basic : Nat) : (last : Nat) → Progress → List Nat → List Char
  | _, p, [] => p.output
  | last, p, n :: ns =>
    let start := { p with delta := p.delta + (n - last) * (p.written + 1) }
    let done := label.foldl (pass n basic) start
    deltas label basic (n + 1) { done with delta := done.delta + 1 } ns

/-- The written form of a label. -/
def encode (label : List Char) : List Char :=
  let ascii := label.filter fun c => c.toNat < 128
  let others := ((label.filter fun c => 128 ≤ c.toNat).map Char.toNat).mergeSort.eraseDups
  let front := if ascii.isEmpty then [] else ascii ++ ['-']
  front ++ deltas (label.map Char.toNat) ascii.length 128 ⟨0, 72, ascii.length, true, []⟩ others

end Credential.Url.Punycode
