import Credential.Bytes
import Credential.Json.Numeral

/-!
# Lexemes of JSON

The octets of a JSON text fall into punctuation, the three words, numerals and string literals, with
white space between them. A string literal keeps its octets as written: whether they are UTF-8 and
whether its escapes pair up is only asked when the string is read (`Json.readString`), so that a
member nobody looks at may hold any well-formed literal.

## Termination

`scan` takes at least one octet for each lexeme; the readers of literals recurse on the octets.
-/

namespace Credential.Json

/-- One lexeme. -/
inductive Token where
  | openBrace | closeBrace | openBracket | closeBracket | colon | comma
  | null | true | false
  | number (n : Numeral)
  | string (raw : Bytes)
  deriving DecidableEq, Repr

namespace Token

/-- Space, tab, line feed and carriage return. -/
def isSpace (b : UInt8) : Bool := b == 0x20 || b == 0x09 || b == 0x0A || b == 0x0D

def isDigit (b : UInt8) : Bool := 0x30 ≤ b && b ≤ 0x39

def isHexDigit (b : UInt8) : Bool :=
  isDigit b || (0x41 ≤ b && b ≤ 0x46) || (0x61 ≤ b && b ≤ 0x66)

/-- The octets that may follow a backslash, apart from `u`. -/
def isSimpleEscape (b : UInt8) : Bool :=
  b == 0x22 || b == 0x5C || b == 0x2F || b == 0x62 || b == 0x66 || b == 0x6E || b == 0x72
    || b == 0x74

/-- The octets up to the closing quote, and those after it. Controls and unknown escapes are
refused. -/
def literal (acc : Bytes) : Bytes → Option (Bytes × Bytes)
  | [] => none
  | b :: rest =>
    if b = 0x22 then some (acc.reverse, rest)
    else if b < 0x20 then none
    else if b = 0x5C then
      match rest with
      | [] => none
      | e :: more =>
        if isSimpleEscape e then literal (e :: b :: acc) more
        else if e = 0x75 then
          match more with
          | h1 :: h2 :: h3 :: h4 :: tail =>
            if isHexDigit h1 && isHexDigit h2 && isHexDigit h3 && isHexDigit h4 then
              literal (h4 :: h3 :: h2 :: h1 :: e :: b :: acc) tail
            else none
          | _ => none
        else none
    else literal (b :: acc) rest

theorem literal_length (acc : Bytes) (b : Bytes) (r : Bytes × Bytes) (h : literal acc b = some r) :
    r.2.length < b.length := by
  fun_induction literal acc b <;> simp_all <;> (try omega)
  obtain ⟨rfl⟩ := h
  simp

/-- The digits at the front; there must be at least one. -/
def digits : Bytes → Option (List Nat × Bytes)
  | [] => none
  | b :: rest =>
    if isDigit b then
      some ((b :: rest.takeWhile isDigit).map fun x => x.toNat - 48, rest.dropWhile isDigit)
    else none

theorem digits_length (b : Bytes) (r : List Nat × Bytes) (h : digits b = some r) :
    r.2.length < b.length := by
  cases b with
  | nil => simp [digits] at h
  | cons x rest =>
    rw [digits] at h
    split at h
    · rw [← Option.some.inj h]
      have := (List.dropWhile_suffix isDigit (l := rest)).length_le
      simp only [List.length_cons]
      omega
    · simp at h

/-- The part after a decimal point, if there is one; at least one digit must follow the point. -/
def fraction : Bytes → Option (List Nat × Bytes)
  | [] => some ([], [])
  | b :: rest => if b = 0x2E then digits rest else some ([], b :: rest)

theorem fraction_length (b : Bytes) (r : List Nat × Bytes) (h : fraction b = some r) :
    r.2.length ≤ b.length := by
  cases b with
  | nil => obtain rfl := Option.some.inj h; simp
  | cons x rest =>
    rw [fraction] at h
    split at h
    · have := digits_length _ _ h
      simp only [List.length_cons]
      omega
    · obtain rfl := Option.some.inj h; simp

/-- An optional sign: is it a minus, and what follows it. -/
def sign : Bytes → Bool × Bytes
  | [] => (Bool.false, [])
  | b :: rest =>
    if b = 0x2D then (Bool.true, rest)
    else if b = 0x2B then (Bool.false, rest)
    else (Bool.false, b :: rest)

theorem sign_length (b : Bytes) : (sign b).2.length ≤ b.length := by
  cases b with
  | nil => simp [sign]
  | cons x rest => rw [sign]; split <;> (try split) <;> simp

/-- The exponent, if there is one; at least one digit must follow the mark and the sign. -/
def exponent : Bytes → Option (Option (Bool × List Nat) × Bytes)
  | [] => some (none, [])
  | b :: rest =>
    if b = 0x65 ∨ b = 0x45 then
      (digits (sign rest).2).map fun r => (some ((sign rest).1, r.1), r.2)
    else some (none, b :: rest)

theorem exponent_length (b : Bytes) (r : Option (Bool × List Nat) × Bytes)
    (h : exponent b = some r) : r.2.length ≤ b.length := by
  cases b with
  | nil => obtain rfl := Option.some.inj h; simp
  | cons x rest =>
    rw [exponent] at h
    split at h
    · obtain ⟨y, hy, rfl⟩ := Option.map_eq_some_iff.1 h
      have h1 := digits_length _ _ hy
      have h2 := sign_length rest
      simp only [List.length_cons]
      omega
    · obtain rfl := Option.some.inj h; simp

/-- The integer part: a single zero, or digits that do not start with one. -/
def integerPart : Bytes → Option (List Nat × Bytes)
  | [] => none
  | b :: rest => if b = 0x30 then some ([0], rest) else digits (b :: rest)

theorem integerPart_length (b : Bytes) (r : List Nat × Bytes) (h : integerPart b = some r) :
    r.2.length < b.length := by
  cases b with
  | nil => simp [integerPart] at h
  | cons x rest =>
    rw [integerPart] at h
    split at h
    · obtain rfl := Option.some.inj h; simp
    · exact digits_length _ _ h

/-- A numeral at the front, after its sign. -/
def numeral (negative : Bool) (b : Bytes) : Option (Numeral × Bytes) := do
  let (ds, b) ← integerPart b
  let (fr, b) ← fraction b
  let (ex, b) ← exponent b
  return (⟨negative, ds, fr, ex⟩, b)

/-- The lexeme at the front of octets that do not start with white space, and the octets after
it. -/
def next (b : UInt8) (rest : Bytes) : Option (Token × Bytes) :=
  match b, rest with
  | 0x7B, rest => some (.openBrace, rest)
  | 0x7D, rest => some (.closeBrace, rest)
  | 0x5B, rest => some (.openBracket, rest)
  | 0x5D, rest => some (.closeBracket, rest)
  | 0x3A, rest => some (.colon, rest)
  | 0x2C, rest => some (.comma, rest)
  | 0x6E, 0x75 :: 0x6C :: 0x6C :: rest => some (.null, rest)
  | 0x74, 0x72 :: 0x75 :: 0x65 :: rest => some (.true, rest)
  | 0x66, 0x61 :: 0x6C :: 0x73 :: 0x65 :: rest => some (.false, rest)
  | 0x22, rest => (literal [] rest).map fun r => (.string r.1, r.2)
  | 0x2D, rest => (numeral Bool.true rest).map fun r => (.number r.1, r.2)
  | b, rest =>
    if isDigit b then (numeral Bool.false (b :: rest)).map fun r => (.number r.1, r.2)
    else none

theorem numeral_length (neg : Bool) (b : Bytes) (r : Numeral × Bytes)
    (h : numeral neg b = some r) : r.2.length < b.length := by
  unfold numeral at h
  cases h1 : integerPart b with
  | none => simp [h1] at h
  | some x =>
    cases h2 : fraction x.2 with
    | none => simp [h1, h2] at h
    | some y =>
      cases h3 : exponent y.2 with
      | none => simp [h1, h2, h3] at h
      | some z =>
        have a1 := integerPart_length b x h1
        have a2 := fraction_length _ y h2
        have a3 := exponent_length _ z h3
        simp [h1, h2, h3] at h
        rw [← h]
        simp only
        omega

/-- A lexeme takes at least the octet it starts with. -/
theorem next_length (b : UInt8) (rest : Bytes) (r : Token × Bytes) (h : next b rest = some r) :
    r.2.length ≤ rest.length := by
  unfold next at h
  split at h
  iterate 6
    · obtain rfl := Option.some.inj h
      exact Nat.le_refl _
  iterate 3
    · obtain rfl := Option.some.inj h
      simp only [List.length_cons]
      omega
  · obtain ⟨x, hx, rfl⟩ := Option.map_eq_some_iff.1 h
    have := literal_length [] _ x hx
    simp only; omega
  · obtain ⟨x, hx, rfl⟩ := Option.map_eq_some_iff.1 h
    have := numeral_length _ _ x hx
    simp only; omega
  · split at h
    · obtain ⟨x, hx, rfl⟩ := Option.map_eq_some_iff.1 h
      have := numeral_length _ _ x hx
      simp only [List.length_cons] at this ⊢; omega
    · simp at h

/-- The lexemes of the octets, put in reverse before those in `acc`; `none` when some octets form
no lexeme. -/
def scanOnto (acc : List Token) (b : Bytes) : Option (List Token) :=
  match b with
  | [] => some acc
  | x :: rest =>
    if isSpace x then scanOnto acc rest
    else match _h : next x rest with
      | none => none
      | some (t, more) => scanOnto (t :: acc) more
termination_by b.length
decreasing_by
  · simp
  · have := next_length x rest _ _h
    simp only [List.length_cons] at this ⊢
    omega

/-- The lexemes of the octets. -/
def scan (b : Bytes) : Option (List Token) := (scanOnto [] b).map List.reverse

end Token

end Credential.Json
