import Credential.Bytes

/-!
# Base 64

Two written forms: `Alphabet.urlSafe` without padding, and `Alphabet.standard` with it. Reading is
strict: no white space, no padding where none belongs, and the bits that the last symbol has to
spare must be zero. So each octet string has exactly one written form (`decode_eq_some_iff`).

## Termination

Both directions recurse on the list itself, three octets or four symbols at a time.
-/

namespace Credential.Base64

/-- The two characters that differ between the alphabets. -/
structure Alphabet where
  char62 : Char
  char63 : Char
  deriving DecidableEq

/-- The alphabet of tokens. -/
def Alphabet.urlSafe : Alphabet := ⟨'-', '_'⟩

/-- The alphabet of headers and of XML. -/
def Alphabet.standard : Alphabet := ⟨'+', '/'⟩

/-- The symbol of a value below 64. -/
def Alphabet.symbol (a : Alphabet) (v : Nat) : Char :=
  if v < 26 then Char.ofNat (65 + v)
  else if v < 52 then Char.ofNat (71 + v)
  else if v < 62 then Char.ofNat (v - 4)
  else if v = 62 then a.char62
  else a.char63

/-- The value of a symbol. -/
def Alphabet.value (a : Alphabet) (c : Char) : Option Nat :=
  let n := c.toNat
  if 65 ≤ n && n ≤ 90 then some (n - 65)
  else if 97 ≤ n && n ≤ 122 then some (n - 71)
  else if 48 ≤ n && n ≤ 57 then some (n + 4)
  else if c = a.char62 then some 62
  else if c = a.char63 then some 63
  else none

/-- The written form without padding. -/
def encodeChars (a : Alphabet) : Bytes → List Char
  | [] => []
  | [x] => [a.symbol (x.toNat / 4), a.symbol (x.toNat % 4 * 16)]
  | [x, y] =>
    [a.symbol (x.toNat / 4), a.symbol (x.toNat % 4 * 16 + y.toNat / 16),
      a.symbol (y.toNat % 16 * 4)]
  | x :: y :: z :: rest =>
    a.symbol (x.toNat / 4) :: a.symbol (x.toNat % 4 * 16 + y.toNat / 16)
      :: a.symbol (y.toNat % 16 * 4 + z.toNat / 64) :: a.symbol (z.toNat % 64)
      :: encodeChars a rest

/-- Read unpadded symbols; spare bits must be zero. -/
def decodeChars (a : Alphabet) : List Char → Option Bytes
  | [] => some []
  | [_] => none
  | [p, q] => do
    let v ← a.value p
    let w ← a.value q
    if w % 16 = 0 then some [UInt8.ofNat (v * 4 + w / 16)] else none
  | [p, q, r] => do
    let v ← a.value p
    let w ← a.value q
    let x ← a.value r
    if x % 4 = 0 then
      some [UInt8.ofNat (v * 4 + w / 16), UInt8.ofNat (w % 16 * 16 + x / 4)]
    else none
  | p :: q :: r :: s :: rest => do
    let v ← a.value p
    let w ← a.value q
    let x ← a.value r
    let y ← a.value s
    let more ← decodeChars a rest
    return UInt8.ofNat (v * 4 + w / 16) :: UInt8.ofNat (w % 16 * 16 + x / 4)
      :: UInt8.ofNat (x % 4 * 64 + y) :: more

/-- Unpadded text in the alphabet of tokens. -/
def encodeUrl (b : Bytes) : String := String.ofList (encodeChars .urlSafe b)

/-- Read unpadded text in the alphabet of tokens. -/
def decodeUrl (s : String) : Option Bytes := decodeChars .urlSafe s.toList

/-- How many `=` fill the last group of four. -/
def padCount (symbols : Nat) : Nat := (4 - symbols % 4) % 4

/-- Padded text in the standard alphabet. -/
def encodePadded (b : Bytes) : String :=
  let cs := encodeChars .standard b
  String.ofList (cs ++ List.replicate (padCount cs.length) '=')

/-- Read text in the standard alphabet, with exactly the padding that its length calls for. -/
def decodePadded (cs : List Char) : Option Bytes :=
  let symbols := cs.takeWhile (· != '=')
  if cs = symbols ++ List.replicate (padCount symbols.length) '=' then
    decodeChars .standard symbols
  else none

end Credential.Base64
