import Credential.Json.Token
import Credential.Json.Basic
import Credential.Text.Utf8

/-!
# JSON texts

A text is read in two steps. `Raw.parse` finds its structure: the nesting of arrays and objects over
literals that are kept as written, with all members of an object in order, repeated names included.
Then `Raw.read` gives the value: strings are unescaped, numerals become numbers, of members with one
name the last counts, and containers may be nested at most `maxDepth` deep.

A record reader (`Json.Record`) works on the structure directly. What it ignores is never read, so
an ignored member may hold a numeral out of range or a lone surrogate, at any depth.

## Termination

The structure is found by a machine with an explicit stack that takes one lexeme per step.
-/

namespace Credential.Json

/-- A JSON text whose literals are still as written. -/
inductive Raw where
  | null
  | bool (value : Bool)
  | number (numeral : Numeral)
  | string (literal : Bytes)
  | array (items : List Raw)
  | object (members : List (Bytes × Raw))

/-! ## Structure -/

namespace Raw

/-- A container that is still open, with what it holds so far in reverse. -/
inductive Frame where
  | array (items : List Raw)
  | object (members : List (Bytes × Raw)) (name : Bytes)

/-- The value of a lexeme that is a whole value. -/
def ofToken? : Token → Option Raw
  | .null => some .null
  | .true => some (.bool Bool.true)
  | .false => some (.bool Bool.false)
  | .number n => some (.number n)
  | .string s => some (.string s)
  | _ => none

mutual

/-- A value must come next. -/
def expectValue (stack : List Frame) : List Token → Option Raw
  | [] => none
  | .openBracket :: .closeBracket :: rest => afterValue (.array []) stack rest
  | .openBracket :: rest => expectValue (.array [] :: stack) rest
  | .openBrace :: .closeBrace :: rest => afterValue (.object []) stack rest
  | .openBrace :: .string name :: .colon :: rest => expectValue (.object [] name :: stack) rest
  | t :: rest =>
    match ofToken? t with
    | some v => afterValue v stack rest
    | none => none

/-- A value is complete; what may follow depends on the innermost open container. -/
def afterValue (v : Raw) : List Frame → List Token → Option Raw
  | [], [] => some v
  | .array items :: stack, .comma :: rest => expectValue (.array (v :: items) :: stack) rest
  | .array items :: stack, .closeBracket :: rest =>
    afterValue (.array (v :: items).reverse) stack rest
  | .object ms name :: stack, .comma :: .string next :: .colon :: rest =>
    expectValue (.object ((name, v) :: ms) next :: stack) rest
  | .object ms name :: stack, .closeBrace :: rest =>
    afterValue (.object ((name, v) :: ms).reverse) stack rest
  | _, _ => none

end

/-- The structure of a text; `none` when it is not a JSON text. -/
def parse (b : Bytes) : Option Raw := do expectValue [] (← Token.scan b)

end Raw

/-! ## Strings -/

/-- The octet that a one-letter escape stands for. -/
def simpleEscape (e : UInt8) : UInt8 :=
  if e = 0x62 then 0x08 else if e = 0x66 then 0x0C else if e = 0x6E then 0x0A
  else if e = 0x72 then 0x0D else if e = 0x74 then 0x09 else e

/-- The code unit of four hexadecimal digits. -/
def codeUnit (a b c d : UInt8) : Nat :=
  let v (x : UInt8) := (Bytes.hexValue (Char.ofNat x.toNat)).getD 0
  ((v a * 16 + v b) * 16 + v c) * 16 + v d

/-- The character that two surrogates write. -/
def pairedChar (high low : Nat) : Char :=
  Char.ofNat (0x10000 + (high - 0xD800) * 0x400 + (low - 0xDC00))

/-- Replace the escapes of a literal; a surrogate must be part of a pair. -/
def unescape : Bytes → Option Bytes
  | [] => some []
  | 0x5C :: 0x75 :: a :: b :: c :: d :: rest =>
    let u := codeUnit a b c d
    if 0xDC00 ≤ u ∧ u < 0xE000 then none
    else if 0xD800 ≤ u ∧ u < 0xDC00 then
      match rest with
      | 0x5C :: 0x75 :: e :: f :: g :: h :: more =>
        let l := codeUnit e f g h
        if 0xDC00 ≤ l ∧ l < 0xE000 then
          (unescape more).map (String.utf8EncodeChar (pairedChar u l) ++ ·)
        else none
      | _ => none
    else (unescape rest).map (String.utf8EncodeChar (Char.ofNat u) ++ ·)
  | 0x5C :: e :: rest => (unescape rest).map (simpleEscape e :: ·)
  | x :: rest => (unescape rest).map (x :: ·)

/-- The text of a literal; `none` for a lone surrogate or octets that are not UTF-8. -/
def readString (literal : Bytes) : Option String := do Utf8.decode (← unescape literal)

/-! ## Values -/

namespace Raw

/-- How deep containers may be nested. -/
def maxDepth : Nat := 127

/-- The value of a text with at most `depth` containers inside one another. -/
def read : (depth : Nat) → Raw → Option Json
  | _, .null => some .null
  | _, .bool b => some (.bool b)
  | _, .number n => n.toNumber.map .number
  | _, .string s => (readString s).map .string
  | 0, .array _ => none
  | 0, .object _ => none
  | d + 1, .array items => (items.mapM (read d)).map .array
  | d + 1, .object ms => do
    let ps ← ms.mapM fun m => do return (← readString m.1, ← read d m.2)
    return .object (Members.ofList ps)

end Raw

/-- Read a JSON text. -/
def parse (b : Bytes) : Option Json := do (← Raw.parse b).read Raw.maxDepth

end Credential.Json
