import Credential.Text.Pieces
import Credential.Text.Utf8

/-!
# Form bodies

The format `application/x-www-form-urlencoded`: pairs are separated by `&`, the first `=` of a pair
ends its name, `+` stands for a space and `%` with two hexadecimal digits for an octet. A `%` that
is not followed by two digits stands for itself.
-/

namespace Credential.Form

/-! ## Percent escapes -/

/-- The value of an octet that is a hexadecimal digit. -/
def octetValue (b : UInt8) : Option Nat := Bytes.hexValue (Char.ofNat b.toNat)

/-- Replace each complete escape by the octet it stands for. -/
def percentDecode : Bytes → Bytes
  | [] => []
  | x :: rest =>
    if x = 0x25 then
      match rest with
      | a :: b :: more =>
        match octetValue a, octetValue b with
        | some hi, some lo => UInt8.ofNat (hi * 16 + lo) :: percentDecode more
        | _, _ => x :: percentDecode (a :: b :: more)
      | more => x :: percentDecode more
    else x :: percentDecode rest

/-- `+` stands for a space. -/
def plusToSpace (b : Bytes) : Bytes := b.map fun x => if x = 0x2B then 0x20 else x

/-- The octets that a written name or value stands for. -/
def unescape (b : Bytes) : Bytes := percentDecode (plusToSpace b)

/-! ## Pairs -/

/-- A name and its value. -/
structure Parameter where
  name : String
  value : String
  deriving DecidableEq

/-- Read one written pair; without `=` the value is empty. -/
def Parameter.ofPiece (b : Bytes) : Parameter :=
  let (n, v) := (Text.cutFirst? 0x3D b).getD (b, [])
  ⟨Utf8.decodeLossy (unescape n), Utf8.decodeLossy (unescape v)⟩

/-- The parameters of a body in order; empty pieces are skipped. -/
def parameters (body : Bytes) : List Parameter :=
  ((Text.pieces 0x26 body).filter (!·.isEmpty)).map Parameter.ofPiece

/-- The value of the first parameter of a name. -/
def value? (name : String) (ps : List Parameter) : Option String :=
  (ps.find? (·.name == name)).map (·.value)

/-- The first value that occurs again, in the order of the repetitions. -/
def firstRepeated? {α : Type} [BEq α] (seen : List α) : List α → Option α
  | [] => none
  | x :: rest => if seen.contains x then some x else firstRepeated? (x :: seen) rest

/-! ## Writing -/

/-- Octets that are written as they are. -/
def isPlain (b : UInt8) : Bool :=
  (0x30 ≤ b && b ≤ 0x39) || (0x41 ≤ b && b ≤ 0x5A) || (0x61 ≤ b && b ≤ 0x7A)
    || b == 0x2A || b == 0x2D || b == 0x2E || b == 0x5F

/-- The octet of a hexadecimal digit, in upper case. -/
def digitOctet (d : Nat) : UInt8 := UInt8.ofNat (if d < 10 then 0x30 + d else 0x37 + d)

/-- An escape with two digits. -/
def percentEncode (b : UInt8) : Bytes :=
  [0x25, digitOctet (b.toNat / 16), digitOctet (b.toNat % 16)]

/-- The written form of a name or value: a space as `+`, other octets plain or escaped. -/
def escape (b : Bytes) : Bytes :=
  b.flatMap fun x => if isPlain x then [x] else if x = 0x20 then [0x2B] else percentEncode x

/-- The written form of a list of parameters. -/
def body (ps : List Parameter) : Bytes :=
  Text.join 0x26 (ps.map fun p =>
    escape (Utf8.encode p.name) ++ 0x3D :: escape (Utf8.encode p.value))

end Credential.Form
