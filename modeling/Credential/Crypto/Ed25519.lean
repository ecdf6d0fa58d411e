import Credential.Crypto.Rsa

/-!
# Ed25519

Signature verification on the twisted Edwards curve of RFC 8032, with points in extended
coordinates: `(x, y, z, t)` stands for `(x / z, y / z)` where `x y = z t`. The check is without the
cofactor: the encoding of `s B - k A` must be the first half of the signature.

## Termination

`multiply` halves the scalar.
-/

namespace Credential.Crypto.Ed25519

/-- The prime of the field. -/
def prime : Nat := Nat.pow 2 255 - 19

/-- The order of the base point. -/
def order : Nat := Nat.pow 2 252 + 27742317777372353535851937790883648493

/-- The constant of the curve, -121665 / 121666. -/
def d : Nat := 0x52036cee2b6ffe738cc740797779e89800700a4d4141d8ab75eb4dca135978a3

/-- A square root of -1. -/
def sqrtMinusOne : Nat := 0x2b8324804fc1df0b2b4d00993dfbd7a72f431806ad2fe478c4ee1b274a0ea0b0

/-- A point in extended coordinates. -/
structure Point where
  (x y z t : Nat)

def neutral : Point := ⟨0, 1, 1, 0⟩

def base : Point :=
  let x := 0x216936d3cd6e53fec0a4e231fdd6dc5c692cc7609525a7b2c9562d608f25d51a
  let y := 0x6666666666666666666666666666666666666666666666666666666666666658
  ⟨x, y, 1, x * y % prime⟩

def sub (a b : Nat) : Nat := (a + prime - b % prime) % prime

/-- The sum of two points; the formula holds for all pairs. -/
def add (p q : Point) : Point :=
  let a := sub p.y p.x * sub q.y q.x % prime
  let b := (p.y + p.x) * (q.y + q.x) % prime
  let c := 2 * d * (p.t * q.t % prime) % prime
  let e := 2 * (p.z * q.z) % prime
  let f := sub b a
  let g := sub e c
  let h := (e + c) % prime
  let i := (b + a) % prime
  ⟨f * g % prime, i * h % prime, g * h % prime, f * i % prime⟩

def negate (p : Point) : Point := ⟨sub 0 p.x, p.y, p.z, sub 0 p.t⟩

/-- A multiple of a point. -/
def multiply (k : Nat) (p : Point) : Point :=
  if _h : k = 0 then neutral
  else
    let half := multiply (k / 2) (add p p)
    if k % 2 = 1 then add half p else half
termination_by k
decreasing_by omega

/-! ## Encodings -/

/-- The number of a little-endian encoding. -/
def littleEndian (b : Bytes) : Nat := Bytes.toNat b.reverse

/-- The point of an encoding: the `y` coordinate and the parity of the other. -/
def decode? (b : Bytes) : Option Point :=
  let n := littleEndian b
  let y := n % Nat.pow 2 255
  let odd := n / Nat.pow 2 255
  if b.length = 32 ∧ y < prime then
    let u := sub (y * y) 1
    let v := (d * (y * y % prime) + 1) % prime
    let v3 := v * v % prime * v % prime
    let v7 := v3 * v3 % prime * v % prime
    let root := u * v3 % prime * Rsa.powMod (u * v7 % prime) ((prime - 5) / 8) prime % prime
    let square := v * (root * root % prime) % prime
    let x? := if square = u then some root
      else if square = sub 0 u then some (root * sqrtMinusOne % prime)
      else none
    match x? with
    | none => none
    | some x =>
      let x := if x % 2 = odd then x else sub 0 x
      if x % 2 = odd then some ⟨x, y, 1, x * y % prime⟩ else none
  else none

/-- The encoding of a point. -/
def encode (p : Point) : Bytes :=
  let inverse := Rsa.powMod p.z (prime - 2) prime
  let x := p.x * inverse % prime
  let y := p.y * inverse % prime
  (Bytes.ofNat 32 (y + x % 2 * Nat.pow 2 255)).reverse

/-- Does the signature sign the message? -/
def verify (publicKey message signature : Bytes) : Bool :=
  match decode? publicKey with
  | none => false
  | some a =>
    let r := signature.take 32
    let s := littleEndian (signature.drop 32)
    let k := littleEndian (Digest.sha512.hash (r ++ publicKey ++ message)) % order
    signature.length == 64 && s < order
      && encode (add (multiply s base) (negate (multiply k a))) == r

end Credential.Crypto.Ed25519
