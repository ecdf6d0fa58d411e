import Credential.Crypto.Rsa

/-!
# Elliptic curves in short Weierstrass form

Curves `y² = x³ - 3x + b` over a prime field, with points in Jacobian coordinates: `(x, y, z)`
stands for `(x / z², y / z³)`, and `z = 0` for the point at infinity.

## Termination

`multiply` halves the scalar.
-/

namespace Credential.Crypto

/-- A curve of prime order with its base point. `size` is the length of a coordinate in octets. -/
structure Curve where
  size : Nat
  prime : Nat
  b : Nat
  order : Nat
  baseX : Nat
  baseY : Nat

namespace Curve

/-- The curve P-256 of FIPS 186. -/
def p256 : Curve where
  size := 32
  prime := 0xffffffff00000001000000000000000000000000ffffffffffffffffffffffff
  b := 0x5ac635d8aa3a93e7b3ebbd55769886bc651d06b0cc53b0f63bce3c3e27d2604b
  order := 0xffffffff00000000ffffffffffffffffbce6faada7179e84f3b9cac2fc632551
  baseX := 0x6b17d1f2e12c4247f8bce6e563a440f277037d812deb33a0f4a13945d898c296
  baseY := 0x4fe342e2fe1a7f9b8ee7eb4a7c0f9e162bce33576b315ececbb6406837bf51f5

/-- The curve P-384 of FIPS 186. -/
def p384 : Curve where
  size := 48
  prime := 0xfffffffffffffffffffffffffffffffffffffffffffffffffffffffffffffffeffffffff0000000000000000ffffffff
  b := 0xb3312fa7e23ee7e4988e056be3f82d19181d9c6efe8141120314088f5013875ac656398d8a2ed19d2a85c8edd3ec2aef
  order := 0xffffffffffffffffffffffffffffffffffffffffffffffffc7634d81f4372ddf581a0db248b0a77aecec196accc52973
  baseX := 0xaa87ca22be8b05378eb1c71ef320ad746e1d3b628ba79b9859f741e082542a385502f25dbf55296c3a545e3872760ab7
  baseY := 0x3617de4a96262c6f5d9e98bf9292dc29f8f41dbd289a147ce9da3113b5f0b8c00a60b1ce1d7e819d7a431d7c90ea0e5f

/-- A point in Jacobian coordinates. -/
structure Point where
  (x y z : Nat)
  deriving DecidableEq, Repr

variable (c : Curve)

/-- The difference in the field. -/
def subMod (a b : Nat) : Nat := (a + c.prime - b % c.prime) % c.prime

/-- The square root of a quadratic residue; the prime is 3 modulo 4. -/
def sqrt (a : Nat) : Nat := Rsa.powMod a ((c.prime + 1) / 4) c.prime

/-- The right-hand side of the curve's equation. -/
def rightSide (x : Nat) : Nat := (c.subMod (x * x % c.prime * x % c.prime) (3 * x) + c.b) % c.prime

/-- Do the coordinates satisfy the equation? -/
def contains (x y : Nat) : Bool :=
  x < c.prime && y < c.prime && y * y % c.prime == c.rightSide x

def infinity : Point := ⟨1, 1, 0⟩

def base : Point := ⟨c.baseX, c.baseY, 1⟩

/-- Twice a point. -/
def double (p : Point) : Point :=
  let m := c.prime
  let zz := p.z * p.z % m
  let yy := p.y * p.y % m
  let beta := p.x * yy % m
  let alpha := 3 * (c.subMod p.x zz * (p.x + zz) % m) % m
  let x := c.subMod (alpha * alpha) (8 * beta)
  let z := c.subMod ((p.y + p.z) * (p.y + p.z)) (yy + zz)
  let y := c.subMod (alpha * c.subMod (4 * beta) x) (8 * (yy * yy))
  ⟨x, y, z⟩

/-- The sum of two points. -/
def add (p q : Point) : Point :=
  if p.z = 0 then q
  else if q.z = 0 then p
  else
    let m := c.prime
    let z1z1 := p.z * p.z % m
    let z2z2 := q.z * q.z % m
    let u1 := p.x * z2z2 % m
    let u2 := q.x * z1z1 % m
    let s1 := p.y * q.z % m * z2z2 % m
    let s2 := q.y * p.z % m * z1z1 % m
    if u1 = u2 then if s1 = s2 then c.double p else infinity
    else
      let h := c.subMod u2 u1
      let i := 4 * (h * h) % m
      let j := h * i % m
      let r := 2 * c.subMod s2 s1 % m
      let v := u1 * i % m
      let x := c.subMod (c.subMod (r * r) j) (2 * v)
      let y := c.subMod (r * c.subMod v x) (2 * (s1 * j))
      let z := 2 * (p.z * q.z % m * h) % m
      ⟨x, y, z⟩

/-- A multiple of a point. -/
def multiply (k : Nat) (p : Point) : Point :=
  if _h : k = 0 then infinity
  else
    let half := multiply (k / 2) (c.double p)
    if k % 2 = 1 then c.add half p else half
termination_by k
decreasing_by omega

/-- The `x` coordinate of a finite point. -/
def affineX? (p : Point) : Option Nat :=
  if p.z = 0 then none
  else
    let inverse := Rsa.powMod p.z (c.prime - 2) c.prime
    some (p.x * (inverse * inverse % c.prime) % c.prime)

/-! ## Public keys -/

/-- The point of an uncompressed encoding, if it lies on the curve. -/
def ofUncompressed? (b : Bytes) : Option Point :=
  match b with
  | 0x04 :: rest =>
    let x := Bytes.toNat (rest.take c.size)
    let y := Bytes.toNat (rest.drop c.size)
    if rest.length = 2 * c.size ∧ c.contains x y = true then some ⟨x, y, 1⟩ else none
  | _ => none

/-- The point of a compressed encoding: the `x` coordinate and the parity of the other. -/
def ofCompressed? (b : Bytes) : Option Point :=
  match b with
  | tag :: rest =>
    if (tag = 0x02 ∨ tag = 0x03) ∧ rest.length = c.size then
      let x := Bytes.toNat rest
      let y := c.sqrt (c.rightSide x)
      let y := if y % 2 = tag.toNat % 2 then y else c.subMod 0 y
      if c.contains x y then some ⟨x, y, 1⟩ else none
    else none
  | [] => none

/-- The uncompressed encoding of a point with `z = 1`. -/
def uncompressed (p : Point) : Bytes := 0x04 :: Bytes.ofNat c.size p.x ++ Bytes.ofNat c.size p.y

/-! ## Signatures -/

/-- The number that a hash stands for: its first octets, as many as a scalar has. -/
def hashScalar (hash : Bytes) : Nat := Bytes.toNat (hash.take c.size)

/-- Does the pair of scalars sign the hash? -/
def verify (q : Point) (hash : Bytes) (r s : Nat) : Bool :=
  let n := c.order
  if r = 0 ∨ n ≤ r ∨ s = 0 ∨ n ≤ s then false
  else
    let w := Rsa.powMod s (n - 2) n
    let u1 := c.hashScalar hash * w % n
    let u2 := r * w % n
    match c.affineX? (c.add (c.multiply u1 c.base) (c.multiply u2 q)) with
    | none => false
    | some x => x % n == r

/-- Check a signature written as two scalars of fixed length. -/
def verifyFixed (q : Point) (hash signature : Bytes) : Bool :=
  signature.length == 2 * c.size
    && c.verify q hash (Bytes.toNat (signature.take c.size)) (Bytes.toNat (signature.drop c.size))

end Curve

end Credential.Crypto
