import Credential.Crypto.Padding

/-!
# SHA-1

The hash function of FIPS 180-4 with a value of five 32-bit words. Only signatures and key transport
that name it use it.
-/

namespace Credential.Crypto.Sha1

/-- The chaining value. -/
structure State where
  (a b c d e : UInt32)

def rotl (x : UInt32) (n : UInt32) : UInt32 := (x <<< n) ||| (x >>> (32 - n))

/-- The words of a block, and after them each the rotated sum of four earlier ones. -/
def schedule (block : List UInt32) : Array UInt32 :=
  (List.range 64).foldl (fun w i =>
    w.push (rotl (w.getD (i + 13) 0 ^^^ w.getD (i + 8) 0 ^^^ w.getD (i + 2) 0 ^^^ w.getD i 0) 1))
    block.toArray

/-- The function and the constant of a round. -/
def mix (t : Nat) (b c d : UInt32) : UInt32 :=
  if t < 20 then ((b &&& c) ||| (~~~b &&& d)) + 0x5a827999
  else if t < 40 then (b ^^^ c ^^^ d) + 0x6ed9eba1
  else if t < 60 then ((b &&& c) ||| (b &&& d) ||| (c &&& d)) + 0x8f1bbcdc
  else (b ^^^ c ^^^ d) + 0xca62c1d6

/-- One round. -/
def round (s : State) (w : UInt32 × Nat) : State :=
  ⟨rotl s.a 5 + mix w.2 s.b s.c s.d + s.e + w.1, s.a, rotl s.b 30, s.c, s.d⟩

/-- Take one block into the chaining value. -/
def compress (s : State) (block : Bytes) : State :=
  let words := (Bytes.chunks 4 block).map fun w => UInt32.ofNat (Bytes.toNat w)
  let t := (schedule words).toList.zipIdx.foldl round s
  ⟨s.a + t.a, s.b + t.b, s.c + t.c, s.d + t.d, s.e + t.e⟩

/-- The octets of the chaining value. -/
def State.octets (s : State) : Bytes :=
  [s.a, s.b, s.c, s.d, s.e].flatMap fun w => Bytes.ofNat 4 w.toNat

def initial : State := ⟨0x67452301, 0xefcdab89, 0x98badcfe, 0x10325476, 0xc3d2e1f0⟩

/-- SHA-1. -/
def sha1 (message : Bytes) : Bytes :=
  ((Bytes.chunks 64 (pad 64 8 message)).foldl compress initial).octets

theorem length_sha1 (m : Bytes) : (sha1 m).length = 20 := by
  simp [sha1, State.octets, Bytes.length_ofNat]

end Credential.Crypto.Sha1
