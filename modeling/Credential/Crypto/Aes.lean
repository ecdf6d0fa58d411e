import Credential.Bytes

/-!
# AES

The block cipher of FIPS 197 with keys of 16, 24 or 32 octets. A block is a list of sixteen octets
in the order of the standard: four columns of four.

The cipher is a pair of functions on blocks for a given key (`encryptBlock`, `decryptBlock`); the
modes of operation take such functions as arguments and know nothing of AES.
-/

namespace Credential.Crypto.Aes

/-- The substitution box. -/
def sbox : Array UInt8 := #[
  0x63, 0x7c, 0x77, 0x7b, 0xf2, 0x6b, 0x6f, 0xc5, 0x30, 0x01, 0x67, 0x2b, 0xfe, 0xd7, 0xab, 0x76,
  0xca, 0x82, 0xc9, 0x7d, 0xfa, 0x59, 0x47, 0xf0, 0xad, 0xd4, 0xa2, 0xaf, 0x9c, 0xa4, 0x72, 0xc0,
  0xb7, 0xfd, 0x93, 0x26, 0x36, 0x3f, 0xf7, 0xcc, 0x34, 0xa5, 0xe5, 0xf1, 0x71, 0xd8, 0x31, 0x15,
  0x04, 0xc7, 0x23, 0xc3, 0x18, 0x96, 0x05, 0x9a, 0x07, 0x12, 0x80, 0xe2, 0xeb, 0x27, 0xb2, 0x75,
  0x09, 0x83, 0x2c, 0x1a, 0x1b, 0x6e, 0x5a, 0xa0, 0x52, 0x3b, 0xd6, 0xb3, 0x29, 0xe3, 0x2f, 0x84,
  0x53, 0xd1, 0x00, 0xed, 0x20, 0xfc, 0xb1, 0x5b, 0x6a, 0xcb, 0xbe, 0x39, 0x4a, 0x4c, 0x58, 0xcf,
  0xd0, 0xef, 0xaa, 0xfb, 0x43, 0x4d, 0x33, 0x85, 0x45, 0xf9, 0x02, 0x7f, 0x50, 0x3c, 0x9f, 0xa8,
  0x51, 0xa3, 0x40, 0x8f, 0x92, 0x9d, 0x38, 0xf5, 0xbc, 0xb6, 0xda, 0x21, 0x10, 0xff, 0xf3, 0xd2,
  0xcd, 0x0c, 0x13, 0xec, 0x5f, 0x97, 0x44, 0x17, 0xc4, 0xa7, 0x7e, 0x3d, 0x64, 0x5d, 0x19, 0x73,
  0x60, 0x81, 0x4f, 0xdc, 0x22, 0x2a, 0x90, 0x88, 0x46, 0xee, 0xb8, 0x14, 0xde, 0x5e, 0x0b, 0xdb,
  0xe0, 0x32, 0x3a, 0x0a, 0x49, 0x06, 0x24, 0x5c, 0xc2, 0xd3, 0xac, 0x62, 0x91, 0x95, 0xe4, 0x79,
  0xe7, 0xc8, 0x37, 0x6d, 0x8d, 0xd5, 0x4e, 0xa9, 0x6c, 0x56, 0xf4, 0xea, 0x65, 0x7a, 0xae, 0x08,
  0xba, 0x78, 0x25, 0x2e, 0x1c, 0xa6, 0xb4, 0xc6, 0xe8, 0xdd, 0x74, 0x1f, 0x4b, 0xbd, 0x8b, 0x8a,
  0x70, 0x3e, 0xb5, 0x66, 0x48, 0x03, 0xf6, 0x0e, 0x61, 0x35, 0x57, 0xb9, 0x86, 0xc1, 0x1d, 0x9e,
  0xe1, 0xf8, 0x98, 0x11, 0x69, 0xd9, 0x8e, 0x94, 0x9b, 0x1e, 0x87, 0xe9, 0xce, 0x55, 0x28, 0xdf,
  0x8c, 0xa1, 0x89, 0x0d, 0xbf, 0xe6, 0x42, 0x68, 0x41, 0x99, 0x2d, 0x0f, 0xb0, 0x54, 0xbb, 0x16]

/-- The inverse of the substitution box. -/
def inverseSbox : Array UInt8 :=
  ((List.range 256).map fun v => UInt8.ofNat (sbox.toList.idxOf (UInt8.ofNat v))).toArray

def sub (b : UInt8) : UInt8 := sbox.getD b.toNat 0
def inverseSub (b : UInt8) : UInt8 := inverseSbox.getD b.toNat 0

/-! ## The field of 256 elements -/

/-- Multiply by the polynomial `x`. -/
def double (b : UInt8) : UInt8 := if b < 0x80 then b <<< 1 else (b <<< 1) ^^^ 0x1b

/-- Multiply by an element of degree below four. -/
def times (k : Nat) (b : UInt8) : UInt8 :=
  let b2 := double b
  let b4 := double b2
  let b8 := double b4
  (if k % 2 = 1 then b else 0) ^^^ (if k / 2 % 2 = 1 then b2 else 0)
    ^^^ (if k / 4 % 2 = 1 then b4 else 0) ^^^ (if k / 8 % 2 = 1 then b8 else 0)

/-! ## The steps of a round -/

/-- Rotate the row `r` of each column by `r`; `k` is 1 for the cipher and 3 for its inverse. -/
def shiftRows (k : Nat) (block : Bytes) : Bytes :=
  let a := block.toArray
  (List.range 16).map fun i => a.getD (4 * ((i / 4 + k * (i % 4)) % 4) + i % 4) 0

/-- Multiply each column by a circulant matrix with this first row. -/
def mixColumns (c0 c1 c2 c3 : Nat) : Bytes → Bytes
  | a :: b :: c :: d :: rest =>
    (times c0 a ^^^ times c1 b ^^^ times c2 c ^^^ times c3 d)
      :: (times c3 a ^^^ times c0 b ^^^ times c1 c ^^^ times c2 d)
      :: (times c2 a ^^^ times c3 b ^^^ times c0 c ^^^ times c1 d)
      :: (times c1 a ^^^ times c2 b ^^^ times c3 c ^^^ times c0 d)
      :: mixColumns c0 c1 c2 c3 rest
  | _ => []

/-! ## Round keys -/

/-- The round constant of step `i`. -/
def roundConstant : Nat → UInt8
  | 0 => 1
  | i + 1 => double (roundConstant i)

/-- The word `i` of the expanded key from the words before it; `nk` words come from the key
itself. -/
def nextWord (nk i : Nat) (words : Array Bytes) : Bytes :=
  let last := words.getD (i - 1) []
  let mask :=
    if i % nk = 0 then
      match last with
      | [a, b, c, d] => [sub b ^^^ roundConstant (i / nk - 1), sub c, sub d, sub a]
      | _ => last
    else if nk > 6 ∧ i % nk = 4 then last.map sub
    else last
  Bytes.xor (words.getD (i - nk) []) mask

/-- The round keys, one block each. -/
def expandKey (key : Bytes) : List Bytes :=
  let nk := key.length / 4
  let total := 4 * (nk + 7)
  let start := (Bytes.chunks 4 key).toArray
  let words := (List.range (total - nk)).foldl (fun w i => w.push (nextWord nk (nk + i) w)) start
  (List.range (nk + 7)).map fun r => (words.extract (4 * r) (4 * r + 4)).toList.flatten

/-! ## The cipher -/

def encryptRound (block roundKey : Bytes) : Bytes :=
  Bytes.xor (mixColumns 2 3 1 1 (shiftRows 1 (block.map sub))) roundKey

def decryptRound (block roundKey : Bytes) : Bytes :=
  (shiftRows 3 (mixColumns 14 11 13 9 (Bytes.xor block roundKey))).map inverseSub

/-- Encrypt a block with expanded round keys. -/
def encryptWith (roundKeys : List Bytes) (block : Bytes) : Bytes :=
  match roundKeys with
  | [] => block
  | k :: ks =>
    let inner := ks.dropLast.foldl encryptRound (Bytes.xor block k)
    Bytes.xor (shiftRows 1 (inner.map sub)) (ks.getLastD [])

/-- Decrypt a block with expanded round keys. -/
def decryptWith (roundKeys : List Bytes) (block : Bytes) : Bytes :=
  match roundKeys with
  | [] => block
  | k :: ks =>
    let start := (shiftRows 3 (Bytes.xor block (ks.getLastD []))).map inverseSub
    Bytes.xor (ks.dropLast.reverse.foldl decryptRound start) k

/-- The cipher for a key. -/
def encryptBlock (key : Bytes) : Bytes → Bytes := encryptWith (expandKey key)

/-- The inverse of the cipher for a key. -/
def decryptBlock (key : Bytes) : Bytes → Bytes := decryptWith (expandKey key)

end Credential.Crypto.Aes
