import Credential.Crypto.Digest

/-!
# RSA

The primitives of RFC 8017: signatures with deterministic padding (`verifyPkcs1`) and with the
probabilistic one (`verifyPss`, the salt as long as the hash), and the decryption of short messages
with optimal padding (`decryptOaep`).

## Termination

`powMod` halves its exponent.
-/

namespace Credential.Crypto.Rsa

/-- `base ^ exponent` modulo `m`. -/
def powMod (base exponent m : Nat) : Nat :=
  if _h : exponent = 0 then 1 % m
  else
    let half := powMod (base * base % m) (exponent / 2) m
    if exponent % 2 = 1 then half * base % m else half
termination_by exponent
decreasing_by omega

/-- **It is the power.** -/
theorem powMod_eq (base exponent m : Nat) : powMod base exponent m = Nat.pow base exponent % m := by
  show powMod base exponent m = base ^ exponent % m
  induction exponent using Nat.strongRecOn generalizing base with
  | _ e ih =>
    unfold powMod
    split
    · next h => simp [h]
    · next h =>
      rw [ih (e / 2) (by omega)]
      have he : base ^ e = (base * base) ^ (e / 2) * base ^ (e % 2) := by
        rw [← Nat.pow_two, ← Nat.pow_mul, ← Nat.pow_add]
        congr 1
        omega
      split
      · next h1 =>
        rw [he, h1, Nat.pow_one, ← Nat.pow_mod, Nat.mul_mod ((base * base) ^ (e / 2) % m),
          Nat.mod_mod, ← Nat.mul_mod]
      · next h1 =>
        have h0 : e % 2 = 0 := by omega
        rw [he, h0, Nat.pow_zero, Nat.mul_one, ← Nat.pow_mod]

/-- A public key. -/
structure PublicKey where
  modulus : Nat
  exponent : Nat
  deriving DecidableEq, Repr

namespace PublicKey

/-- The number of bits of the modulus. -/
def bits (k : PublicKey) : Nat := if k.modulus = 0 then 0 else Nat.log2 k.modulus + 1

/-- The length of the modulus in octets. -/
def size (k : PublicKey) : Nat := (k.bits + 7) / 8

/-- Raise a signature to the public exponent; it must be below the modulus and have its length. -/
def recover? (k : PublicKey) (signature : Bytes) : Option Nat :=
  let s := Bytes.toNat signature
  if signature.length = k.size ∧ s < k.modulus then some (powMod s k.exponent k.modulus) else none

end PublicKey

/-! ## Deterministic signatures -/

/-- The encoding of a hash's name and length that comes before the hash. -/
def digestInfo : Digest → Bytes
  | .sha1 => [0x30, 0x21, 0x30, 0x09, 0x06, 0x05, 0x2b, 0x0e, 0x03, 0x02, 0x1a, 0x05, 0x00, 0x04,
      0x14]
  | .sha256 => [0x30, 0x31, 0x30, 0x0d, 0x06, 0x09, 0x60, 0x86, 0x48, 0x01, 0x65, 0x03, 0x04, 0x02,
      0x01, 0x05, 0x00, 0x04, 0x20]
  | .sha384 => [0x30, 0x41, 0x30, 0x0d, 0x06, 0x09, 0x60, 0x86, 0x48, 0x01, 0x65, 0x03, 0x04, 0x02,
      0x02, 0x05, 0x00, 0x04, 0x30]
  | .sha512 => [0x30, 0x51, 0x30, 0x0d, 0x06, 0x09, 0x60, 0x86, 0x48, 0x01, 0x65, 0x03, 0x04, 0x02,
      0x03, 0x05, 0x00, 0x04, 0x40]

/-- The padded message of a signature, if it fits `size` octets. -/
def encodePkcs1? (d : Digest) (size : Nat) (message : Bytes) : Option Bytes :=
  let t := digestInfo d ++ d.hash message
  if t.length + 11 ≤ size then
    some (0x00 :: 0x01 :: List.replicate (size - t.length - 3) 0xff ++ 0x00 :: t)
  else none

/-- Does the signature recover the padded message? -/
def verifyPkcs1 (k : PublicKey) (d : Digest) (message signature : Bytes) : Bool :=
  match k.recover? signature, encodePkcs1? d k.size message with
  | some m, some em => Bytes.ofNat k.size m == em
  | _, _ => false

/-! ## Masks -/

/-- `n` octets of mask from a seed. -/
def mgf1 (d : Digest) (seed : Bytes) (n : Nat) : Bytes :=
  ((List.range ((n + d.size - 1) / d.size)).flatMap fun i =>
    d.hash (seed ++ Bytes.ofNat 4 i)).take n

/-! ## Probabilistic signatures -/

/-- Is `em` a padding of the message for a modulus of `bits + 1` bits? -/
def checkPss (d : Digest) (bits : Nat) (message em : Bytes) : Bool :=
  let h := d.size
  let n := em.length
  if n < 2 * h + 2 ∨ em.getLast? ≠ some 0xbc then false
  else
    let maskedDb := em.take (n - h - 1)
    let hash := (em.drop (n - h - 1)).take h
    let spare := 8 * n - bits
    let db := Bytes.xor maskedDb (mgf1 d hash (n - h - 1))
    let top := UInt8.ofNat (0xff >>> spare)
    let dbCleared := match db with
      | [] => []
      | x :: rest => (x &&& top) :: rest
    let zeros := n - 2 * h - 2
    let salt := dbCleared.drop (zeros + 1)
    (maskedDb.headD 0 &&& ~~~top) == 0
      && dbCleared.take (zeros + 1) == List.replicate zeros 0 ++ [0x01]
      && d.hash (List.replicate 8 0 ++ d.hash message ++ salt) == hash

/-- Does the signature recover a padding of the message? -/
def verifyPss (k : PublicKey) (d : Digest) (message signature : Bytes) : Bool :=
  match k.recover? signature with
  | none => false
  | some m =>
    let bits := k.bits - 1
    let n := (bits + 7) / 8
    m < Nat.pow 256 n && checkPss d bits message (Bytes.ofNat n m)

/-! ## Decryption -/

/-- A private key with two prime factors. -/
structure PrivateKey where
  publicKey : PublicKey
  privateExponent : Nat
  primes : List Nat
  deriving DecidableEq, Repr

/-- The message behind a separator after the hash of the empty label and zeros. -/
def afterSeparator : Bytes → Option Bytes
  | [] => none
  | x :: rest => if x = 0 then afterSeparator rest else if x = 1 then some rest else none

/-- Remove the optimal padding. -/
def unpadOaep (d : Digest) (em : Bytes) : Option Bytes :=
  let h := d.size
  match em with
  | [] => none
  | x :: rest =>
    let maskedSeed := rest.take h
    let maskedDb := rest.drop h
    let seed := Bytes.xor maskedSeed (mgf1 d maskedDb h)
    let db := Bytes.xor maskedDb (mgf1 d seed maskedDb.length)
    if x = 0 ∧ 2 * h + 2 ≤ em.length ∧ db.take h = d.hash [] then afterSeparator (db.drop h)
    else none

/-- Decrypt with optimal padding under a hash function. -/
def decryptOaep (k : PrivateKey) (d : Digest) (ciphertext : Bytes) : Option Bytes :=
  let pub := k.publicKey
  let c := Bytes.toNat ciphertext
  if ciphertext.length = pub.size ∧ c < pub.modulus then
    unpadOaep d (Bytes.ofNat pub.size (powMod c k.privateExponent pub.modulus))
  else none

end Credential.Crypto.Rsa
