import Credential.Bytes

/-!
# Cipher block chaining

Encryption over any cipher on blocks of sixteen octets, with the padding of PKCS #7: as many octets
as are missing to a whole block, at least one, each holding their number.
-/

namespace Credential.Crypto.Cbc

def blockLength : Nat := 16

/-! ## Padding -/

def pad (b : Bytes) : Bytes :=
  let n := 16 - b.length % 16
  b ++ List.replicate n (UInt8.ofNat n)

/-- Remove the padding; `none` when there is none. -/
def unpad (b : Bytes) : Option Bytes :=
  match b.getLast? with
  | none => none
  | some last =>
    let n := last.toNat
    let text := b.take (b.length - n)
    if 1 ≤ n ∧ n ≤ 16 ∧ b = text ++ List.replicate n last then some text else none

theorem unpad_pad (b : Bytes) : unpad (pad b) = some b := by
  have hn : 1 ≤ 16 - b.length % 16 ∧ 16 - b.length % 16 ≤ 16 := by omega
  unfold pad
  simp only
  generalize 16 - b.length % 16 = n at hn ⊢
  have hlast : (b ++ List.replicate n (UInt8.ofNat n)).getLast? = some (UInt8.ofNat n) := by
    obtain ⟨m, rfl⟩ : ∃ m, n = m + 1 := ⟨n - 1, by omega⟩
    rw [List.replicate_succ', ← List.append_assoc]
    simp
  have hto : (UInt8.ofNat n).toNat = n := by
    rw [UInt8.toNat_ofNat']; omega
  simp only [unpad, hlast, hto, List.length_append, List.length_replicate, Nat.add_sub_cancel,
    List.take_left', and_true]
  simp [hn]

/-! ## Chaining -/

/-- Encrypt blocks; each is first masked with the encrypted block before it. -/
def encryptBlocks (cipher : Bytes → Bytes) (previous : Bytes) : List Bytes → List Bytes
  | [] => []
  | b :: rest =>
    let c := cipher (Bytes.xor b previous)
    c :: encryptBlocks cipher c rest

/-- Decrypt blocks. -/
def decryptBlocks (inverse : Bytes → Bytes) (previous : Bytes) : List Bytes → List Bytes
  | [] => []
  | c :: rest => Bytes.xor (inverse c) previous :: decryptBlocks inverse c rest

/-- Encrypt a text of any length. -/
def encrypt (cipher : Bytes → Bytes) (iv plaintext : Bytes) : Bytes :=
  (encryptBlocks cipher iv (Bytes.chunks 16 (pad plaintext))).flatten

/-- Decrypt whole blocks and remove the padding. -/
def decrypt (inverse : Bytes → Bytes) (iv ciphertext : Bytes) : Option Bytes :=
  if iv.length = blockLength ∧ ciphertext.length % 16 = 0 then
    unpad (decryptBlocks inverse iv (Bytes.chunks 16 ciphertext)).flatten
  else none

end Credential.Crypto.Cbc
