import Credential.Bytes

/-!
# Galois/counter mode

Authenticated encryption over any cipher on blocks of sixteen octets (NIST SP 800-38D), for
initialization vectors of twelve octets. The cipher is only used forwards: the text is masked with a
key stream, and the tag is a polynomial hash masked with one more block.

Main statement: what `encrypt` gives is decrypted again, and nothing else decrypts
(`decrypt_eq_some_iff`).
-/

namespace Credential.Crypto.Gcm

/-- The length of an initialization vector. -/
def ivLength : Nat := 12

/-- The length of a tag. -/
def tagLength : Nat := 16

/-! ## The field of the hash -/

/-- One step of the multiplication: the sum so far and the shifted factor, for one bit of the other
factor. Bits are counted from the most significant one. -/
def mulStep (x : Nat) (acc : Nat × Nat) (i : Nat) : Nat × Nat :=
  let sum := if x.testBit (127 - i) then acc.1 ^^^ acc.2 else acc.1
  let shifted := if acc.2.testBit 0 then (acc.2 >>> 1) ^^^ (0xe1 <<< 120) else acc.2 >>> 1
  (sum, shifted)

/-- The product of two elements. -/
def mul (x y : Nat) : Nat := ((List.range 128).foldl (mulStep x) (0, y)).1

/-- Fill up to whole blocks with zeros. -/
def fill (b : Bytes) : Bytes := b ++ List.replicate ((16 - b.length % 16) % 16) 0

/-- The hash of associated data and ciphertext under a hash key. -/
def ghash (h : Nat) (aad ciphertext : Bytes) : Bytes :=
  let lengths := Bytes.ofNat 8 (8 * aad.length) ++ Bytes.ofNat 8 (8 * ciphertext.length)
  let blocks := Bytes.chunks 16 (fill aad ++ fill ciphertext ++ lengths)
  Bytes.ofNat 16 (blocks.foldl (fun acc b => mul (acc ^^^ Bytes.toNat b) h) 0)

/-! ## The mode -/

/-- The counter block `i`. -/
def counterBlock (iv : Bytes) (i : Nat) : Bytes := iv ++ Bytes.ofNat 4 i

/-- At least `n` octets of key stream. -/
def keyStream (cipher : Bytes → Bytes) (iv : Bytes) (n : Nat) : Bytes :=
  (List.range ((n + 15) / 16)).flatMap fun i => cipher (counterBlock iv (i + 2))

/-- Mask or unmask a text. -/
def mask (cipher : Bytes → Bytes) (iv text : Bytes) : Bytes :=
  Bytes.xor text (keyStream cipher iv text.length)

/-- The tag of associated data and ciphertext. -/
def tag (cipher : Bytes → Bytes) (iv aad ciphertext : Bytes) : Bytes :=
  Bytes.xor (ghash (Bytes.toNat (cipher (List.replicate 16 0))) aad ciphertext)
    (cipher (counterBlock iv 1))

/-- Encrypt and authenticate: the ciphertext and its tag. -/
def encrypt (cipher : Bytes → Bytes) (iv aad plaintext : Bytes) : Bytes × Bytes :=
  let c := mask cipher iv plaintext
  (c, tag cipher iv aad c)

/-- Check the tag and decrypt. -/
def decrypt (cipher : Bytes → Bytes) (iv aad ciphertext givenTag : Bytes) : Option Bytes :=
  if iv.length = ivLength ∧ tag cipher iv aad ciphertext = givenTag then
    some (mask cipher iv ciphertext)
  else none

/-! ## Lengths -/

theorem length_ghash (h : Nat) (aad ciphertext : Bytes) :
    (ghash h aad ciphertext).length = tagLength :=
  Bytes.length_ofNat 16 _

/-- A tag is a whole block. -/
theorem length_tag {cipher : Bytes → Bytes} {iv aad ciphertext : Bytes}
    (hc : ∀ b, (cipher b).length = 16) : (tag cipher iv aad ciphertext).length = tagLength := by
  rw [tag, Bytes.length_xor, length_ghash, hc]
  rfl

theorem length_keyStream (cipher : Bytes → Bytes) (iv : Bytes) (n : Nat)
    (hc : ∀ b, (cipher b).length = 16) : n ≤ (keyStream cipher iv n).length := by
  have : (keyStream cipher iv n).length = (n + 15) / 16 * 16 := by
    simp only [keyStream, List.length_flatMap, hc, List.map_const', List.sum_replicate_nat,
      List.length_range]
  omega

theorem length_mask (cipher : Bytes → Bytes) (iv text : Bytes)
    (hc : ∀ b, (cipher b).length = 16) : (mask cipher iv text).length = text.length := by
  have := length_keyStream cipher iv text.length hc
  simp only [mask, Bytes.length_xor]
  omega

/-! ## Decryption inverts encryption -/

/-- Masking is its own inverse. -/
theorem mask_mask (cipher : Bytes → Bytes) (iv text : Bytes)
    (hc : ∀ b, (cipher b).length = 16) : mask cipher iv (mask cipher iv text) = text := by
  have hl := length_mask cipher iv text hc
  rw [mask, hl, mask]
  exact Bytes.xor_xor_cancel _ _ (length_keyStream cipher iv text.length hc)

/-- **Exactly what was encrypted decrypts, and to what was encrypted.** -/
theorem decrypt_eq_some_iff (cipher : Bytes → Bytes) (iv aad c t p : Bytes)
    (hc : ∀ b, (cipher b).length = 16) :
    decrypt cipher iv aad c t = some p
      ↔ iv.length = ivLength ∧ encrypt cipher iv aad p = (c, t) := by
  unfold decrypt encrypt
  constructor
  · intro h
    split at h
    · next hk =>
      have hp := Option.some.inj h
      subst hp
      simp only [mask_mask cipher iv c hc]
      exact ⟨hk.1, by rw [hk.2]⟩
    · simp at h
  · rintro ⟨hi, hs⟩
    simp only [Prod.mk.injEq] at hs
    obtain ⟨rfl, ht⟩ := hs
    rw [if_pos ⟨hi, ht⟩, mask_mask cipher iv p hc]

end Credential.Crypto.Gcm
