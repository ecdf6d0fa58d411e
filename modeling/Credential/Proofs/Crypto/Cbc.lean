import Credential.Crypto.Cbc
import Credential.Proofs.Bytes

/-!
# Chained blocks are taken apart again

Over any cipher that can be undone block by block, what is encrypted in a chain is decrypted
(`decrypt_encrypt`), and if the cipher undoes its inverse too, nothing else is
(`decrypt_eq_some_iff`). Both walk along the same encrypted blocks, since each one masks the next.
-/

namespace Credential.Crypto.Cbc

/-- A text is padded to whole blocks. -/
theorem length_pad (text : Bytes) : (pad text).length = (text.length / 16 + 1) * 16 := by
  rw [pad, List.length_append, List.length_replicate]
  omega

/-- **What padding is removed from is padded.** The number in the last octet is the only one that
makes whole blocks. -/
theorem eq_pad_of_unpad {b text : Bytes} (hb : b.length % 16 = 0) (h : unpad b = some text) :
    b = pad text := by
  unfold unpad at h
  split at h
  · exact absurd h (by simp)
  · next last hlast =>
    dsimp only at h
    split at h
    · next hpadded =>
      obtain ⟨hpos, hle, heq⟩ := hpadded
      rw [Option.some.inj h] at heq
      have hlength := congrArg List.length heq
      rw [List.length_append, List.length_replicate] at hlength
      have hcount : 16 - text.length % 16 = last.toNat := by omega
      rw [pad, hcount, UInt8.ofNat_toNat]
      exact heq
    · exact absurd h (by simp)

section Chaining

variable {cipher inverse : Bytes → Bytes} (hlength : ∀ b, (cipher b).length = 16)
include hlength

theorem length_of_mem_encryptBlocks (bs : List Bytes) (previous : Bytes) :
    ∀ c ∈ encryptBlocks cipher previous bs, c.length = 16 := by
  induction bs generalizing previous with
  | nil => exact fun c hc => (nomatch hc)
  | cons b bs ih => exact List.forall_mem_cons.2 ⟨hlength _, ih _⟩

variable (hinverse : ∀ b, b.length = 16 → inverse (cipher b) = b)
include hinverse

/-- Each block comes out under the mask of the one before it. -/
theorem decryptBlocks_encryptBlocks {bs : List Bytes} (hbs : ∀ b ∈ bs, b.length = 16)
    {previous : Bytes} (hprevious : previous.length = 16) :
    decryptBlocks inverse previous (encryptBlocks cipher previous bs) = bs := by
  induction bs generalizing previous with
  | nil => rfl
  | cons b bs ih =>
    obtain ⟨hb, hbs⟩ := List.forall_mem_cons.1 hbs
    have hmasked : (Bytes.xor b previous).length = 16 := by
      rw [Bytes.length_xor, hb, hprevious, Nat.min_self]
    have hle : b.length ≤ previous.length := Nat.le_of_eq (hb.trans hprevious.symm)
    -- the next mask is the encrypted block, which both sides have
    rw [encryptBlocks, decryptBlocks, hinverse _ hmasked, Bytes.xor_xor_cancel _ _ hle,
      ih hbs (hlength _)]

/-- **What is encrypted is decrypted.** -/
theorem decrypt_encrypt {iv : Bytes} (hiv : iv.length = blockLength) (text : Bytes) :
    decrypt inverse iv (encrypt cipher iv text) = some text := by
  obtain ⟨blocks, -, hblocks, hpad⟩ := Bytes.exists_blocks (length_pad text)
  have hencrypted := length_of_mem_encryptBlocks hlength blocks iv
  rw [encrypt, ← hpad, Bytes.chunks_flatten (by decide) blocks hblocks, decrypt, if_pos,
    Bytes.chunks_flatten (by decide) _ hencrypted,
    decryptBlocks_encryptBlocks hlength hinverse hblocks hiv, hpad, unpad_pad]
  refine ⟨hiv, ?_⟩
  rw [Bytes.length_flatten _ hencrypted, Nat.mul_mod_left]

/-! ## Nothing else is decrypted -/

section Onto

variable (honto : ∀ b, b.length = 16 → cipher (inverse b) = b)
  (hlength' : ∀ b, (inverse b).length = 16)

omit hlength hinverse in
include hlength' in
theorem length_of_mem_decryptBlocks {bs : List Bytes} {previous : Bytes}
    (hbs : ∀ b ∈ bs, b.length = 16) (hprevious : previous.length = 16) :
    ∀ b ∈ decryptBlocks inverse previous bs, b.length = 16 := by
  induction bs generalizing previous with
  | nil => exact fun b hb => (nomatch hb)
  | cons c bs ih =>
    obtain ⟨hc, hbs⟩ := List.forall_mem_cons.1 hbs
    refine List.forall_mem_cons.2 ⟨?_, ih hbs hc⟩
    rw [Bytes.length_xor, hlength', hprevious, Nat.min_self]

omit hlength hinverse in
include honto hlength' in
/-- Each block goes back under the mask of the one before it. -/
theorem encryptBlocks_decryptBlocks {bs : List Bytes} (hbs : ∀ b ∈ bs, b.length = 16)
    {previous : Bytes} (hprevious : previous.length = 16) :
    encryptBlocks cipher previous (decryptBlocks inverse previous bs) = bs := by
  induction bs generalizing previous with
  | nil => rfl
  | cons c bs ih =>
    obtain ⟨hc, hbs⟩ := List.forall_mem_cons.1 hbs
    have hle : (inverse c).length ≤ previous.length :=
      Nat.le_of_eq ((hlength' c).trans hprevious.symm)
    rw [decryptBlocks, encryptBlocks, Bytes.xor_xor_cancel _ _ hle, honto c hc, ih hbs hc]

include honto hlength' in
/-- **Exactly what is encrypted is decrypted, and to what was encrypted.** -/
theorem decrypt_eq_some_iff {iv ciphertext text : Bytes} :
    decrypt inverse iv ciphertext = some text
      ↔ iv.length = blockLength ∧ encrypt cipher iv text = ciphertext := by
  constructor
  · intro h
    unfold decrypt at h
    split at h
    · next hwhole =>
      obtain ⟨hiv, hwhole⟩ := hwhole
      obtain ⟨blocks, -, hblocks, rfl⟩ :=
        Bytes.exists_blocks (b := ciphertext) (m := ciphertext.length / 16) (n := 16) (by omega)
      rw [Bytes.chunks_flatten (by decide) blocks hblocks] at h
      have hplain := length_of_mem_decryptBlocks hlength' hblocks hiv
      have hpad := eq_pad_of_unpad
        (by rw [Bytes.length_flatten _ hplain, Nat.mul_mod_left]) h
      refine ⟨hiv, ?_⟩
      rw [encrypt, ← hpad, Bytes.chunks_flatten (by decide) _ hplain,
        encryptBlocks_decryptBlocks honto hlength' hblocks hiv]
    · exact absurd h (by simp)
  · rintro ⟨hiv, rfl⟩
    exact decrypt_encrypt hlength hinverse hiv text

end Onto

end Chaining

end Credential.Crypto.Cbc
