import Credential.Jwe.Content
import Credential.Proofs.Crypto.Aes
import Credential.Proofs.Crypto.Cbc

/-!
# Encrypted content is decrypted

Under a content key and a vector of the right lengths each method decrypts exactly what it encrypts
(`Encryption.decrypt_eq_some_iff_encrypt`), whatever the text and the additional data.

A method has one length for all its tags (`Encryption.length_tag`). Comparing the tags refuses one
of another length, so decrypting does not look at the length by itself.
-/

namespace Credential.Jwe

open Crypto

variable {nk : Nat} (hnk : 0 < nk) {key iv aad ciphertext tag text : Bytes}

section Modes

include hnk

/-- Counter mode needs the cipher in one direction only. -/
theorem decryptGcm_eq_some_iff (hkey : key.length = nk * 4) :
    Gcm.decrypt (Aes.encryptBlock key) iv aad ciphertext tag = some text
      ↔ iv.length = Gcm.ivLength
        ∧ Gcm.encrypt (Aes.encryptBlock key) iv aad text = (ciphertext, tag) :=
  Gcm.decrypt_eq_some_iff _ _ _ _ _ _ (Aes.length_encryptBlock hnk hkey)

/-- What is chained is taken apart with the second half of the key, once the first half has
authenticated it. -/
theorem decryptCbc_eq_some_iff (d : Digest) (hhalf : (key.drop (key.length / 2)).length = nk * 4) :
    decryptCbc d key iv aad ciphertext tag = some text
      ↔ iv.length = Cbc.blockLength ∧ encryptCbc d key iv aad text = (ciphertext, tag) := by
  have hopen : Cbc.decrypt (Aes.decryptBlock (key.drop (key.length / 2))) iv ciphertext = some text
      ↔ iv.length = Cbc.blockLength
        ∧ Cbc.encrypt (Aes.encryptBlock (key.drop (key.length / 2))) iv text = ciphertext :=
    Cbc.decrypt_eq_some_iff (Aes.length_encryptBlock hnk hhalf)
      (fun _ hb => Aes.decryptBlock_encryptBlock hnk hhalf hb)
      (fun _ hb => Aes.encryptBlock_decryptBlock hnk hhalf hb)
      (Aes.length_decryptBlock hnk hhalf)
  unfold decryptCbc encryptCbc
  dsimp only
  rw [Prod.mk.injEq]
  constructor
  · intro h
    split at h
    · next htag =>
      obtain ⟨-, rfl⟩ := hopen.1 h
      exact ⟨htag.1, rfl, htag.2⟩
    · exact absurd h (by simp)
  · rintro ⟨hiv, rfl, rfl⟩
    rw [if_pos ⟨hiv, rfl⟩]
    exact hopen.2 ⟨hiv, rfl⟩

theorem length_tagGcm (hkey : key.length = nk * 4) :
    (Gcm.encrypt (Aes.encryptBlock key) iv aad text).2.length = Gcm.tagLength := by
  have hcipher : ∀ b, (Aes.encryptBlock key b).length = 16 := Aes.length_encryptBlock hnk hkey
  simp only [Gcm.encrypt, Gcm.length_tag hcipher]

end Modes

/-- A tag is as long as the key of the hash, which is no longer than the hash. -/
theorem length_cbcTag (d : Digest) {macKey : Bytes} (h : macKey.length ≤ d.size) :
    (cbcTag d macKey iv aad ciphertext).length = macKey.length := by
  rw [cbcTag, List.length_take, Digest.length_hmac]
  exact Nat.min_eq_left h

theorem length_tagCbc (d : Digest) (hkey : key.length = d.size) :
    (encryptCbc d key iv aad text).2.length = d.size / 2 := by
  have hhalf : (key.take (key.length / 2)).length = d.size / 2 := by
    rw [List.length_take, hkey]
    omega
  simp only [encryptCbc, length_cbcTag d (Nat.le_trans (Nat.le_of_eq hhalf) (d.size.div_le_self 2)),
    hhalf]

namespace Encryption

variable {e : Encryption}

/-- **Each method decrypts exactly what it encrypts**, under a key and a vector of its lengths. -/
theorem decrypt_eq_some_iff_encrypt :
    e.decrypt key iv aad ciphertext tag = some text
      ↔ key.length = e.keyLength ∧ iv.length = e.ivLength
        ∧ e.encrypt key iv aad text = (ciphertext, tag) := by
  by_cases hkey : key.length = e.keyLength
  · have hhalf : (key.drop (key.length / 2)).length = e.keyLength - e.keyLength / 2 := by
      rw [List.length_drop, hkey]
    rw [decrypt, if_pos hkey, and_iff_right hkey]
    cases e with
    | a128Gcm => exact decryptGcm_eq_some_iff (show 0 < 4 by decide) hkey
    | a256Gcm => exact decryptGcm_eq_some_iff (show 0 < 8 by decide) hkey
    | a128CbcHs256 => exact decryptCbc_eq_some_iff (show 0 < 4 by decide) .sha256 hhalf
    | a256CbcHs512 => exact decryptCbc_eq_some_iff (show 0 < 8 by decide) .sha512 hhalf
  · rw [decrypt, if_neg hkey]
    exact ⟨fun h => absurd h (by simp), fun h => absurd h.1 hkey⟩

theorem decrypt_encrypt (hkey : key.length = e.keyLength) (hiv : iv.length = e.ivLength)
    (aad text : Bytes) :
    e.decrypt key iv aad (e.encrypt key iv aad text).1 (e.encrypt key iv aad text).2
      = some text :=
  decrypt_eq_some_iff_encrypt.2 ⟨hkey, hiv, rfl⟩

/-- **All tags of a method are of one length.** -/
theorem length_tag (hkey : key.length = e.keyLength) :
    (e.encrypt key iv aad text).2.length = e.tagLength := by
  cases e with
  | a128Gcm => exact length_tagGcm (show 0 < 4 by decide) hkey
  | a256Gcm => exact length_tagGcm (show 0 < 8 by decide) hkey
  | a128CbcHs256 => exact length_tagCbc .sha256 hkey
  | a256CbcHs512 => exact length_tagCbc .sha512 hkey

/-- What has a tag of another length is not decrypted. -/
theorem length_tag_of_decrypt (h : e.decrypt key iv aad ciphertext tag = some text) :
    tag.length = e.tagLength := by
  obtain ⟨hkey, -, hencrypt⟩ := decrypt_eq_some_iff_encrypt.1 h
  calc tag.length = (e.encrypt key iv aad text).2.length := by rw [hencrypt]
    _ = e.tagLength := length_tag hkey

end Encryption

end Credential.Jwe
