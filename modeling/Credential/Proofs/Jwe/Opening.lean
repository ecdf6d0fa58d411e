import Credential.Jwe.Key
import Credential.Proofs.Jwe.Content
import Credential.Proofs.Outcome

/-!
# What a shared key opens

A shared key opens exactly the tokens that are sealed under it, and to the text that was sealed
(`decrypt_direct`); of anything else it is said only that decryption failed.

Sealing is spelled out as RFC 7518 has it (`Encryption.seal`). In chaining mode the first half of
the key is for the keyed hash, over the additional data, the vector, the ciphertext and the number
of bits of the additional data, and the tag is the first half of that hash. Under a key of the right
length that is how a method encrypts (`Encryption.seal_eq_encrypt`).
-/

namespace Credential

namespace Jwe

open Crypto

/-! ## Sealing -/

/-- Chaining with a keyed hash: the ciphertext and the tag. -/
def sealCbc (d : Digest) (key iv aad text : Bytes) : Bytes × Bytes :=
  let macKey := key.take (key.length / 2)
  let cipherKey := key.drop (key.length / 2)
  let ciphertext := Cbc.encrypt (Aes.encryptBlock cipherKey) iv text
  let bits := Bytes.ofNat 8 (8 * aad.length)
  let hash := d.hmac macKey (aad ++ iv ++ ciphertext ++ bits)
  (ciphertext, hash.take (hash.length / 2))

/-- Seal a text together with additional data: the ciphertext and the tag. -/
def Encryption.seal (e : Encryption) (key iv aad text : Bytes) : Bytes × Bytes :=
  match e with
  | .a128Gcm | .a256Gcm => Gcm.encrypt (Aes.encryptBlock key) iv aad text
  | .a128CbcHs256 => sealCbc .sha256 key iv aad text
  | .a256CbcHs512 => sealCbc .sha512 key iv aad text

variable {key iv aad ciphertext tag text : Bytes}

/-- The hash is as long as the key, so its half is as long as the half of the key. -/
theorem sealCbc_eq_encryptCbc (d : Digest) (hkey : key.length = d.size) :
    sealCbc d key iv aad text = encryptCbc d key iv aad text := by
  have hhalf : (key.take (key.length / 2)).length = d.size / 2 := by
    rw [List.length_take, hkey]
    omega
  unfold sealCbc encryptCbc cbcTag
  dsimp only
  rw [Digest.length_hmac, hhalf]

/-- **Sealing is encrypting**, under a key of the right length. -/
theorem Encryption.seal_eq_encrypt {e : Encryption} (hkey : key.length = e.keyLength) :
    e.seal key iv aad text = e.encrypt key iv aad text := by
  cases e with
  | a128Gcm => rfl
  | a256Gcm => rfl
  | a128CbcHs256 => exact sealCbc_eq_encryptCbc .sha256 hkey
  | a256CbcHs512 => exact sealCbc_eq_encryptCbc .sha512 hkey

/-- **Each method opens exactly what it seals**, under a key and a vector of its lengths. -/
theorem Encryption.decrypt_eq_some_iff {e : Encryption} :
    e.decrypt key iv aad ciphertext tag = some text
      ↔ key.length = e.keyLength ∧ iv.length = e.ivLength
        ∧ e.seal key iv aad text = (ciphertext, tag) := by
  rw [decrypt_eq_some_iff_encrypt]
  refine and_congr_right fun hkey => and_congr_right fun _ => ?_
  rw [seal_eq_encrypt hkey]

end Jwe

/-! ## Tokens -/

namespace EncryptedToken

open Jwe

variable {t : EncryptedToken} {key text : Bytes} {keyId : Option String}

/-- The token is the text sealed under a shared key, with its vector and with its header, as it is
written, for additional data. There is no encrypted key. -/
structure IsSealed (t : EncryptedToken) (key text : Bytes) : Prop where
  direct : t.keyManagement = .direct
  encryptedKey : t.encryptedKey = []
  keyLength : key.length = t.encryption.keyLength
  ivLength : t.iv.length = t.encryption.ivLength
  content : t.encryption.seal key t.iv (Utf8.encode t.headerText) text = (t.ciphertext, t.tag)

/-- A shared key is the content key where the token asks for it and brings none. -/
theorem contentKey?_direct_eq_some_iff {contentKey : Bytes} :
    t.contentKey? (.direct key keyId) = some contentKey
      ↔ t.keyManagement = .direct ∧ t.encryptedKey = [] ∧ key = contentKey := by
  unfold contentKey? Key.direct
  cases t.keyManagement with
  | rsaOaep => simp
  | rsaOaep256 => simp
  | direct => simp

theorem content?_direct_eq_some_iff :
    t.content? (.direct key keyId) = some text ↔ t.IsSealed key text := by
  rw [content?, Option.bind_eq_some_iff]
  constructor
  · rintro ⟨contentKey, hkey, h⟩
    obtain ⟨hdirect, hnone, rfl⟩ := contentKey?_direct_eq_some_iff.1 hkey
    obtain ⟨hlength, hiv, hseal⟩ := Encryption.decrypt_eq_some_iff.1 h
    exact ⟨hdirect, hnone, hlength, hiv, hseal⟩
  · intro h
    exact ⟨key, contentKey?_direct_eq_some_iff.2 ⟨h.direct, h.encryptedKey, rfl⟩,
      Encryption.decrypt_eq_some_iff.2 ⟨h.keyLength, h.ivLength, h.content⟩⟩

/-- **A shared key opens exactly what is sealed under it**, to the text that was sealed; of anything
else it is said only that decryption failed. -/
theorem decrypt_direct (t : EncryptedToken) (key : Bytes) (keyId : Option String) :
    (∀ text, t.decrypt (.direct key keyId) = .ok text ↔ t.IsSealed key text)
      ∧ (t.decrypt (.direct key keyId) = .error (.crypto .decryptionFailed)
        ↔ ∀ text, ¬ t.IsSealed key text) := by
  unfold decrypt
  refine ⟨fun text => by rw [orFail_eq_ok_iff, content?_direct_eq_some_iff], ?_⟩
  constructor
  · intro h text hsealed
    rw [content?_direct_eq_some_iff.2 hsealed] at h
    exact absurd h (by simp [orFail])
  · intro h
    cases hcontent : t.content? (.direct key keyId) with
    | none => rfl
    | some text => exact absurd (content?_direct_eq_some_iff.1 hcontent) (h text)

end EncryptedToken

end Credential
