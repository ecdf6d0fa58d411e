import Credential.Crypto.Aes
import Credential.Crypto.Cbc
import Credential.Crypto.Digest
import Credential.Crypto.Gcm
import Credential.Jose.Algorithm

/-!
# Encrypted content

The four content encryptions of RFC 7518 under a content key: Galois/counter mode, and cipher block
chaining with a keyed hash over everything. For the latter the first half of the key authenticates
and the second half encrypts, and the tag is the left half of the hash.
-/

namespace Credential.Jwe

open Crypto

namespace Encryption

/-- The hash function that authenticates, where the cipher mode does not do it itself. -/
def digest? : Encryption → Option Digest
  | .a128Gcm | .a256Gcm => none
  | .a128CbcHs256 => some .sha256
  | .a256CbcHs512 => some .sha512

/-- The length of an initialization vector. -/
def ivLength (e : Encryption) : Nat :=
  match e.digest? with
  | none => Gcm.ivLength
  | some _ => Cbc.blockLength

/-- The length of a tag. -/
def tagLength (e : Encryption) : Nat :=
  match e.digest? with
  | none => Gcm.tagLength
  | some d => d.size / 2

end Encryption

/-! ## Chaining with a keyed hash -/

/-- The tag of header, vector and ciphertext. -/
def cbcTag (d : Digest) (macKey iv aad ciphertext : Bytes) : Bytes :=
  (d.hmac macKey (aad ++ iv ++ ciphertext ++ Bytes.ofNat 8 (8 * aad.length))).take macKey.length

/-- Encrypt, then authenticate. -/
def encryptCbc (d : Digest) (key iv aad plaintext : Bytes) : Bytes × Bytes :=
  let half := key.length / 2
  let c := Cbc.encrypt (Aes.encryptBlock (key.drop half)) iv plaintext
  (c, cbcTag d (key.take half) iv aad c)

/-- Check the tag, then decrypt. -/
def decryptCbc (d : Digest) (key iv aad ciphertext tag : Bytes) : Option Bytes :=
  let half := key.length / 2
  if iv.length = Cbc.blockLength ∧ cbcTag d (key.take half) iv aad ciphertext = tag then
    Cbc.decrypt (Aes.decryptBlock (key.drop half)) iv ciphertext
  else none

/-! ## All methods -/

namespace Encryption

/-- Encrypt and authenticate a text together with additional data: the ciphertext and the tag. -/
def encrypt (e : Encryption) (key iv aad plaintext : Bytes) : Bytes × Bytes :=
  match e.digest? with
  | none => Gcm.encrypt (Aes.encryptBlock key) iv aad plaintext
  | some d => encryptCbc d key iv aad plaintext

/-- Check and decrypt; key and vector must have their lengths. -/
def decrypt (e : Encryption) (key iv aad ciphertext tag : Bytes) : Option Bytes :=
  if key.length = e.keyLength then
    match e.digest? with
    | none => Gcm.decrypt (Aes.encryptBlock key) iv aad ciphertext tag
    | some d => decryptCbc d key iv aad ciphertext tag
  else none

end Encryption

end Credential.Jwe
