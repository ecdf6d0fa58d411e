import Credential.Asn1.KeyInfo
import Credential.Asn1.Pem
import Credential.Jose.Token
import Credential.Jwe.Content

/-!
# Decrypting tokens

A decryption key is an RSA private key or a shared key. The key management of a token says how the
content key comes out of it. Whatever goes wrong on the way, the answer is only that decryption
failed.
-/

namespace Credential

namespace Jwe

open Crypto

/-- What a decryption key holds. -/
inductive KeyMaterial where
  | rsa (key : Rsa.PrivateKey)
  | direct (key : Bytes)
  deriving DecidableEq

/-- A decryption key and its id. -/
structure Key where
  material : KeyMaterial
  keyId : Option String
  deriving DecidableEq

namespace Key

/-- An RSA private key in a textual encoding of either kind. -/
def ofPem (pem : String) (keyId : Option String) : Result Key :=
  let key? := (Pem.contentOf? "PRIVATE KEY" pem).bind KeyInfo.rsaPrivateInfo?
    <|> (Pem.contentOf? "RSA PRIVATE KEY" pem).bind KeyInfo.rsaPrivate?
  orFail (key?.map fun k => ⟨.rsa k, keyId⟩) (.configuration .rsaPrivateKey)

/-- A shared key. -/
def direct (key : Bytes) (keyId : Option String) : Key := ⟨.direct key, keyId⟩

/-- Can the key be used with the key management? -/
def supports (k : Key) (m : KeyManagement) : Bool :=
  match k.material, m with
  | .rsa _, .rsaOaep | .rsa _, .rsaOaep256 | .direct _, .direct => true
  | _, _ => false

end Key

end Jwe

namespace EncryptedToken

open Crypto

/-- The data that is authenticated but not encrypted: the header as written. -/
def aad (t : EncryptedToken) : Bytes := Utf8.encode t.headerText

/-- The content key that a decryption key gives. A shared key needs no encrypted one. -/
def contentKey? (t : EncryptedToken) (k : Jwe.Key) : Option Bytes :=
  match t.keyManagement, k.material with
  | .rsaOaep, .rsa key => Rsa.decryptOaep key .sha1 t.encryptedKey
  | .rsaOaep256, .rsa key => Rsa.decryptOaep key .sha256 t.encryptedKey
  | .direct, .direct key => if t.encryptedKey = [] then some key else none
  | _, _ => none

/-- The content under a content key. -/
def contentUnder? (t : EncryptedToken) (contentKey : Bytes) : Option Bytes :=
  t.encryption.decrypt contentKey t.iv t.aad t.ciphertext t.tag

/-- The content of a token, if the key opens it. -/
def content? (t : EncryptedToken) (k : Jwe.Key) : Option Bytes :=
  (t.contentKey? k).bind t.contentUnder?

/-- Decrypt a token. -/
def decrypt (t : EncryptedToken) (k : Jwe.Key) : Result Bytes :=
  orFail (t.content? k) (.crypto .decryptionFailed)

end EncryptedToken

end Credential
