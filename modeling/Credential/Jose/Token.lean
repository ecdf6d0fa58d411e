import Credential.Claims.Basic
import Credential.Jose.Header
import Credential.Text.Blank
import Credential.Text.Pieces

/-!
# Compact tokens

A token is a text of segments between dots, white space around it aside. Three segments make an
unsecured or a signed token, which of the two the header's algorithm decides; five make an encrypted
one. Which representation a token has is settled here once, before anything is verified.
-/

namespace Credential

/-- A token without a signature. -/
structure UnsecuredToken where
  header : JoseHeader
  claims : Claims

/-- A token with a signature that is not verified yet. The segments are kept as written. -/
structure SignedToken where
  headerText : String
  payloadText : String
  signatureText : String
  header : JoseHeader
  algorithm : Jws.Algorithm
  claims : Claims

namespace SignedToken

/-- What is signed: the header and the payload as written. -/
def signingInput (t : SignedToken) : String := t.headerText ++ "." ++ t.payloadText

/-- The whole token as written. -/
def text (t : SignedToken) : String := t.signingInput ++ "." ++ t.signatureText

end SignedToken

/-- A token whose content is encrypted. The header is kept as written, since it is authenticated. -/
structure EncryptedToken where
  headerText : String
  header : JoseHeader
  keyManagement : Jwe.KeyManagement
  encryption : Jwe.Encryption
  encryptedKey : Bytes
  iv : Bytes
  ciphertext : Bytes
  tag : Bytes

/-- A token in one of its three representations. -/
inductive Token where
  | unsecured (token : UnsecuredToken)
  | signed (token : SignedToken)
  | encrypted (token : EncryptedToken)

namespace Token

def kind : Token → TokenKind
  | .unsecured _ => .unsecured
  | .signed _ => .signed
  | .encrypted _ => .encrypted

/-- Read three segments. -/
def ofThree (header payload signature : String) : Result Token := do
  let h ← JoseHeader.decode header
  let algorithm ← Jws.Algorithm.parse h.algorithm
  let claims ← Claims.parse (← decodeSegment .payload payload)
  -- the signature comes last, so a token with two faults reports the other one
  if algorithm = .unsecured then
    if signature = "" then return .unsecured ⟨h, claims⟩
    else refuse .unsecuredWithSignature
  else if signature = "" then refuse .signedWithoutSignature
  else
    let _ ← decodeSegment .signature signature
    return .signed ⟨header, payload, signature, h, algorithm, claims⟩

/-- Read five segments. -/
def ofFive (header encryptedKey iv ciphertext tag : String) : Result Token := do
  let h ← JoseHeader.decode header
  let keyManagement ← Jwe.KeyManagement.parse h.algorithm
  let method ← orRefuse h.encryption .missingEncryptionMethod
  let encryption ← Jwe.Encryption.parse method
  return .encrypted {
    headerText := header, header := h, keyManagement, encryption
    encryptedKey := ← decodeSegment .encryptedKey encryptedKey
    iv := ← decodeSegment .initializationVector iv
    ciphertext := ← decodeSegment .ciphertext ciphertext
    tag := ← decodeSegment .authenticationTag tag }

/-- The segments of a token without the white space around it. -/
def segments (s : String) : List String :=
  (Text.pieces '.' (Text.trimChars s.toList)).map String.ofList

/-- Read segments as a token. -/
def ofSegments : List String → Result Token
  | [header, payload, signature] => ofThree header payload signature
  | [header, encryptedKey, iv, ciphertext, tag] => ofFive header encryptedKey iv ciphertext tag
  | other => refuse (.segmentCount other.length)

/-- Read a token. -/
def parse (s : String) : Result Token := ofSegments (segments s)

end Token

/-- Read a token that must be signed. -/
def SignedToken.parse (s : String) : Result SignedToken := do
  match ← Token.parse s with
  | .signed t => return t
  | other => refuse (.notSigned other.kind)

end Credential
