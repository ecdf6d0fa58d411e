import Credential.IdToken.Verified
import Credential.Jose.Token
import Credential.Jwe.Selector
import Credential.Jws.Selector
import Credential.Jws.Signature

/-!
# Validating ID tokens

A validator expects either unsecured tokens or tokens signed under one algorithm; the latter may be
encrypted under one key management and one encryption. The representation of a token never changes
what is expected of it: an unsecured token is not accepted where a signed one is expected, and what
is encrypted must be signed.

What is expected of the claims is a verifier of its own, which is kept beside the settings that it
is made from; setting one of these makes it anew (`renew`).

Keys may come from a source that has a state, so validating maps a state to a result and the next
state.
-/

namespace Credential

/-- What is expected of ID tokens. The skew is never negative. -/
@[ext] structure IdTokenValidator (σ : Type) where
  issuer : Issuer
  clientId : ClientId
  audiences : AudienceSet
  skew : Duration
  skew_nonneg : 0 ≤ skew
  claimsVerifier : ClaimsVerifier
  signature : Option (Jws.Selector σ)
  decryption : Option Jwe.Selector
  maxAuthAge : Option Duration

namespace IdTokenValidator

variable {σ : Type}

/-! ## Making validators -/

/-- The verifier for claims that the settings ask for. The client is the authorized party. -/
def verifierOf (issuer : Issuer) (clientId : ClientId) (audiences : AudienceSet)
    (skew : Duration) : ClaimsVerifier :=
  (ClaimsVerifier.make issuer audiences skew).withAuthorizedParty clientId

/-- A validator for tokens that are signed as the selector says, or not at all without one. The
client itself is the audience. -/
def make (issuer : Issuer) (clientId : ClientId) (signature : Option (Jws.Selector σ)) :
    IdTokenValidator σ :=
  let audiences := AudienceSet.singleton clientId.toAudience
  let skew := Window.skewOfSeconds Window.defaultSkewSeconds
  { issuer, clientId, audiences, skew
    skew_nonneg := Window.skewOfSeconds_nonneg _
    claimsVerifier := verifierOf issuer clientId audiences skew
    signature
    decryption := none
    maxAuthAge := none }

/-- A validator for unsecured tokens. -/
def unsecured (issuer : Issuer) (clientId : ClientId) : IdTokenValidator σ :=
  make issuer clientId none

/-- A validator for signed tokens. -/
def signed (issuer : Issuer) (clientId : ClientId) (selector : Jws.Selector σ) :
    IdTokenValidator σ :=
  make issuer clientId (some selector)

/-- The validator with the verifier for claims that its settings ask for now. -/
def renew (v : IdTokenValidator σ) : IdTokenValidator σ :=
  { v with claimsVerifier := verifierOf v.issuer v.clientId v.audiences v.skew }

def withDecryption (v : IdTokenValidator σ) (selector : Jwe.Selector) : IdTokenValidator σ :=
  { v with decryption := some selector }

def withSkew (v : IdTokenValidator σ) (skew : Duration) : IdTokenValidator σ :=
  renew { v with skew := Window.clampSkew skew, skew_nonneg := Window.clampSkew_nonneg skew }

def withAudiences (v : IdTokenValidator σ) (audiences : List Audience) : IdTokenValidator σ :=
  renew { v with audiences := v.audiences.insertAll audiences }

def withMaxAuthAge (v : IdTokenValidator σ) (age : Duration) : IdTokenValidator σ :=
  { v with maxAuthAge := some age }

/-! ## Claims -/

/-- Was the authentication so long ago that it no longer counts? -/
def authTooOld (authTime : Instant) (age skew : Duration) (now : Instant) : Bool :=
  match (authTime.add? age).bind (·.add? skew) with
  | some limit => limit < now
  | none => false

/-- If there is a greatest age of the authentication, it must be stated and recent. -/
def checkAuthAge (v : IdTokenValidator σ) (c : VerifiedClaims) (now : Instant) : Result Unit :=
  match v.maxAuthAge with
  | none => .ok ()
  | some age =>
    match c.authTime with
    | none => .error (.claim .missingAuthTime)
    | some t =>
      if authTooOld t age v.skew now then .error (.claim .authTimeTooOld) else .ok ()

/-- Verify claims that were found under an algorithm and a key. -/
def verifyClaims (v : IdTokenValidator σ) (c : Claims) (algorithm : Jws.Algorithm)
    (keyId : Option String) (nonce : Option Nonce) (now : Instant) : Result VerifiedIdToken := do
  v.claimsVerifier.verifyAt c nonce now
  let claims ← VerifiedClaims.ofClaims c
  v.checkAuthAge claims now
  return { claims, algorithm, keyId }

/-! ## Signatures -/

/-- Accept a signed token if one of the keys verifies it. -/
def acceptSigned (v : IdTokenValidator σ) (t : SignedToken) (keys : List Jws.Key)
    (nonce : Option Nonce) (now : Instant) : Result VerifiedIdToken := do
  if keys.isEmpty then .error (.crypto .noMatchingKey)
  else
    match ← t.verifyWithAny keys with
    | none => .error (.crypto .invalidSignature)
    | some k => v.verifyClaims t.claims t.algorithm (k.keyId <|> t.header.keyId) nonce now

/-- Validate a signed token. Keys are asked for only if it is signed under the expected
algorithm. -/
def validateSigned (v : IdTokenValidator σ) (t : SignedToken) (nonce : Option Nonce)
    (now : Instant) (state : σ) : Result VerifiedIdToken × σ :=
  match v.signature with
  | none => (.error (.unsupportedAlgorithm t.algorithm.name), state)
  | some selector =>
    if t.algorithm ≠ selector.algorithm then
      (.error (.unsupportedAlgorithm t.algorithm.name), state)
    else
      -- only from here on may the source be asked
      let (keys, next) := selector.candidates t.header now state
      (keys.bind fun ks => v.acceptSigned t ks nonce now, next)

/-! ## Encryption -/

/-- The content of an encrypted token under the first key that opens it. -/
def openWithAny (t : EncryptedToken) (keys : List Jwe.Key) : Result Bytes :=
  if keys.isEmpty then .error (.crypto .noMatchingKey)
  else
    match keys.findSome? t.content? with
    | some p => .ok p
    | none => .error (.crypto .decryptionFailed)

/-- The signed token inside a content. -/
def nestedToken (content : Bytes) : Result SignedToken := do
  let text ← orRefuse (Utf8.decode content) .plaintextNotText
  match ← Token.parse text with
  | .signed t => return t
  | other => refuse (.nestedNotSigned other.kind)

/-- The signed token inside an encrypted one. -/
def unwrap (v : IdTokenValidator σ) (t : EncryptedToken) : Result SignedToken :=
  match v.decryption with
  | none => .error (.unsupportedAlgorithm t.keyManagement.name)
  | some selector =>
    if t.keyManagement ≠ selector.keyManagement then
      .error (.unsupportedAlgorithm t.keyManagement.name)
    else if t.encryption ≠ selector.encryption then
      .error (.unsupportedAlgorithm t.encryption.name)
    else do nestedToken (← openWithAny t (selector.candidates t.header))

/-! ## Tokens -/

/-- Validate an unsecured token, which must be what is expected. -/
def validateUnsecured (v : IdTokenValidator σ) (t : UnsecuredToken) (nonce : Option Nonce)
    (now : Instant) : Result VerifiedIdToken :=
  if v.signature.isSome then .error (.unsupportedAlgorithm Jws.Algorithm.unsecured.name)
  else v.verifyClaims t.claims .unsecured none nonce now

/-- Validate a token as of an instant. -/
def validateAt (v : IdTokenValidator σ) (token : String) (nonce : Option Nonce) (now : Instant)
    (state : σ) : Result VerifiedIdToken × σ :=
  match Token.parse token with
  | .error e => (.error e, state)
  | .ok (.unsecured t) => (v.validateUnsecured t nonce now, state)
  | .ok (.signed t) => v.validateSigned t nonce now state
  | .ok (.encrypted t) =>
    match v.unwrap t with
    | .error e => (.error e, state)
    | .ok inner => v.validateSigned inner nonce now state

end IdTokenValidator

end Credential
