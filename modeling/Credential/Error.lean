import Credential.Text.Quoted

/-!
# Why a credential is refused

Every operation of this library ends in at most one error, and an error says its cause. The causes
fall into eight groups; `Error.kind` and `Error.category` sort them for a caller who wants to react
to a group, and `Error.message` gives the wording.
-/

namespace Credential

/-! ## What can be missing or wrong -/

/-- The identifiers that must not be empty. -/
inductive IdentifierKind where
  | issuer | subject | clientId | audience | jwtId | nonce
  deriving DecidableEq, Repr

def IdentifierKind.name : IdentifierKind → String
  | .issuer => "Issuer"
  | .subject => "Subject"
  | .clientId => "ClientId"
  | .audience => "Audience"
  | .jwtId => "JwtId"
  | .nonce => "Nonce"

/-- The parts of a compact token. -/
inductive Segment where
  | header | payload | signature | encryptedKey | initializationVector | ciphertext
  | authenticationTag
  deriving DecidableEq, Repr

def Segment.name : Segment → String
  | .header => "header"
  | .payload => "payload"
  | .signature => "signature"
  | .encryptedKey => "encrypted key"
  | .initializationVector => "initialization vector"
  | .ciphertext => "ciphertext"
  | .authenticationTag => "authentication tag"

/-- The three representations of a token. -/
inductive TokenKind where
  | unsecured | signed | encrypted
  deriving DecidableEq, Repr

def TokenKind.name : TokenKind → String
  | .unsecured => "unsecured"
  | .signed => "signed"
  | .encrypted => "encrypted"

/-- The parts without which there is no assertion. -/
inductive AssertionPart where
  | issuer | subject | subjectConfirmation | conditions | id | issueInstant
  deriving DecidableEq, Repr

def AssertionPart.name : AssertionPart → String
  | .issuer => "Issuer"
  | .subject => "Subject"
  | .subjectConfirmation => "SubjectConfirmation"
  | .conditions => "Conditions"
  | .id => "ID"
  | .issueInstant => "IssueInstant"

/-- The parameters of a grant request that may occur only once. -/
inductive GrantParameter where
  | grantType | assertion | scope | clientId
  deriving DecidableEq, Repr

def GrantParameter.name : GrantParameter → String
  | .grantType => "grant_type"
  | .assertion => "assertion"
  | .scope => "scope"
  | .clientId => "client_id"

/-! ## Causes -/

/-- Input that cannot be read. -/
inductive Malformed where
  | emptyIdentifier (kind : IdentifierKind)
  | json
  | payloadNotObject
  | claimNotString (claim : String)
  | audienceEntryNotString
  | audienceNotStrings
  | claimNotDate (claim : String)
  | dateOutOfRange (claim : String)
  | joseHeader
  | base64url (segment : Segment)
  | unsecuredWithSignature
  | signedWithoutSignature
  | missingEncryptionMethod
  | segmentCount (found : Nat)
  | notSigned (found : TokenKind)
  | nestedNotSigned (found : TokenKind)
  | plaintextNotText
  | jwkSet
  | basicNotAscii
  | basicNotBase64
  | basicNotText
  | basicWithoutSeparator
  | basicNotForm
  | repeatedFormParameter (name : String)
  | assertionWithoutSubject
  | clientIdNotSubject
  | xml
  | assertionTooLarge (limit : Nat)
  | notAssertion (found : String)
  | instant (written : String)
  | statementWithoutInstant
  | attributeWithoutName
  | duplicateId
  | severalSignatures
  | missingElement (name : String)
  | withoutAlgorithm (element : String)
  | noReference
  | severalReferences
  | referenceWithoutUri
  | base64In (element : String)
  | repeatedGrantParameter (parameter : GrantParameter)
  | grantType
  | missingAssertion
  | assertionNotBase64url
  | assertionNotText
  deriving DecidableEq, Repr

/-- The grant type of SAML assertions. -/
def samlBearerGrantType : String := "urn:ietf:params:oauth:grant-type:saml2-bearer"

def Malformed.message : Malformed → String
  | .emptyIdentifier k => k.name ++ " must not be empty"
  | .json => "invalid JSON"
  | .payloadNotObject => "claims payload must be a JSON object"
  | .claimNotString c => "claim '" ++ c ++ "' must be a string"
  | .audienceEntryNotString => "claim 'aud' must contain only strings"
  | .audienceNotStrings => "claim 'aud' must be a string or an array of strings"
  | .claimNotDate c => "claim '" ++ c ++ "' must be a NumericDate"
  | .dateOutOfRange c => "claim '" ++ c ++ "' is out of range"
  | .joseHeader => "invalid JOSE header"
  | .base64url s => "invalid base64url in " ++ s.name
  | .unsecuredWithSignature => "unsecured JWT must have an empty signature"
  | .signedWithoutSignature => "signed JWT has an empty signature"
  | .missingEncryptionMethod => "JWE header is missing 'enc'"
  | .segmentCount n => "expected 3 or 5 dot-separated segments, found " ++ toString n
  | .notSigned k => "expected a signed JWT, found an " ++ k.name ++ " token"
  | .nestedNotSigned k =>
    "encrypted ID token must wrap a signed JWT, found an " ++ k.name ++ " token"
  | .plaintextNotText => "decrypted ID token is not UTF-8"
  | .jwkSet => "invalid JWK set"
  | .basicNotAscii => "Basic credentials are not valid ASCII"
  | .basicNotBase64 => "Basic credentials are not valid base64"
  | .basicNotText => "Basic credentials are not valid UTF-8"
  | .basicWithoutSeparator => "Basic credentials are missing the ':' separator"
  | .basicNotForm => "Basic credentials are not valid form-encoded UTF-8"
  | .repeatedFormParameter n => "form parameter '" ++ n ++ "' must not repeat"
  | .assertionWithoutSubject => "client assertion has no subject"
  | .clientIdNotSubject => "client_id parameter does not match the client assertion subject"
  | .xml => "invalid XML"
  | .assertionTooLarge n => "assertion exceeds " ++ toString n ++ " bytes"
  | .notAssertion f => "expected a SAML 2.0 Assertion, found " ++ f
  | .instant w => "invalid xs:dateTime " ++ Text.quoted w
  | .statementWithoutInstant => "AuthnStatement has no AuthnInstant"
  | .attributeWithoutName => "Attribute has no Name"
  | .duplicateId => "duplicate ID attribute"
  | .severalSignatures => "assertion carries more than one Signature"
  | .missingElement n => "missing " ++ n ++ " element"
  | .withoutAlgorithm e => e ++ " has no Algorithm"
  | .noReference => "SignedInfo has no Reference"
  | .severalReferences => "SignedInfo must contain exactly one Reference"
  | .referenceWithoutUri => "Reference has no URI"
  | .base64In e => "invalid base64 in " ++ e
  | .repeatedGrantParameter p => "repeated " ++ p.name ++ " parameter"
  | .grantType => "grant_type must be " ++ samlBearerGrantType
  | .missingAssertion => "missing assertion parameter"
  | .assertionNotBase64url => "assertion is not base64url"
  | .assertionNotText => "assertion is not UTF-8"

/-- A cryptographic step that failed. -/
inductive CryptoFailure where
  | noMatchingKey | invalidSignature | decryptionFailed | invalidSecret | missingSignature
  deriving DecidableEq, Repr

def CryptoFailure.message : CryptoFailure → String
  | .noMatchingKey => "no matching key"
  | .invalidSignature => "invalid signature"
  | .decryptionFailed => "decryption failed"
  | .invalidSecret => "invalid client secret"
  | .missingSignature => "missing signature"

/-- A claim that does not hold. -/
inductive ClaimViolation where
  | missingOrWrongIssuer | missingSubject | subjectMismatch | missingAudience | audienceMismatch
  | authorizedPartyMismatch | missingExpiration | expired | notYetValid | issuedInFuture
  | missingNonce | nonceMismatch | missingAuthTime | authTimeTooOld | noBearerConfirmation
  | authMethodMismatch | unauthenticatedClient
  deriving DecidableEq, Repr

def ClaimViolation.message : ClaimViolation → String
  | .missingOrWrongIssuer => "missing or wrong issuer"
  | .missingSubject => "missing subject"
  | .subjectMismatch => "subject does not match the expected value"
  | .missingAudience => "missing audience"
  | .audienceMismatch => "audience does not match"
  | .authorizedPartyMismatch => "authorized party does not match"
  | .missingExpiration => "missing expiration"
  | .expired => "expired"
  | .notYetValid => "not yet valid"
  | .issuedInFuture => "issued in the future"
  | .missingNonce => "missing nonce"
  | .nonceMismatch => "nonce mismatch"
  | .missingAuthTime => "missing auth_time"
  | .authTimeTooOld => "authentication too old"
  | .noBearerConfirmation => "no bearer subject confirmation"
  | .authMethodMismatch => "authentication method does not match registration"
  | .unauthenticatedClient => "client is not registered for unauthenticated access"

/-- A configuration that cannot be used. -/
inductive Misconfigured where
  | noAudience
  | selectorForNone
  | notHmac (algorithm : String)
  | noSecret
  | noDecryptionKey
  | decryptionKeyUnusable (keyId : Option String) (algorithm : String)
  | secretRequired (algorithm : String)
  | keySetUrlRequired (algorithm : String)
  | insecureKeySetUrl (url : String)
  | noExpectedAudience
  | expectedAudience (cause : Malformed)
  | rsaPrivateKey
  | noSigningKey
  | certificate
  | certificateKey
  | publicKey
  | publicKeyPem
  | retriever (text : String)
  deriving DecidableEq, Repr

/-- How a message shows a key id that may be absent. -/
def shownKeyId : Option String → String
  | none => "None"
  | some k => "Some(" ++ Text.quoted k ++ ")"

def Misconfigured.message : Misconfigured → String
  | .noAudience => "expected audience set must not be empty"
  | .selectorForNone => "a key selector cannot be bound to 'none'"
  | .notHmac a => a ++ " is not an HMAC algorithm"
  | .noSecret => "at least one shared secret is required"
  | .noDecryptionKey => "at least one decryption key is required"
  | .decryptionKeyUnusable k a => "decryption key " ++ shownKeyId k ++ " cannot be used with " ++ a
  | .secretRequired a => a ++ " ID tokens require a client_secret"
  | .keySetUrlRequired a => a ++ " ID tokens require a jwks_uri"
  | .insecureKeySetUrl u => "JWK set URL must use HTTPS (HTTP only allowed for loopback): " ++ u
  | .noExpectedAudience =>
    "invalid expected_audience: Configuration error: expected audience set must not be empty"
  | .expectedAudience c => "invalid expected_audience: Malformed input: " ++ c.message
  | .rsaPrivateKey => "invalid RSA private key"
  | .noSigningKey => "at least one SAML signing key is required"
  | .certificate => "invalid X.509 certificate"
  | .certificateKey => "invalid certificate public key"
  | .publicKey => "unsupported public key: expected RSA or P-256"
  | .publicKeyPem => "invalid public key PEM: expected RSA or P-256"
  | .retriever t => t

/-- A source of keys that gives none. -/
inductive KeySourceFailure where
  | status (code : Nat)
  | tooLarge (limit : Nat)
  | http (text : String)
  | jwkSet
  | unusableKey
  deriving DecidableEq, Repr

def KeySourceFailure.message : KeySourceFailure → String
  | .status n => "Unexpected HTTP status " ++ toString n
  | .tooLarge n => "Resource exceeds the size limit of " ++ toString n ++ " bytes"
  | .http t => "HTTP request failed: " ++ t
  | .jwkSet => "invalid JWK set"
  | .unusableKey => "unusable JWK"

/-! ## Errors -/

/-- Why an operation refuses its input. -/
inductive Error where
  | malformed (cause : Malformed)
  | incomplete (missing : AssertionPart)
  | crypto (failure : CryptoFailure)
  | claim (violation : ClaimViolation)
  | unsupportedAlgorithm (name : String)
  | invalidHash
  | configuration (cause : Misconfigured)
  | keySource (cause : KeySourceFailure)
  deriving DecidableEq, Repr

namespace Error

/-- The groups of errors. -/
inductive Kind where
  | malformedInput | cryptographicFailure | claimViolation | unsupportedAlgorithm | invalidHash
  | configurationError | keySource
  deriving DecidableEq, Repr

def kind : Error → Kind
  | .malformed _ | .incomplete _ => .malformedInput
  | .crypto _ => .cryptographicFailure
  | .claim _ => .claimViolation
  | .unsupportedAlgorithm _ => .unsupportedAlgorithm
  | .invalidHash => .invalidHash
  | .configuration _ => .configurationError
  | .keySource _ => .keySource

/-- A finer label, which tells the cryptographic failures apart. -/
def category : Error → String
  | .malformed _ => "malformed_input"
  | .incomplete _ => "malformed_assertion"
  | .crypto .noMatchingKey => "no_matching_key"
  | .crypto .invalidSignature => "invalid_signature"
  | .crypto .decryptionFailed => "decryption_failed"
  | .crypto .invalidSecret => "invalid_secret"
  | .crypto .missingSignature => "missing_signature"
  | .claim _ => "claim_violation"
  | .unsupportedAlgorithm _ => "unsupported_algorithm"
  | .invalidHash => "invalid_hash"
  | .configuration _ => "configuration_error"
  | .keySource _ => "key_source"

/-- The wording of an error. -/
def message : Error → String
  | .malformed c => "Malformed input: " ++ c.message
  | .incomplete p => "Malformed assertion: missing " ++ p.name
  | .crypto f => "Cryptographic failure: " ++ f.message
  | .claim v => "Claim violation: " ++ v.message
  | .unsupportedAlgorithm n => "Unsupported algorithm: " ++ n
  | .invalidHash => "Invalid hash binding"
  | .configuration c => "Configuration error: " ++ c.message
  | .keySource c => "Key source error: " ++ c.message

end Error

/-- The outcome of an operation that may refuse its input. -/
abbrev Result (α : Type) := Except Error α

/-- The value, or the reason why there is none. -/
def orFail {α : Type} (value : Option α) (reason : Error) : Result α :=
  match value with
  | some v => .ok v
  | none => .error reason

@[simp] theorem orFail_eq_ok_iff {α : Type} {v : Option α} {e : Error} {a : α} :
    orFail v e = .ok a ↔ v = some a := by cases v <;> simp [orFail]

/-- Refuse unreadable input. -/
def refuse {α : Type} (cause : Malformed) : Result α := .error (.malformed cause)

/-- The value that the input writes, if it can be read. -/
def orRefuse {α : Type} (value : Option α) (cause : Malformed) : Result α :=
  orFail value (.malformed cause)

/-- Stop with a violation if the condition holds. -/
def violatedIf (condition : Bool) (v : ClaimViolation) : Except ClaimViolation Unit :=
  if condition then .error v else .ok ()

end Credential
