import Credential.Claims.Verifier
import Credential.Jose.HashBinding

/-!
# Verified ID tokens

What is known once an ID token has been verified: who issued it, about whom, for whom and until
when, together with all its claims, the algorithm it was accepted under and the key that verified
it.
-/

namespace Credential

/-- Claims in which nothing required is missing. -/
structure VerifiedClaims where
  issuer : Issuer
  subject : Subject
  expiration : Instant
  authTime : Option Instant
  claims : Claims

namespace VerifiedClaims

/-- The claims, if nothing is missing and a stated time of authentication is a date. -/
def ofClaims (c : Claims) : Result VerifiedClaims :=
  match c.issuer, c.subject, c.expiration with
  | none, _, _ => .error (.claim .missingOrWrongIssuer)
  | some _, none, _ => .error (.claim .missingSubject)
  | some _, some _, none => .error (.claim .missingExpiration)
  | some issuer, some subject, some expiration => do
    let authTime ← c.date? "auth_time"
    return { issuer, subject, expiration, authTime, claims := c }

end VerifiedClaims

/-- An ID token that was verified. -/
structure VerifiedIdToken where
  claims : VerifiedClaims
  algorithm : Jws.Algorithm
  keyId : Option String

namespace VerifiedIdToken

/-- Check a value against a binding claim, which must be there. -/
def checkBinding (t : VerifiedIdToken) (claim : String) (value : Bytes) : Result Unit :=
  match t.claims.claims.text? claim with
  | some claimed => HashBinding.check value t.algorithm claimed
  | none => .error .invalidHash

/-- Is the access token the one that was issued with the ID token? -/
def checkAccessToken (t : VerifiedIdToken) (accessToken : Bytes) : Result Unit :=
  t.checkBinding "at_hash" accessToken

/-- Is the authorization code the one that was issued with the ID token? -/
def checkCode (t : VerifiedIdToken) (code : Bytes) : Result Unit := t.checkBinding "c_hash" code

end VerifiedIdToken

end Credential
