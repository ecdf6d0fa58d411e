import Credential.AudienceSet
import Credential.Claims.Basic
import Credential.Time.Window

/-!
# Verifying claims

A verifier expects an issuer, a set of audiences, possibly an authorized party, and allows for a
clock skew. The checks run in a fixed order and the first that fails is reported: issuer, subject,
audience, authorized party, expiration, start, issue, nonce.
-/

namespace Credential

/-- What a verifier expects. The skew is never negative. -/
structure ClaimsVerifier where
  issuer : Issuer
  audience : AudienceSet
  authorizedParty : Option ClientId
  skew : Duration
  skew_nonneg : 0 ≤ skew
  deriving DecidableEq

namespace ClaimsVerifier

/-- A verifier that asks for no authorized party. -/
def make (issuer : Issuer) (audience : AudienceSet) (skew : Duration) : ClaimsVerifier :=
  { issuer, audience, authorizedParty := none, skew := Window.clampSkew skew
    skew_nonneg := Window.clampSkew_nonneg skew }

def withSkew (v : ClaimsVerifier) (skew : Duration) : ClaimsVerifier :=
  { v with skew := Window.clampSkew skew, skew_nonneg := Window.clampSkew_nonneg skew }

def withAuthorizedParty (v : ClaimsVerifier) (client : ClientId) : ClaimsVerifier :=
  { v with authorizedParty := some client }

/-! ## The checks -/

/-- Someone accepted must be among the audience. -/
def checkAudience (v : ClaimsVerifier) (c : Claims) : Except ClaimViolation Unit := do
  violatedIf c.audience.isEmpty .missingAudience
  if let some client := v.authorizedParty then
    violatedIf (1 < c.audience.length && c.text? "azp" != some client.value)
      .authorizedPartyMismatch
  violatedIf (!v.audience.intersects c.audience) .audienceMismatch

/-- The instant must lie in the validity window, which needs an end. -/
def checkTimes (v : ClaimsVerifier) (c : Claims) (now : Instant) :
    Except ClaimViolation Unit := do
  match c.expiration with
  | none => .error .missingExpiration
  | some e => violatedIf (Window.isExpired e now v.skew) .expired
  if let some n := c.notBefore then
    violatedIf (Window.isNotYetValid n now v.skew) .notYetValid
  if let some i := c.issuedAt then
    violatedIf (Window.isIssuedInFuture i now v.skew) .issuedInFuture

/-- A nonce that is expected must be there and the same. -/
def checkNonce (c : Claims) (nonce : Option Nonce) : Except ClaimViolation Unit :=
  match nonce, c.text? "nonce" with
  | none, _ => .ok ()
  | some _, none => .error .missingNonce
  | some expected, some found => violatedIf (found != expected.value) .nonceMismatch

/-- All checks in order; the first violation ends them. -/
def check (v : ClaimsVerifier) (c : Claims) (nonce : Option Nonce) (now : Instant) :
    Except ClaimViolation Unit := do
  violatedIf (c.issuer != some v.issuer) .missingOrWrongIssuer
  violatedIf c.subject.isNone .missingSubject
  v.checkAudience c
  v.checkTimes c now
  checkNonce c nonce

/-- Verify claims as of an instant. -/
def verifyAt (v : ClaimsVerifier) (c : Claims) (nonce : Option Nonce) (now : Instant) :
    Result Unit :=
  match v.check c nonce now with
  | .ok () => .ok ()
  | .error violation => .error (.claim violation)

end ClaimsVerifier

end Credential
