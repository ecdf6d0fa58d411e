import Credential.AudienceSet
import Credential.Saml.Assertion
import Credential.Time.Window
import Credential.XmlSignature.Enveloped

/-!
# Verifying assertions

A verifier expects an issuer and a set of audiences, trusts some keys and allows for a clock skew.
The signature comes first, and only what is signed is read. The conditions follow in a fixed order:
issuer, audience, expiration, start, issue.
-/

namespace Credential.Saml

/-- What a verifier expects and trusts. The skew is never negative. -/
structure Verifier where
  issuer : Issuer
  audience : AudienceSet
  keys : List XmlSignature.Key
  skew : Duration
  skew_nonneg : 0 ≤ skew

namespace Verifier

/-- A verifier with the standard skew; it must trust some key. -/
def make (issuer : Issuer) (audience : AudienceSet) (keys : List XmlSignature.Key) :
    Result Verifier :=
  if keys.isEmpty then .error (.configuration .noSigningKey)
  else .ok {
    issuer, audience, keys, skew := Window.skewOfSeconds Window.defaultSkewSeconds
    skew_nonneg := Window.skewOfSeconds_nonneg _ }

def withSkew (v : Verifier) (skew : Duration) : Verifier :=
  { v with skew := Window.clampSkew skew, skew_nonneg := Window.clampSkew_nonneg skew }

/-! ## Conditions -/

/-- Someone accepted must be among the audiences. -/
def checkAudience (v : Verifier) (a : Assertion) : Except ClaimViolation Unit := do
  violatedIf a.audiences.isEmpty .missingAudience
  violatedIf (!v.audience.intersects a.audiences) .audienceMismatch

/-- The instant must lie in the validity window, which needs an end. -/
def checkTimes (v : Verifier) (a : Assertion) (now : Instant) : Except ClaimViolation Unit := do
  match a.expiration with
  | none => .error .missingExpiration
  | some e => violatedIf (Window.isExpired e now v.skew) .expired
  if let some n := a.notBefore then
    violatedIf (Window.isNotYetValid n now v.skew) .notYetValid
  violatedIf (Window.isIssuedInFuture a.issueInstant now v.skew) .issuedInFuture

/-- All conditions in order; the first violation ends them. -/
def check (v : Verifier) (a : Assertion) (now : Instant) : Except ClaimViolation Unit := do
  violatedIf (a.issuer != v.issuer) .missingOrWrongIssuer
  v.checkAudience a
  v.checkTimes a now

/-- The conditions as a result. -/
def checkConditions (v : Verifier) (a : Assertion) (now : Instant) : Result Unit :=
  match v.check a now with
  | .ok () => .ok ()
  | .error violation => .error (.claim violation)

/-! ## Documents -/

/-- Verify the assertion that a document is, as of an instant. -/
def verifyAt (v : Verifier) (xml : String) (now : Instant) : Result Assertion := do
  let document ← Assertion.readDocument xml
  let root ← Assertion.rootOf document
  let _ ← XmlSignature.verify document.root root v.keys
  let a ← Assertion.ofElement root
  v.checkConditions a now
  return a

end Verifier

end Credential.Saml
