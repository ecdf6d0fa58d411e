import Credential.Claims.Verifier
import Credential.Json.Record

/-!
# Configuration of a claims verifier
-/

namespace Credential

/-- A claims verifier as a configuration document describes it. -/
structure ClaimsVerifierConfig where
  issuer : Issuer
  audiences : List String
  authorizedParty : Option ClientId
  clockSkewSeconds : Nat

namespace ClaimsVerifierConfig

def fieldNames : List String := ["issuer", "audiences", "authorized_party", "clock_skew_seconds"]

def ofRaw? (raw : Json.Raw) : Option ClaimsVerifierConfig := do
  let r ← Json.Record.ofRaw? fieldNames raw
  let issuer ← r.required "issuer" (Json.Raw.identifier? .issuer)
  let audiences ← r.required "audiences" (Json.Raw.list? Json.Raw.text?)
  let authorizedParty ← r.optional "authorized_party" (Json.Raw.identifier? .clientId)
  let clockSkewSeconds ← r.orElse "clock_skew_seconds" Window.defaultSkewSeconds Json.Raw.natural?
  return { issuer, audiences, authorizedParty, clockSkewSeconds }

/-- Read a configuration document. -/
def parse (b : Bytes) : Option ClaimsVerifierConfig := do ofRaw? (← Json.Raw.parse b)

/-- The verifier that the configuration describes. -/
def build (c : ClaimsVerifierConfig) : Result ClaimsVerifier := do
  let audience ← AudienceSet.ofStrings c.audiences
  let v := ClaimsVerifier.make c.issuer audience (Window.skewOfSeconds c.clockSkewSeconds)
  return match c.authorizedParty with
    | some client => v.withAuthorizedParty client
    | none => v

end ClaimsVerifierConfig

end Credential
