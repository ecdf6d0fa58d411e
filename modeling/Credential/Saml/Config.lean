import Credential.Json.Record
import Credential.Saml.Verifier

/-!
# Configuration of an assertion verifier
-/

namespace Credential.Saml

open Json (Raw Record)

/-- An assertion verifier as a configuration document describes it; keys are given as texts. -/
structure Config where
  issuer : Issuer
  audiences : List String
  signingKeys : List String
  clockSkewSeconds : Nat

namespace Config

def fieldNames : List String := ["issuer", "audiences", "signing_keys", "clock_skew_seconds"]

def ofRaw? (raw : Raw) : Option Config := do
  let r ← Record.ofRaw? fieldNames raw
  let issuer ← r.required "issuer" (Raw.identifier? .issuer)
  let audiences ← r.required "audiences" (Raw.list? Raw.text?)
  let signingKeys ← r.required "signing_keys" (Raw.list? Raw.text?)
  let clockSkewSeconds ← r.orElse "clock_skew_seconds" Window.defaultSkewSeconds Raw.natural?
  return { issuer, audiences, signingKeys, clockSkewSeconds }

/-- Read a configuration document. -/
def parse (b : Bytes) : Option Config := do ofRaw? (← Raw.parse b)

/-- The verifier that the configuration describes. -/
def build (c : Config) : Result Verifier := do
  let keys ← c.signingKeys.mapM XmlSignature.Key.ofText
  let audience ← AudienceSet.ofStrings c.audiences
  let v ← Verifier.make c.issuer audience keys
  return v.withSkew (Window.skewOfSeconds c.clockSkewSeconds)

end Config

end Credential.Saml
