import Credential.Saml.Verifier
import Credential.Text.Base64
import Credential.Text.Form

/-!
# Grants

A token request that presents an assertion. It is a form with the grant type of assertions and the
assertion in base 64, which may be padded. None of the parameters that count may be repeated; others
may.
-/

namespace Credential

/-- The parameter of a name. -/
def GrantParameter.ofName? (name : String) : Option GrantParameter :=
  [grantType, assertion, scope, clientId].find? (·.name == name)

namespace Saml

/-- A request that presents an assertion. -/
structure Grant where
  assertion : String
  scope : Option String
  clientId : Option String
  deriving DecidableEq

namespace Grant

/-- The text of an assertion in base 64. -/
def decodeAssertion (encoded : String) : Result String := do
  let b ← orRefuse (Base64.decodeUrl (Text.trimEndOf '=' encoded)) .assertionNotBase64url
  orRefuse (Utf8.decode b) .assertionNotText

/-- The value of a parameter that counts. -/
def value? (p : GrantParameter) (ps : List Form.Parameter) : Option String := Form.value? p.name ps

/-- The grant that parameters make up. -/
def ofParameters (ps : List Form.Parameter) : Result Grant :=
  match Form.firstRepeated? [] (ps.filterMap fun p => GrantParameter.ofName? p.name) with
  | some p => refuse (.repeatedGrantParameter p)
  | none =>
    if value? .grantType ps ≠ some samlBearerGrantType then refuse .grantType
    else do
      let encoded ← orRefuse ((value? .assertion ps).filter (· != "")) .missingAssertion
      let assertion ← decodeAssertion encoded
      return { assertion, scope := value? .scope ps, clientId := value? .clientId ps }

/-- Read the body of a request. -/
def parse (body : Bytes) : Result Grant := ofParameters (Form.parameters body)

end Grant

/-- Verify the assertion of a grant. -/
def Verifier.verifyGrant (v : Verifier) (g : Grant) (now : Instant) : Result Assertion :=
  v.verifyAt g.assertion now

end Saml

end Credential
