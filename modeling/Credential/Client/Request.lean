import Credential.Client.Method
import Credential.Text.Form

/-!
# What a request presents

A request is read by precedence: credentials in a Basic header; then a client id with a secret in
the form; then an assertion in the form; then a client id alone, or nothing. What a later rule would
find plays no part once an earlier one applies, except that no name may occur twice in a form.
-/

namespace Credential.Client

/-- A request over HTTP. -/
structure Request where
  method : String
  headers : List (String × Bytes)
  body : Bytes

namespace Request

/-- The value of the first header with a name, in any case. -/
def header? (r : Request) (name : String) : Option Bytes :=
  (r.headers.find? fun h => h.1.toLower == name.toLower).map (·.2)

/-! ## Basic credentials -/

/-- The start of a header that holds Basic credentials. -/
def basicScheme : Bytes := Utf8.encode "Basic"

/-- The octets after the scheme of a Basic header. -/
def basicCredentials? (r : Request) : Option Bytes := do
  let value ← r.header? "Authorization"
  if basicScheme.isPrefixOf value then some (value.drop basicScheme.length) else none

/-- A name or secret as written in a form, in well-formed text. -/
def readEscaped (s : List Char) : Result String :=
  orRefuse (Utf8.decode (Form.unescape (Utf8.encode (String.ofList s)))) .basicNotForm

/-- The client id and secret that Basic credentials write. -/
def readBasic (credentials : Bytes) : Result Presented := do
  let written ← orRefuse (Utf8.decode credentials) .basicNotAscii
  let octets ← orRefuse (Base64.decodePadded (Text.trimChars written.toList)) .basicNotBase64
  let pair ← orRefuse (Utf8.decode octets) .basicNotText
  let (id, secret) ← orRefuse (Text.cutFirst? ':' pair.toList) .basicWithoutSeparator
  let clientId ← Identifier.ofString .clientId (← readEscaped id)
  return .secretBasic clientId (.lasting (← readEscaped secret))

/-! ## Forms -/

/-- The media type of forms. -/
def formType : Bytes := Utf8.encode "application/x-www-form-urlencoded"

/-- An octet that a header may hold as text. -/
def isHeaderText (b : UInt8) : Bool := (0x20 ≤ b && b < 0x7F) || b == 0x09

/-- The lower-case form of an ASCII letter. -/
def lowerOctet (b : UInt8) : UInt8 := if 0x41 ≤ b && b ≤ 0x5A then b + 0x20 else b

/-- Does the request carry a form? Its content type must start like that of forms. -/
def isFormPost (r : Request) : Bool :=
  r.method == "POST" && match r.header? "Content-Type" with
    | none => false
    | some v => v.all isHeaderText && (v.take formType.length).map lowerOctet == formType

/-- The parameters of the form; none without one. -/
def formParameters (r : Request) : Result (List Form.Parameter) :=
  if r.isFormPost then
    let ps := Form.parameters r.body
    match Form.firstRepeated? [] (ps.map (·.name)) with
    | some name => refuse (.repeatedFormParameter name)
    | none => .ok ps
  else .ok []

/-- The type of assertions that are tokens. -/
def assertionType : String := "urn:ietf:params:oauth:client-assertion-type:jwt-bearer"

/-- An assertion; a client id beside it must be its subject. -/
def readAssertion (assertion : String) (clientId : Option String) : Result Presented := do
  let p ← Presented.ofToken (← SignedToken.parse assertion)
  match clientId, p.clientId? with
  | some expected, some claimed =>
    if expected = claimed.value then return p else refuse .clientIdNotSubject
  | _, _ => return p

/-- What the parameters of a form present. -/
def readForm (ps : List Form.Parameter) : Result Presented :=
  match Form.value? "client_id" ps, Form.value? "client_secret" ps with
  | some id, some secret => do
    return .secretPost (← Identifier.ofString .clientId id) (.lasting secret)
  | id, _ =>
    match Form.value? "client_assertion" ps with
    | some a =>
      if Form.value? "client_assertion_type" ps = some assertionType then readAssertion a id
      else .ok (.none (id.bind fun s => (Identifier.ofString .clientId s).toOption))
    | none => .ok (.none (id.bind fun s => (Identifier.ofString .clientId s).toOption))

/-! ## Requests -/

/-- What the request presents. -/
def presented (r : Request) : Result Presented :=
  match r.basicCredentials? with
  | some credentials => readBasic credentials
  | none => do readForm (← r.formParameters)

end Request

end Credential.Client
