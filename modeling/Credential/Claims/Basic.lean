import Credential.Identifier
import Credential.Time.Instant
import Credential.Json.Raw

/-!
# Claims

The content of a token or assertion before anything is verified. The registered claims have fields
of their own; every other claim keeps its JSON value under its name.

Reading (`Claims.ofMembers`) takes the registered names out of an object one after the other, so a
claim that is not registered is never looked at. Writing (`Claims.toMembers`) puts them back.

Dates are NumericDates: a JSON number counts seconds since the epoch, and the instant is the start
of the second the number falls into (`dateOfNumber?`). Numbers that are no signed integers of 64
bits are read as doubles.
-/

namespace Credential

/-- Claims as read, not verified. -/
structure Claims where
  issuer : Option Issuer
  subject : Option Subject
  audience : List Audience
  expiration : Option Instant
  notBefore : Option Instant
  issuedAt : Option Instant
  jwtId : Option JwtId
  other : Json.Members

namespace Claims

/-! ## Dates -/

/-- The whole seconds that a JSON number counts, in 64 bits. -/
def wholeSeconds? (n : Json.Number) : Option Int :=
  match n.asInt64? with
  | some s => some s
  | none => n.asDouble?.map Binary64.floorInt64

/-- The start of the second a JSON number falls into, if it lies in the calendar. -/
def dateOfNumber? (n : Json.Number) : Option Instant := (wholeSeconds? n).bind Instant.ofSecond?

/-- The instant that the value of a claim names. -/
def readDate (name : String) : Json → Result Instant
  | .number n => orRefuse (dateOfNumber? n) (.dateOutOfRange name)
  | _ => refuse (.claimNotDate name)

/-! ## Reading -/

/-- A text claim; a missing claim and `null` are the same. -/
def readText (ms : Json.Members) (name : String) : Result (Option String) :=
  match ms.get? name with
  | none | some .null => .ok none
  | some (.string s) => .ok (some s)
  | some _ => refuse (.claimNotString name)

/-- An identifier claim. -/
def readIdentifier (kind : IdentifierKind) (ms : Json.Members) (name : String) :
    Result (Option (Identifier kind)) := do
  match ← readText ms name with
  | none => return none
  | some s => return some (← Identifier.ofString kind s)

/-- One entry of an audience list. -/
def readAudienceEntry : Json → Result Audience
  | .string s => Identifier.ofString .audience s
  | _ => refuse .audienceEntryNotString

/-- The audience claim: one text or a list of texts, in order. -/
def readAudience (ms : Json.Members) : Result (List Audience) :=
  match ms.get? "aud" with
  | none | some .null => .ok []
  | some (.string s) => do return [← Identifier.ofString .audience s]
  | some (.array vs) => vs.mapM readAudienceEntry
  | some _ => refuse .audienceNotStrings

/-- A date claim; a missing claim and `null` are the same. -/
def readOptionalDate (ms : Json.Members) (name : String) : Result (Option Instant) :=
  match ms.get? name with
  | none | some .null => .ok none
  | some v => do return some (← readDate name v)

/-- The names that have a field. -/
def registered : List String := ["iss", "sub", "aud", "exp", "nbf", "iat", "jti"]

/-- The members whose names are not registered. -/
def unregistered (ms : Json.Members) : Json.Members := ms.filter fun m => !registered.contains m.1

/-- The claims of an object. -/
def ofMembers (ms : Json.Members) : Result Claims := do
  let issuer ← readIdentifier .issuer ms "iss"
  let subject ← readIdentifier .subject ms "sub"
  let audience ← readAudience ms
  let expiration ← readOptionalDate ms "exp"
  let notBefore ← readOptionalDate ms "nbf"
  let issuedAt ← readOptionalDate ms "iat"
  let jwtId ← readIdentifier .jwtId ms "jti"
  return { issuer, subject, audience, expiration, notBefore, issuedAt, jwtId,
           other := unregistered ms }

/-- The claims that a JSON text holds. -/
def parse (payload : Bytes) : Result Claims := do
  match ← orRefuse (Json.parse payload) .json with
  | .object ms => ofMembers ms
  | _ => refuse .payloadNotObject

/-! ## Claims without a field -/

/-- The value of a claim that is not registered. -/
def get? (c : Claims) (name : String) : Option Json := c.other.get? name

/-- A claim whose value is a text; other values count as missing. -/
def text? (c : Claims) (name : String) : Option String := (c.get? name).bind Json.asString?

/-- A claim whose value is a text or a list of texts. -/
def texts? (c : Claims) (name : String) : Option (List String) :=
  match c.get? name with
  | some (.string s) => some [s]
  | some (.array vs) => vs.mapM Json.asString?
  | _ => none

/-- A claim whose value is a date. Unlike the registered dates, `null` is no date. -/
def date? (c : Claims) (name : String) : Result (Option Instant) :=
  match c.get? name with
  | none => .ok none
  | some v => do return some (← readDate name v)

/-! ## Writing -/

/-- Set a member if there is a value for it. -/
def put (name : String) (value : Option Json) (ms : Json.Members) : Json.Members :=
  match value with
  | some v => ms.insert name v
  | none => ms

/-- The audience claim: nothing, one text, or a list of texts. -/
def audienceJson : List Audience → Option Json
  | [] => none
  | [a] => some (.string a.value)
  | as => some (.array (as.map fun a => .string a.value))

/-- The calendar lies well within 64 bits. -/
theorem fits_second (t : Instant) : Json.Number.Fits t.second :=
  ⟨Int.le_trans (by decide) t.first_le, Int.le_trans t.le_last (by decide)⟩

/-- A date as a whole number of seconds. -/
def dateJson (t : Instant) : Json := .number (.int t.second (fits_second t))

/-- The object that holds the claims; claims without a value are left out. -/
def toMembers (c : Claims) : Json.Members :=
  c.other
    |> put "iss" (c.issuer.map fun i => .string i.value)
    |> put "sub" (c.subject.map fun i => .string i.value)
    |> put "aud" (audienceJson c.audience)
    |> put "exp" (c.expiration.map dateJson)
    |> put "nbf" (c.notBefore.map dateJson)
    |> put "iat" (c.issuedAt.map dateJson)
    |> put "jti" (c.jwtId.map fun i => .string i.value)

end Claims

end Credential
