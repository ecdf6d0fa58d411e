import Credential.Claims.Basic

/-!
# Issuing client assertions

The claims that a client puts into an assertion about itself: it is issuer and subject, and the
assertion is good from its issue for a lifetime, five minutes unless said otherwise. Instants are
written as whole seconds.
-/

namespace Credential.Client

/-- The claims of an assertion to be signed. -/
structure AssertionClaims where
  clientId : ClientId
  audience : List Audience
  expiration : Instant
  issuedAt : Instant
  notBefore : Option Instant
  jwtId : String

namespace AssertionClaims

/-- The lifetime of an assertion that is not given one. -/
def defaultLifetime : Duration := Duration.ofSeconds 300

/-- An assertion that is issued at an instant for a lifetime; none if it would outlive the
calendar. -/
def issue (clientId : ClientId) (audience : List Audience) (issuedAt : Instant)
    (lifetime : Duration) (jwtId : String) : Option AssertionClaims := do
  let expiration ← issuedAt.add? lifetime
  return { clientId, audience, expiration, issuedAt, notBefore := none, jwtId }

/-- The assertion with another lifetime, counted from its issue; none if it would outlive the
calendar. -/
def withLifetime (c : AssertionClaims) (lifetime : Duration) : Option AssertionClaims := do
  return { c with expiration := ← c.issuedAt.add? lifetime }

/-- The assertion with a start. -/
def withNotBefore (c : AssertionClaims) (t : Instant) : AssertionClaims :=
  { c with notBefore := some t }

/-- The claims as members of an object, in order of their names. The audience is always a list. -/
def toMembers (c : AssertionClaims) : Json.Members :=
  []
    |> Claims.put "iss" (some (.string c.clientId.value))
    |> Claims.put "sub" (some (.string c.clientId.value))
    |> Claims.put "aud" (some (.array (c.audience.map fun a => .string a.value)))
    |> Claims.put "exp" (some (Claims.dateJson c.expiration))
    |> Claims.put "iat" (some (Claims.dateJson c.issuedAt))
    |> Claims.put "nbf" (c.notBefore.map Claims.dateJson)
    |> Claims.put "jti" (some (.string c.jwtId))

/-- The claims as a reader of the assertion finds them. -/
def toClaims (c : AssertionClaims) : Result Claims := Claims.ofMembers c.toMembers

end AssertionClaims

end Credential.Client
