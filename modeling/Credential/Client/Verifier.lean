import Credential.Claims.Verifier
import Credential.Client.Registry
import Credential.Jws.Signature

/-!
# Authenticating clients

A verifier checks what a client presents against the credentials that a source has for it. A client
that is registered for a method must use that one. An assertion must be signed with a credential of
the client, issued by it, about it, and meant for an expected audience.
-/

namespace Credential.Client

/-- An assertion that was verified. -/
structure VerifiedAssertion where
  clientId : ClientId
  expiration : Instant
  claims : Claims

/-- A client that was authenticated. -/
structure VerifiedClient where
  clientId : ClientId
  method : Method
  assertion : Option VerifiedAssertion

/-- What is expected of clients. The skew is never negative. -/
structure Verifier where
  source : CredentialSource
  audience : AudienceSet
  skew : Duration
  skew_nonneg : 0 ≤ skew

namespace Verifier

/-- A verifier with the default skew. -/
def make (source : CredentialSource) (audience : AudienceSet) : Verifier :=
  { source, audience, skew := Window.skewOfSeconds Window.defaultSkewSeconds
    skew_nonneg := Window.skewOfSeconds_nonneg _ }

def withSkew (v : Verifier) (skew : Duration) : Verifier :=
  { v with skew := Window.clampSkew skew, skew_nonneg := Window.clampSkew_nonneg skew }

/-! ## Credentials -/

/-- The secrets of a client that are good at an instant. -/
def usableSecrets (v : Verifier) (id : ClientId) (m : Method) (now : Instant) : List Secret :=
  (v.source.secrets id m).filter fun s => !s.isExpiredAt now

/-- The public keys of a client that serve a token. -/
def publicKeys (v : Verifier) (a : Assertion) : List Jws.Key :=
  match v.source.keySet? a.clientId with
  | some set => set.select a.token.algorithm a.token.header.keyId
  | none => []

/-! ## Checks -/

/-- The presented secret must be one of the usable ones. -/
def checkSecret (v : Verifier) (id : ClientId) (presented : Secret) (m : Method) (now : Instant) :
    Result Unit :=
  let usable := v.usableSecrets id m now
  if usable.isEmpty then .error (.crypto .noMatchingKey)
  else if usable.any fun s => s.agrees presented then .ok ()
  else .error (.crypto .invalidSecret)

/-- What is expected of the claims of a client's assertion. -/
def claimsVerifier (v : Verifier) (id : ClientId) : ClaimsVerifier :=
  ClaimsVerifier.make ⟨id.value, id.value_ne_empty⟩ v.audience v.skew

/-- The claims of an assertion must be made by the client about itself. -/
def checkClaims (v : Verifier) (id : ClientId) (c : Claims) (now : Instant) :
    Result VerifiedAssertion := do
  (v.claimsVerifier id).verifyAt c none now
  if c.subject.map (·.value) ≠ some id.value then .error (.claim .subjectMismatch)
  else
    match c.expiration with
    | none => .error (.claim .missingExpiration)
    | some expiration => return ⟨id, expiration, c⟩

/-- An assertion must be signed with one of the keys, and its claims must hold. -/
def checkAssertion (v : Verifier) (a : Assertion) (keys : List Jws.Key) (now : Instant) :
    Result VerifiedAssertion := do
  if keys.isEmpty then .error (.crypto .noMatchingKey)
  else
    match ← a.token.verifyWithAny keys with
    | none => .error (.crypto .invalidSignature)
    | some _ => v.checkClaims a.clientId a.token.claims now

/-- A client that is registered for another method is refused. Clients that present nothing are
looked up later. -/
def checkMethod (v : Verifier) (p : Presented) : Result Unit :=
  match p.method, p.clientId? with
  | .none, _ | _, none => .ok ()
  | m, some id =>
    match v.source.method? id with
    | some registered => if registered = m then .ok () else .error (.claim .authMethodMismatch)
    | none => .ok ()

/-- A client that presents nothing must be registered so. -/
def checkUnauthenticated (v : Verifier) (id : Option ClientId) : Result ClientId :=
  match id with
  | none => .error (.claim .unauthenticatedClient)
  | some id =>
    if v.source.method? id = some .none then .ok id else .error (.claim .unauthenticatedClient)

/-! ## Verifying -/

/-- Authenticate a client as of an instant. -/
def verifyAt (v : Verifier) (p : Presented) (now : Instant) : Result VerifiedClient := do
  v.checkMethod p
  match p with
  | .secretBasic id secret =>
    v.checkSecret id secret .secretBasic now
    return ⟨id, .secretBasic, none⟩
  | .secretPost id secret =>
    v.checkSecret id secret .secretPost now
    return ⟨id, .secretPost, none⟩
  | .secretJwt a =>
    let keys := (v.usableSecrets a.clientId .secretJwt now).map Jws.Key.ofSecret
    return ⟨a.clientId, .secretJwt, some (← v.checkAssertion a keys now)⟩
  | .privateKeyJwt a =>
    return ⟨a.clientId, .privateKeyJwt, some (← v.checkAssertion a (v.publicKeys a) now)⟩
  | .none id => return ⟨← v.checkUnauthenticated id, .none, none⟩

end Verifier

end Credential.Client
