import Credential.Jose.Token
import Credential.Secret

/-!
# How clients authenticate

The five methods, and what a client presents under each of them. An assertion names the client by
its subject; which method it belongs to follows from the family of its algorithm.
-/

namespace Credential.Client

/-- A method of authentication. -/
inductive Method where
  | secretBasic | secretPost | secretJwt | privateKeyJwt | none
  deriving DecidableEq, Repr

namespace Method

def name : Method → String
  | .secretBasic => "client_secret_basic"
  | .secretPost => "client_secret_post"
  | .secretJwt => "client_secret_jwt"
  | .privateKeyJwt => "private_key_jwt"
  | .none => "none"

def all : List Method := [.secretBasic, .secretPost, .secretJwt, .privateKeyJwt, .none]

def ofName? (s : String) : Option Method := all.find? (·.name == s)

/-- Does the method rest on a secret that both sides know? -/
def usesSecret : Method → Bool
  | .secretBasic | .secretPost | .secretJwt => true
  | .privateKeyJwt | .none => false

end Method

/-- A signed assertion and the client it speaks for. -/
structure Assertion where
  token : SignedToken
  clientId : ClientId

/-- What a request presents. -/
inductive Presented where
  | secretBasic (clientId : ClientId) (secret : Secret)
  | secretPost (clientId : ClientId) (secret : Secret)
  | secretJwt (assertion : Assertion)
  | privateKeyJwt (assertion : Assertion)
  | none (clientId : Option ClientId)

namespace Presented

def method : Presented → Method
  | .secretBasic _ _ => .secretBasic
  | .secretPost _ _ => .secretPost
  | .secretJwt _ => .secretJwt
  | .privateKeyJwt _ => .privateKeyJwt
  | .none _ => .none

def clientId? : Presented → Option ClientId
  | .secretBasic id _ | .secretPost id _ => some id
  | .secretJwt a | .privateKeyJwt a => some a.clientId
  | .none id => id

end Presented

/-- The client that a token's subject names. -/
def Assertion.ofToken (t : SignedToken) : Result Assertion :=
  match t.claims.subject with
  | some s => .ok ⟨t, ⟨s.value, s.value_ne_empty⟩⟩
  | none => refuse .assertionWithoutSubject

/-- The assertion that a token is, under the method of its algorithm's family. -/
def Presented.ofToken (t : SignedToken) : Result Presented :=
  match t.algorithm.family with
  | .hmac => do return .secretJwt (← Assertion.ofToken t)
  | .rsa | .ec => do return .privateKeyJwt (← Assertion.ofToken t)
  | .ed | .unsecured => .error (.unsupportedAlgorithm t.algorithm.name)

end Credential.Client
