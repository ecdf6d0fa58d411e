import Credential.Client.Verifier
import Credential.Json.Record

/-!
# Configuration of client authentication
-/

namespace Credential.Client

open Json (Raw Record)

/-- A method by its name. -/
def Method.ofRaw? (raw : Raw) : Option Method := do ofName? (← raw.choice?)

/-- A client as a configuration document describes it. -/
structure ClientConfig where
  clientId : ClientId
  method : Method
  secrets : List String
  keySet : Option JwkSet

namespace ClientConfig

def fieldNames : List String := ["client_id", "method", "secrets", "jwks"]

/-- How deep containers may be nested in the key set of a client, which itself lies in the list of
clients in the document. -/
def keySetRoom : Nat := Raw.maxDepth - 3

def ofRaw? (raw : Raw) : Option ClientConfig := do
  let r ← Record.ofRaw? fieldNames raw
  let clientId ← r.required "client_id" (Raw.identifier? .clientId)
  let method ← r.required "method" Method.ofRaw?
  let secrets ← r.orElse "secrets" [] (Raw.list? Raw.text?)
  let keySet ← r.optional "jwks" (JwkSet.ofRaw? keySetRoom)
  return { clientId, method, secrets, keySet }

/-- What is registered for the client. -/
def registration (c : ClientConfig) : Registration :=
  ⟨c.method, c.secrets.map Secret.lasting, c.keySet⟩

end ClientConfig

/-- A verifier with its clients as a configuration document describes them. -/
structure Config where
  expectedAudience : List String
  clockSkewSeconds : Nat
  clients : List ClientConfig

namespace Config

def fieldNames : List String := ["expected_audience", "clock_skew_seconds", "clients"]

def ofRaw? (raw : Raw) : Option Config := do
  let r ← Record.ofRaw? fieldNames raw
  let expectedAudience ← r.required "expected_audience" (Raw.list? Raw.text?)
  let clockSkewSeconds ← r.orElse "clock_skew_seconds" Window.defaultSkewSeconds Raw.natural?
  let clients ← r.orElse "clients" [] (Raw.list? ClientConfig.ofRaw?)
  return { expectedAudience, clockSkewSeconds, clients }

/-- Read a configuration document. -/
def parse (b : Bytes) : Option Config := do ofRaw? (← Raw.parse b)

/-- The registry of the configured clients; a later one replaces an earlier one of the same id. -/
def registry (c : Config) : Registry :=
  c.clients.foldl (fun r k => r.register k.clientId k.registration) .empty

/-- The expected audiences; what is wrong with them is a fault of the configuration. -/
def audience (c : Config) : Result AudienceSet :=
  match AudienceSet.ofStrings c.expectedAudience with
  | .ok s => .ok s
  | .error (.malformed cause) => .error (.configuration (.expectedAudience cause))
  | .error _ => .error (.configuration .noExpectedAudience)

/-- The verifier that the configuration describes. -/
def build (c : Config) : Result Verifier := do
  let v := Verifier.make c.registry.source (← c.audience)
  return v.withSkew (Window.skewOfSeconds c.clockSkewSeconds)

end Config

end Credential.Client
