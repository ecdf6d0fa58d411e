import Credential.Client.Method
import Credential.Jwk.Selection

/-!
# Registered clients

A registry holds for each client the method it must use and its credentials. Registering a client
again replaces everything that was registered before.

A verifier asks a `CredentialSource`, of which a registry is one.
-/

namespace Credential.Client

/-- Whom a verifier asks for credentials. A source that knows no methods accepts them all. -/
structure CredentialSource where
  method? : ClientId → Option Method
  secrets : ClientId → Method → List Secret
  keySet? : ClientId → Option JwkSet

/-- What is registered for a client. -/
structure Registration where
  method : Method
  secrets : List Secret
  keySet : Option JwkSet
  deriving DecidableEq

/-- The registered clients; no client occurs twice. -/
structure Registry where
  entries : List (ClientId × Registration)
  deriving DecidableEq

namespace Registry

def empty : Registry := ⟨[]⟩

/-- Register a client. -/
def register (r : Registry) (id : ClientId) (entry : Registration) : Registry :=
  ⟨(id, entry) :: r.entries.filter fun e => e.1 != id⟩

/-- A client with secrets. -/
def withSecrets (r : Registry) (id : ClientId) (m : Method) (secrets : List Secret) : Registry :=
  r.register id ⟨m, secrets, none⟩

/-- A client with public keys. -/
def withKeys (r : Registry) (id : ClientId) (keys : JwkSet) : Registry :=
  r.register id ⟨.privateKeyJwt, [], some keys⟩

/-- A client that does not authenticate. -/
def withPublic (r : Registry) (id : ClientId) : Registry := r.register id ⟨.none, [], none⟩

/-- What is registered for a client. -/
def get? (r : Registry) (id : ClientId) : Option Registration :=
  (r.entries.find? fun e => e.1 == id).map (·.2)

def size (r : Registry) : Nat := r.entries.length

theorem get?_register (r : Registry) (id other : ClientId) (entry : Registration) :
    (r.register id entry).get? other = if id = other then some entry else r.get? other := by
  unfold register get?
  by_cases h : id = other
  · simp [h]
  · rw [List.find?_cons_of_neg (by simpa using h), List.find?_filter, if_neg h]
    congr 2
    funext e
    by_cases he : e.1 = other
    · simp [he, Ne.symm h]
    · simp [he]

/-- The registry as a source. Secrets are only given out for methods that use them. -/
def source (r : Registry) : CredentialSource where
  method? id := (r.get? id).map (·.method)
  secrets id m := if m.usesSecret then ((r.get? id).map (·.secrets)).getD [] else []
  keySet? id := (r.get? id).bind (·.keySet)

end Registry

end Credential.Client
