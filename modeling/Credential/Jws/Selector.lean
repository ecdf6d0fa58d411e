import Credential.Jose.Header
import Credential.Jwk.Selection

/-!
# Choosing verification keys

A selector is bound to one algorithm, never to `none`. It takes its keys from shared secrets that
have not expired or from a source of key sets. A source may remember what it did: it maps a wanted
key id and its state to a key set and its next state.
-/

namespace Credential

/-- Where key sets come from: given a wanted key id, a key set or an error, and the next state. -/
abbrev JwkSource (σ : Type) := Option String → σ → Result JwkSet × σ

/-- A source that always gives the same set. -/
def JwkSource.fixed {σ : Type} (set : JwkSet) : JwkSource σ := fun _ s => (.ok set, s)

namespace Jws

/-- Verification keys for one algorithm. -/
inductive Selector (σ : Type) where
  | secrets (algorithm : Algorithm) (secrets : List Secret)
  | keySet (algorithm : Algorithm) (source : JwkSource σ)

namespace Selector

variable {σ : Type}

def algorithm : Selector σ → Algorithm
  | .secrets a _ => a
  | .keySet a _ => a

/-- A selector over shared secrets, of which there must be one. -/
def ofSecrets (a : Algorithm) (held : List Secret) : Result (Selector σ) :=
  if a.family ≠ .hmac then .error (.configuration (.notHmac a.name))
  else if held.isEmpty then .error (.configuration .noSecret)
  else .ok (.secrets a held)

/-- A selector over a source of key sets. -/
def ofSource (a : Algorithm) (source : JwkSource σ) : Result (Selector σ) :=
  if a = .unsecured then .error (.configuration .selectorForNone) else .ok (.keySet a source)

/-- The keys of the secrets that are good at an instant. -/
def usableKeys (held : List Secret) (now : Instant) : List Key :=
  (held.filter fun s => !s.isExpiredAt now).map Key.ofSecret

/-- The keys to try on a token with this header, in order. -/
def candidates (s : Selector σ) (h : JoseHeader) (now : Instant) (state : σ) :
    Result (List Key) × σ :=
  match s with
  | .secrets _ held => (.ok (usableKeys held now), state)
  | .keySet a source =>
    let (set, next) := source h.keyId state
    (set.map fun keys => keys.select a h.keyId, next)

end Selector

end Jws

end Credential
