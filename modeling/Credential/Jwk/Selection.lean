import Credential.Jws.Key

/-!
# Which keys of a set serve a token

A JSON key serves an algorithm if its type and curve are those of the algorithm, its use is signing
or unstated, its algorithm is the same or unstated, and its id is the wanted one if one is wanted.
-/

namespace Credential

namespace Jwk

/-- Are type and curve those of the algorithm? -/
def fits (m : Material) (a : Jws.Algorithm) : Bool :=
  match m, a with
  | .octets _, a => a.family = .hmac
  | .rsa _ _, a => a.family = .rsa
  | .ec c _ _, .es256 => c = .p256
  | .ec c _ _, .es384 => c = .p384
  | .ec c _ _, .es512 => c = .p521
  | .octetPair c _, .edDsa => c = .ed25519
  | _, _ => false

/-- Does the key's own algorithm, if it states one, allow the algorithm? No key can state ES512. -/
def allows (k : Jwk) (a : Jws.Algorithm) : Bool :=
  match k.algorithm with
  | none => true
  | some name => name = a.name && a.isVerifiable

/-- Does the key serve the algorithm and have the wanted id? -/
def serves (k : Jwk) (a : Jws.Algorithm) (wanted : Option String) : Bool :=
  fits k.material a
    && (k.use = none || k.use = some "sig")
    && k.allows a
    && (wanted.isNone || k.keyId = wanted)

end Jwk

/-- The verification keys of a set for an algorithm, in order; keys that cannot be decoded are
left out. -/
def JwkSet.select (s : JwkSet) (a : Jws.Algorithm) (wanted : Option String) : List Jws.Key :=
  (s.keys.filter fun k => k.serves a wanted).filterMap Jws.Key.ofJwk?

end Credential
