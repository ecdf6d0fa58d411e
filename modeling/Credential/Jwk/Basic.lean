import Credential.Json.Record

/-!
# Keys in JSON

A JSON Web Key holds key material of one of four types and says what it is good for: a use, an
algorithm, a key id. Reading a key settles its type but decodes no material; that happens where the
key is put to use.

The type is found by trying the four in order (`Material.ofRaw?`). Everything in a key must be a
JSON value, also members that no type knows, and a member that the key's type or every key has must
not occur twice.
-/

namespace Credential

namespace Jwk

/-- The curves that keys may name. -/
inductive CurveName where
  | p256 | p384 | p521 | ed25519
  deriving DecidableEq, Repr

def CurveName.ofName? : String → Option CurveName
  | "P-256" => some .p256
  | "P-384" => some .p384
  | "P-521" => some .p521
  | "Ed25519" => some .ed25519
  | _ => none

/-- The key material by type, its numbers still written in base 64. -/
inductive Material where
  | ec (curve : CurveName) (x y : String)
  | rsa (modulus exponent : String)
  | octets (key : String)
  | octetPair (curve : CurveName) (x : String)
  deriving DecidableEq, Repr

end Jwk

/-- A key as written. -/
structure Jwk where
  material : Jwk.Material
  use : Option String
  algorithm : Option String
  keyId : Option String
  deriving DecidableEq, Repr

/-- A set of keys, in order. -/
structure JwkSet where
  keys : List Jwk
  deriving DecidableEq, Repr

namespace Jwk

open Json (Raw Record)

/-- The fields of a key, if it says to be of the type. -/
def typed? (type : String) (names : List String) (raw : Raw) : Option Record := do
  let r ← Record.ofRaw? ("kty" :: names) raw
  let found ← r.required "kty" Raw.choice?
  if found = type then some r else none

def curve? (raw : Raw) : Option CurveName := do CurveName.ofName? (← raw.choice?)

def Material.ec? (raw : Raw) : Option Material := do
  let r ← typed? "EC" ["crv", "x", "y"] raw
  return .ec (← r.required "crv" curve?) (← r.required "x" Raw.text?) (← r.required "y" Raw.text?)

def Material.rsa? (raw : Raw) : Option Material := do
  let r ← typed? "RSA" ["n", "e"] raw
  return .rsa (← r.required "n" Raw.text?) (← r.required "e" Raw.text?)

def Material.octets? (raw : Raw) : Option Material := do
  let r ← typed? "oct" ["k"] raw
  return .octets (← r.required "k" Raw.text?)

def Material.octetPair? (raw : Raw) : Option Material := do
  let r ← typed? "OKP" ["crv", "x"] raw
  return .octetPair (← r.required "crv" curve?) (← r.required "x" Raw.text?)

/-- The material of the first type that fits. -/
def Material.ofRaw? (raw : Raw) : Option Material :=
  Material.ec? raw <|> Material.rsa? raw <|> Material.octets? raw <|> Material.octetPair? raw

/-- The members that keys of every type may have. -/
def commonNames : List String :=
  ["use", "key_ops", "alg", "kid", "x5u", "x5c", "x5t", "x5t#S256"]

/-- Read a key in which containers may be nested `room` deep. -/
def ofRaw? (room : Nat) (raw : Raw) : Option Jwk :=
  match raw with
  | .object _ => do
    let _ ← raw.read room
    let r ← Record.ofRaw? commonNames raw
    let use ← r.optional "use" Raw.text?
    let _ ← r.optional "key_ops" (Raw.list? Raw.text?)
    let algorithm ← r.optional "alg" Raw.choice?
    let keyId ← r.optional "kid" Raw.text?
    let _ ← r.optional "x5u" Raw.text?
    let _ ← r.optional "x5c" (Raw.list? Raw.text?)
    let _ ← r.optional "x5t" Raw.text?
    let _ ← r.optional "x5t#S256" Raw.text?
    return { material := ← Material.ofRaw? raw, use, algorithm, keyId }
  | _ => none

end Jwk

/-- Read the text of a key. -/
def Jwk.parse (b : Bytes) : Option Jwk := do ofRaw? Json.Raw.maxDepth (← Json.Raw.parse b)

namespace JwkSet

open Json (Raw Record)

/-- Read a set in which containers may be nested `room` deep. One key that cannot be read makes the
whole set unreadable. -/
def ofRaw? (room : Nat) (raw : Raw) : Option JwkSet := do
  let r ← Record.ofRaw? ["keys"] raw
  return ⟨← r.required "keys" (Raw.list? (Jwk.ofRaw? (room - 2)))⟩

/-- Read the text of a set. -/
def parse (b : Bytes) : Option JwkSet := do ofRaw? Raw.maxDepth (← Raw.parse b)

/-- The set that a JSON text holds. -/
def ofText (b : Bytes) : Result JwkSet := orRefuse (parse b) .jwkSet

/-- The ids of the keys, in order. -/
def keyIds (s : JwkSet) : List (Option String) := s.keys.map (·.keyId)

/-- Does some key have the id? -/
def hasKeyId (s : JwkSet) (id : String) : Bool := s.keys.any fun k => k.keyId == some id

end JwkSet

end Credential
