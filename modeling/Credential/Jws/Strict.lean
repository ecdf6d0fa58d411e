import Credential.Jose.Token
import Credential.Jwk.Basic

/-!
# Strict segments

A signature only counts on a token whose header and payload pass a stricter reading. The header must
be an object whose known parameters have their registered types and do not repeat, and all of whose
other parameters are texts. The payload must be an object that has none of the claims `exp`, `nbf`,
`sub`, `iss` and `aud` twice.

A token that fails here is not malformed: no key verifies it.
-/

namespace Credential.Jws.Strict

open Json (Raw)

/-- Parameters that are a text or `null`. -/
def textParameters : List String :=
  ["typ", "cty", "jku", "kid", "x5u", "x5t", "x5t#S256", "url", "nonce", "enc", "zip"]

/-- Parameters that are a list of texts or `null`. -/
def listParameters : List String := ["x5c", "crit"]

/-- Every parameter with a type of its own. -/
def knownParameters : List String := "alg" :: "jwk" :: textParameters ++ listParameters

/-- The value is `null` or can be read. -/
def nullOr {α : Type} (read : Raw → Option α) : Raw → Bool
  | .null => true
  | v => (read v).isSome

/-- The algorithm that a value names, if it can be verified. -/
def algorithm? (v : Raw) : Option Algorithm := do
  let a ← Algorithm.ofName? (← v.text?)
  if a.isVerifiable then some a else none

/-- Has the parameter a value of its type? -/
def parameterOk (name : String) (v : Raw) : Bool :=
  if name = "alg" then (algorithm? v).isSome
  else if name = "jwk" then nullOr (Jwk.ofRaw? (Raw.maxDepth - 1)) v
  else if textParameters.contains name then nullOr Raw.text? v
  else if listParameters.contains name then nullOr (Raw.list? Raw.text?) v
  else v.text?.isSome

/-- The names of an object's members, if they can all be read. -/
def names? (ms : List (Bytes × Raw)) : Option (List String) := ms.mapM fun m => Json.readString m.1

/-- Do none of the watched names occur twice? -/
def noneRepeated (watched names : List String) : Bool := watched.all fun n => names.count n ≤ 1

/-- Is the text a strict header? -/
def isHeader (b : Bytes) : Bool :=
  match Raw.parse b with
  | some (.object ms) =>
    match names? ms with
    | some names =>
      names.contains "alg" && noneRepeated knownParameters names
        && (names.zip (ms.map (·.2))).all fun p => parameterOk p.1 p.2
    | none => false
  | _ => false

/-- The claims that must not repeat. -/
def singleClaims : List String := ["exp", "nbf", "sub", "iss", "aud"]

/-- Is the text a strict payload? -/
def isPayload (b : Bytes) : Bool :=
  match Raw.parse b with
  | some (.object ms) =>
    match names? ms with
    | some names => noneRepeated singleClaims names && ((Raw.object ms).read Raw.maxDepth).isSome
    | none => false
  | _ => false

end Credential.Jws.Strict
