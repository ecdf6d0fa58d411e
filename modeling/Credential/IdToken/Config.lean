import Credential.IdToken.Validator
import Credential.RemoteKeys.Config

/-!
# Configuration of an ID token validator

A configuration names one algorithm. It calls for a shared secret if that is an HMAC, and for the
address of a key set if it is a public-key signature.
-/

namespace Credential

open Json (Raw Record)

/-- An algorithm by its name. -/
def Jws.Algorithm.ofRaw? (raw : Raw) : Option Jws.Algorithm := do ofName? (← raw.text?)

/-- A URL by its text. -/
def Url.ofRaw? (raw : Raw) : Option Url := do Url.parse (← raw.text?)

/-- A validator as a configuration document describes it. -/
structure IdTokenConfig where
  issuer : Issuer
  clientId : ClientId
  algorithm : Jws.Algorithm
  keySetUrl : Option Url
  clientSecret : Option String
  remoteKeys : RemoteKeys.Config
  clockSkewSeconds : Nat
  additionalAudiences : List String
  maxAuthAgeSeconds : Option Nat

namespace IdTokenConfig

def fieldNames : List String :=
  ["issuer", "client_id", "algorithm", "jwks_uri", "client_secret", "jwks", "clock_skew_seconds",
    "additional_audiences", "max_auth_age_seconds"]

def ofRaw? (raw : Raw) : Option IdTokenConfig := do
  let r ← Record.ofRaw? fieldNames raw
  let issuer ← r.required "issuer" (Raw.identifier? .issuer)
  let clientId ← r.required "client_id" (Raw.identifier? .clientId)
  let algorithm ← r.required "algorithm" Jws.Algorithm.ofRaw?
  let keySetUrl ← r.optional "jwks_uri" Url.ofRaw?
  let clientSecret ← r.optional "client_secret" Raw.text?
  let remoteKeys ← r.orElse "jwks" .standard RemoteKeys.Config.ofRaw?
  let clockSkewSeconds ← r.orElse "clock_skew_seconds" Window.defaultSkewSeconds Raw.natural?
  let additionalAudiences ← r.orElse "additional_audiences" [] (Raw.list? Raw.text?)
  let maxAuthAgeSeconds ← r.optional "max_auth_age_seconds" Raw.natural?
  return { issuer, clientId, algorithm, keySetUrl, clientSecret, remoteKeys, clockSkewSeconds,
           additionalAudiences, maxAuthAgeSeconds }

/-- Read a configuration document. -/
def parse (b : Bytes) : Option IdTokenConfig := do ofRaw? (← Raw.parse b)

variable {ω : Type}

/-- The selector that the algorithm calls for; none for unsecured tokens. -/
def selector (c : IdTokenConfig) (world : RemoteKeys.World ω) :
    Result (Option (Jws.Selector (RemoteKeys.State × ω))) :=
  match c.algorithm.family with
  | .unsecured => .ok none
  | .hmac =>
    match c.clientSecret with
    | none => .error (.configuration (.secretRequired c.algorithm.name))
    | some secret => do return some (← Jws.Selector.ofSecrets c.algorithm [Secret.lasting secret])
  | _ =>
    match c.keySetUrl with
    | none => .error (.configuration (.keySetUrlRequired c.algorithm.name))
    | some url => do
      let policy ← RemoteKeys.connect url c.remoteKeys
      return some (← Jws.Selector.ofSource c.algorithm (RemoteKeys.source policy world))

/-- The validator that the configuration describes. -/
def build (c : IdTokenConfig) (world : RemoteKeys.World ω) :
    Result (IdTokenValidator (RemoteKeys.State × ω)) := do
  let base := IdTokenValidator.make c.issuer c.clientId (← c.selector world)
  let additional ← c.additionalAudiences.mapM (Identifier.ofString .audience)
  let v := (base.withSkew (Window.skewOfSeconds c.clockSkewSeconds)).withAudiences additional
  return match c.maxAuthAgeSeconds with
    | some n => v.withMaxAuthAge (Window.skewOfSeconds n)
    | none => v

end IdTokenConfig

end Credential
