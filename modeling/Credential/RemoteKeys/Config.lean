import Credential.Json.Record
import Credential.RemoteKeys.Call
import Credential.Url.Basic

/-!
# Configuration of a remote key set

How keys are retrieved and how long they are kept. Keys are only taken from an address that cannot
be read or changed on the way.
-/

namespace Credential.RemoteKeys

open Json (Raw Record)

/-- Limits of a single retrieval. -/
structure RetrieverConfig where
  connectTimeoutMs : Nat
  readTimeoutMs : Nat
  sizeLimitBytes : Nat
  deriving DecidableEq, Repr

namespace RetrieverConfig

def standard : RetrieverConfig := ⟨500, 500, 50 * 1024⟩

def fieldNames : List String := ["connect_timeout_ms", "read_timeout_ms", "size_limit_bytes"]

def ofRaw? (raw : Raw) : Option RetrieverConfig := do
  let r ← Record.ofRaw? fieldNames raw
  let connectTimeoutMs ← r.orElse "connect_timeout_ms" standard.connectTimeoutMs Raw.natural?
  let readTimeoutMs ← r.orElse "read_timeout_ms" standard.readTimeoutMs Raw.natural?
  let sizeLimitBytes ← r.orElse "size_limit_bytes" standard.sizeLimitBytes Raw.natural?
  return { connectTimeoutMs, readTimeoutMs, sizeLimitBytes }

/-- Read a configuration document. -/
def parse (b : Bytes) : Option RetrieverConfig := do ofRaw? (← Raw.parse b)

end RetrieverConfig

/-- How long a set is kept, how often it may be refreshed, and how it is retrieved. -/
structure Config where
  cacheTtlSeconds : Nat
  minRefreshIntervalMs : Nat
  retriever : RetrieverConfig
  deriving DecidableEq, Repr

namespace Config

def standard : Config := ⟨600, 5000, .standard⟩

def fieldNames : List String := ["cache_ttl_seconds", "min_refresh_interval_ms", "retriever"]

def ofRaw? (raw : Raw) : Option Config := do
  let r ← Record.ofRaw? fieldNames raw
  let cacheTtlSeconds ← r.orElse "cache_ttl_seconds" standard.cacheTtlSeconds Raw.natural?
  let minRefreshIntervalMs ←
    r.orElse "min_refresh_interval_ms" standard.minRefreshIntervalMs Raw.natural?
  let retriever ← r.orElse "retriever" standard.retriever RetrieverConfig.ofRaw?
  return { cacheTtlSeconds, minRefreshIntervalMs, retriever }

/-- Read a configuration document. -/
def parse (b : Bytes) : Option Config := do ofRaw? (← Raw.parse b)

def policy (c : Config) : Policy :=
  ⟨c.cacheTtlSeconds * 1000000000, c.minRefreshIntervalMs * 1000000⟩

end Config

/-- The policy for a set at a URL, which must be secure. -/
def connect (url : Url) (c : Config) : Result Policy :=
  if url.isSecure then .ok c.policy else .error (.configuration (.insecureKeySetUrl url.write))

end Credential.RemoteKeys
