import Credential.Json.Record
import Credential.Text.Base64
import Credential.Jose.Algorithm

/-!
# The header of a token

A header names the algorithm and may name a key, types and a content encryption. It is a record:
other parameters are ignored. The algorithm is kept as a text, so that an unknown one can be
reported.
-/

namespace Credential

/-- The parameters of a header that this library reads. -/
structure JoseHeader where
  algorithm : String
  keyId : Option String
  type : Option String
  contentType : Option String
  encryption : Option String
  deriving DecidableEq

/-- The octets that a segment writes. -/
def decodeSegment (segment : Segment) (text : String) : Result Bytes :=
  orRefuse (Base64.decodeUrl text) (.base64url segment)

namespace JoseHeader

/-- A header with an algorithm and nothing else. -/
def ofAlgorithm (a : Jws.Algorithm) : JoseHeader := ⟨a.name, none, none, none, none⟩

def parameterNames : List String := ["alg", "kid", "typ", "cty", "enc"]

def ofRaw? (raw : Json.Raw) : Option JoseHeader := do
  let r ← Json.Record.ofRaw? parameterNames raw
  let algorithm ← r.required "alg" Json.Raw.text?
  let keyId ← r.optional "kid" Json.Raw.text?
  let type ← r.optional "typ" Json.Raw.text?
  let contentType ← r.optional "cty" Json.Raw.text?
  let encryption ← r.optional "enc" Json.Raw.text?
  return { algorithm, keyId, type, contentType, encryption }

/-- The header that a JSON text holds. -/
def parse (b : Bytes) : Result JoseHeader :=
  orRefuse (do ofRaw? (← Json.Raw.parse b)) .joseHeader

/-- The header that a segment holds. -/
def decode (segment : String) : Result JoseHeader := do
  parse (← decodeSegment .header segment)

end JoseHeader

end Credential
