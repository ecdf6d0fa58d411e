import Credential.Jws.Key
import Credential.Jws.Strict

/-!
# Signatures of tokens

A key verifies a token when the token's segments are strict and its signature is one of the signing
input under the header's algorithm. Where an algorithm has no verifier that is an error; a signature
that does not verify is not.
-/

namespace Credential

namespace SignedToken

/-- Are the header and the payload strict? -/
def isStrict (t : SignedToken) : Bool :=
  match Base64.decodeUrl t.headerText, Base64.decodeUrl t.payloadText with
  | some h, some p => Jws.Strict.isHeader h && Jws.Strict.isPayload p
  | _, _ => false

/-- Is the token signed with the key? -/
def isSignedWith (t : SignedToken) (k : Jws.Key) : Bool :=
  match Base64.decodeUrl t.signatureText with
  | some s => t.isStrict && k.verifies t.algorithm (Utf8.encode t.signingInput) s
  | none => false

/-- Check the signature with one key. -/
def verify (t : SignedToken) (k : Jws.Key) : Result Bool :=
  if t.algorithm.isVerifiable then .ok (t.isSignedWith k)
  else .error (.unsupportedAlgorithm t.algorithm.name)

/-- The first key that verifies the token. -/
def verifyWithAny (t : SignedToken) : List Jws.Key → Result (Option Jws.Key)
  | [] => .ok none
  | k :: rest => do if ← t.verify k then return some k else t.verifyWithAny rest

end SignedToken

end Credential
