import Credential.Jwe.Key

/-!
# Choosing decryption keys

A selector is bound to one key management and one encryption, which a caller compares with those of
a token, and holds keys that can be used with the key management, at least one.
-/

namespace Credential.Jwe

/-- Decryption keys for one key management and one encryption. -/
structure Selector where
  keyManagement : KeyManagement
  encryption : Encryption
  keys : List Key

namespace Selector

/-- The selector over the keys; the first key that cannot be used is reported. -/
def make (m : KeyManagement) (e : Encryption) (keys : List Key) : Result Selector :=
  if keys.isEmpty then .error (.configuration .noDecryptionKey)
  else
    match keys.find? fun k => !k.supports m with
    | some k => .error (.configuration (.decryptionKeyUnusable k.keyId m.name))
    | none => .ok ⟨m, e, keys⟩

/-- Is the key worth trying for a token that names this key id? Only two different ids speak
against it. -/
def mayOpen (wanted : Option String) (k : Key) : Bool :=
  match wanted, k.keyId with
  | some w, some h => w == h
  | _, _ => true

/-- The keys to try on a token with this header, in order. -/
def candidates (s : Selector) (h : JoseHeader) : List Key := s.keys.filter (mayOpen h.keyId)

end Selector

end Credential.Jwe
