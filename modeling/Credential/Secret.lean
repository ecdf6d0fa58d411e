import Credential.Text.Utf8
import Credential.Time.Instant

/-!
# Shared secrets

A secret is a text, used by its octets, that may expire.
-/

namespace Credential

/-- A shared secret and the instant from which on it is no longer good. -/
structure Secret where
  value : String
  expiresAt : Option Instant
  deriving DecidableEq

namespace Secret

/-- A secret that never expires. -/
def lasting (value : String) : Secret := ⟨value, none⟩

/-- The key material. -/
def octets (s : Secret) : Bytes := Utf8.encode s.value

/-- A secret is expired from its instant on. -/
def isExpiredAt (s : Secret) (now : Instant) : Bool :=
  match s.expiresAt with
  | none => false
  | some e => e ≤ now

/-- Two secrets match if they have the same octets; expiry plays no part. -/
def agrees (s t : Secret) : Bool := s.octets == t.octets

theorem agrees_iff {s t : Secret} : s.agrees t = true ↔ s.octets = t.octets := beq_iff_eq

end Secret

end Credential
