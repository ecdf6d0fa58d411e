import Credential.Crypto.Curve
import Credential.Crypto.Ed25519
import Credential.Jose.Algorithm
import Credential.Jwk.Basic
import Credential.Secret
import Credential.Text.Base64

/-!
# Verification keys

A key that can verify signatures, made from a JSON key or from a shared secret. A key serves the
algorithms of one family only (`verifies_family`): a public key is never taken for a secret.

Whether an RSA modulus or a curve point is acceptable shows when a signature is checked; a key that
is not acceptable verifies nothing.
-/

namespace Credential.Jws

open Crypto

/-- The octets of a key. -/
inductive KeyMaterial where
  | secret (key : Bytes)
  | rsa (modulus exponent : Bytes)
  | ec (point : Bytes)
  | ed (publicKey : Bytes)
  deriving DecidableEq

def KeyMaterial.family : KeyMaterial → Family
  | .secret _ => .hmac
  | .rsa _ _ => .rsa
  | .ec _ => .ec
  | .ed _ => .ed

/-- A verification key and its id. -/
structure Key where
  material : KeyMaterial
  keyId : Option String
  deriving DecidableEq

namespace Key

/-! ## Making keys -/

/-- The key of a shared secret. -/
def ofSecret (s : Secret) : Key := ⟨.secret s.octets, none⟩

/-- Decode key material. The coordinates of a point are put together as they are. -/
def decodeMaterial? : Jwk.Material → Option KeyMaterial
  | .ec _ x y => do return .ec (0x04 :: (← Base64.decodeUrl x) ++ (← Base64.decodeUrl y))
  | .rsa n e => do return .rsa (← Base64.decodeUrl n) (← Base64.decodeUrl e)
  | .octets k => do return .secret (← Base64.decodeUrl k)
  | .octetPair _ x => do return .ed (← Base64.decodeUrl x)

/-- The key that a JSON key writes, if its material can be decoded. -/
def ofJwk? (jwk : Jwk) : Option Key := do return ⟨← decodeMaterial? jwk.material, jwk.keyId⟩

/-- The key that a JSON key writes. -/
def ofJwk (jwk : Jwk) : Result Key := orFail (ofJwk? jwk) (.keySource .unusableKey)

/-! ## Checking signatures -/

/-- The RSA key of two numbers without leading zeros: a modulus of 2048 to 8192 bits and an odd
exponent of two to 33 bits. -/
def rsaKey? (modulus exponent : Bytes) : Option Rsa.PublicKey :=
  let k : Rsa.PublicKey := ⟨Bytes.toNat modulus, Bytes.toNat exponent⟩
  if modulus.headD 0 ≠ 0 ∧ exponent.headD 0 ≠ 0 ∧ 2048 ≤ k.bits ∧ k.bits ≤ 8192
      ∧ k.modulus % 2 = 1 ∧ k.exponent % 2 = 1 ∧ 3 ≤ k.exponent ∧ k.exponent < Nat.pow 2 33 then
    some k
  else none

/-- Check an RSA signature. -/
def verifyRsa (check : Rsa.PublicKey → Bool) (modulus exponent : Bytes) : Bool :=
  match rsaKey? modulus exponent with
  | some k => check k
  | none => false

/-- Check a signature on a curve. -/
def verifyEc (c : Curve) (d : Digest) (point message signature : Bytes) : Bool :=
  match c.ofUncompressed? point with
  | some q => c.verifyFixed q (d.hash message) signature
  | none => false

/-- Check a signature with a secret. -/
def verifyHmac (d : Digest) (key message signature : Bytes) : Bool :=
  d.hmac key message == signature

/-- Does the signature verify under the algorithm? -/
def verifies (k : Key) (a : Algorithm) (message signature : Bytes) : Bool :=
  match a, k.material with
  | .hs256, .secret key => verifyHmac .sha256 key message signature
  | .hs384, .secret key => verifyHmac .sha384 key message signature
  | .hs512, .secret key => verifyHmac .sha512 key message signature
  | .rs256, .rsa n e => verifyRsa (Rsa.verifyPkcs1 · .sha256 message signature) n e
  | .rs384, .rsa n e => verifyRsa (Rsa.verifyPkcs1 · .sha384 message signature) n e
  | .rs512, .rsa n e => verifyRsa (Rsa.verifyPkcs1 · .sha512 message signature) n e
  | .ps256, .rsa n e => verifyRsa (Rsa.verifyPss · .sha256 message signature) n e
  | .ps384, .rsa n e => verifyRsa (Rsa.verifyPss · .sha384 message signature) n e
  | .ps512, .rsa n e => verifyRsa (Rsa.verifyPss · .sha512 message signature) n e
  | .es256, .ec q => verifyEc Curve.p256 .sha256 q message signature
  | .es384, .ec q => verifyEc Curve.p384 .sha384 q message signature
  | .edDsa, .ed key => Ed25519.verify key message signature
  | _, _ => false

/-- **A key verifies under the algorithms of its own family only.** -/
theorem verifies_family {k : Key} {a : Algorithm} {m s : Bytes} (h : k.verifies a m s = true) :
    a.family = k.material.family := by
  unfold verifies at h
  split at h <;> simp_all [KeyMaterial.family, Algorithm.family]

end Key

end Credential.Jws
