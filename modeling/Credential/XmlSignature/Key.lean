import Credential.Asn1.KeyInfo
import Credential.Asn1.Pem
import Credential.Error
import Credential.Text.Pieces
import Credential.XmlSignature.Algorithm

/-!
# Keys of XML signatures

A public key, RSA or on the curve P-256, read from its encoding or out of a certificate. A
certificate only holds the key: neither its validity nor who signed it counts.
-/

namespace Credential.XmlSignature

open Crypto

/-- A public key. -/
inductive Key where
  | rsa (key : Rsa.PublicKey)
  | p256 (point : Curve.Point)
  deriving DecidableEq

namespace Key

/-! ## Reading keys -/

/-- A key with the name of its algorithm. -/
def ofInfo? (b : Bytes) : Option Key :=
  match KeyInfo.rsaPublic? b with
  | some k => some (.rsa k)
  | none => (KeyInfo.p256Public? b).map .p256

/-- A key from its encoding. -/
def ofInfo (b : Bytes) : Result Key := orFail (ofInfo? b) (.configuration .publicKey)

/-- A key from the text of its encoding. -/
def ofInfoText (s : String) : Result Key :=
  orFail ((Pem.contentOf? "PUBLIC KEY" s).bind ofInfo?) (.configuration .publicKeyPem)

/-- The key of a certificate. -/
def ofCertificate (b : Bytes) : Result Key := do
  ofInfo (← orFail (KeyInfo.ofCertificate? b) (.configuration .certificate))

/-- The key of a certificate from its text. What follows the certificate among the octets does not
count. -/
def ofCertificateText (s : String) : Result Key := do
  let b ← orFail (Pem.contentOf? "CERTIFICATE" s) (.configuration .certificate)
  ofCertificate (b.take (b.length - ((Der.element? b).map (·.2.length)).getD 0))

/-- The line that a certificate begins with. -/
def certificateMark : List Char := "-----BEGIN CERTIFICATE-----".toList

/-- A key from a text, which is that of a certificate if the mark of one occurs in it. -/
def ofText (s : String) : Result Key :=
  if Text.occursIn certificateMark s.toList then ofCertificateText s else ofInfoText s

/-! ## Checking signatures -/

/-- Can the key check signatures of the method? -/
def supports : Key → Method → Bool
  | .rsa _, .rsaSha1 | .rsa _, .rsaSha256 | .p256 _, .ecdsaSha256 => true
  | _, _ => false

/-- The two scalars that a sequence of two numbers writes. -/
def scalarPair? (signature : Bytes) : Option (Nat × Nat) := do
  match ← (← Der.single? signature).items? with
  | [r, s] => return (← r.natural?, ← s.natural?)
  | _ => none

/-- Is a scalar one that signatures have? -/
def isScalar (n : Nat) : Bool := 0 < n && n < Curve.p256.order

/-- The two scalars of a signature: of fixed length one after the other, or else as a sequence. -/
def scalars? (signature : Bytes) : Option (Nat × Nat) :=
  -- octets of the fixed length whose scalars are out of range are still tried as a sequence
  let r := Bytes.toNat (signature.take 32)
  let s := Bytes.toNat (signature.drop 32)
  if signature.length = 64 && isScalar r && isScalar s then some (r, s)
  else (scalarPair? signature).filter fun p => isScalar p.1 && isScalar p.2

/-- Does the signature belong to the message? -/
def verify (k : Key) (m : Method) (message signature : Bytes) : Bool :=
  k.supports m && match k with
    | .rsa k => Rsa.verifyPkcs1 k m.digest message signature
    | .p256 q =>
      match scalars? signature with
      | some (r, s) => Curve.p256.verify q (m.digest.hash message) r s
      | none => false

end Key

end Credential.XmlSignature
