import Credential.Asn1.Der
import Credential.Crypto.Curve

/-!
# Encoded keys

Public keys come with the name of their algorithm (`rsaPublic?`, `p256Public?`), either bare or
inside a certificate (`ofCertificate?`). RSA private keys come bare or with the name of the
algorithm (`rsaPrivate?`, `rsaPrivateInfo?`).

An RSA key is only taken if its numbers can be those of a key: see `Rsa.PublicKey.isPlausible` and
`Rsa.PrivateKey.isPlausible`.
-/

namespace Credential

namespace Crypto.Rsa

/-- An odd modulus of at most 4096 bits, and an odd exponent below it of two to 33 bits. -/
def PublicKey.isPlausible (k : PublicKey) : Bool :=
  k.bits ≤ 4096 && k.exponent < k.modulus && k.modulus % 2 == 1 && k.exponent % 2 == 1
    && 2 ≤ k.exponent && k.exponent < Nat.pow 2 33

/-- The primes make up the modulus, and the exponents undo each other modulo each of them. -/
def PrivateKey.isPlausible (k : PrivateKey) : Bool :=
  k.publicKey.isPlausible
    && k.primes.foldl (· * ·) 1 == k.publicKey.modulus
    && k.primes.all fun p =>
      2 ≤ p && (k.publicKey.exponent * k.privateExponent - 1) % (p - 1) == 0

end Crypto.Rsa

namespace KeyInfo

open Der (Element)
open Crypto

/-! ## Names -/

/-- 1.2.840.113549.1.1.1 -/
def rsaEncryption : Bytes := [0x2a, 0x86, 0x48, 0x86, 0xf7, 0x0d, 0x01, 0x01, 0x01]

/-- 1.2.840.10045.2.1 -/
def ecPublicKey : Bytes := [0x2a, 0x86, 0x48, 0xce, 0x3d, 0x02, 0x01]

/-- 1.2.840.10045.3.1.7 -/
def prime256v1 : Bytes := [0x2a, 0x86, 0x48, 0xce, 0x3d, 0x03, 0x01, 0x07]

/-- The name of RSA, whose parameters are null. -/
def isRsa (algorithm : Element) : Bool :=
  algorithm.items? == some [⟨Der.objectId, rsaEncryption⟩, ⟨Der.null, []⟩]

/-- The name of keys on P-256. -/
def isP256 (algorithm : Element) : Bool :=
  algorithm.items? == some [⟨Der.objectId, ecPublicKey⟩, ⟨Der.objectId, prime256v1⟩]

/-! ## Public keys -/

/-- The algorithm and the octets of a public key. -/
def subjectKey? (e : Element) : Option (Element × Bytes) := do
  match ← e.items? with
  | [algorithm, key] => return (algorithm, ← key.octets?)
  | _ => none

/-- The two numbers of an RSA key. -/
def rsaNumbers? (b : Bytes) : Option Rsa.PublicKey := do
  match ← (← Der.single? b).items? with
  | [n, e] => return ⟨← n.natural?, ← e.natural?⟩
  | _ => none

/-- An RSA key with the name of its algorithm. -/
def rsaPublic? (b : Bytes) : Option Rsa.PublicKey := do
  let (algorithm, key) ← subjectKey? (← Der.single? b)
  let k ← rsaNumbers? key
  if isRsa algorithm && k.isPlausible then some k else none

/-- A point on P-256 with the name of its curve. -/
def p256Public? (b : Bytes) : Option Curve.Point := do
  let (algorithm, key) ← subjectKey? (← Der.single? b)
  if isP256 algorithm then Curve.p256.ofUncompressed? key <|> Curve.p256.ofCompressed? key else none

/-! ## Certificates -/

/-- The encoding of an element. -/
def encode (e : Element) : Bytes :=
  let n := e.content.length
  let length :=
    if n < 128 then [UInt8.ofNat n]
    else UInt8.ofNat (0x80 + Bytes.width n) :: Bytes.ofNat (Bytes.width n) n
  e.tag :: length ++ e.content

/-- Drop a leading element with the given tag. -/
def skip (tag : UInt8) : List Element → List Element
  | [] => []
  | e :: rest => if e.tag = tag then rest else e :: rest

/-- A version number, if it is stated, is 0, 1 or 2. -/
def versionOk (fields : List Element) : Bool :=
  match fields with
  | e :: _ =>
    if e.tag = Der.field 0 then
      match (Der.single? e.content).bind Element.natural? with
      | some v => v ≤ 2
      | none => false
    else true
  | [] => false

/-- An attribute of a name: its type and a value. -/
def attributeOk (e : Element) : Bool :=
  match e.items? with
  | some [type, _] => type.tag == Der.objectId
  | _ => false

/-- Part of a name: a set of attributes. -/
def namePartOk (e : Element) : Bool :=
  e.tag == Der.set && match Der.elements? e.content with
    | some as => as.all attributeOk
    | none => false

/-- A name: a sequence of parts. -/
def nameOk (e : Element) : Bool :=
  match e.items? with
  | some parts => parts.all namePartOk
  | none => false

/-- A validity: two times. -/
def validityOk (e : Element) : Bool :=
  match e.items? with
  | some [a, b] => [a, b].all fun t => t.tag == Der.utcTime || t.tag == Der.generalizedTime
  | _ => false

/-- An algorithm: a name and possibly parameters. -/
def algorithmOk (e : Element) : Bool :=
  match e.items? with
  | some [name] | some [name, _] => name.tag == Der.objectId
  | _ => false

/-- The subject's key among the signed fields of a certificate. -/
def certifiedKey? (fields : List Element) : Option Element :=
  match skip (Der.field 0) fields with
  | serial :: algorithm :: issuer :: validity :: subject :: key :: rest =>
    let rest := skip (Der.field 3) (skip (Der.primitiveField 2) (skip (Der.primitiveField 1) rest))
    if versionOk fields && serial.tag == Der.integer && algorithmOk algorithm && nameOk issuer
        && validityOk validity && nameOk subject && (subjectKey? key).isSome && rest.isEmpty then
      some key
    else none
  | _ => none

/-- The encoded public key of a certificate. -/
def ofCertificate? (b : Bytes) : Option Bytes := do
  match ← (← Der.single? b).items? with
  | [signed, algorithm, signature] =>
    let _ ← signature.contentOf? Der.bitString
    let key ← certifiedKey? (← signed.items?)
    if algorithmOk algorithm then some (encode key) else none
  | _ => none

/-! ## Private keys -/

/-- An RSA key by its numbers: version, modulus, exponents, two primes, and what follows from
these. -/
def rsaPrivate? (b : Bytes) : Option Rsa.PrivateKey := do
  match ← (← (← Der.single? b).items?).mapM Element.natural? with
  | [0, n, e, d, p, q, _, _, _] =>
    let k : Rsa.PrivateKey := ⟨⟨n, e⟩, d, [p, q]⟩
    if k.isPlausible then some k else none
  | _ => none

/-- The fields after a private key: attributes, and in version 1 the public key. -/
def privateFieldsOk (version : Nat) (fields : List Element) : Bool :=
  match version, skip (Der.field 0) fields with
  | 0, [] => true
  | 1, [e] => e.tag == Der.primitiveField 1
  | _, _ => false

/-- An RSA key with the name of its algorithm, possibly followed by other fields. -/
def rsaPrivateInfo? (b : Bytes) : Option Rsa.PrivateKey := do
  match ← (← Der.single? b).items? with
  | version :: algorithm :: key :: rest =>
    let v ← version.natural?
    let k ← rsaPrivate? (← key.contentOf? Der.octetString)
    if isRsa algorithm && privateFieldsOk v rest then some k else none
  | _ => none

end KeyInfo

end Credential
