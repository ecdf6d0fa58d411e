import Credential.Text.Base64
import Credential.Text.Blank
import Credential.Text.Utf8
import Credential.Xml.Canonical
import Credential.XmlSignature.Key

/-!
# Enveloped signatures

A signature that stands inside the element it signs. It has a `SignedInfo`, which says by one
reference what is signed, how to write its canonical form and what the digest of that is, and a
value that signs the canonical form of the `SignedInfo` in turn. The reference names the element by
its identifier, and the signature itself is left out of the element if the reference says so.

So that the name means one element only, no two elements of the document may have the same
identifier. Keys come from the caller; what a document says about keys plays no part.
-/

namespace Credential.XmlSignature

open Xml (Located Canonicalizer)

/-- The namespace of signatures. -/
def uri : String := "http://www.w3.org/2000/09/xmldsig#"

/-- The transform that leaves the signature out of what it signs. -/
def envelopedTransform : String := "http://www.w3.org/2000/09/xmldsig#enveloped-signature"

/-! ## Identifiers -/

/-- Does the attribute give its element an identifier? -/
def isIdentifier (a : Xml.Attribute) : Bool :=
  (a.name.nsPrefix == "" && ["ID", "Id", "id", "AssertionID"].contains a.name.localName)
    || (a.name.nsPrefix == "xml" && a.name.localName == "id")

/-- The identifiers in an element, in order. -/
def identifiers (e : Xml.Element) : List String :=
  e.tags.flatMap fun t => (t.attributes.filter isIdentifier).map (·.value)

/-- Is no text in the list twice? -/
def distinct : List String → Bool
  | [] => true
  | s :: rest => !rest.contains s && distinct rest

theorem distinct_iff_nodup (l : List String) : distinct l = true ↔ l.Nodup := by
  induction l with
  | nil => simp [distinct]
  | cons s rest ih => simp [distinct, ih]

/-! ## Parts of a signature -/

/-- The first child of a name, which must be there. -/
def child (l : Located) (name : String) : Result Located :=
  orRefuse (l.childNamed? uri name) (.missingElement name)

/-- The algorithm that an element names. -/
def algorithmOf (l : Located) : Result String :=
  orRefuse (l.attribute? "Algorithm") (.withoutAlgorithm l.localName)

/-- The octets that an element holds in base 64, in which white space does not count. -/
def octetsOf (l : Located) : Result Bytes :=
  let cs := (l.element.leadingText?.getD "").toList.filter (!Text.isAsciiBlank ·)
  orRefuse (Base64.decodePadded cs) (.base64In l.localName)

/-- The list of inclusive prefixes that goes with an algorithm. -/
def prefixesOf? (l : Located) : Option String :=
  (l.childNamed? Xml.exclusiveCanonical "InclusiveNamespaces").bind (·.attribute? "PrefixList")

/-- The canonicalizer that an element names. -/
def canonicalizerOf? (algorithm : String) (l : Located) : Option Canonicalizer :=
  (Canonicalizer.ofAlgorithm? algorithm).map fun c =>
    match prefixesOf? l with
    | some list => c.withPrefixes list
    | none => c

/-- An algorithm that is accepted. -/
def orUnsupported {α : Type} (value : Option α) (name : String) : Result α :=
  orFail value (.unsupportedAlgorithm name)

/-- What the transforms of a reference make of the element. -/
structure Transforms where
  enveloped : Bool
  canonicalizer : Option Canonicalizer
  deriving DecidableEq, Repr

/-- Add a transform; the last canonicalizer counts. -/
def Transforms.add (t : Transforms) (l : Located) : Result Transforms := do
  let algorithm ← algorithmOf l
  if algorithm = envelopedTransform then return { t with enveloped := true }
  else
    let c ← orUnsupported (canonicalizerOf? algorithm l) algorithm
    return { t with canonicalizer := some c }

/-- The transforms of a reference. -/
def transformsOf (reference : Located) : Result Transforms :=
  let listed := match reference.childNamed? uri "Transforms" with
    | some l => l.childrenNamed uri "Transform"
    | none => []
  listed.foldlM Transforms.add ⟨false, none⟩

/-- What is signed: the name of an element, how its canonical form is written, and the digest of
that. -/
structure Reference where
  target : String
  enveloped : Bool
  canonicalizer : Canonicalizer
  digestMethod : DigestMethod
  digest : Bytes
  deriving DecidableEq, Repr

/-- Read a reference. It must ask for a canonical form. -/
def Reference.read (l : Located) : Result Reference := do
  let target ← orRefuse (l.attribute? "URI") .referenceWithoutUri
  let transforms ← transformsOf l
  let canonicalizer ←
    orUnsupported transforms.canonicalizer "reference without exclusive canonicalization"
  let algorithm ← algorithmOf (← child l "DigestMethod")
  let digestMethod ← orUnsupported (DigestMethod.ofUri? algorithm) algorithm
  let digest ← octetsOf (← child l "DigestValue")
  return { target, enveloped := transforms.enveloped, canonicalizer, digestMethod, digest }

/-- The only one of the references. -/
def onlyReference : List Located → Result Located
  | [] => refuse .noReference
  | [r] => .ok r
  | _ => refuse .severalReferences

/-- A signature as it stands in an element. -/
structure Enveloped where
  /-- Which of the elements inside the signed element it is. -/
  position : Nat
  /-- What is signed. -/
  info : Located
  value : Bytes
  /-- How the canonical form of `info` is written. -/
  canonicalizer : Canonicalizer
  method : Method
  reference : Reference
  deriving DecidableEq, Repr

namespace Enveloped

/-- The only one of the signatures in an element, and which of the elements it is. -/
def find (signed : Located) : Result (Nat × Located) :=
  match signed.childrenNamed uri "Signature" with
  | [] => .error (.crypto .missingSignature)
  | [s] => .ok (signed.children.findIdx (·.isNamed uri "Signature"), s)
  | _ => refuse .severalSignatures

/-- Read the signature in an element. -/
def read (signed : Located) : Result Enveloped := do
  let (position, signature) ← find signed
  let info ← child signature "SignedInfo"
  let value ← octetsOf (← child signature "SignatureValue")
  let form ← child info "CanonicalizationMethod"
  let algorithm ← algorithmOf form
  let canonicalizer ← orUnsupported (canonicalizerOf? algorithm form) algorithm
  let algorithm ← algorithmOf (← child info "SignatureMethod")
  let method ← orUnsupported (Method.ofUri? algorithm) algorithm
  let reference ← Reference.read (← onlyReference (info.childrenNamed uri "Reference"))
  return { position, info, value, canonicalizer, method, reference }

/-! ## Verifying -/

/-- The text that the reference digests. -/
def signedText (s : Enveloped) (signed : Located) : String :=
  s.reference.canonicalizer.canonicalize
    (if s.reference.enveloped then { signed with element := signed.element.erasePath [s.position] }
    else signed)

/-- The text that the signature value signs. -/
def signedInfo (s : Enveloped) : String := s.canonicalizer.canonicalize s.info

/-- Does the reference name the element and hold its digest? -/
def covers (s : Enveloped) (identifier : String) (signed : Located) : Bool :=
  let r := s.reference
  r.target == "#" ++ identifier
    && r.digestMethod.digest.hash (Utf8.encode (s.signedText signed)) == r.digest

/-- Does a key verify the signature value? -/
def verifiedBy (s : Enveloped) (k : Key) : Bool :=
  k.verify s.method (Utf8.encode s.signedInfo) s.value

end Enveloped

/-- Stop with a failure unless the condition holds. -/
def demand (condition : Bool) (failure : CryptoFailure) : Result Unit :=
  if condition then .ok () else .error (.crypto failure)

/-- The identifier of an element, which must not be empty. -/
def identifierOf (l : Located) : Result String :=
  orFail ((l.attribute? "ID").filter (· != "")) (.incomplete .id)

/-- Verify the signature that stands in an element of a document; the answer is its method. -/
def verify (document : Xml.Element) (signed : Located) (keys : List Key) : Result Method := do
  if !distinct (identifiers document) then refuse .duplicateId
  let identifier ← identifierOf signed
  let s ← Enveloped.read signed
  demand (s.covers identifier signed) .invalidSignature
  let candidates := keys.filter (·.supports s.method)
  demand (!candidates.isEmpty) .noMatchingKey
  demand (candidates.any s.verifiedBy) .invalidSignature
  return s.method

end Credential.XmlSignature
