import Credential.Identifier
import Credential.Text.Blank
import Credential.Time.Rfc3339
import Credential.Xml.Document

/-!
# Assertions

What an assertion says about its subject, and for whom and how long. Reading takes the parts in a
fixed order, and the first that is missing or unreadable is reported; it establishes nothing about
who made the assertion.

Only the confirmation of the subject as a bearer counts. Its recipient is one more audience, and its
times hold where the conditions give none.
-/

namespace Credential.Saml

open Xml (Located)

/-- The namespace of assertions. -/
def uri : String := "urn:oasis:names:tc:SAML:2.0:assertion"

/-- The method of confirming a subject by what it bears. -/
def bearerMethod : String := "urn:oasis:names:tc:SAML:2.0:cm:bearer"

/-! ## Parts of an assertion -/

/-- The name of the subject. -/
structure NameId where
  value : String
  format : Option String
  deriving DecidableEq

/-- What the bearer confirmation asks for. -/
structure Confirmation where
  notBefore : Option Instant
  notOnOrAfter : Option Instant
  recipient : Option String
  inResponseTo : Option String
  address : Option String
  deriving DecidableEq

/-- A confirmation that asks for nothing. -/
def Confirmation.empty : Confirmation := ⟨none, none, none, none, none⟩

/-- How and when the subject was authenticated. -/
structure AuthnStatement where
  instant : Instant
  sessionIndex : Option String
  classRef : Option String
  deriving DecidableEq

/-- Attributes with their values, by increasing name. -/
abbrev Attributes := List (String × List String)

/-- An assertion. -/
structure Assertion where
  id : JwtId
  issueInstant : Instant
  issuer : Issuer
  subject : NameId
  confirmation : Confirmation
  audiences : List Audience
  notBefore : Option Instant
  expiration : Option Instant
  authn : Option AuthnStatement
  attributes : Attributes
  deriving DecidableEq

namespace Attributes

/-- Add values to an attribute. -/
def add (name : String) (values : List String) : Attributes → Attributes
  | [] => [(name, values)]
  | a :: rest =>
    if name < a.1 then (name, values) :: a :: rest
    else if name = a.1 then (a.1, a.2 ++ values) :: rest
    else a :: add name values rest

/-- The values of an attribute. -/
def get? (as : Attributes) (name : String) : Option (List String) :=
  (as.find? (·.1 == name)).map (·.2)

end Attributes

/-! ## Reading -/

/-- The texts directly inside an element, without the white space at both ends. -/
def textOf (l : Located) : String := Text.trim (String.join l.element.inner.texts)

def child? (l : Located) (name : String) : Option Located := l.childNamed? uri name

def children (l : Located) (name : String) : List Located := l.childrenNamed uri name

/-- A part that must be there. -/
def orIncomplete {α : Type} (value : Option α) (part : AssertionPart) : Result α :=
  orFail value (.incomplete part)

/-- The instant that an attribute value writes. -/
def instantOf (written : String) : Result Instant :=
  orRefuse (Rfc3339.instant? (Text.trim written)) (.instant written)

/-- The instant of an attribute that need not be there. -/
def instantOf? (l : Located) (name : String) : Result (Option Instant) :=
  match l.attribute? name with
  | some written => (instantOf written).map some
  | none => .ok none

/-- The name of the subject; it must not be empty. -/
def nameIdOf? (subject : Located) : Option NameId :=
  match child? subject "NameID" with
  | none => none
  | some l => if textOf l = "" then none else some ⟨textOf l, l.attribute? "Format"⟩

/-- The bearer confirmation among those of the subject. -/
def bearerOf (subject : Located) : Result Located :=
  match children subject "SubjectConfirmation" with
  | [] => .error (.incomplete .subjectConfirmation)
  | confirmations =>
    match confirmations.find? (·.attribute? "Method" == some bearerMethod) with
    | some l => .ok l
    | none => .error (.claim .noBearerConfirmation)

/-- What a confirmation asks for. -/
def confirmationOf (bearer : Located) : Result Confirmation :=
  match child? bearer "SubjectConfirmationData" with
  | none => .ok .empty
  | some l => do
    let notBefore ← instantOf? l "NotBefore"
    let notOnOrAfter ← instantOf? l "NotOnOrAfter"
    return { notBefore, notOnOrAfter, recipient := l.attribute? "Recipient",
             inResponseTo := l.attribute? "InResponseTo", address := l.attribute? "Address" }

/-- The audiences that texts name, each once; empty texts name none. -/
def audiencesOf (names : List String) : List Audience :=
  (names.filterMap fun n => (Identifier.ofString .audience n).toOption).foldl
    (fun as a => if as.contains a then as else as ++ [a]) []

/-- The names of the audiences that conditions allow. -/
def restrictionsOf (conditions : Located) : List String :=
  ((children conditions "AudienceRestriction").flatMap (children · "Audience")).map textOf

/-- A statement of authentication. -/
def authnOf (l : Located) : Result AuthnStatement := do
  let instant ← instantOf (← orRefuse (l.attribute? "AuthnInstant") .statementWithoutInstant)
  let classRef := (child? l "AuthnContext").bind (child? · "AuthnContextClassRef")
  return { instant, sessionIndex := l.attribute? "SessionIndex", classRef := classRef.map textOf }

/-- The statement of authentication, if there is one. -/
def authnOf? (assertion : Located) : Result (Option AuthnStatement) :=
  match child? assertion "AuthnStatement" with
  | some l => (authnOf l).map some
  | none => .ok none

/-- Add the values of an attribute. -/
def addAttribute (as : Attributes) (l : Located) : Result Attributes := do
  let name ← orRefuse (l.attribute? "Name") .attributeWithoutName
  return as.add name ((children l "AttributeValue").map textOf)

/-- The attributes of all statements. -/
def attributesOf (assertion : Located) : Result Attributes :=
  let statements := children assertion "AttributeStatement"
  (statements.flatMap (children · "Attribute")).foldlM addAttribute []

namespace Assertion

/-- Read an assertion from its element. -/
def ofElement (l : Located) : Result Assertion := do
  let id ← orIncomplete
    ((l.attribute? "ID").bind fun s => (Identifier.ofString .jwtId s).toOption) .id
  let issueInstant ← instantOf (← orIncomplete (l.attribute? "IssueInstant") .issueInstant)
  let issuer ← orIncomplete
    ((child? l "Issuer").bind fun c => (Identifier.ofString .issuer (textOf c)).toOption) .issuer
  let about ← orIncomplete (child? l "Subject") .subject
  let subject ← orIncomplete (nameIdOf? about) .subject
  let confirmation ← confirmationOf (← bearerOf about)
  let conditions ← orIncomplete (child? l "Conditions") .conditions
  let audiences := audiencesOf (restrictionsOf conditions ++ confirmation.recipient.toList)
  let notBefore := (← instantOf? conditions "NotBefore") <|> confirmation.notBefore
  let expiration := (← instantOf? conditions "NotOnOrAfter") <|> confirmation.notOnOrAfter
  let authn ← authnOf? l
  let attributes ← attributesOf l
  return { id, issueInstant, issuer, subject, confirmation, audiences, notBefore, expiration, authn,
           attributes }

/-! ## Documents -/

/-- The size that documents with assertions may have, in octets. -/
def maxOctets : Nat := 256 * 1024

/-- The number of nodes that documents with assertions may have. -/
def maxNodes : Nat := 10000

/-- Read a document of limited size. -/
def readDocument (xml : String) : Result Xml.Document :=
  if maxOctets < xml.utf8ByteSize then refuse (.assertionTooLarge maxOctets)
  else orRefuse ((Xml.Document.read? xml).filter (·.nodeCount ≤ maxNodes)) .xml

/-- The root of a document, which must be that of an assertion. -/
def rootOf (d : Xml.Document) : Result Located :=
  let l := Located.root d.root
  if l.isNamed uri "Assertion" then .ok l else refuse (.notAssertion l.localName)

/-- Read the assertion that a document is. -/
def parse (xml : String) : Result Assertion := do ofElement (← rootOf (← readDocument xml))

end Assertion

end Credential.Saml
