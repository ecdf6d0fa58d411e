import Credential.Text.Blank
import Credential.Text.Pieces
import Credential.Xml.Printer

/-!
# The exclusive canonical form

Two documents may say the same and differ in their characters, so what is signed is a canonical
form. It writes a part of a document on its own: each element declares the namespaces that its names
use, where the nearest element around it that is written too does not bind them the same way
already, and no others, but for prefixes that a list asks for. Declarations stand in the order of
their prefixes and attributes in that of their namespaces and names.

A canonicalizer first turns an element into another, its canonical element, which is then written
like any other.
-/

namespace Credential.Xml

/-! ## Algorithms -/

def exclusiveCanonical : String := "http://www.w3.org/2001/10/xml-exc-c14n#"

def exclusiveCanonicalWithComments : String :=
  "http://www.w3.org/2001/10/xml-exc-c14n#WithComments"

/-- How to write the canonical form: which prefixes are declared even where no name uses them, and
whether comments stay. The empty prefix stands for the default namespace. -/
structure Canonicalizer where
  inclusive : List String
  comments : Bool
  deriving DecidableEq, Repr

/-- The prefixes in a list that white space separates; `#default` stands for the default
namespace. -/
def prefixList (s : String) : List String :=
  let words := Text.pieces ' ' (s.toList.map fun c => if Text.isAsciiBlank c then ' ' else c)
  (words.filter (!·.isEmpty)).map fun w =>
    if w = "#default".toList then "" else String.ofList w

namespace Canonicalizer

/-- The canonicalizer of an algorithm, without inclusive prefixes. -/
def ofAlgorithm? (uri : String) : Option Canonicalizer :=
  if uri = exclusiveCanonical then some ⟨[], false⟩
  else if uri = exclusiveCanonicalWithComments then some ⟨[], true⟩
  else none

def withComments (c : Canonicalizer) : Canonicalizer := { c with comments := true }

/-- The canonicalizer with the prefixes of one more list. -/
def withPrefixes (c : Canonicalizer) (list : String) : Canonicalizer :=
  { c with inclusive := c.inclusive ++ prefixList list }

/-! ## Names -/

/-- The name of an attribute in the canonical form: of the prefixes bound to its namespace the
first. -/
def attributeName (scope : Scope) (a : Attribute) : QName :=
  if a.name.nsPrefix = "xml" then a.name
  else
    match (a.uri? scope).bind scope.prefixOf? with
    | some p => ⟨p, a.name.localName, true⟩
    | none => ⟨"", a.name.localName, false⟩

/-- Is the first attribute to be written before the second, or the two the same way around? -/
def attributeLe (scope : Scope) (a b : Attribute) : Bool :=
  let x := (a.uri? scope).getD ""
  let y := (b.uri? scope).getD ""
  x < y || (x == y && a.name.localName ≤ b.name.localName)

/-- The attributes in their order and with their canonical names. -/
def attributes (scope : Scope) (as : List Attribute) : List Attribute :=
  (as.mergeSort (attributeLe scope)).map fun a => { a with name := attributeName scope a }

/-! ## Declarations -/

/-- Insert a prefix into an increasing list. -/
def insertPrefix (p : String) : List String → List String
  | [] => [p]
  | q :: rest =>
    if p < q then p :: q :: rest else if p = q then q :: rest else q :: insertPrefix p rest

/-- The prefixes to be declared inside an element, in order: those of its canonical names and those
that are asked for. -/
def visible (c : Canonicalizer) (scope : Scope) (t : Tag) : List String :=
  let ofAttributes := t.attributes.map fun a => (attributeName scope a).nsPrefix
  let used := t.name.nsPrefix :: ofAttributes.filter (· != "")
  let asked := c.inclusive.filter fun p => p == "" || scope.declares p
  (used ++ asked).foldl (fun ps p => insertPrefix p ps) []

/-- What a prefix is bound to; an undeclared default namespace is the same as an empty one. -/
def binding? (scope : Scope) (nsPrefix : String) : Option String :=
  if nsPrefix = "" then some ((scope.uri? "").getD "") else scope.uri? nsPrefix

/-- The declaration of a prefix, unless it is so bound already by what has been written. -/
def declaration? (scope rendered : Scope) (nsPrefix : String) : Option Declaration :=
  if nsPrefix = "xml" then none
  else
    match binding? scope nsPrefix with
    | none => none
    | some uri =>
      if binding? rendered nsPrefix = some uri then none else some ⟨nsPrefix, uri⟩

/-! ## Elements -/

/-- The tag of the canonical element; `scope` holds inside the element, and `rendered` is what the
elements around it declare in the canonical form. -/
def tag (c : Canonicalizer) (scope rendered : Scope) (t : Tag) : Tag where
  name := t.name
  declarations := (c.visible scope t).filterMap (declaration? scope rendered)
  attributes := attributes scope t.attributes

/-- The canonical content. -/
def content (c : Canonicalizer) (outer rendered : Scope) : Content → Content
  | .nil => .nil
  | .text t rest => .text t (c.content outer rendered rest)
  | .comment t rest =>
    if c.comments then .comment t (c.content outer rendered rest) else c.content outer rendered rest
  | .instruction target value rest => .instruction target value (c.content outer rendered rest)
  | .element t inner rest =>
    let scope := outer.enter t.declarations
    let t' := c.tag scope rendered t
    .element t' (c.content scope (rendered.enter t'.declarations) inner)
      (c.content outer rendered rest)

/-- The canonical element of an element in its place. -/
def element (c : Canonicalizer) (l : Located) : Element :=
  let t := c.tag l.scope [] l.element.tag
  ⟨t, c.content l.scope (Scope.enter [] t.declarations) l.element.inner⟩

/-- The canonical form of an element in its place. -/
def canonicalize (c : Canonicalizer) (l : Located) : String := (c.element l).written

end Canonicalizer

end Credential.Xml
