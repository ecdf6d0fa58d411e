import Credential.Xml.Tree

/-!
# Writing XML

How an element stands in a document. Declarations come before attributes, an element without content
still has a closing tag, and characters that would be read as something else are written as
references: white space in attribute values too, and carriage returns everywhere.

What is written is put in front of a `tail`, so that writing takes each character once.
-/

namespace Credential.Xml

/-! ## Characters -/

/-- A character of a text as written. -/
def textChar (c : Char) : List Char :=
  match c with
  | '&' => "&amp;".toList
  | '<' => "&lt;".toList
  | '>' => "&gt;".toList
  | '\r' => "&#xD;".toList
  | c => [c]

/-- A character of an attribute value as written. -/
def valueChar (c : Char) : List Char :=
  match c with
  | '&' => "&amp;".toList
  | '<' => "&lt;".toList
  | '"' => "&quot;".toList
  | '\t' => "&#x9;".toList
  | '\n' => "&#xA;".toList
  | '\r' => "&#xD;".toList
  | c => [c]

def writeText (t : String) (tail : List Char) : List Char := t.toList.flatMap textChar ++ tail

def writeValue (t : String) (tail : List Char) : List Char := t.toList.flatMap valueChar ++ tail

/-! ## Tags -/

/-- A space, a name and a value in quotes. -/
def writePair (name value : String) (tail : List Char) : List Char :=
  ' ' :: (name.toList ++ ('=' :: '"' :: writeValue value ('"' :: tail)))

/-- The name of the attribute that makes a declaration. -/
def Declaration.written (d : Declaration) : String :=
  if d.nsPrefix = "" then "xmlns" else "xmlns:" ++ d.nsPrefix

namespace Tag

/-- What stands between the name of a tag and its end. -/
def pairs (t : Tag) : List (String × String) :=
  t.declarations.map (fun d => (d.written, d.uri))
    ++ t.attributes.map (fun a => (a.name.written, a.value))

/-- The opening tag. -/
def writeOpening (t : Tag) (tail : List Char) : List Char :=
  '<' :: (t.name.written.toList
    ++ t.pairs.foldr (fun p rest => writePair p.1 p.2 rest) ('>' :: tail))

/-- The closing tag. -/
def writeClosing (t : Tag) (tail : List Char) : List Char :=
  '<' :: '/' :: (t.name.written.toList ++ ('>' :: tail))

end Tag

/-! ## Content -/

/-- A comment as written. -/
def writeComment (t : String) (tail : List Char) : List Char :=
  "<!--".toList ++ (t.toList ++ ("-->".toList ++ tail))

/-- A processing instruction as written. -/
def writeInstruction (target : String) (value : Option String) (tail : List Char) : List Char :=
  let value := match value with
    | some v => ' ' :: (v.toList ++ ("?>".toList ++ tail))
    | none => "?>".toList ++ tail
  '<' :: '?' :: (target.toList ++ value)

/-- Content as written. -/
def Content.write : Content → List Char → List Char
  | .nil, tail => tail
  | .text t rest, tail => writeText t (rest.write tail)
  | .comment t rest, tail => writeComment t (rest.write tail)
  | .instruction target value rest, tail => writeInstruction target value (rest.write tail)
  | .element tag inner rest, tail =>
    tag.writeOpening (inner.write (tag.writeClosing (rest.write tail)))

/-- The text that an element is written as. -/
def Element.written (e : Element) : String :=
  String.ofList (e.tag.writeOpening (e.inner.write (e.tag.writeClosing [])))

end Credential.Xml
