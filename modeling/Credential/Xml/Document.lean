import Credential.Xml.Tag

/-!
# Documents

A document is one element, with comments, processing instructions and white space before and after
it. It may start with a byte order mark and a declaration, which say nothing about its content.

`readElement` goes through the lexemes once, with a stack of the elements that are still open. What
has been read inside an element stands in reverse until its closing tag comes.

## Termination

Reading follows the list of lexemes.
-/

namespace Credential.Xml

/-! ## Content -/

/-- An element whose closing tag is still to come. -/
structure Frame where
  tag : Tag
  /-- The declarations that hold inside the element. -/
  scope : Scope
  /-- What has been read inside, in reverse. -/
  content : Content

namespace Frame

/-- The frame of an element that starts in a scope. -/
def enter (outer : Scope) (tag : Tag) : Frame := ⟨tag, outer.enter tag.declarations, .nil⟩

/-- The element, at its closing tag. -/
def element (f : Frame) : Element := ⟨f.tag, f.content.reverse⟩

/-- Text continues a text right before it. -/
def addText (f : Frame) (t : String) : Frame :=
  match f.content with
  | .text before rest => { f with content := .text (before ++ t) rest }
  | c => { f with content := .text t c }

def addComment (f : Frame) (t : String) : Frame := { f with content := .comment t f.content }

def addInstruction (f : Frame) (target : String) (value : Option String) : Frame :=
  { f with content := .instruction target value f.content }

def addElement (f : Frame) (e : Element) : Frame :=
  { f with content := .element e.tag e.inner f.content }

/-- Does a closing tag of this name close the element? -/
def closedBy (f : Frame) (name : QName) : Bool :=
  f.tag.name.nsPrefix == name.nsPrefix && f.tag.name.localName == name.localName

end Frame

/-- The value of a processing instruction, if there is one. -/
def instructionValue? (value : List Char) : Option String :=
  if value.isEmpty then none else some (String.ofList value)

/-- Read the element of the frame to its closing tag, and then the elements of the stack, which it
stands in, to theirs. The answer is the outermost one and the lexemes that follow it. -/
def readElement (f : Frame) (stack : List Frame) : List Token → Option (Element × List Token)
  | [] => none
  | .text cs :: ts =>
    match characterData? cs with
    | none => none
    | some t => readElement (f.addText t) stack ts
  | .literal cs :: ts => readElement (f.addText (literalData cs)) stack ts
  | .comment cs :: ts => readElement (f.addComment (String.ofList cs)) stack ts
  | .instruction target value :: ts =>
    readElement (f.addInstruction (String.ofList target) (instructionValue? value)) stack ts
  | .openTag name attributes empty :: ts =>
    match Tag.read? f.scope name attributes with
    | none => none
    | some tag =>
      if empty then readElement (f.addElement ⟨tag, .nil⟩) stack ts
      else readElement (.enter f.scope tag) (f :: stack) ts
  | .closeTag name :: ts =>
    if f.closedBy name then
      match stack with
      | [] => some (f.element, ts)
      | parent :: stack => readElement (parent.addElement f.element) stack ts
    else none

/-- The element that a tag starts, and the lexemes that follow it. -/
def readRoot (name : QName) (attributes : List (QName × List Char)) (empty : Bool)
    (ts : List Token) : Option (Element × List Token) :=
  match Tag.read? [] name attributes with
  | none => none
  | some tag => if empty then some (⟨tag, .nil⟩, ts) else readElement (.enter [] tag) [] ts

/-! ## Around the element -/

/-- What stands around the element of a document up to the first lexeme that may not. -/
def readAround : List Token → Content × List Token
  | .comment cs :: ts =>
    let r := readAround ts
    (.comment (String.ofList cs) r.1, r.2)
  | .instruction target value :: ts =>
    let r := readAround ts
    (.instruction (String.ofList target) (instructionValue? value) r.1, r.2)
  | .text cs :: ts => if cs.all isSpace then readAround ts else (.nil, .text cs :: ts)
  | ts => (.nil, ts)

/-- A document. -/
structure Document where
  before : Content
  root : Element
  after : Content
  deriving DecidableEq, Repr

/-- The number of texts, comments, instructions and elements. -/
def Content.nodeCount : Content → Nat
  | .nil => 0
  | .text _ rest | .comment _ rest | .instruction _ _ rest => rest.nodeCount + 1
  | .element _ inner rest => inner.nodeCount + rest.nodeCount + 1

/-- The spaces that separate the parts of a declaration, unless it ends here. -/
def declarationSpaces? (cs : List Char) : Option (List Char) :=
  match cs with
  | [] => some []
  | c :: _ => if isSpace c || "?>".toList.isPrefixOf cs then some (Token.skipSpaces cs) else none

/-- A part of a declaration whose name begins as given, and the spaces after it. -/
def declarationPart? (name : String) (cs : List Char) : Option (List Char) :=
  if name.toList.isPrefixOf cs then (Token.attribute? cs).bind fun r => declarationSpaces? r.2
  else none

/-- A part that need not be there. -/
def declarationOption? (name : String) (cs : List Char) : Option (List Char) :=
  if name.toList.isPrefixOf cs then declarationPart? name cs else some cs

/-- What follows a declaration, from after its name on. The version must be there, the encoding and
whether the document stands alone need not. -/
def afterDeclaration? (cs : List Char) : Option (List Char) := do
  let cs ← declarationPart? "version" (Token.skipSpaces cs)
  let cs ← declarationOption? "encoding" cs
  let cs ← declarationOption? "standalone" cs
  if "?>".toList.isPrefixOf cs then some (cs.drop 2) else none

/-- The characters of a document without what it may start with. -/
def afterStart? (cs : List Char) : Option (List Char) :=
  let cs := match cs with
    | '\uFEFF' :: rest => rest
    | cs => cs
  if "<?xml ".toList.isPrefixOf cs then afterDeclaration? (cs.drop 5) else some cs

namespace Document

/-- The number of nodes: what the document holds, and the document itself. -/
def nodeCount (d : Document) : Nat :=
  d.before.nodeCount + d.root.inner.nodeCount + d.after.nodeCount + 2

/-- The document that lexemes make up. -/
def ofTokens? (ts : List Token) : Option Document :=
  let (before, ts) := readAround ts
  match ts with
  | .openTag name attributes empty :: ts =>
    match readRoot name attributes empty ts with
    | none => none
    | some (root, ts) =>
      match readAround ts with
      | (after, []) => some ⟨before, root, after⟩
      | _ => none
  | _ => none

/-- Read a document. -/
def read? (text : String) : Option Document := do
  let cs ← afterStart? text.toList
  let ts ← Token.scan cs
  ofTokens? ts

end Document

end Credential.Xml
