/-!
# XML trees

An element is a tag with content. Names are kept as written, with a namespace prefix where there is
one, and the declarations of an element are kept apart from its attributes. What namespace a name
belongs to follows from the declarations around it: a `Located` element knows those of its
ancestors, so resolving names is a view of the tree and no part of it.

Content is one list-like type for all that can stand inside an element, so that functions on trees
recurse on the tree itself.
-/

namespace Credential.Xml

/-! ## Names -/

/-- A name with an optional namespace prefix; without one `nsPrefix` is empty. A colon without a
prefix before it counts for nothing but is kept. -/
structure QName where
  nsPrefix : String
  localName : String
  colon : Bool
  deriving DecidableEq, Repr

/-- The name as it stands in the document. -/
def QName.written (n : QName) : String :=
  if n.colon then n.nsPrefix ++ ":" ++ n.localName else n.localName

/-! ## Namespaces -/

/-- The namespace of the prefix `xml`, which is never declared. -/
def xmlNamespace : String := "http://www.w3.org/XML/1998/namespace"

/-- The namespace of declarations, which nothing may be bound to. -/
def declarationNamespace : String := "http://www.w3.org/2000/xmlns/"

/-- A prefix, or the empty one for the default namespace, and what it is bound to. -/
structure Declaration where
  nsPrefix : String
  uri : String
  deriving DecidableEq, Repr

/-- The declarations that hold at some place; of two for one prefix the first counts. -/
abbrev Scope := List Declaration

namespace Scope

/-- What a prefix is bound to. -/
def uri? (s : Scope) (nsPrefix : String) : Option String :=
  (s.find? (·.nsPrefix == nsPrefix)).map (·.uri)

/-- The first prefix that is bound to a namespace; the default namespace does not count. -/
def prefixOf? (s : Scope) (uri : String) : Option String :=
  (s.find? fun d => d.nsPrefix != "" && d.uri == uri).map (·.nsPrefix)

/-- Does the scope declare the prefix? -/
def declares (s : Scope) (nsPrefix : String) : Bool := s.any (·.nsPrefix == nsPrefix)

/-- The scope inside an element: its own declarations, and then those around it for other
prefixes. -/
def enter (outer own : Scope) : Scope := own ++ outer.filter fun d => !declares own d.nsPrefix

end Scope

/-! ## Elements -/

/-- An attribute that declares no namespace. -/
structure Attribute where
  name : QName
  value : String
  deriving DecidableEq, Repr

/-- The namespace of an attribute; one without a prefix has none. -/
def Attribute.uri? (a : Attribute) (scope : Scope) : Option String :=
  if a.name.nsPrefix = "xml" then some xmlNamespace
  else if a.name.nsPrefix = "" then none
  else scope.uri? a.name.nsPrefix

/-- The start of an element. -/
structure Tag where
  name : QName
  declarations : Scope
  attributes : List Attribute
  deriving DecidableEq, Repr

/-- What stands inside an element, in order. -/
inductive Content where
  | nil
  | text (chars : String) (rest : Content)
  | comment (chars : String) (rest : Content)
  | instruction (target : String) (value : Option String) (rest : Content)
  | element (tag : Tag) (inner : Content) (rest : Content)
  deriving DecidableEq, Repr

/-- An element. -/
structure Element where
  tag : Tag
  inner : Content
  deriving DecidableEq, Repr

namespace Content

/-- The content in reverse order in front of more content. -/
def reverseOnto : Content → Content → Content
  | .nil, acc => acc
  | .text t rest, acc => rest.reverseOnto (.text t acc)
  | .comment t rest, acc => rest.reverseOnto (.comment t acc)
  | .instruction t v rest, acc => rest.reverseOnto (.instruction t v acc)
  | .element tag inner rest, acc => rest.reverseOnto (.element tag inner acc)

/-- The content in reverse order; the content of elements stays as it is. -/
def reverse (c : Content) : Content := c.reverseOnto .nil

/-- The elements directly inside. -/
def elements : Content → List Element
  | .nil => []
  | .text _ rest | .comment _ rest | .instruction _ _ rest => rest.elements
  | .element tag inner rest => ⟨tag, inner⟩ :: rest.elements

/-- The texts directly inside. -/
def texts : Content → List String
  | .nil => []
  | .text t rest => t :: rest.texts
  | .comment _ rest | .instruction _ _ rest | .element _ _ rest => rest.texts

/-- The content without the element at a position among the elements. -/
def eraseElement : Nat → Content → Content
  | _, .nil => .nil
  | n, .text t rest => .text t (rest.eraseElement n)
  | n, .comment t rest => .comment t (rest.eraseElement n)
  | n, .instruction t v rest => .instruction t v (rest.eraseElement n)
  | 0, .element _ _ rest => rest
  | n + 1, .element tag inner rest => .element tag inner (rest.eraseElement n)

/-- The content without the element at a path: positions among elements, from the outside in. -/
def erasePath : List Nat → Content → Content
  | [], c => c
  | [n], c => c.eraseElement n
  | _ :: _ :: _, .nil => .nil
  | n :: m :: path, .text t rest => .text t (erasePath (n :: m :: path) rest)
  | n :: m :: path, .comment t rest => .comment t (erasePath (n :: m :: path) rest)
  | n :: m :: path, .instruction t v rest => .instruction t v (erasePath (n :: m :: path) rest)
  | 0 :: m :: path, .element tag inner rest => .element tag (erasePath (m :: path) inner) rest
  | (n + 1) :: m :: path, .element tag inner rest =>
    .element tag inner (erasePath (n :: m :: path) rest)

/-- All tags, in document order. -/
def tags : Content → List Tag
  | .nil => []
  | .text _ rest | .comment _ rest | .instruction _ _ rest => rest.tags
  | .element tag inner rest => tag :: (inner.tags ++ rest.tags)

end Content

namespace Element

/-- All tags, in document order. -/
def tags (e : Element) : List Tag := e.tag :: e.inner.tags

/-- The element without a part of it. -/
def erasePath (path : List Nat) (e : Element) : Element := ⟨e.tag, e.inner.erasePath path⟩

/-- The value of an attribute without a namespace. -/
def attribute? (e : Element) (name : String) : Option String :=
  (e.tag.attributes.find? fun a => a.name.nsPrefix == "" && a.name.localName == name).map (·.value)

/-- The text of the first thing inside, if that is a text. -/
def leadingText? (e : Element) : Option String :=
  match e.inner with
  | .text t _ => some t
  | _ => none

end Element

/-! ## Elements in their place -/

/-- An element together with the declarations around it. -/
structure Located where
  outer : Scope
  element : Element
  deriving DecidableEq, Repr

namespace Located

/-- An element with nothing around it. -/
def root (e : Element) : Located := ⟨[], e⟩

/-- The declarations that hold inside. -/
def scope (l : Located) : Scope := l.outer.enter l.element.tag.declarations

def localName (l : Located) : String := l.element.tag.name.localName

/-- The namespace of the element's name. -/
def uri? (l : Located) : Option String := l.scope.uri? l.element.tag.name.nsPrefix

/-- The elements directly inside. -/
def children (l : Located) : List Located := l.element.inner.elements.map (⟨l.scope, ·⟩)

/-- Is this the name of the element? -/
def isNamed (l : Located) (uri name : String) : Bool := l.uri? == some uri && l.localName == name

/-- The elements of a name directly inside. -/
def childrenNamed (l : Located) (uri name : String) : List Located :=
  l.children.filter (·.isNamed uri name)

/-- The first element of a name directly inside. -/
def childNamed? (l : Located) (uri name : String) : Option Located :=
  (l.childrenNamed uri name).head?

def attribute? (l : Located) (name : String) : Option String := l.element.attribute? name

/-- The element at a path: positions among elements, from the outside in. -/
def at? (l : Located) : List Nat → Option Located
  | [] => some l
  | n :: path =>
    match l.children[n]? with
    | some c => c.at? path
    | none => none

/-- The rest of a path that leads into what another path leads to. -/
def pathBelow? : List Nat → List Nat → Option (List Nat)
  | [], [] => none
  | [], path => some path
  | n :: outer, m :: path => if n = m then pathBelow? outer path else none
  | _ :: _, [] => none

/-- The element at a path without the element at another path, if that is a part of it. -/
def part? (l : Located) (path : List Nat) (without : Option (List Nat)) : Option Located :=
  match l.at? path with
  | none => none
  | some p =>
    match without.bind (pathBelow? path) with
    | none => some p
    | some inside => some { p with element := p.element.erasePath inside }

end Located

end Credential.Xml
