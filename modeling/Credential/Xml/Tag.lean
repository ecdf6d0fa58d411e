import Credential.Xml.Text
import Credential.Xml.Token

/-!
# Tags and their namespaces

An opening tag as written lists names and values. Read in its place it splits into declarations of
namespaces and attributes, and every prefix it uses must be bound there.

The prefix `xml` is bound from the start, to a namespace that no other prefix may have; it serves
attributes only. An attribute with the local name `xmlns` declares the default namespace, and of two
such the first counts.
-/

namespace Credential.Xml

/-! ## Declarations -/

/-- May a namespace be bound to a prefix? -/
def bindable (nsPrefix uri : String) : Bool :=
  uri != declarationNamespace && (nsPrefix == "xml") == (uri == xmlNamespace)

/-- The declaration that an attribute makes, if it makes one: a prefix, which is empty for the
default namespace, and what it is to be bound to. -/
def Attribute.declaration? (a : Attribute) : Option Declaration :=
  if a.name.nsPrefix = "xmlns" then some ⟨a.name.localName, a.value⟩
  else if a.name.localName = "xmlns" then some ⟨"", a.value⟩
  else none

/-- No prefix is declared twice; the default namespace may be. -/
def distinctPrefixes : Scope → Bool
  | [] => true
  | d :: rest => (d.nsPrefix == "" || !Scope.declares rest d.nsPrefix) && distinctPrefixes rest

/-! ## Attributes -/

/-- Is the prefix of the name bound? -/
def Attribute.isBound (a : Attribute) (scope : Scope) : Bool :=
  a.name.nsPrefix == "" || (a.uri? scope).isSome

/-- The name that counts when attributes are told apart. -/
def Attribute.expanded (a : Attribute) (scope : Scope) : Option String × String :=
  (a.uri? scope, a.name.localName)

/-- The expanded names are in no list twice. -/
def distinctNames : List (Option String × String) → Bool
  | [] => true
  | n :: rest => !rest.contains n && distinctNames rest

/-! ## Tags -/

/-- The attributes with what their values stand for. -/
def readAttributes? (attributes : List (QName × List Char)) : Option (List Attribute) :=
  attributes.mapM fun a => (attributeValue? a.2).map (⟨a.1, ·⟩)

namespace Tag

/-- The tag without regard to what its prefixes mean. -/
def ofAttributes (name : QName) (attributes : List Attribute) : Tag where
  name := name
  declarations := (attributes.filterMap Attribute.declaration?).filter (·.uri != xmlNamespace)
  attributes := attributes.filter (·.declaration?.isNone)

/-- May the attributes declare what they do? -/
def declaresWell (attributes : List Attribute) : Bool :=
  let ds := attributes.filterMap Attribute.declaration?
  ds.all (fun d => bindable d.nsPrefix d.uri)
    && distinctPrefixes (ds.filter (·.uri != xmlNamespace))

/-- Are all names bound, and are no two attributes the same? -/
def isResolved (t : Tag) (outer : Scope) : Bool :=
  let scope := outer.enter t.declarations
  -- the prefix of the element itself must be declared, also where it is that of XML
  (t.name.nsPrefix == "" || (scope.uri? t.name.nsPrefix).isSome)
    && t.name.nsPrefix != "xmlns"
    && t.attributes.all (·.isBound scope)
    && distinctNames (t.attributes.map (·.expanded scope))

/-- Read a tag as written in the scope of what is around it. -/
def read? (outer : Scope) (name : QName) (attributes : List (QName × List Char)) : Option Tag := do
  let as ← readAttributes? attributes
  let t := ofAttributes name as
  if declaresWell as && t.isResolved outer then some t else none

end Tag

end Credential.Xml
