import Credential.Proofs.Xml.Written

/-!
# What is seen of an element

A reader that looks elements up by namespace and name, takes attributes without a namespace and the
text directly inside sees no prefixes, no declarations, no comments and no instructions, and it does
not see how text is divided. `Located.view` is what it sees, all the way down.

Such a reader is a function that `view` factors (`map_childrenNamed`, `isNamed_view`).
-/

namespace Credential.Xml

/-- An element without what a reader does not look at. An unbound name has the empty namespace. -/
structure View where
  uri : String
  localName : String
  /-- The values of attributes without a namespace. -/
  attribute? : String → Option String
  /-- The texts directly inside, together. -/
  text : String
  children : List View

/-- Is this the name of the element? -/
def View.isNamed (v : View) (uri name : String) : Bool := v.uri == uri && v.localName == name

/-- The views of the elements directly inside. -/
def Content.views (outer : Scope) : Content → List View
  | .nil => []
  | .text _ rest | .comment _ rest | .instruction _ _ rest => rest.views outer
  | .element tag inner rest =>
    let scope := outer.enter tag.declarations
    { uri := (scope.uri? tag.name.nsPrefix).getD ""
      localName := tag.name.localName
      attribute? := Element.attribute? ⟨tag, inner⟩
      text := String.join inner.texts
      children := inner.views scope } :: rest.views outer

namespace Located

/-- What is seen of the element. -/
def view (l : Located) : View where
  uri := l.uri?.getD ""
  localName := l.localName
  attribute? := l.attribute?
  text := String.join l.element.inner.texts
  children := l.element.inner.views l.scope

theorem map_view_elements (outer : Scope) (c : Content) :
    c.elements.map (fun e => view ⟨outer, e⟩) = c.views outer := by
  induction c with
  | nil => rfl
  | text t rest ih => exact ih
  | comment t rest ih => exact ih
  | instruction target value rest ih => exact ih
  | element tag inner rest _ ih =>
    rw [Content.elements, List.map_cons, ih]
    rfl

theorem map_view_children (l : Located) : l.children.map view = l.view.children := by
  rw [children, List.map_map]
  exact map_view_elements l.scope l.element.inner

/-- Names are seen, unless the namespace asked for is the empty one. -/
theorem isNamed_view {uri : String} (hu : uri ≠ "") (l : Located) (name : String) :
    l.view.isNamed uri name = l.isNamed uri name := by
  have huri : (l.uri?.getD "" == uri) = (l.uri? == some uri) := by
    cases hl : l.uri? with
    | none =>
      show ("" == uri) = false
      exact beq_eq_false_iff_ne.2 (Ne.symm hu)
    | some u => rfl
  rw [View.isNamed, isNamed, ← huri]
  rfl

theorem map_childrenNamed {uri : String} (hu : uri ≠ "") (l : Located) (name : String) :
    (l.childrenNamed uri name).map view = l.view.children.filter (·.isNamed uri name) := by
  rw [← map_view_children, List.filter_map, childrenNamed]
  congr 1
  exact List.filter_congr fun c _ => (isNamed_view hu c name).symm

end Located

/-! ## Text side by side -/

namespace Content

theorem views_prependText (outer : Scope) (t : String) (c : Content) :
    (c.prependText t).views outer = c.views outer :=
  apply_prependText (views outer) (fun _ _ => rfl) t c

theorem join_texts_prependText (t : String) (c : Content) :
    String.join (c.prependText t).texts = t ++ String.join c.texts := by
  unfold prependText
  split
  · next ht => rw [ht, String.empty_append]
  · split
    · next u rest =>
      show String.join ((t ++ u) :: rest.texts) = t ++ String.join (u :: rest.texts)
      rw [String.join_cons, String.join_cons, String.append_assoc]
    · exact String.join_cons

theorem join_texts_merged (c : Content) : String.join c.merged.texts = String.join c.texts := by
  induction c with
  | nil => rfl
  | text t rest ih =>
    rw [merged, join_texts_prependText, ih]
    exact (String.join_cons).symm
  | comment t rest ih => exact ih
  | instruction target value rest ih => exact ih
  | element tag inner rest _ ih => exact ih

theorem views_merged (outer : Scope) (c : Content) : c.merged.views outer = c.views outer := by
  induction c generalizing outer with
  | nil => rfl
  | text t rest ih =>
    rw [merged, views_prependText, ih]
    rfl
  | comment t rest ih => exact ih outer
  | instruction target value rest ih => exact ih outer
  | element tag inner rest ih ih' =>
    simp only [merged, views, ih, ih', join_texts_merged]
    rfl

end Content

/-- **How text is divided is not seen.** -/
theorem Located.view_merged (outer : Scope) (e : Element) :
    view ⟨outer, e.merged⟩ = view ⟨outer, e⟩ := by
  have hviews := Content.views_merged (outer.enter e.tag.declarations) e.inner
  have htext := Content.join_texts_merged e.inner
  simp only [view, Element.merged, htext]
  congr 1

end Credential.Xml
