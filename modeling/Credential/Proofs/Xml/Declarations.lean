import Credential.Proofs.Xml.CanonicalView

/-!
# What the canonical form declares

Each element of the canonical form declares just what its names need where it stands
(`Canonicalizer.Renders`): a prefix in a name means what it means in the source, and a declaration is
missing where the elements written around it make it superfluous. That is so of every element that
is written, whatever part of a document is written and whatever prefixes are asked for
(`renders_at?`).

`Canonicalizer.written` is the canonical element in its place, so what is declared around it is
there to be compared with what is declared around the element in the source. Nothing relates the
two: what an element declares makes up for any difference.
-/

namespace Credential.Xml

/-! ## What is written of an element -/

/-- A prefix that stands in the name of the tag or of an attribute. A tag without one is in the
default namespace, an attribute without one is in none. -/
def Tag.Uses (t : Tag) (p : String) : Prop :=
  p = t.name.nsPrefix ∨ (∃ a ∈ t.attributes, a.name.nsPrefix = p) ∧ p ≠ ""

namespace Canonicalizer

/-- What is written of an element, as it stands in what is written around it. -/
structure Renders (c : Canonicalizer) (l w : Located) : Prop where
  name : w.element.tag.name = l.element.tag.name
  /-- The attributes keep their namespaces, their local names and their values. -/
  attributes : (w.element.tag.attributes.map fun a => (a.expanded w.scope, a.value)).Perm
    (l.element.tag.attributes.map fun a => (a.expanded l.scope, a.value))
  /-- A prefix in a name is bound to what it is bound to in the source. -/
  bound : ∀ p, w.element.tag.Uses p → p ≠ "xml" →
    ∃ u, binding? l.scope p = some u ∧ binding? w.scope p = some u
  /-- A prefix is declared if it is in a name or asked for, and not bound so already. -/
  declares_iff : ∀ p u, ⟨p, u⟩ ∈ w.element.tag.declarations ↔
    p ≠ "xml" ∧ (w.element.tag.Uses p ∨ p ∈ c.inclusive) ∧
      binding? l.scope p = some u ∧ binding? w.outer p ≠ some u
  /-- The default namespace is taken back only where there is one. -/
  undeclares : ⟨"", ""⟩ ∈ w.element.tag.declarations → ∃ u, w.outer.uri? "" = some u ∧ u ≠ ""
  pairs : w.element.tag.pairs
    = w.element.tag.declarations.map (fun d => (d.written, d.uri))
      ++ w.element.tag.attributes.map (fun a => (a.name.written, a.value))
  /-- The empty prefix comes before all others. -/
  declarationsInOrder : w.element.tag.declarations.Pairwise fun d e => d.nsPrefix < e.nsPrefix
  attributesInOrder : w.element.tag.attributes.Pairwise fun a b =>
    (a.uri? w.scope).getD "" < (b.uri? w.scope).getD ""
      ∨ (a.uri? w.scope).getD "" = (b.uri? w.scope).getD ""
        ∧ a.name.localName ≤ b.name.localName

/-- The canonical element in its place, where the elements around it declare `rendered`. -/
def written (c : Canonicalizer) (rendered : Scope) (l : Located) : Located :=
  let t := c.tag l.scope rendered l.element.tag
  ⟨rendered, t, c.content l.scope (rendered.enter t.declarations) l.element.inner⟩

theorem written_root (c : Canonicalizer) (l : Located) :
    c.written [] l = Located.root (c.element l) := rfl

variable {c : Canonicalizer} {scope rendered : Scope} {l : Located}

/-! ## Prefixes -/

theorem mem_visible {p : String} {t : Tag} :
    p ∈ c.visible scope t ↔ (c.tag scope rendered t).Uses p
      ∨ p ∈ c.inclusive ∧ (p = "" ∨ scope.declares p = true) := by
  have hmem : ∀ q, (∃ a ∈ t.attributes, (attributeName scope a).nsPrefix = q) ↔
      ∃ a ∈ (c.tag scope rendered t).attributes, a.name.nsPrefix = q := by
    intro q
    constructor
    · rintro ⟨a, ha, rfl⟩
      exact ⟨_, List.mem_map.2 ⟨a, (List.mergeSort_perm _ _).mem_iff.2 ha, rfl⟩, rfl⟩
    · rintro ⟨a, ha, rfl⟩
      obtain ⟨b, hb, rfl⟩ := List.mem_map.1 ha
      exact ⟨b, (List.mergeSort_perm _ _).mem_iff.1 hb, rfl⟩
  rw [visible, mem_foldl_insertPrefix, Tag.Uses, name_tag, ← hmem]
  simp only [List.mem_append, List.mem_cons, List.mem_filter, List.mem_map, bne_iff_ne,
    Bool.or_eq_true, beq_iff_eq, List.not_mem_nil, or_false]

theorem declaration?_eq_some_iff {p q u : String} :
    declaration? scope rendered p = some ⟨q, u⟩
      ↔ p = q ∧ p ≠ "xml" ∧ binding? scope p = some u ∧ binding? rendered p ≠ some u := by
  unfold declaration?
  by_cases hx : p = "xml"
  · simp [hx]
  · rw [if_neg hx]
    cases hu : binding? scope p with
    | none => simp
    | some v =>
      by_cases hr : binding? rendered p = some v
      · simp only [hr, if_true, Option.some.injEq, ne_eq]
        tauto
      · simp only [hr, if_false, Option.some.injEq, Declaration.mk.injEq, ne_eq, hx,
          not_false_eq_true, true_and]
        constructor
        · rintro ⟨rfl, rfl⟩
          exact ⟨rfl, rfl, hr⟩
        · rintro ⟨rfl, rfl, -⟩
          exact ⟨rfl, rfl⟩

/-- Where the name of an attribute comes from: it is kept, has a prefix that is bound to the namespace,
or has none. -/
theorem attributeName_cases (scope : Scope) (a : Attribute) :
    a.name.nsPrefix = "xml" ∧ attributeName scope a = a.name
      ∨ a.name.nsPrefix ≠ "xml" ∧ (∃ u p, a.uri? scope = some u ∧ scope.prefixOf? u = some p
          ∧ attributeName scope a = ⟨p, a.name.localName, true⟩)
      ∨ a.name.nsPrefix ≠ "xml" ∧ (∀ u ∈ a.uri? scope, scope.prefixOf? u = none)
          ∧ attributeName scope a = ⟨"", a.name.localName, false⟩ := by
  by_cases hx : a.name.nsPrefix = "xml"
  · exact Or.inl ⟨hx, by rw [attributeName, if_pos hx]⟩
  · refine Or.inr ?_
    rw [attributeName, if_neg hx]
    cases hu : a.uri? scope with
    | none => exact Or.inr ⟨hx, by simp, rfl⟩
    | some u =>
      cases hp : scope.prefixOf? u with
      | none => exact Or.inr ⟨hx, by simpa using hp, by simp [hp]⟩
      | some p => exact Or.inl ⟨hx, u, p, rfl, hp, by simp [hp]⟩

/-- An attribute keeps its namespace, though not its prefix. -/
theorem expanded_attributeName (hs : scope.WellFormed) (a : Attribute) :
    Attribute.expanded { a with name := attributeName scope a } scope = a.expanded scope := by
  have huri : Attribute.uri? { a with name := attributeName scope a } scope = a.uri? scope := by
    rcases attributeName_cases scope a with ⟨-, hname⟩ | ⟨-, u, p, hu, hp, hname⟩ | ⟨hx, hno, hname⟩
    · rw [hname]
    · obtain ⟨hne, hx, hbound⟩ := hs.uri?_of_prefixOf? hp
      rw [hname, hu, Attribute.uri?, if_neg hx, if_neg hne, hbound]
    · have hnone : a.uri? scope = none := by
        by_cases he : a.name.nsPrefix = ""
        · rw [Attribute.uri?, if_neg hx, if_pos he]
        · rw [Option.eq_none_iff_forall_ne_some]
          intro u hu
          have hbound : scope.uri? a.name.nsPrefix = some u := by
            rw [← hu, Attribute.uri?, if_neg hx, if_neg he]
          obtain ⟨q, hq⟩ := Scope.exists_prefixOf? he hbound
          rw [hno u hu] at hq
          exact absurd hq (by simp)
      rw [hname, hnone]
      rfl
  rw [Attribute.expanded, Attribute.expanded, huri, localName_attributeName]

/-- A prefix in a written name is bound in the source. -/
theorem exists_binding? {outer : Scope} {t : Tag} (hs : (outer.enter t.declarations).WellFormed)
    (hr : t.isResolved outer = true) {p : String}
    (hp : (c.tag (outer.enter t.declarations) rendered t).Uses p) (hx : p ≠ "xml") :
    ∃ u, binding? (outer.enter t.declarations) p = some u := by
  unfold binding?
  split
  · exact ⟨_, rfl⟩
  · next hne =>
    rw [Tag.isResolved, Bool.and_eq_true, Bool.and_eq_true, Bool.and_eq_true] at hr
    obtain ⟨⟨⟨hname, -⟩, -⟩, -⟩ := hr
    rcases hp with he | ⟨⟨a, ha, rfl⟩, -⟩
    · rw [name_tag] at he
      rw [← he] at hname
      exact Option.isSome_iff_exists.1 (by simpa [hne] using hname)
    · obtain ⟨b, -, rfl⟩ := List.mem_map.1 ha
      rcases attributeName_cases (outer.enter t.declarations) b with
        ⟨hxml, hname⟩ | ⟨-, u, p, -, hp, hname⟩ | ⟨-, -, hname⟩
      · exact absurd (by rw [hname, hxml]) hx
      · simp only [hname]
        exact ⟨u, (hs.uri?_of_prefixOf? hp).2.2⟩
      · exact absurd (by rw [hname]) hne

/-! ## Order -/

theorem attributeLe_iff {a b : Attribute} : attributeLe scope a b = true ↔
    (a.uri? scope).getD "" < (b.uri? scope).getD ""
      ∨ (a.uri? scope).getD "" = (b.uri? scope).getD "" ∧ a.name.localName ≤ b.name.localName := by
  simp only [attributeLe, Bool.or_eq_true, Bool.and_eq_true, decide_eq_true_eq, beq_iff_eq]

theorem attributeLe_trans (scope : Scope) (a b d : Attribute) (h₁ : attributeLe scope a b = true)
    (h₂ : attributeLe scope b d = true) : attributeLe scope a d = true := by
  rw [attributeLe_iff] at h₁ h₂ ⊢
  rcases h₁ with h₁ | ⟨h₁, hl₁⟩
  · rcases h₂ with h₂ | ⟨h₂, -⟩
    · exact Or.inl (String.lt_trans h₁ h₂)
    · exact Or.inl (h₂ ▸ h₁)
  · rcases h₂ with h₂ | ⟨h₂, hl₂⟩
    · exact Or.inl (h₁ ▸ h₂)
    · exact Or.inr ⟨h₁.trans h₂, String.le_trans hl₁ hl₂⟩

theorem attributeLe_total (scope : Scope) (a b : Attribute) :
    (attributeLe scope a b || attributeLe scope b a) = true := by
  rw [Bool.or_eq_true, attributeLe_iff, attributeLe_iff]
  by_cases hab : (a.uri? scope).getD "" < (b.uri? scope).getD ""
  · exact Or.inl (Or.inl hab)
  · by_cases hba : (b.uri? scope).getD "" < (a.uri? scope).getD ""
    · exact Or.inr (Or.inl hba)
    · have he := String.le_antisymm (String.not_lt.1 hba) (String.not_lt.1 hab)
      rcases String.le_total a.name.localName b.name.localName with hl | hl
      · exact Or.inl (Or.inr ⟨he, hl⟩)
      · exact Or.inr (Or.inr ⟨he.symm, hl⟩)

/-- Attributes stand in the order of the namespaces they have in the source. -/
theorem pairwise_attributes (hs : scope.WellFormed) (as : List Attribute) :
    (attributes scope as).Pairwise fun a b => attributeLe scope a b = true := by
  have hsorted := List.pairwise_mergeSort (attributeLe_trans scope) (attributeLe_total scope) as
  rw [attributes, List.pairwise_map]
  refine hsorted.imp fun {a b} hle => ?_
  have ha := expanded_attributeName hs a
  have hb := expanded_attributeName hs b
  rw [Attribute.expanded, Attribute.expanded, Prod.mk.injEq] at ha hb
  rw [attributeLe_iff] at hle ⊢
  rw [ha.1, hb.1, ha.2, hb.2]
  exact hle

/-! ## Elements -/

theorem perm_attributes (hs : scope.WellFormed) (as : List Attribute) :
    ((attributes scope as).map fun a => (a.expanded scope, a.value)).Perm
      (as.map fun a => (a.expanded scope, a.value)) := by
  have hmap : (attributes scope as).map (fun a => (a.expanded scope, a.value))
      = (as.mergeSort (attributeLe scope)).map fun a => (a.expanded scope, a.value) := by
    rw [attributes, List.map_map]
    refine List.map_congr_left fun a _ => ?_
    exact congrArg (·, a.value) (expanded_attributeName hs a)
  rw [hmap]
  exact (List.mergeSort_perm as _).map _

/-- The element is written so whatever is declared around it. -/
theorem renders_written (h : l.WellFormed) (rendered : Scope) :
    c.Renders l (c.written rendered l) := by
  have hbound : ∀ p, (c.tag l.scope rendered l.element.tag).Uses p → p ≠ "xml" →
      ∃ u, binding? l.scope p = some u ∧ binding? (c.written rendered l).scope p = some u := by
    intro p hp hx
    obtain ⟨u, hu⟩ := exists_binding? h.scope h.element.resolved hp hx
    exact ⟨u, hu, binding?_enter (mem_visible.2 (Or.inl hp)) hx hu⟩
  -- so an attribute has the same namespace in both
  have huri : ∀ a ∈ attributes l.scope l.element.tag.attributes,
      a.uri? (c.written rendered l).scope = a.uri? l.scope := by
    intro a ha
    unfold Attribute.uri?
    split
    · rfl
    · next hx =>
      split
      · rfl
      · next hne =>
        obtain ⟨u, hl, hw⟩ := hbound a.name.nsPrefix (Or.inr ⟨⟨a, ha, rfl⟩, hne⟩) hx
        rw [binding?, if_neg hne] at hl hw
        rw [hl, hw]
  have hdeclares : ∀ p u, ⟨p, u⟩ ∈ (c.tag l.scope rendered l.element.tag).declarations ↔
      p ≠ "xml" ∧ ((c.tag l.scope rendered l.element.tag).Uses p ∨ p ∈ c.inclusive) ∧
        binding? l.scope p = some u ∧ binding? rendered p ≠ some u := by
    intro p u
    constructor
    · intro hmem
      obtain ⟨q, hq, hd⟩ := List.mem_filterMap.1 hmem
      obtain ⟨rfl, hx, hu, hr⟩ := declaration?_eq_some_iff.1 hd
      exact ⟨hx, (mem_visible.1 hq).imp_right And.left, hu, hr⟩
    · rintro ⟨hx, hp, hu, hr⟩
      refine List.mem_filterMap.2 ⟨p, mem_visible.2 (hp.imp_right fun hp => ⟨hp, ?_⟩),
        declaration?_eq_some_iff.2 ⟨rfl, hx, hu, hr⟩⟩
      by_cases he : p = ""
      · exact Or.inl he
      · rw [binding?, if_neg he] at hu
        exact Or.inr (Scope.declares_iff.2 ⟨_, Scope.mem_of_uri? hu, rfl⟩)
  refine ⟨rfl, ?_, hbound, hdeclares, fun hmem => ?_, rfl,
    pairwise_declarations c l.scope rendered l.element.tag, ?_⟩
  · have hmap : (attributes l.scope l.element.tag.attributes).map
          (fun a => (a.expanded (c.written rendered l).scope, a.value))
        = (attributes l.scope l.element.tag.attributes).map
          fun a => (a.expanded l.scope, a.value) := by
      refine List.map_congr_left fun a ha => ?_
      rw [Attribute.expanded, Attribute.expanded, huri a ha]
    exact hmap ▸ perm_attributes h.scope l.element.tag.attributes
  · obtain ⟨-, -, -, hne⟩ := (hdeclares "" "").1 hmem
    cases hu : rendered.uri? "" with
    | none => exact absurd (by rw [binding?, if_pos rfl, hu]; rfl) hne
    | some u =>
      refine ⟨u, hu, fun he => hne ?_⟩
      rw [binding?, if_pos rfl, hu, he]
      rfl
  · refine List.Pairwise.imp_of_mem ?_ (pairwise_attributes h.scope l.element.tag.attributes)
    intro a b ha hb hle
    rw [huri a ha, huri b hb]
    exact attributeLe_iff.1 hle

/-! ## All that is written -/

theorem map_elements_content (outer rendered : Scope) (x : Content) :
    (c.content outer rendered x).elements.map (fun e => (⟨rendered, e⟩ : Located))
      = x.elements.map fun e => c.written rendered ⟨outer, e⟩ := by
  induction x with
  | nil => rfl
  | text t rest ih => exact ih
  | comment t rest ih =>
    unfold content
    split
    · exact ih
    · exact ih
  | instruction target value rest ih => exact ih
  | element tag inner rest _ ih => exact congrArg (_ :: ·) ih

/-- What is written of the elements directly inside stands directly inside what is written. -/
theorem children_written (rendered : Scope) (l : Located) :
    (c.written rendered l).children = l.children.map (c.written (c.written rendered l).scope) := by
  have h := map_elements_content (c := c) l.scope (c.written rendered l).scope l.element.inner
  rw [Located.children, Located.children, List.map_map]
  exact h

/-- What is written of an element is written of its parts, each inside what is written around it. -/
theorem rel_at?_written (h : l.WellFormed) (rendered : Scope) (path : List Nat) :
    Option.Rel c.Renders (l.at? path) ((c.written rendered l).at? path) := by
  induction path generalizing l rendered with
  | nil => exact .some (renders_written h rendered)
  | cons n path ih =>
    rw [Located.at?, Located.at?, children_written, List.getElem?_map]
    cases hc : l.children[n]? with
    | none => exact .none
    | some child => exact ih (h.child (List.mem_of_getElem? hc)) _

/-- **The canonical form of any part of a document declares what its names need and what is asked
for, and nothing else**: an element is written at every path at which the part has one, and what is
written of it is as `Renders` says. -/
theorem canonicalize_renders {xml : String} {d : Document} (h : Document.read? xml = some d)
    {path : List Nat} {without : Option (List Nat)} {apex : Located}
    (hp : (Located.root d.root).part? path without = some apex) (c : Canonicalizer) :
    c.canonicalize apex = (c.element apex).written ∧
      ∀ inside : List Nat, Option.Rel c.Renders (apex.at? inside)
        ((Located.root (c.element apex)).at? inside) := by
  refine ⟨rfl, fun inside => ?_⟩
  have hapex : apex.WellFormed := (Located.wellFormed_root h).part? hp
  rw [← written_root]
  exact rel_at?_written hapex [] inside

/-- An element in a default namespace with one inside that takes it back. -/
def undeclaring : Element :=
  ⟨⟨⟨"", "a", false⟩, [⟨"", "urn:d"⟩, ⟨"q", "urn:q"⟩], []⟩,
    .element ⟨⟨"", "b", false⟩, [⟨"", ""⟩], [⟨⟨"q", "x", true⟩, "1"⟩]⟩ .nil .nil⟩

theorem canonicalize_renders_undeclaring :
    let c := (Canonicalizer.mk [] false).withPrefixes "q #default"
    c.canonicalize (.root undeclaring)
        = "<a xmlns=\"urn:d\" xmlns:q=\"urn:q\"><b xmlns=\"\" q:x=\"1\"></b></a>"
      ∧ ∀ inside : List Nat, Option.Rel c.Renders ((Located.root undeclaring).at? inside)
        ((Located.root (c.element (.root undeclaring))).at? inside) := by
  have hd : Document.read? "<a xmlns='urn:d' xmlns:q='urn:q'><b xmlns='' q:x='1'/></a>"
      = some ⟨.nil, undeclaring, .nil⟩ := by decide +kernel
  have hp : (Located.root undeclaring).part? [] none = some (.root undeclaring) := by decide
  exact ⟨by decide +kernel, (canonicalize_renders hd hp _).2⟩

end Canonicalizer

end Credential.Xml
