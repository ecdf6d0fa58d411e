import Credential.Proofs.Xml.Scope
import Credential.Proofs.Xml.View
import Credential.Xml.Canonical
import Mathlib.Data.List.Find
import Mathlib.Data.List.Nodup

/-!
# The canonical form keeps what is seen

Whatever a canonicalizer is asked for, the canonical element looks like the element itself
(`view_element`), and it can be written so that it is read back (`lexical_content`). So elements
with the same canonical form look the same (`view_eq_of_canonicalize_eq`).

No invariant relates the declarations of the source to those of the canonical element. A name has
the same namespace in both because its own prefix is bound on the spot, if the elements around it
did not bind it so.
-/

namespace Credential.Xml

namespace Canonicalizer

variable {c : Canonicalizer} {scope rendered outer : Scope}

/-! ## Declarations -/

theorem mem_insertPrefix {p q : String} {ps : List String} :
    q ∈ insertPrefix p ps ↔ q = p ∨ q ∈ ps := by
  induction ps with
  | nil => rw [insertPrefix, List.mem_cons]
  | cons r rest ih =>
    unfold insertPrefix
    split
    · rw [List.mem_cons]
    · split
      · next he =>
        rw [he, List.mem_cons]
        tauto
      · rw [List.mem_cons, ih, List.mem_cons]
        tauto

theorem mem_foldl_insertPrefix {q : String} {ps acc : List String} :
    q ∈ ps.foldl (fun ps p => insertPrefix p ps) acc ↔ q ∈ ps ∨ q ∈ acc := by
  induction ps generalizing acc with
  | nil => simp
  | cons p ps ih =>
    rw [List.foldl_cons, ih, mem_insertPrefix, List.mem_cons]
    tauto

theorem pairwise_insertPrefix (p : String) {ps : List String} (h : ps.Pairwise (· < ·)) :
    (insertPrefix p ps).Pairwise (· < ·) := by
  induction ps with
  | nil => exact List.pairwise_singleton _ p
  | cons q rest ih =>
    obtain ⟨hq, hrest⟩ := List.pairwise_cons.1 h
    unfold insertPrefix
    split
    · next hlt =>
      refine List.pairwise_cons.2 ⟨List.forall_mem_cons.2 ⟨hlt, fun r hr => ?_⟩, h⟩
      exact String.lt_trans hlt (hq r hr)
    · next hnlt =>
      split
      · exact h
      · next hne =>
        refine List.pairwise_cons.2 ⟨fun r hr => ?_, ih hrest⟩
        rcases mem_insertPrefix.1 hr with rfl | hr
        · exact Std.lt_of_le_of_ne (String.not_lt.1 hnlt) (Ne.symm hne)
        · exact hq r hr

/-- The prefixes to be declared are in order. -/
theorem pairwise_visible (c : Canonicalizer) (scope : Scope) (t : Tag) :
    (c.visible scope t).Pairwise (· < ·) := by
  have key : ∀ ps acc : List String, acc.Pairwise (· < ·) →
      (ps.foldl (fun ps p => insertPrefix p ps) acc).Pairwise (· < ·) := by
    intro ps
    induction ps with
    | nil => exact fun acc h => h
    | cons p ps ih => exact fun acc h => ih _ (pairwise_insertPrefix p h)
  exact key _ [] List.Pairwise.nil

/-- The prefix of the element is to be declared. -/
theorem name_mem_visible (t : Tag) : t.name.nsPrefix ∈ c.visible scope t := by
  rw [visible, mem_foldl_insertPrefix]
  exact Or.inl List.mem_cons_self

theorem declaration?_eq_some {p : String} {d : Declaration}
    (h : declaration? scope rendered p = some d) :
    p ≠ "xml" ∧ d.nsPrefix = p ∧ binding? scope p = some d.uri := by
  unfold declaration? at h
  split at h
  · exact absurd h (by simp)
  · next hx =>
    split at h
    · exact absurd h (by simp)
    · next u hu =>
      split at h
      · exact absurd h (by simp)
      · obtain rfl := Option.some.inj h
        exact ⟨hx, rfl, hu⟩

/-- The declarations of a canonical element stand in the order of their prefixes. -/
theorem pairwise_declarations (c : Canonicalizer) (scope rendered : Scope) (t : Tag) :
    (c.tag scope rendered t).declarations.Pairwise fun d e => d.nsPrefix < e.nsPrefix := by
  refine (pairwise_visible c scope t).filterMap _ fun p q hlt d hd e he => ?_
  obtain ⟨-, rfl, -⟩ := declaration?_eq_some hd
  obtain ⟨-, rfl, -⟩ := declaration?_eq_some he
  exact hlt

theorem getD_uri?_of_binding? {s : Scope} {p u : String} (h : binding? s p = some u) :
    (s.uri? p).getD "" = u := by
  unfold binding? at h
  split at h
  · next he =>
    rw [he]
    exact Option.some.inj h
  · rw [h]
    rfl

theorem binding?_congr {s s' : Scope} {p : String} (h : s.uri? p = s'.uri? p) :
    binding? s p = binding? s' p := by
  unfold binding?
  split
  · next he =>
    subst he
    rw [h]
  · exact h

theorem binding?_of_uri? {s : Scope} {p u : String} (h : s.uri? p = some u) :
    binding? s p = some u := by
  unfold binding?
  split
  · next he =>
    subst he
    rw [h]
    rfl
  · exact h

/-- **A prefix that is to be declared is bound the same way in the canonical element**, whatever has
been written around it. -/
theorem binding?_enter {ps : List String} {p u : String} (hp : p ∈ ps) (hx : p ≠ "xml")
    (hu : binding? scope p = some u) :
    binding? (rendered.enter (ps.filterMap (declaration? scope rendered))) p = some u := by
  have hdeclared : ∀ d ∈ ps.filterMap (declaration? scope rendered), d.nsPrefix = p →
      declaration? scope rendered p = some d := by
    intro d hd he
    obtain ⟨q, -, hq⟩ := List.mem_filterMap.1 hd
    obtain ⟨-, hdq, -⟩ := declaration?_eq_some hq
    rw [← he, hdq, hq]
  by_cases hr : binding? rendered p = some u
  · have hnone : declaration? scope rendered p = none := by
      simp only [declaration?, hx, hu, hr, if_false, if_true]
    have hnot : Scope.declares (ps.filterMap (declaration? scope rendered)) p = false := by
      rw [Bool.eq_false_iff]
      intro hd
      obtain ⟨d, hd, he⟩ := Scope.declares_iff.1 hd
      rw [hdeclared d hd he] at hnone
      exact absurd hnone (by simp)
    rw [binding?_congr (Scope.uri?_enter_outer hnot), hr]
  · have hsome : declaration? scope rendered p = some ⟨p, u⟩ := by
      simp only [declaration?, hx, hu, hr, if_false]
    have hmem : (⟨p, u⟩ : Declaration) ∈ ps.filterMap (declaration? scope rendered) :=
      List.mem_filterMap.2 ⟨p, hp, hsome⟩
    obtain ⟨v, hv⟩ := Scope.exists_uri? hmem
    have he := hdeclared _ (Scope.mem_of_uri? hv) rfl
    rw [hsome, Option.some.injEq, Declaration.mk.injEq] at he
    obtain ⟨-, rfl⟩ := he
    rw [binding?_congr (Scope.uri?_enter_own (Scope.declares_iff.2 ⟨_, hmem, rfl⟩))]
    exact binding?_of_uri? hv

/-- A prefix that is to be declared has the same namespace in the canonical element. -/
theorem getD_uri?_enter {ps : List String} {p : String} (hp : p ∈ ps) (hx : p ≠ "xml")
    (hb : p = "" ∨ (scope.uri? p).isSome = true) :
    ((rendered.enter (ps.filterMap (declaration? scope rendered))).uri? p).getD ""
      = (scope.uri? p).getD "" := by
  obtain ⟨u, hu⟩ : ∃ u, binding? scope p = some u := by
    unfold binding?
    split
    · exact ⟨_, rfl⟩
    · next hne => exact Option.isSome_iff_exists.1 (hb.resolve_left hne)
  rw [getD_uri?_of_binding? hu, getD_uri?_of_binding? (binding?_enter hp hx hu)]

/-! ## Attributes -/

/-- Attributes that stand in order already only get other names. -/
theorem attributes_of_inOrder {as : List Attribute}
    (h : as.Pairwise fun a b => attributeLe scope a b = true) :
    attributes scope as = as.map fun a => { a with name := attributeName scope a } := by
  rw [attributes, List.mergeSort_of_pairwise h]

theorem localName_attributeName (a : Attribute) :
    (attributeName scope a).localName = a.name.localName := by
  unfold attributeName
  split
  · rfl
  · split
    · rfl
    · rfl

/-- An attribute has no prefix in the canonical form if it has none in the source. -/
theorem nsPrefix_attributeName {a : Attribute} (hb : a.isBound scope = true) :
    (attributeName scope a).nsPrefix = "" ↔ a.name.nsPrefix = "" := by
  unfold attributeName
  by_cases hx : a.name.nsPrefix = "xml"
  · rw [if_pos hx]
  · rw [if_neg hx]
    by_cases he : a.name.nsPrefix = ""
    · have huri : a.uri? scope = none := by rw [Attribute.uri?, if_neg hx, if_pos he]
      simp [huri, he]
    · have huri : a.uri? scope = scope.uri? a.name.nsPrefix := by
        rw [Attribute.uri?, if_neg hx, if_neg he]
      -- what the prefix is bound to has a prefix, which need not be the same one
      obtain ⟨u, hu⟩ : ∃ u, scope.uri? a.name.nsPrefix = some u := by
        rw [Attribute.isBound, Bool.or_eq_true, huri] at hb
        exact Option.isSome_iff_exists.1 (hb.resolve_left (by simpa using he))
      obtain ⟨q, hq⟩ := Scope.exists_prefixOf? he hu
      have hne := (Scope.mem_of_prefixOf? hq).1
      simp [huri, hu, hq, he, hne]

theorem distinctNames_iff_nodup {ns : List (Option String × String)} :
    distinctNames ns = true ↔ ns.Nodup := by
  induction ns with
  | nil => simp [distinctNames]
  | cons n rest ih => simp [distinctNames, ih]

/-- **Attributes without a namespace are found in the canonical element as in the source.** -/
theorem attribute?_tag {t : Tag} (h : t.isResolved outer = true) (inner inner' : Content) :
    Element.attribute? ⟨c.tag (outer.enter t.declarations) rendered t, inner'⟩
      = Element.attribute? ⟨t, inner⟩ := by
  obtain ⟨⟨-, hbound⟩, hnames⟩ : (_ ∧ t.attributes.all (·.isBound (outer.enter t.declarations)))
      ∧ distinctNames (t.attributes.map (·.expanded (outer.enter t.declarations))) = true := by
    rw [Tag.isResolved, Bool.and_eq_true, Bool.and_eq_true] at h
    exact h
  have hnodup := distinctNames_iff_nodup.1 hnames
  funext name
  have hperm := List.mergeSort_perm t.attributes (attributeLe (outer.enter t.declarations))
  have hfind : t.attributes.find? (fun a => a.name.nsPrefix == "" && a.name.localName == name)
      = (t.attributes.mergeSort (attributeLe (outer.enter t.declarations))).find?
          (fun a => a.name.nsPrefix == "" && a.name.localName == name) := by
    refine List.find?_eq_find?_of_perm hperm.symm fun a ⟨ha, hpa⟩ b ⟨hb, hpb⟩ => ?_
    simp only [Bool.and_eq_true, beq_iff_eq] at hpa hpb
    refine List.inj_on_of_nodup_map hnodup ha hb ?_
    simp only [Attribute.expanded, Attribute.uri?, hpa.1, hpb.1, hpa.2, hpb.2]
  have hmap : (attributes (outer.enter t.declarations) t.attributes).find?
        (fun a => a.name.nsPrefix == "" && a.name.localName == name)
      = ((t.attributes.mergeSort (attributeLe (outer.enter t.declarations))).find?
          (fun a => a.name.nsPrefix == "" && a.name.localName == name)).map
            fun a => { a with name := attributeName (outer.enter t.declarations) a } := by
    rw [attributes, List.find?_map]
    congr 1
    refine List.find?_congr fun a ha => ?_
    have hb := List.all_eq_true.1 hbound a (hperm.mem_iff.1 ha)
    rw [Function.comp_apply, localName_attributeName]
    congr 1
    exact Bool.eq_iff_iff.2 (by simpa using nsPrefix_attributeName hb)
  show ((attributes _ t.attributes).find? _).map (·.value) = (t.attributes.find? _).map (·.value)
  rw [hmap, hfind, Option.map_map]
  rfl

/-! ## Elements -/

theorem name_tag (t : Tag) : (c.tag scope rendered t).name = t.name := rfl

/-- The canonical form of an element with attributes in order, which takes no sorting of them. -/
theorem canonicalize_of_inOrder {l : Located}
    (h : l.element.tag.attributes.Pairwise fun a b => attributeLe l.scope a b = true) :
    c.canonicalize l = Element.written ⟨
      { c.tag l.scope [] l.element.tag with
        attributes := l.element.tag.attributes.map fun a =>
          { a with name := attributeName l.scope a } },
      (c.element l).inner⟩ := by
  rw [canonicalize, ← attributes_of_inOrder h]
  rfl

theorem texts_content (x : Content) : (c.content outer rendered x).texts = x.texts := by
  induction x with
  | nil => rfl
  | text t rest ih => exact congrArg (t :: ·) ih
  | comment t rest ih =>
    unfold content
    split
    · exact ih
    · exact ih
  | instruction target value rest ih => exact ih
  | element tag inner rest _ ih => exact ih

/-- A text in front is written in front, whether it joins one that stands there or not. -/
theorem write_content_prependText (t : String) (x : Content) (tail : List Char) :
    (c.content outer rendered (x.prependText t)).write tail
      = writeText t ((c.content outer rendered x).write tail) := by
  unfold Content.prependText
  split
  · next ht =>
    rw [ht]
    rfl
  · split
    · next u rest =>
      simp only [content, Content.write, writeText, String.toList_append, List.flatMap_append,
        List.append_assoc]
    · rfl

/-- The name of an element has the same namespace in the canonical element. -/
theorem getD_uri?_tag {t : Tag} (hs : (outer.enter t.declarations).Sound)
    (h : t.isResolved outer = true) :
    ((rendered.enter (c.tag (outer.enter t.declarations) rendered t).declarations).uri?
        t.name.nsPrefix).getD ""
      = ((outer.enter t.declarations).uri? t.name.nsPrefix).getD "" := by
  obtain ⟨⟨⟨hname, -⟩, -⟩, -⟩ :
      (((t.name.nsPrefix == "" || ((outer.enter t.declarations).uri? t.name.nsPrefix).isSome)
        = true ∧ _) ∧ _) ∧ _ := by
    rw [Tag.isResolved, Bool.and_eq_true, Bool.and_eq_true, Bool.and_eq_true] at h
    exact h
  have hbound : t.name.nsPrefix = ""
      ∨ ((outer.enter t.declarations).uri? t.name.nsPrefix).isSome = true := by
    simpa using hname
  refine getD_uri?_enter (name_mem_visible t) (fun hx => ?_) hbound
  rw [hx, hs.uri?_xml] at hbound
  simp at hbound

/-- **The canonical content looks like the content**, whatever has been written around it. -/
theorem views_content {x : Content} (hs : outer.Sound) (hl : x.Lexical) (hr : x.ReservesXmlns)
    (h : x.Resolved outer) : (c.content outer rendered x).views rendered = x.views outer := by
  induction x generalizing outer rendered with
  | nil => rfl
  | text t rest ih => exact ih hs hl.2 hr h
  | comment t rest ih =>
    unfold content
    split
    · exact ih hs hl.2 hr h
    · exact ih hs hl.2 hr h
  | instruction target value rest ih => exact ih hs hl.2 hr h
  | element t inner rest ih ih' =>
    obtain ⟨hres, hinner, hrest⟩ := h
    obtain ⟨hrt, hri, hrr⟩ := Content.reservesXmlns_element.1 hr
    have hs' := hs.enter hl.1 hrt
    simp only [content, Content.views]
    rw [name_tag, getD_uri?_tag hs' hres, attribute?_tag hres inner, texts_content,
      ih hs' hl.2.1 hri hinner, ih' hs hl.2.2 hrr hrest]

/-! ## Writing -/

theorem lexical_declaration? {p : String} {d : Declaration} (hs : scope.Sound)
    (h : declaration? scope rendered p = some d) : d.Lexical := by
  obtain ⟨hx, rfl, hb⟩ := declaration?_eq_some h
  unfold binding? at hb
  split at hb
  · next he =>
    have huri := Option.some.inj hb
    cases hu : scope.uri? "" with
    | none =>
      have hd : d.uri = "" := by rw [← huri, hu]; rfl
      exact ⟨Or.inl he, hx, hd ▸ allChars_nil, hd ▸ by decide, hd ▸ by decide⟩
    | some u =>
      have hd := hs.lexical ⟨"", d.uri⟩ (Scope.mem_of_uri? (by rw [← huri, hu]; rfl))
      exact ⟨Or.inl he, hx, hd.uri, hd.uri_ne_xml, hd.uri_ne_declaration⟩
  · have hd := hs.lexical _ (Scope.mem_of_uri? hb)
    exact ⟨hd.nsPrefix, hx, hd.uri, hd.uri_ne_xml, hd.uri_ne_declaration⟩

/-- The canonical name of an attribute is a name and not that of a declaration. -/
theorem lexical_attributeName {a : Attribute} (hs : scope.Sound) (ha : a.Lexical) :
    Attribute.Lexical { a with name := attributeName scope a } := by
  obtain ⟨hns, hlocal⟩ : a.name.nsPrefix ≠ "xmlns" ∧ a.name.localName ≠ "xmlns" := by
    have hd := ha.declares
    unfold Attribute.declaration? at hd
    split at hd
    · exact absurd hd (by simp)
    · next hp =>
      split at hd
      · exact absurd hd (by simp)
      · next hl => exact ⟨hp, hl⟩
  have hdeclares : ∀ n : QName, n.nsPrefix ≠ "xmlns" → n.localName = a.name.localName →
      Attribute.declaration? ⟨n, a.value⟩ = none := by
    intro n hn he
    rw [Attribute.declaration?, if_neg hn, if_neg (he ▸ hlocal)]
  unfold attributeName
  split
  · exact ha
  · split
    · next p hp =>
      obtain ⟨u, -, hu⟩ := Option.bind_eq_some_iff.1 hp
      obtain ⟨hne, hmem⟩ := Scope.mem_of_prefixOf? hu
      exact ⟨⟨ha.name.localName, Or.inr ((hs.lexical _ hmem).nsPrefix.resolve_left hne),
        fun hc => by simp at hc⟩, ha.value, hdeclares _ (hs.reserves _ hmem) rfl⟩
    · exact ⟨⟨ha.name.localName, Or.inl rfl, fun _ => rfl⟩, ha.value,
        hdeclares _ (show ("" : String) ≠ "xmlns" by decide) rfl⟩

theorem lexical_tag {t : Tag} (hs : scope.Sound) (ht : t.Lexical) :
    (c.tag scope rendered t).Lexical where
  name := ht.name
  declarations d hd := by
    obtain ⟨p, -, hp⟩ := List.mem_filterMap.1 hd
    exact lexical_declaration? hs hp
  distinct := by
    refine Scope.distinctPrefixes_of_pairwise ((pairwise_declarations c scope rendered t).imp ?_)
    intro d e hlt he
    exact String.lt_irrefl _ (he ▸ hlt)
  attributes a ha := by
    obtain ⟨b, hb, rfl⟩ := List.mem_map.1 ha
    exact lexical_attributeName hs (ht.attributes b ((List.mergeSort_perm _ _).mem_iff.1 hb))

/-- **The canonical content can be written so that it is read back.** -/
theorem lexical_content {x : Content} (hs : outer.Sound) (hl : x.Lexical) (hr : x.ReservesXmlns) :
    (c.content outer rendered x).Lexical := by
  induction x generalizing outer rendered with
  | nil => trivial
  | text t rest ih => exact ⟨hl.1, ih hs hl.2 hr⟩
  | comment t rest ih =>
    unfold content
    split
    · exact ⟨hl.1, ih hs hl.2 hr⟩
    · exact ih hs hl.2 hr
  | instruction target value rest ih => exact ⟨hl.1, ih hs hl.2 hr⟩
  | element t inner rest ih ih' =>
    obtain ⟨hrt, hri, hrr⟩ := Content.reservesXmlns_element.1 hr
    have hs' := hs.enter hl.1 hrt
    exact ⟨lexical_tag hs' hl.1, ih hs' hl.2.1 hri, ih' hs hl.2.2 hrr⟩

end Canonicalizer

/-! ## Elements in their place -/

namespace Located

/-- **The canonical element looks like the element.** -/
theorem view_element {l : Located} (h : l.Sound) (c : Canonicalizer) :
    (root (c.element l)).view = l.view := by
  have huri : (root (c.element l)).uri?.getD "" = l.uri?.getD "" :=
    Canonicalizer.getD_uri?_tag h.scope h.wellFormed.resolved
  have hattr : (root (c.element l)).attribute? = l.attribute? :=
    Canonicalizer.attribute?_tag h.wellFormed.resolved l.element.inner _
  have htexts : (root (c.element l)).element.inner.texts = l.element.inner.texts :=
    Canonicalizer.texts_content l.element.inner
  have hviews : (c.element l).inner.views (root (c.element l)).scope
      = l.element.inner.views l.scope :=
    Canonicalizer.views_content h.scope h.wellFormed.inner h.inner h.wellFormed.innerResolved
  rw [view, view, huri, hattr, htexts]
  exact congrArg (View.mk _ _ _ _) hviews

/-- **Elements with the same canonical form look the same**, however each of them was written. -/
theorem view_eq_of_canonicalize_eq {l₁ l₂ : Located} (h₁ : l₁.Sound) (h₂ : l₂.Sound)
    {c₁ c₂ : Canonicalizer} (h : c₁.canonicalize l₁ = c₂.canonicalize l₂) : l₁.view = l₂.view := by
  have hmerged : (c₁.element l₁).merged = (c₂.element l₂).merged :=
    merged_eq_of_written_eq (Canonicalizer.lexical_tag h₁.scope h₁.wellFormed.tag)
      (Canonicalizer.lexical_tag h₂.scope h₂.wellFormed.tag)
      (Canonicalizer.lexical_content h₁.scope h₁.wellFormed.inner h₁.inner)
      (Canonicalizer.lexical_content h₂.scope h₂.wellFormed.inner h₂.inner) h
  calc l₁.view
      = (root (c₁.element l₁)).view := (view_element h₁ c₁).symm
    _ = (root (c₁.element l₁).merged).view := (view_merged [] _).symm
    _ = (root (c₂.element l₂).merged).view := by rw [hmerged]
    _ = (root (c₂.element l₂)).view := view_merged [] _
    _ = l₂.view := view_element h₂ c₂

-- A prefix `xmlns` makes an attribute look like a declaration of the prefix that the names have.
example :
    let d₁ := Document.read? "<z:a xmlns:z='u'><z:b xmlns:xmlns='x' xmlns:p='x' p:z='v'/></z:a>"
    let d₂ := Document.read? "<z:a xmlns:z='u'><z:b xmlns:xmlns='x' xmlns:z='v'/></z:a>"
    d₁.map (fun d => (Canonicalizer.mk [] false).canonicalize (root d.root))
        = d₂.map (fun d => (Canonicalizer.mk ["xmlns"] false).canonicalize (root d.root))
      ∧ d₁.map (fun d => (root d.root).children.map uri?)
        ≠ d₂.map (fun d => (root d.root).children.map uri?) := by decide +kernel

end Located

end Credential.Xml
