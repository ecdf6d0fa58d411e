import Credential.Proofs.Xml.Declarations
import Credential.Proofs.Xml.Roundtrip
import Mathlib.Data.List.Sort

/-!
# The canonical form of a canonical form

What is written of a document is a document again (`read?_canonicalize`). Its own canonical form need
not be the same text. An attribute is written with the first of the prefixes that are bound to its
namespace where it stands, and what is declared inside the canonical form stands in another order
than in the source. The text is the same just if each attribute has the first prefix there too
(`HasFirstPrefixes`), which is so if no namespace has two prefixes (`NamesOnce`).
-/

namespace Credential.Xml

/-! ## Prefixes of attributes -/

/-- The attribute has the prefix that it is written with: of those that are bound to its namespace
the first. -/
def Attribute.HasFirstPrefix (scope : Scope) (a : Attribute) : Prop :=
  a.name.nsPrefix = "" ∨ a.name.nsPrefix = "xml" ∨
    (a.uri? scope).bind scope.prefixOf? = some a.name.nsPrefix

/-- All attributes have the first prefix where they stand. -/
def Content.HasFirstPrefixes (outer : Scope) : Content → Prop
  | .nil => True
  | .text _ rest | .comment _ rest | .instruction _ _ rest => rest.HasFirstPrefixes outer
  | .element tag inner rest =>
    (∀ a ∈ tag.attributes, a.HasFirstPrefix (outer.enter tag.declarations))
      ∧ inner.HasFirstPrefixes (outer.enter tag.declarations) ∧ rest.HasFirstPrefixes outer

/-- All attributes of the element and of those inside have the first prefix. -/
def Element.HasFirstPrefixes (e : Element) : Prop :=
  (∀ a ∈ e.tag.attributes, a.HasFirstPrefix (Scope.enter [] e.tag.declarations))
    ∧ e.inner.HasFirstPrefixes (Scope.enter [] e.tag.declarations)

/-- No namespace has two prefixes, wherever they are declared; the default namespace does not
count. -/
def Element.NamesOnce (e : Element) : Prop :=
  ∀ d₁ ∈ e.tags.flatMap Tag.declarations, ∀ d₂ ∈ e.tags.flatMap Tag.declarations,
    d₁.nsPrefix ≠ "" → d₂.nsPrefix ≠ "" → d₁.uri = d₂.uri → d₁.nsPrefix = d₂.nsPrefix

namespace Canonicalizer

variable {c : Canonicalizer} {scope rendered outer : Scope} {l w : Located}

/-! ## Reading the canonical form -/

/-- What is written of an element has bound names and distinct attributes. -/
theorem Renders.isResolved (hr : c.Renders l w) (hl : l.WellFormed) :
    w.element.tag.isResolved w.outer = true := by
  have hres := hl.element.resolved
  rw [Tag.isResolved, Bool.and_eq_true, Bool.and_eq_true, Bool.and_eq_true] at hres ⊢
  obtain ⟨⟨⟨hname, hxmlns⟩, -⟩, hnames⟩ := hres
  refine ⟨⟨⟨?_, by rw [hr.name]; exact hxmlns⟩, ?_⟩, ?_⟩
  · by_cases hne : w.element.tag.name.nsPrefix = ""
    · simp [hne]
    · have hbound : (l.scope.uri? w.element.tag.name.nsPrefix).isSome = true := by
        rw [hr.name] at hne ⊢
        simpa [hne, Located.scope] using hname
      have hx : w.element.tag.name.nsPrefix ≠ "xml" := by
        intro hx
        rw [hx, hl.scope.uri?_xml] at hbound
        exact absurd hbound (by simp)
      obtain ⟨u, -, hu⟩ := hr.bound _ (Or.inl rfl) hx
      rw [binding?, if_neg hne] at hu
      rw [Bool.or_eq_true]
      exact Or.inr (Option.isSome_iff_exists.2 ⟨u, hu⟩)
  · rw [List.all_eq_true]
    intro a ha
    by_cases hne : a.name.nsPrefix = ""
    · simp [Attribute.isBound, hne]
    · by_cases hx : a.name.nsPrefix = "xml"
      · simp [Attribute.isBound, Attribute.uri?, hx]
      · obtain ⟨u, -, hu⟩ := hr.bound _ (Or.inr ⟨⟨a, ha, rfl⟩, hne⟩) hx
        rw [binding?, if_neg hne] at hu
        have huri : a.uri? w.scope = some u := by rw [Attribute.uri?, if_neg hx, if_neg hne, hu]
        rw [Attribute.isBound, Bool.or_eq_true]
        exact Or.inr (Option.isSome_iff_exists.2 ⟨u, huri⟩)
  · have hperm := hr.attributes.map Prod.fst
    rw [List.map_map, List.map_map] at hperm
    rw [distinctNames_iff_nodup] at hnames ⊢
    exact hperm.nodup_iff.2 hnames

/-- The names of the canonical content are bound, whatever has been written around it. -/
theorem resolved_content {x : Content} (hs : outer.WellFormed) (hl : x.Lexical)
    (h : x.Resolved outer) : (c.content outer rendered x).Resolved rendered := by
  induction x generalizing outer rendered with
  | nil => trivial
  | text t rest ih => exact ih hs hl.2 h
  | comment t rest ih =>
    unfold content
    split
    · exact ih hs hl.2 h
    · exact ih hs hl.2 h
  | instruction target value rest ih => exact ih hs hl.2 h
  | element t inner rest ih ih' =>
    have hwell : Located.WellFormed ⟨outer, ⟨t, inner⟩⟩ := ⟨hs, hl.1, h.1, hl.2.1, h.2.1⟩
    exact ⟨(renders_written hwell rendered).isResolved hwell,
      ih (hs.enter hl.1) hl.2.1 h.2.1, ih' hs hl.2.2 h.2.2⟩

theorem targets_content (x : Content) : (c.content outer rendered x).targets = x.targets := by
  induction x generalizing outer rendered with
  | nil => rfl
  | text t rest ih => exact ih
  | comment t rest ih =>
    unfold content
    split
    · exact ih
    · exact ih
  | instruction target value rest ih => exact congrArg (target :: ·) ih
  | element t inner rest ih ih' => rw [content, Content.targets, Content.targets, ih, ih']

theorem wellFormed_written (hl : l.Sound) (hr : rendered.WellFormed) :
    (c.written rendered l).WellFormed where
  outer := hr
  element :=
    { tag := lexical_tag hl.scope hl.wellFormed.tag
      resolved := (renders_written hl.toWellFormed rendered).isResolved hl.toWellFormed
      inner := lexical_content hl.scope hl.wellFormed.inner hl.inner
      innerResolved := resolved_content hl.toWellFormed.scope hl.wellFormed.inner
        hl.wellFormed.innerResolved }

/-- **The canonical form is read again**, as the canonical element with its texts put together. -/
theorem read?_canonicalize (hl : l.Sound) (hx : "xml" ∉ l.element.inner.targets)
    (c : Canonicalizer) :
    Document.read? (c.canonicalize l) = some ⟨.nil, (c.element l).merged, .nil⟩ := by
  have hwell : (c.written [] l).WellFormed := wellFormed_written hl Scope.wellFormed_nil
  exact Document.read?_written hwell.element ((targets_content _).symm ▸ hx)

/-! ## Names that are written again -/

/-- An attribute that is written without a prefix is written without a colon. -/
theorem colon_attributeName {a : Attribute} (hs : scope.WellFormed)
    (he : (attributeName scope a).nsPrefix = "") : (attributeName scope a).colon = false := by
  rcases attributeName_cases scope a with ⟨hx, hname⟩ | ⟨-, u, p, -, hp, hname⟩ | ⟨-, -, hname⟩
  · rw [hname, hx] at he
    exact absurd he (by decide)
  · rw [hname] at he
    exact absurd he (hs.uri?_of_prefixOf? hp).1
  · rw [hname]

/-- The attribute is written with the name it has just if it has the first prefix. -/
theorem attributeName_eq_iff {a : Attribute} (ha : a.Lexical)
    (hcolon : a.name.nsPrefix = "" → a.name.colon = false) :
    attributeName scope a = a.name ↔ a.HasFirstPrefix scope := by
  rcases attributeName_cases scope a with ⟨hx, hname⟩ | ⟨hx, u, p, hu, hp, hname⟩ | ⟨hx, hno, hname⟩
  · rw [hname]
    exact iff_of_true rfl (Or.inr (Or.inl hx))
  · have hne : a.name.nsPrefix ≠ "" := by
      intro he
      rw [Attribute.uri?, if_neg hx, if_pos he] at hu
      exact absurd hu (by simp)
    have hbind : (a.uri? scope).bind scope.prefixOf? = some p := by rw [hu, Option.bind_some, hp]
    have hc : a.name.colon = true := by
      rw [← Bool.not_eq_false]
      exact fun hc => hne (ha.name.colon hc)
    rw [hname, Attribute.HasFirstPrefix, hbind]
    constructor
    · intro he
      exact Or.inr (Or.inr (congrArg (some ·.nsPrefix) he))
    · rintro (he | he | he)
      · exact absurd he hne
      · exact absurd he hx
      · rw [Option.some.injEq] at he
        rw [he, ← hc]
  · constructor
    · intro he
      exact Or.inl (by rw [← he, hname])
    · rintro (he | he | he)
      · rw [hname, ← he, ← hcolon he]
      · exact absurd he hx
      · obtain ⟨u, hu, hp⟩ := Option.bind_eq_some_iff.1 he
        rw [hno u hu] at hp
        exact absurd hp (by simp)

/-- Attributes in their order are written as they are just if they all have the first prefix. -/
theorem attributes_eq_iff {as : List Attribute} (ha : ∀ a ∈ as, a.Lexical)
    (hcolon : ∀ a ∈ as, a.name.nsPrefix = "" → a.name.colon = false)
    (horder : as.Pairwise fun a b => attributeLe scope a b = true) :
    attributes scope as = as ↔ ∀ a ∈ as, a.HasFirstPrefix scope := by
  rw [attributes_of_inOrder horder]
  constructor
  · intro h a hmem
    have hsame := List.map_inj_left.1 (h.trans (List.map_id as).symm) a hmem
    exact (attributeName_eq_iff (ha a hmem) (hcolon a hmem)).1 (congrArg Attribute.name hsame)
  · intro h
    refine (List.map_congr_left fun a hmem => ?_).trans (List.map_id as)
    rw [(attributeName_eq_iff (ha a hmem) (hcolon a hmem)).2 (h a hmem)]
    rfl

/-- **What is written of an element is written again as it is** just if its attributes have the first
prefixes there. What it declares is what its names need, which is the same again. -/
theorem tag_eq_iff (hr : c.Renders l w) (hw : w.WellFormed) (hc : c.inclusive = [])
    (hcolon : ∀ a ∈ w.element.tag.attributes, a.name.nsPrefix = "" → a.name.colon = false) :
    c.tag w.scope w.outer w.element.tag = w.element.tag
      ↔ ∀ a ∈ w.element.tag.attributes, a.HasFirstPrefix w.scope := by
  have horder : w.element.tag.attributes.Pairwise fun a b => attributeLe w.scope a b = true :=
    hr.attributesInOrder.imp attributeLe_iff.2
  rw [← attributes_eq_iff hw.element.tag.attributes hcolon horder]
  constructor
  · exact congrArg Tag.attributes
  · intro hattr
    have hr₂ : c.Renders w (c.written w.outer w) := renders_written hw w.outer
    have huses : ∀ p, (c.tag w.scope w.outer w.element.tag).Uses p ↔ w.element.tag.Uses p := by
      intro p
      rw [Tag.Uses, Tag.Uses, name_tag]
      exact or_congr_right (by rw [show (c.tag w.scope w.outer w.element.tag).attributes
        = w.element.tag.attributes from hattr])
    have hmem : ∀ d, d ∈ (c.tag w.scope w.outer w.element.tag).declarations
        ↔ d ∈ w.element.tag.declarations := by
      rintro ⟨p, u⟩
      rw [hr.declares_iff]
      refine (hr₂.declares_iff p u).trans (and_congr_right fun hx => ?_)
      rw [hc]
      simp only [List.not_mem_nil, or_false]
      refine (and_congr_left' (huses p)).trans (and_congr_right fun hp => and_congr_left' ?_)
      obtain ⟨v, hl, hv⟩ := hr.bound p hp hx
      rw [hl, hv]
    have hirrefl : Std.Irrefl fun d e : Declaration => d.nsPrefix < e.nsPrefix :=
      ⟨fun d => String.lt_irrefl d.nsPrefix⟩
    have hantisymm : Std.Antisymm fun d e : Declaration => d.nsPrefix < e.nsPrefix :=
      ⟨fun d e hde hed => absurd (String.lt_trans hde hed) (String.lt_irrefl d.nsPrefix)⟩
    have hdecl : (c.tag w.scope w.outer w.element.tag).declarations = w.element.tag.declarations :=
      hr₂.declarationsInOrder.eq_of_mem_iff hr.declarationsInOrder hmem
    calc c.tag w.scope w.outer w.element.tag
        = ⟨w.element.tag.name, (c.tag w.scope w.outer w.element.tag).declarations,
            attributes w.scope w.element.tag.attributes⟩ := rfl
      _ = w.element.tag := by rw [hdecl, hattr]

theorem tag_written_eq_iff (hl : l.Sound) (hr : rendered.WellFormed) (hc : c.inclusive = []) :
    c.tag (c.written rendered l).scope rendered (c.written rendered l).element.tag
        = (c.written rendered l).element.tag
      ↔ ∀ a ∈ (c.written rendered l).element.tag.attributes,
          a.HasFirstPrefix (c.written rendered l).scope := by
  refine tag_eq_iff (renders_written hl.toWellFormed rendered) (wellFormed_written hl hr) hc ?_
  intro a ha
  obtain ⟨b, -, rfl⟩ := List.mem_map.1 ha
  exact colon_attributeName hl.toWellFormed.scope

/-! ## Content that is written again -/

theorem content_comment (t : String) (x : Content) :
    c.content outer rendered (.comment t x) = if c.comments then
      .comment t (c.content outer rendered x) else c.content outer rendered x := rfl

theorem length_tags_content (x : Content) :
    (c.content outer rendered x).tags.length = x.tags.length := by
  induction x generalizing outer rendered with
  | nil => rfl
  | text t rest ih => exact ih
  | comment t rest ih =>
    unfold content
    split
    · exact ih
    · exact ih
  | instruction target value rest ih => exact ih
  | element t inner rest ih ih' => simp only [content, Content.tags, List.length_cons,
      List.length_append, ih, ih']

/-- The place of an element at the front of content. -/
theorem sound_first {t : Tag} {inner rest : Content} (hs : outer.Sound)
    (hl : (Content.element t inner rest).Lexical)
    (hx : (Content.element t inner rest).ReservesXmlns)
    (h : (Content.element t inner rest).Resolved outer) :
    Located.Sound ⟨outer, ⟨t, inner⟩⟩ where
  outer := hs
  wellFormed := ⟨hl.1, h.1, hl.2.1, h.2.1⟩
  reserves :=
    have hr := Content.reservesXmlns_element.1 hx
    List.forall_mem_cons.2 ⟨hr.1, hr.2.1⟩

/-- **Canonical content is its own canonical content** if its attributes have the first prefixes. -/
theorem content_content {x : Content} (hs : outer.Sound) (hr : rendered.WellFormed)
    (hl : x.Lexical) (hx : x.ReservesXmlns) (h : x.Resolved outer) (hc : c.inclusive = [])
    (hf : (c.content outer rendered x).HasFirstPrefixes rendered) :
    c.content rendered rendered (c.content outer rendered x) = c.content outer rendered x := by
  induction x generalizing outer rendered with
  | nil => rfl
  | text t rest ih => exact congrArg (Content.text t) (ih hs hr hl.2 hx h hf)
  | comment t rest ih =>
    rw [content_comment] at hf ⊢
    by_cases hk : c.comments = true
    · rw [if_pos hk] at hf ⊢
      rw [content_comment, if_pos hk]
      exact congrArg (Content.comment t) (ih hs hr hl.2 hx h hf)
    · rw [if_neg hk] at hf ⊢
      exact ih hs hr hl.2 hx h hf
  | instruction target value rest ih =>
    exact congrArg (Content.instruction target value) (ih hs hr hl.2 hx h hf)
  | element t inner rest ih ih' =>
    obtain ⟨hrt, hri, hrr⟩ := Content.reservesXmlns_element.1 hx
    have hsound := sound_first hs hl hx h
    let t' := c.tag (outer.enter t.declarations) rendered t
    have htag : c.tag (rendered.enter t'.declarations) rendered t' = t' :=
      (tag_written_eq_iff hsound hr hc).2 hf.1
    have hscope : (rendered.enter t'.declarations).WellFormed :=
      (wellFormed_written hsound hr).scope
    have hinner := ih hsound.scope hscope hl.2.1 hri h.2.1 hf.2.1
    have hrest := ih' hs hr hl.2.2 hrr h.2.2 hf.2.2
    show Content.element (c.tag (rendered.enter t'.declarations) rendered t')
        (c.content (rendered.enter t'.declarations)
          (rendered.enter (c.tag (rendered.enter t'.declarations) rendered t').declarations)
          (c.content (outer.enter t.declarations) (rendered.enter t'.declarations) inner))
        (c.content rendered rendered (c.content outer rendered rest))
      = Content.element t' _ _
    rw [htag, hrest]
    exact congrArg (Content.element t' · _) hinner

/-- If canonical content has the same tags again, its attributes have the first prefixes. -/
theorem hasFirstPrefixes_of_tags_eq {x : Content} (hs : outer.Sound) (hr : rendered.WellFormed)
    (hl : x.Lexical) (hx : x.ReservesXmlns) (h : x.Resolved outer) (hc : c.inclusive = [])
    (ht : (c.content rendered rendered (c.content outer rendered x)).tags
      = (c.content outer rendered x).tags) :
    (c.content outer rendered x).HasFirstPrefixes rendered := by
  induction x generalizing outer rendered with
  | nil => trivial
  | text t rest ih => exact ih hs hr hl.2 hx h ht
  | comment t rest ih =>
    rw [content_comment] at ht ⊢
    by_cases hk : c.comments = true
    · rw [if_pos hk] at ht ⊢
      rw [content_comment, if_pos hk] at ht
      exact ih hs hr hl.2 hx h ht
    · rw [if_neg hk] at ht ⊢
      exact ih hs hr hl.2 hx h ht
  | instruction target value rest ih => exact ih hs hr hl.2 hx h ht
  | element t inner rest ih ih' =>
    obtain ⟨hrt, hri, hrr⟩ := Content.reservesXmlns_element.1 hx
    have hsound := sound_first hs hl hx h
    let t' := c.tag (outer.enter t.declarations) rendered t
    have hscope : (rendered.enter t'.declarations).WellFormed :=
      (wellFormed_written hsound hr).scope
    obtain ⟨htag, hmore⟩ := List.cons.inj ht
    have htag : c.tag (rendered.enter t'.declarations) rendered t' = t' := htag
    -- the tags of the two parts are as many as before, so they are the same one by one
    obtain ⟨hinner, hrest⟩ := List.append_inj hmore (length_tags_content _)
    refine ⟨(tag_written_eq_iff hsound hr hc).1 htag,
      ih hsound.scope hscope hl.2.1 hri h.2.1 ?_, ih' hs hr hl.2.2 hrr h.2.2 hrest⟩
    have hinner : (c.content (rendered.enter t'.declarations)
        (rendered.enter (c.tag (rendered.enter t'.declarations) rendered t').declarations)
        (c.content (outer.enter t.declarations) (rendered.enter t'.declarations) inner)).tags
      = (c.content (outer.enter t.declarations) (rendered.enter t'.declarations) inner).tags :=
      hinner
    rw [htag] at hinner
    exact hinner

/-! ## Texts put together -/

/-- How text is divided makes no difference to what is written of the canonical content. -/
theorem write_content_merged (x : Content) (tail : List Char) :
    (c.content outer rendered x.merged).write tail = (c.content outer rendered x).write tail := by
  induction x generalizing outer rendered tail with
  | nil => rfl
  | text t rest ih => rw [Content.merged, write_content_prependText, ih, content, Content.write]
  | comment t rest ih =>
    rw [Content.merged, content_comment, content_comment]
    split
    · rw [Content.write, Content.write, ih]
    · exact ih tail
  | instruction target value rest ih =>
    rw [Content.merged, content, content, Content.write, Content.write, ih]
  | element t inner rest ih ih' =>
    rw [Content.merged, content, content, Content.write, Content.write, ih, ih']

theorem canonicalize_merged (e : Element) :
    c.canonicalize (.root e.merged) = c.canonicalize (.root e) :=
  congrArg (fun cs => String.ofList ((c.tag (Located.root e).scope [] e.tag).writeOpening cs))
    (write_content_merged e.inner _)

end Canonicalizer

namespace Content

theorem tags_merged (x : Content) : x.merged.tags = x.tags := by
  induction x with
  | nil => rfl
  | text t rest ih => rw [merged, tags_prependText, ih, tags]
  | comment t rest ih => exact ih
  | instruction target value rest ih => exact ih
  | element t inner rest ih ih' => rw [merged, tags, tags, ih, ih']

theorem hasFirstPrefixes_prependText (outer : Scope) (t : String) (x : Content) :
    (x.prependText t).HasFirstPrefixes outer ↔ x.HasFirstPrefixes outer :=
  (apply_prependText (HasFirstPrefixes outer) (fun _ _ => rfl) t x).to_iff

theorem hasFirstPrefixes_merged (outer : Scope) (x : Content) :
    x.merged.HasFirstPrefixes outer ↔ x.HasFirstPrefixes outer := by
  induction x generalizing outer with
  | nil => rfl
  | text t rest ih => rw [merged, hasFirstPrefixes_prependText, ih, HasFirstPrefixes]
  | comment t rest ih => exact ih outer
  | instruction target value rest ih => exact ih outer
  | element t inner rest ih ih' => rw [merged, HasFirstPrefixes, HasFirstPrefixes, ih, ih']

end Content

namespace Canonicalizer

variable {c : Canonicalizer} {scope rendered outer : Scope} {l w : Located}

/-! ## Documents -/

/-- What is written declares the prefix `xmlns` nowhere. -/
theorem reservesXmlns_tag (hs : scope.Sound) (t : Tag) :
    ∀ d ∈ (c.tag scope rendered t).declarations, d.nsPrefix ≠ "xmlns" := by
  intro d hd
  obtain ⟨p, -, hp⟩ := List.mem_filterMap.1 hd
  obtain ⟨-, rfl, hb⟩ := declaration?_eq_some hp
  intro he
  rw [binding?, if_neg (by rw [he]; decide)] at hb
  exact hs.reserves _ (Scope.mem_of_uri? hb) he

theorem reservesXmlns_content {x : Content} (hs : outer.Sound) (hl : x.Lexical)
    (hx : x.ReservesXmlns) : (c.content outer rendered x).ReservesXmlns := by
  induction x generalizing outer rendered with
  | nil => exact hx
  | text t rest ih => exact ih hs hl.2 hx
  | comment t rest ih =>
    rw [content_comment]
    split
    · exact ih hs hl.2 hx
    · exact ih hs hl.2 hx
  | instruction target value rest ih => exact ih hs hl.2 hx
  | element t inner rest ih ih' =>
    obtain ⟨hrt, hri, hrr⟩ := Content.reservesXmlns_element.1 hx
    have hscope := hs.enter hl.1 hrt
    exact Content.reservesXmlns_element.2
      ⟨reservesXmlns_tag hscope t, ih hscope hl.2.1 hri, ih' hs hl.2.2 hrr⟩

/-- The canonical element is one that can be canonicalized in turn. -/
theorem sound_element (hl : l.Sound) (c : Canonicalizer) : (Located.root (c.element l)).Sound where
  outer := Scope.sound_nil
  wellFormed := (wellFormed_written hl Scope.wellFormed_nil).element
  reserves := List.forall_mem_cons.2 ⟨reservesXmlns_tag hl.scope l.element.tag,
    reservesXmlns_content hl.scope hl.wellFormed.inner hl.inner⟩

/-- **The canonical form of the canonical form is the same text just if attributes have the first
prefixes in it.** -/
theorem canonicalize_element_eq_iff (hl : l.Sound) (hc : c.inclusive = []) :
    c.canonicalize (.root (c.element l)) = c.canonicalize l ↔ (c.element l).HasFirstPrefixes := by
  -- the element as all the content there is
  let x := Content.element l.element.tag l.element.inner .nil
  have hlex : x.Lexical := ⟨hl.wellFormed.tag, hl.wellFormed.inner, trivial⟩
  have hres : x.Resolved l.outer := ⟨hl.wellFormed.resolved, hl.wellFormed.innerResolved, trivial⟩
  have hreserves : x.ReservesXmlns := Content.reservesXmlns_element.2
    ⟨hl.reserves _ List.mem_cons_self, hl.inner, fun t ht => absurd ht (by simp [Content.tags])⟩
  constructor
  · intro h
    have hfirst := (sound_element hl c).wellFormed
    have hsecond := (sound_element (sound_element hl c) c).wellFormed
    have hsame := merged_eq_of_written_eq hsecond.tag hfirst.tag hsecond.inner hfirst.inner h
    rw [Element.merged, Element.merged, Element.mk.injEq] at hsame
    obtain ⟨htag, hinner⟩ := hsame
    have htags := congrArg Content.tags hinner
    rw [Content.tags_merged, Content.tags_merged] at htags
    have hfirstPrefixes := hasFirstPrefixes_of_tags_eq (x := x) hl.outer Scope.wellFormed_nil hlex
      hreserves hres hc (congrArg₂ (fun t ts => t :: (ts ++ [])) htag htags)
    exact ⟨hfirstPrefixes.1, hfirstPrefixes.2.1⟩
  · intro h
    have hcontent := content_content (x := x) hl.outer Scope.wellFormed_nil hlex hreserves hres hc
      ⟨h.1, h.2, trivial⟩
    obtain ⟨htag, hinner, -⟩ := Content.element.inj hcontent
    have helement : c.element (.root (c.element l)) = c.element l :=
      congrArg₂ Element.mk htag hinner
    exact congrArg Element.written helement

/-! ## Namespaces with one prefix -/

/-- A declaration of a prefix in the canonical element is one of the source. -/
theorem mem_scope_of_mem_tag {t : Tag} {d : Declaration}
    (hd : d ∈ (c.tag scope rendered t).declarations) (hne : d.nsPrefix ≠ "") : d ∈ scope := by
  obtain ⟨p, -, hp⟩ := List.mem_filterMap.1 hd
  obtain ⟨-, rfl, hb⟩ := declaration?_eq_some hp
  rw [binding?, if_neg hne] at hb
  exact Scope.mem_of_uri? hb

/-- Where each namespace has one prefix, the first prefix is the only one. -/
theorem hasFirstPrefixes_content {ds : List Declaration}
    (hds : ∀ d₁ ∈ ds, ∀ d₂ ∈ ds, d₁.nsPrefix ≠ "" → d₂.nsPrefix ≠ "" → d₁.uri = d₂.uri →
      d₁.nsPrefix = d₂.nsPrefix)
    {x : Content} (hs : outer.WellFormed) (hl : x.Lexical) (h : x.Resolved outer)
    (ho : ∀ d ∈ outer, d ∈ ds) (hr : ∀ d ∈ rendered, d.nsPrefix ≠ "" → d ∈ ds)
    (ht : ∀ t ∈ x.tags, ∀ d ∈ t.declarations, d ∈ ds) :
    (c.content outer rendered x).HasFirstPrefixes rendered := by
  induction x generalizing outer rendered with
  | nil => trivial
  | text t rest ih => exact ih hs hl.2 h ho hr ht
  | comment t rest ih =>
    rw [content_comment]
    split
    · exact ih hs hl.2 h ho hr ht
    · exact ih hs hl.2 h ho hr ht
  | instruction target value rest ih => exact ih hs hl.2 h ho hr ht
  | element t inner rest ih ih' =>
    simp only [Content.tags, List.forall_mem_cons, List.forall_mem_append] at ht
    obtain ⟨htag, hinner, hrest⟩ := ht
    have hscope : ∀ d ∈ outer.enter t.declarations, d ∈ ds :=
      fun d hd => (Scope.mem_enter hd).elim (htag d) (ho d)
    let t' := c.tag (outer.enter t.declarations) rendered t
    have hscope' : ∀ d ∈ rendered.enter t'.declarations, d.nsPrefix ≠ "" → d ∈ ds := by
      intro d hd hne
      rcases Scope.mem_enter hd with hd | hd
      · exact hscope d (mem_scope_of_mem_tag hd hne)
      · exact hr d hd hne
    have hrenders := renders_written (c := c) (l := ⟨outer, ⟨t, inner⟩⟩)
      ⟨hs, hl.1, h.1, hl.2.1, h.2.1⟩ rendered
    refine ⟨fun a ha => ?_, ih (hs.enter hl.1) hl.2.1 h.2.1 hscope hscope' hinner,
      ih' hs hl.2.2 h.2.2 ho hr hrest⟩
    by_cases hne : a.name.nsPrefix = ""
    · exact Or.inl hne
    · by_cases hx : a.name.nsPrefix = "xml"
      · exact Or.inr (Or.inl hx)
      · obtain ⟨u, -, hu⟩ := hrenders.bound _ (Or.inr ⟨⟨a, ha, rfl⟩, hne⟩) hx
        rw [binding?, if_neg hne] at hu
        obtain ⟨q, hq⟩ := Scope.exists_prefixOf? hne hu
        obtain ⟨hqne, hqmem⟩ := Scope.mem_of_prefixOf? hq
        have hsame : q = a.name.nsPrefix := hds _ (hscope' _ hqmem hqne) _
          (hscope' _ (Scope.mem_of_uri? hu) hne) hqne hne rfl
        have huri : a.uri? (rendered.enter t'.declarations) = some u := by
          rw [Attribute.uri?, if_neg hx, if_neg hne]
          exact hu
        exact Or.inr (Or.inr (by rw [huri, Option.bind_some, ← hsame]; exact hq))

/-! ## The canonical form of a document -/

/-- **The canonical form of a document is read again**, and its root has the same canonical form just
if every attribute has the first prefix in it. It has, if no namespace has two prefixes in the
document. -/
theorem exists_read?_canonicalize {text : String} {d : Document}
    (h : Document.read? text = some d) (hr : d.root.ReservesXmlns)
    (hx : "xml" ∉ d.root.inner.targets) (comments : Bool) :
    let c : Canonicalizer := ⟨[], comments⟩
    ∃ d', Document.read? (c.canonicalize (.root d.root)) = some d'
      ∧ (c.canonicalize (.root d'.root) = c.canonicalize (.root d.root)
          ↔ d'.root.HasFirstPrefixes)
      ∧ (d.root.NamesOnce → c.canonicalize (.root d'.root) = c.canonicalize (.root d.root)) := by
  intro c
  have hl : (Located.root d.root).Sound := Located.sound_root h hr
  have hiff : c.canonicalize (.root (c.element (.root d.root)).merged)
      = c.canonicalize (.root d.root) ↔ (c.element (.root d.root)).HasFirstPrefixes := by
    rw [canonicalize_merged]
    exact canonicalize_element_eq_iff hl rfl
  refine ⟨_, read?_canonicalize hl hx c, hiff.trans ?_, fun honce => hiff.2 ?_⟩
  · exact and_congr_right fun _ => (Content.hasFirstPrefixes_merged _ _).symm
  · have hfirst : (c.content [] [] (.element d.root.tag d.root.inner .nil)).HasFirstPrefixes [] :=
      hasFirstPrefixes_content honce Scope.wellFormed_nil
        ⟨hl.wellFormed.tag, hl.wellFormed.inner, trivial⟩
        ⟨hl.wellFormed.resolved, hl.wellFormed.innerResolved, trivial⟩
        (fun _ hd => absurd hd (by simp)) (fun _ hd => absurd hd (by simp))
        fun t ht d hd => List.mem_flatMap.2 ⟨t, by simpa [Element.tags, Content.tags] using ht, hd⟩
    exact ⟨hfirst.1, hfirst.2.1⟩

/-- An element that declares a default namespace and a prefix, with a comment, an element that takes
the default namespace back, and a character to be escaped. -/
def mixed : Element :=
  ⟨⟨⟨"", "a", false⟩, [⟨"", "urn:d"⟩, ⟨"q", "urn:q"⟩], [⟨⟨"q", "x", true⟩, "1"⟩]⟩,
    .comment "c" (.element ⟨⟨"", "b", false⟩, [⟨"", ""⟩], []⟩ .nil (.text "<" .nil))⟩

theorem exists_read?_canonicalize_mixed :
    let c : Canonicalizer := ⟨[], false⟩
    ∃ d', Document.read? (c.canonicalize (.root mixed)) = some d'
      ∧ c.canonicalize (.root d'.root) = c.canonicalize (.root mixed) := by
  have hd : Document.read?
      "<a xmlns='urn:d' xmlns:q='urn:q' q:x='1'><!--c--><b xmlns=''/><![CDATA[<]]></a>"
      = some ⟨.nil, mixed, .nil⟩ := by decide +kernel
  have honce : mixed.NamesOnce := by
    unfold Element.NamesOnce
    decide
  obtain ⟨d', hread, -, hsame⟩ :=
    exists_read?_canonicalize hd (by decide) (by decide) false
  exact ⟨d', hread, hsame honce⟩

/-- An element that declares two prefixes for one namespace, not in the order of the prefixes. -/
def doublyNamed : Element :=
  ⟨⟨⟨"q", "e", true⟩, [⟨"z", "urn:same"⟩, ⟨"q", "urn:same"⟩], [⟨⟨"z", "x", true⟩, "1"⟩]⟩, .nil⟩

/-- The canonical form of a document need not be its own: here it puts the declaration of another
prefix first, and the attribute changes its prefix. -/
theorem canonicalize_ne_of_doublyNamed :
    ¬ ∀ (text : String) (d : Document), Document.read? text = some d → d.root.ReservesXmlns →
      "xml" ∉ d.root.inner.targets →
      ∃ d', Document.read? ((Canonicalizer.mk [] false).canonicalize (.root d.root)) = some d'
        ∧ (Canonicalizer.mk [] false).canonicalize (.root d'.root)
          = (Canonicalizer.mk [] false).canonicalize (.root d.root) := by
  intro h
  have hd : Document.read? "<q:e xmlns:z='urn:same' xmlns:q='urn:same' z:x='1'/>"
      = some ⟨.nil, doublyNamed, .nil⟩ := by decide +kernel
  obtain ⟨d', hread, hsame⟩ := h _ _ hd (by decide) (by decide)
  have hform : (Canonicalizer.mk [] false).canonicalize (.root doublyNamed)
      = "<q:e xmlns:q=\"urn:same\" xmlns:z=\"urn:same\" z:x=\"1\"></q:e>" := by decide +kernel
  have hreread : Document.read?
        "<q:e xmlns:q=\"urn:same\" xmlns:z=\"urn:same\" z:x=\"1\"></q:e>"
      = some ⟨.nil, ⟨⟨⟨"q", "e", true⟩, [⟨"q", "urn:same"⟩, ⟨"z", "urn:same"⟩],
          [⟨⟨"z", "x", true⟩, "1"⟩]⟩, .nil⟩, .nil⟩ := by decide +kernel
  rw [hform, hreread, Option.some.injEq] at hread
  rw [hform, ← hread] at hsame
  exact absurd hsame (by decide +kernel)

end Canonicalizer

end Credential.Xml
