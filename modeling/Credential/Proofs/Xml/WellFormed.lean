import Credential.Proofs.Xml.Erase
import Credential.Proofs.Xml.Lexeme
import Credential.Xml.Document

/-!
# Trees as read

What holds of every tree that reading a document gives (`wellFormed_of_read?`). Its names are names
and its characters are characters of XML (`Lexical`), and every name is bound where it stands, no
element having two attributes of the same expanded name (`Resolved`). The first says nothing about
where a part stands, the second is about a part in a scope.

`Element.ReservesXmlns` is the one rule of namespaces that reading does not check: the prefix
`xmlns` is not to be declared. An element that declares it can have an attribute whose canonical
name looks like a declaration.
-/

namespace Credential.Xml

/-! ## Well-formed parts -/

/-- A declaration that reading can give. The prefix `xml` is bound from the start, and to its
namespace nothing else may be bound. -/
structure Declaration.Lexical (d : Declaration) : Prop where
  nsPrefix : d.nsPrefix = "" ∨ IsNcName d.nsPrefix
  ne_xml : d.nsPrefix ≠ "xml"
  uri : AllChars d.uri.toList
  uri_ne_xml : d.uri ≠ xmlNamespace
  uri_ne_declaration : d.uri ≠ declarationNamespace

/-- An attribute that reading can give, which declares nothing. -/
structure Attribute.Lexical (a : Attribute) : Prop where
  name : a.name.IsName
  value : AllChars a.value.toList
  declares : a.declaration? = none

/-- A tag that reading can give. -/
structure Tag.Lexical (t : Tag) : Prop where
  name : t.name.IsName
  declarations : ∀ d ∈ t.declarations, d.Lexical
  distinct : distinctPrefixes t.declarations = true
  attributes : ∀ a ∈ t.attributes, a.Lexical

/-- Content that reading can give. -/
def Content.Lexical : Content → Prop
  | .nil => True
  | .text t rest => AllChars t.toList ∧ rest.Lexical
  | .comment t rest => IsComment t.toList ∧ rest.Lexical
  | .instruction target value rest =>
    (IsTarget target.toList ∧ ∀ v ∈ value, v ≠ "" ∧ IsInstructionValue v.toList) ∧ rest.Lexical
  | .element tag inner rest => tag.Lexical ∧ inner.Lexical ∧ rest.Lexical

/-- Content whose names are bound in a scope. -/
def Content.Resolved (outer : Scope) : Content → Prop
  | .nil => True
  | .text _ rest | .comment _ rest | .instruction _ _ rest => rest.Resolved outer
  | .element tag inner rest =>
    tag.isResolved outer = true ∧ inner.Resolved (outer.enter tag.declarations)
      ∧ rest.Resolved outer

/-- An element that reading can give in a scope. -/
structure Element.WellFormed (outer : Scope) (e : Element) : Prop where
  tag : e.tag.Lexical
  resolved : e.tag.isResolved outer = true
  inner : e.inner.Lexical
  innerResolved : e.inner.Resolved (outer.enter e.tag.declarations)

/-! ## Checking

A tree is checked tag by tag. -/

instance (d : Declaration) : Decidable d.Lexical :=
  decidable_of_iff ((d.nsPrefix = "" ∨ IsNcName d.nsPrefix) ∧ d.nsPrefix ≠ "xml"
      ∧ AllChars d.uri.toList ∧ d.uri ≠ xmlNamespace ∧ d.uri ≠ declarationNamespace)
    ⟨fun ⟨hp, hx, huri, hxml, hxmlns⟩ => ⟨hp, hx, huri, hxml, hxmlns⟩,
      fun h => ⟨h.nsPrefix, h.ne_xml, h.uri, h.uri_ne_xml, h.uri_ne_declaration⟩⟩

instance (a : Attribute) : Decidable a.Lexical :=
  decidable_of_iff (a.name.IsName ∧ AllChars a.value.toList ∧ a.declaration? = none)
    ⟨fun ⟨hname, hvalue, hd⟩ => ⟨hname, hvalue, hd⟩, fun h => ⟨h.name, h.value, h.declares⟩⟩

instance (t : Tag) : Decidable t.Lexical :=
  decidable_of_iff (t.name.IsName ∧ (∀ d ∈ t.declarations, d.Lexical)
      ∧ distinctPrefixes t.declarations = true ∧ ∀ a ∈ t.attributes, a.Lexical)
    ⟨fun ⟨hname, hd, hdistinct, ha⟩ => ⟨hname, hd, hdistinct, ha⟩,
      fun h => ⟨h.name, h.declarations, h.distinct, h.attributes⟩⟩

instance Content.decidableLexical : (c : Content) → Decidable c.Lexical
  | .nil => isTrue trivial
  | .text t rest =>
    have := decidableLexical rest
    inferInstanceAs (Decidable (AllChars t.toList ∧ rest.Lexical))
  | .comment t rest =>
    have := decidableLexical rest
    inferInstanceAs (Decidable (IsComment t.toList ∧ rest.Lexical))
  | .instruction target value rest =>
    have := decidableLexical rest
    inferInstanceAs (Decidable ((IsTarget target.toList
      ∧ ∀ v ∈ value, v ≠ "" ∧ IsInstructionValue v.toList) ∧ rest.Lexical))
  | .element tag inner rest =>
    have := decidableLexical inner
    have := decidableLexical rest
    inferInstanceAs (Decidable (tag.Lexical ∧ inner.Lexical ∧ rest.Lexical))

instance Content.decidableResolved : (outer : Scope) → (c : Content) → Decidable (c.Resolved outer)
  | _, .nil => isTrue trivial
  | outer, .text _ rest | outer, .comment _ rest | outer, .instruction _ _ rest =>
    decidableResolved outer rest
  | outer, .element tag inner rest =>
    have := decidableResolved (outer.enter tag.declarations) inner
    have := decidableResolved outer rest
    inferInstanceAs (Decidable (tag.isResolved outer = true
      ∧ inner.Resolved (outer.enter tag.declarations) ∧ rest.Resolved outer))

instance (outer : Scope) (e : Element) : Decidable (e.WellFormed outer) :=
  decidable_of_iff (e.tag.Lexical ∧ e.tag.isResolved outer = true ∧ e.inner.Lexical
      ∧ e.inner.Resolved (outer.enter e.tag.declarations))
    ⟨fun ⟨htag, hresolved, hinner, hin⟩ => ⟨htag, hresolved, hinner, hin⟩,
      fun h => ⟨h.tag, h.resolved, h.inner, h.innerResolved⟩⟩

/-! ## The reserved prefix -/

/-- No tag in the content declares the prefix `xmlns`. -/
def Content.ReservesXmlns (c : Content) : Prop :=
  ∀ t ∈ c.tags, ∀ d ∈ t.declarations, d.nsPrefix ≠ "xmlns"

theorem Content.reservesXmlns_element {tag : Tag} {inner rest : Content} :
    (Content.element tag inner rest).ReservesXmlns
      ↔ (∀ d ∈ tag.declarations, d.nsPrefix ≠ "xmlns")
        ∧ inner.ReservesXmlns ∧ rest.ReservesXmlns := by
  simp only [Content.ReservesXmlns, Content.tags, List.forall_mem_cons, List.forall_mem_append]

/-- No tag of the element declares the prefix `xmlns`. -/
def Element.ReservesXmlns (e : Element) : Prop :=
  ∀ t ∈ e.tags, ∀ d ∈ t.declarations, d.nsPrefix ≠ "xmlns"

instance (e : Element) : Decidable e.ReservesXmlns :=
  inferInstanceAs (Decidable (∀ t ∈ e.tags, ∀ d ∈ t.declarations, d.nsPrefix ≠ "xmlns"))

/-! ## Reversing -/

theorem Content.Lexical.reverseOnto {c acc : Content} (hc : c.Lexical) (ha : acc.Lexical) :
    (c.reverseOnto acc).Lexical := by
  induction c generalizing acc with
  | nil => exact ha
  | text t rest ih => exact ih hc.2 ⟨hc.1, ha⟩
  | comment t rest ih => exact ih hc.2 ⟨hc.1, ha⟩
  | instruction target value rest ih => exact ih hc.2 ⟨hc.1, ha⟩
  | element tag inner rest _ ih => exact ih hc.2.2 ⟨hc.1, hc.2.1, ha⟩

theorem Content.Resolved.reverseOnto {outer : Scope} {c acc : Content} (hc : c.Resolved outer)
    (ha : acc.Resolved outer) : (c.reverseOnto acc).Resolved outer := by
  induction c generalizing acc with
  | nil => exact ha
  | text t rest ih => exact ih hc ha
  | comment t rest ih => exact ih hc ha
  | instruction target value rest ih => exact ih hc ha
  | element tag inner rest _ ih => exact ih hc.2.2 ⟨hc.1, hc.2.1, ha⟩

/-! ## Leaving out an element -/

namespace Content

theorem Lexical.eraseElement {c : Content} (h : c.Lexical) (n : Nat) :
    (c.eraseElement n).Lexical := by
  induction c generalizing n with
  | nil => trivial
  | text t rest ih => exact ⟨h.1, ih h.2 n⟩
  | comment t rest ih => exact ⟨h.1, ih h.2 n⟩
  | instruction target value rest ih => exact ⟨h.1, ih h.2 n⟩
  | element tag inner rest _ ih =>
    cases n with
    | zero => exact h.2.2
    | succ n => exact ⟨h.1, h.2.1, ih h.2.2 n⟩

theorem Resolved.eraseElement {outer : Scope} {c : Content} (h : c.Resolved outer) (n : Nat) :
    (c.eraseElement n).Resolved outer := by
  induction c generalizing n with
  | nil => trivial
  | text t rest ih => exact ih h n
  | comment t rest ih => exact ih h n
  | instruction target value rest ih => exact ih h n
  | element tag inner rest _ ih =>
    cases n with
    | zero => exact h.2.2
    | succ n => exact ⟨h.1, h.2.1, ih h.2.2 n⟩

theorem Lexical.erasePath {c : Content} (h : c.Lexical) (path : List Nat) :
    (c.erasePath path).Lexical := by
  fun_induction Content.erasePath path c with
  | case1 c => exact h
  | case2 n c => exact h.eraseElement n
  | case3 => exact h
  | case4 n m path t rest ih => exact ⟨h.1, ih h.2⟩
  | case5 n m path t rest ih => exact ⟨h.1, ih h.2⟩
  | case6 n m path target value rest ih => exact ⟨h.1, ih h.2⟩
  | case7 m path tag inner rest ih => exact ⟨h.1, ih h.2.1, h.2.2⟩
  | case8 n m path tag inner rest ih => exact ⟨h.1, h.2.1, ih h.2.2⟩

theorem Resolved.erasePath {outer : Scope} {c : Content} (h : c.Resolved outer)
    (path : List Nat) : (c.erasePath path).Resolved outer := by
  fun_induction Content.erasePath path c generalizing outer with
  | case1 c => exact h
  | case2 n c => exact h.eraseElement n
  | case3 => exact h
  | case4 n m path t rest ih => exact ih h
  | case5 n m path t rest ih => exact ih h
  | case6 n m path target value rest ih => exact ih h
  | case7 m path tag inner rest ih => exact ⟨h.1, ih h.2.1, h.2.2⟩
  | case8 n m path tag inner rest ih => exact ⟨h.1, h.2.1, ih h.2.2⟩

end Content

/-! ## Tags -/

theorem Attribute.declaration?_eq_some {a : Attribute} {d : Declaration}
    (h : a.declaration? = some d) :
    d.uri = a.value ∧ (d.nsPrefix = "" ∨ d.nsPrefix = a.name.localName) := by
  unfold Attribute.declaration? at h
  split at h
  · obtain rfl := Option.some.inj h
    exact ⟨rfl, Or.inr rfl⟩
  · split at h
    · obtain rfl := Option.some.inj h
      exact ⟨rfl, Or.inl rfl⟩
    · exact absurd h (by simp)

theorem lexical_of_readAttributes? {written : List (QName × List Char)} {as : List Attribute}
    (h : readAttributes? written = some as)
    (hw : ∀ a ∈ written, a.1.IsName ∧ AllChars a.2) :
    ∀ a ∈ as, a.name.IsName ∧ AllChars a.value.toList := by
  unfold readAttributes? at h
  induction written generalizing as with
  | nil =>
    obtain rfl : [] = as := by simpa using h
    exact fun a ha => absurd ha (by simp)
  | cons w written ih =>
    rw [List.mapM_cons] at h
    cases hv : attributeValue? w.2 with
    | none => simp [hv] at h
    | some v =>
      cases hr : written.mapM fun a =>
          (attributeValue? a.2).map (⟨a.1, ·⟩ : String → Attribute) with
      | none => simp [hv, hr] at h
      | some rest =>
        obtain rfl : (⟨w.1, v⟩ : Attribute) :: rest = as := by simpa [hv, hr] using h
        obtain ⟨hname, hchars⟩ := hw w List.mem_cons_self
        intro a ha
        rcases List.mem_cons.1 ha with rfl | ha
        · exact ⟨hname, isChar_of_attributeValue? hv hchars⟩
        · exact ih hr (fun b hb => hw b (List.mem_cons_of_mem _ hb)) a ha

theorem bindable_iff {nsPrefix uri : String} (hu : uri ≠ xmlNamespace) :
    bindable nsPrefix uri = true ↔ uri ≠ declarationNamespace ∧ nsPrefix ≠ "xml" := by
  have hx : (uri == xmlNamespace) = false := beq_eq_false_iff_ne.2 hu
  simp only [bindable, hx, Bool.and_eq_true, bne_iff_ne, beq_false, Bool.not_eq_true',
    beq_eq_false_iff_ne]

/-- **A tag as read is lexical and resolved.** -/
theorem Tag.lexical_of_read? {outer : Scope} {name : QName} {written : List (QName × List Char)}
    {t : Tag} (h : Tag.read? outer name written = some t) (hn : name.IsName)
    (hw : ∀ a ∈ written, a.1.IsName ∧ AllChars a.2) :
    t.Lexical ∧ t.isResolved outer = true := by
  unfold Tag.read? at h
  cases has : readAttributes? written with
  | none => simp [has] at h
  | some as =>
    simp only [has, bind, Option.bind] at h
    split at h
    · next hc =>
      obtain ⟨hwell, hres⟩ := Bool.and_eq_true_iff.1 hc
      obtain rfl := Option.some.inj h
      have hlex := lexical_of_readAttributes? has hw
      obtain ⟨hbindable, hdistinct⟩ := Bool.and_eq_true_iff.1 hwell
      refine ⟨⟨hn, fun d hd => ?_, hdistinct, fun a ha => ?_⟩, hres⟩
      · obtain ⟨hmem, hne⟩ := List.mem_filter.1 hd
        obtain ⟨a, ha, had⟩ := List.mem_filterMap.1 hmem
        obtain ⟨huri, hns⟩ := Attribute.declaration?_eq_some had
        obtain ⟨hname, hvalue⟩ := hlex a ha
        have hne : d.uri ≠ xmlNamespace := by simpa using hne
        obtain ⟨hdecl, hxml⟩ := (bindable_iff hne).1 (List.all_eq_true.1 hbindable d hmem)
        refine ⟨?_, hxml, huri ▸ hvalue, hne, hdecl⟩
        rcases hns with he | he
        · exact Or.inl he
        · exact Or.inr (he ▸ hname.localName)
      · obtain ⟨hmem, hnone⟩ := List.mem_filter.1 ha
        obtain ⟨hname, hvalue⟩ := hlex a hmem
        exact ⟨hname, hvalue, by simpa using hnone⟩
    · exact absurd h (by simp)

/-! ## Elements -/

namespace Frame

/-- What has been read of an element that starts in a scope. -/
structure Sound (outer : Scope) (f : Frame) : Prop where
  scope : f.scope = outer.enter f.tag.declarations
  wellFormed : Element.WellFormed outer ⟨f.tag, f.content⟩

/-- Each frame starts in the scope of the next, and the last one in none. -/
def StackSound (f : Frame) : List Frame → Prop
  | [] => f.Sound []
  | g :: stack => f.Sound g.scope ∧ g.StackSound stack

theorem StackSound.sound {f : Frame} {stack : List Frame} (h : f.StackSound stack) :
    ∃ outer, f.Sound outer := by
  cases stack with
  | nil => exact ⟨[], h⟩
  | cons g stack => exact ⟨g.scope, h.1⟩

theorem Sound.withContent {outer : Scope} {f : Frame} {c : Content} (h : f.Sound outer)
    (hl : c.Lexical) (hr : c.Resolved f.scope) : Sound outer { f with content := c } where
  scope := h.scope
  wellFormed := ⟨h.wellFormed.tag, h.wellFormed.resolved, hl, h.scope ▸ hr⟩

/-- Only the content of the innermost frame changes while it is read. -/
theorem StackSound.withContent {f : Frame} {stack : List Frame} {c : Content}
    (h : f.StackSound stack) (hl : c.Lexical) (hr : c.Resolved f.scope) :
    StackSound { f with content := c } stack := by
  cases stack with
  | nil => exact Sound.withContent h hl hr
  | cons g stack => exact ⟨h.1.withContent hl hr, h.2⟩

theorem StackSound.lexical {f : Frame} {stack : List Frame} (h : f.StackSound stack) :
    f.content.Lexical := by
  obtain ⟨outer, hs⟩ := h.sound
  exact hs.wellFormed.inner

theorem StackSound.resolved {f : Frame} {stack : List Frame} (h : f.StackSound stack) :
    f.content.Resolved f.scope := by
  obtain ⟨outer, hs⟩ := h.sound
  rw [hs.scope]
  exact hs.wellFormed.innerResolved

theorem StackSound.addText {f : Frame} {stack : List Frame} {t : String}
    (h : f.StackSound stack) (ht : AllChars t.toList) : (f.addText t).StackSound stack := by
  have hl := h.lexical
  have hr := h.resolved
  unfold Frame.addText
  split
  · next before rest hc =>
    rw [hc] at hl hr
    refine h.withContent ⟨?_, hl.2⟩ hr
    rw [String.toList_append]
    exact allChars_append.2 ⟨hl.1, ht⟩
  · exact h.withContent ⟨ht, hl⟩ hr

theorem StackSound.addElement {f : Frame} {stack : List Frame} {e : Element}
    (h : f.StackSound stack) (he : e.WellFormed f.scope) :
    (f.addElement e).StackSound stack :=
  h.withContent ⟨he.tag, he.inner, h.lexical⟩ ⟨he.resolved, he.innerResolved, h.resolved⟩

theorem Sound.element {outer : Scope} {f : Frame} (h : f.Sound outer) :
    f.element.WellFormed outer where
  tag := h.wellFormed.tag
  resolved := h.wellFormed.resolved
  inner := h.wellFormed.inner.reverseOnto trivial
  innerResolved := h.wellFormed.innerResolved.reverseOnto trivial

/-- A frame that was just entered is sound. -/
theorem sound_enter {outer : Scope} {tag : Tag}
    (h : tag.Lexical ∧ tag.isResolved outer = true) : (Frame.enter outer tag).Sound outer :=
  ⟨rfl, ⟨h.1, h.2, trivial, trivial⟩⟩

end Frame

theorem isInstruction_of_isLexeme {target value : List Char}
    (h : (Token.instruction target value).IsLexeme) :
    IsTarget (String.ofList target).toList ∧
      ∀ v ∈ instructionValue? value, v ≠ "" ∧ IsInstructionValue v.toList := by
  refine ⟨by rw [String.toList_ofList]; exact h.1, fun v hv => ?_⟩
  unfold instructionValue? at hv
  split at hv
  · exact absurd hv (by simp)
  · next hne =>
    obtain rfl := Option.some.inj hv
    rw [String.toList_ofList]
    refine ⟨fun he => hne ?_, h.2⟩
    rw [← String.toList_inj, String.toList_ofList, String.toList_empty] at he
    rw [he]
    rfl

/-- **What `readElement` gives is well-formed**, if what has been read so far is. -/
theorem wellFormed_of_readElement {f : Frame} {stack : List Frame} {ts rest : List Token}
    {e : Element} (h : readElement f stack ts = some (e, rest)) (hf : f.StackSound stack)
    (hts : ∀ t ∈ ts, t.IsLexeme) : e.WellFormed [] := by
  fun_induction readElement f stack ts with
  | case1 => simp at h
  | case2 => simp at h
  | case3 f stack cs ts t ht ih =>
    rw [List.forall_mem_cons] at hts
    exact ih h (hf.addText (isChar_of_characterData? ht hts.1)) hts.2
  | case4 f stack cs ts ih =>
    rw [List.forall_mem_cons] at hts
    exact ih h (hf.addText (isChar_literalData hts.1)) hts.2
  | case5 f stack cs ts ih =>
    rw [List.forall_mem_cons] at hts
    refine ih h (hf.withContent ⟨?_, hf.lexical⟩ hf.resolved) hts.2
    rw [String.toList_ofList]
    exact hts.1
  | case6 f stack target value ts ih =>
    rw [List.forall_mem_cons] at hts
    exact ih h (hf.withContent ⟨isInstruction_of_isLexeme hts.1, hf.lexical⟩ hf.resolved) hts.2
  | case7 => simp at h
  | case8 f stack name attributes ts tag htag ih =>
    rw [List.forall_mem_cons] at hts
    obtain ⟨hl, hr⟩ := Tag.lexical_of_read? htag hts.1.1 hts.1.2
    exact ih h (hf.addElement ⟨hl, hr, trivial, trivial⟩) hts.2
  | case9 f stack name attributes empty ts tag htag _ ih =>
    rw [List.forall_mem_cons] at hts
    exact ih h ⟨Frame.sound_enter (Tag.lexical_of_read? htag hts.1.1 hts.1.2), hf⟩ hts.2
  | case10 f name ts _ =>
    obtain ⟨rfl, -⟩ := Prod.mk.inj (Option.some.inj h)
    exact Frame.Sound.element hf
  | case11 f name ts _ parent stack ih =>
    rw [List.forall_mem_cons] at hts
    exact ih h (hf.2.addElement hf.1.element) hts.2
  | case12 => simp at h

theorem wellFormed_of_readRoot {name : QName} {attributes : List (QName × List Char)}
    {empty : Bool} {ts rest : List Token} {e : Element}
    (h : readRoot name attributes empty ts = some (e, rest)) (hn : name.IsName)
    (ha : ∀ a ∈ attributes, a.1.IsName ∧ AllChars a.2) (hts : ∀ t ∈ ts, t.IsLexeme) :
    e.WellFormed [] := by
  unfold readRoot at h
  split at h
  · simp at h
  · next tag htag =>
    have ht := Tag.lexical_of_read? htag hn ha
    split at h
    · obtain ⟨rfl, -⟩ := Prod.mk.inj (Option.some.inj h)
      exact ⟨ht.1, ht.2, trivial, trivial⟩
    · exact wellFormed_of_readElement h (Frame.sound_enter ht) hts

/-! ## Documents -/

theorem readAround_subset (ts : List Token) : ∀ t ∈ (readAround ts).2, t ∈ ts := by
  fun_induction readAround ts with
  | case1 cs ts r ih => exact fun t ht => List.mem_cons_of_mem _ (ih t ht)
  | case2 target value ts r ih => exact fun t ht => List.mem_cons_of_mem _ (ih t ht)
  | case3 cs ts _ ih => exact fun t ht => List.mem_cons_of_mem _ (ih t ht)
  | case4 => exact fun t ht => ht
  | case5 => exact fun t ht => ht

/-- **The root of a document as read is well-formed.** -/
theorem wellFormed_of_read? {text : String} {d : Document} (h : Document.read? text = some d) :
    d.root.WellFormed [] := by
  unfold Document.read? at h
  cases hstart : afterStart? text.toList with
  | none => simp [hstart] at h
  | some cs =>
    cases hscan : Token.scan cs with
    | none => simp [hstart, hscan] at h
    | some ts =>
      simp only [hstart, hscan, bind, Option.bind] at h
      have hts := isLexeme_of_scan hscan
      have haround := readAround_subset ts
      unfold Document.ofTokens? at h
      dsimp only at h
      split at h
      · next name attributes empty more hmore =>
        rw [hmore] at haround
        have hopen := hts _ (haround _ List.mem_cons_self)
        have hmore := fun t ht => hts t (haround t (List.mem_cons_of_mem _ ht))
        split at h
        · simp at h
        · next e after hroot =>
          split at h
          · obtain rfl := Option.some.inj h
            exact wellFormed_of_readRoot hroot hopen.1 hopen.2 hmore
          · simp at h
      · simp at h

end Credential.Xml
