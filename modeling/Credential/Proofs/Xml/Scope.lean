import Credential.Proofs.Xml.WellFormed

/-!
# Elements in their place, as read

What a prefix is bound to inside an element (`Scope.uri?_enter`), and what holds of every scope and
of every part of a document that reading gives (`Scope.WellFormed`, `Located.WellFormed`): the
element is well-formed, and each declaration around it counts. `Scope.Sound` and `Located.Sound` say
besides that nothing declares the prefix `xmlns`.
-/

namespace Credential.Xml

/-! ## Scopes -/

namespace Scope

theorem mem_enter {outer own : Scope} {d : Declaration} (h : d ∈ outer.enter own) :
    d ∈ own ∨ d ∈ outer := by
  rcases List.mem_append.1 h with h | h
  · exact Or.inl h
  · exact Or.inr (List.mem_filter.1 h).1

theorem mem_of_uri? {s : Scope} {p u : String} (h : s.uri? p = some u) : ⟨p, u⟩ ∈ s := by
  obtain ⟨d, hd, rfl⟩ := Option.map_eq_some_iff.1 h
  obtain rfl : d.nsPrefix = p := by simpa using List.find?_some hd
  exact List.mem_of_find?_eq_some hd

theorem declares_iff {s : Scope} {p : String} :
    s.declares p = true ↔ ∃ d ∈ s, d.nsPrefix = p := by
  rw [declares, List.any_eq_true]
  simp only [beq_iff_eq]

theorem exists_uri? {s : Scope} {d : Declaration} (h : d ∈ s) :
    ∃ u, s.uri? d.nsPrefix = some u := by
  rw [← Option.isSome_iff_exists, uri?, Option.isSome_map, List.find?_isSome]
  exact ⟨d, h, beq_self_eq_true _⟩

/-- A prefix that the element declares has the namespace it declares. -/
theorem uri?_enter_own {outer own : Scope} {p : String} (h : own.declares p = true) :
    (outer.enter own).uri? p = own.uri? p := by
  obtain ⟨d, hd, rfl⟩ := declares_iff.1 h
  obtain ⟨u, hu⟩ := exists_uri? hd
  obtain ⟨e, he, -⟩ := Option.map_eq_some_iff.1 hu
  rw [uri?, uri?, enter, List.find?_append, he, Option.some_or]

/-- Any other prefix has the namespace it has outside. -/
theorem uri?_enter_outer {outer own : Scope} {p : String} (h : own.declares p = false) :
    (outer.enter own).uri? p = outer.uri? p := by
  have hnone : own.find? (·.nsPrefix == p) = none := by
    rw [List.find?_eq_none]
    intro d hd he
    rw [Bool.eq_false_iff] at h
    exact h (declares_iff.2 ⟨d, hd, beq_iff_eq.1 he⟩)
  have hfilter : (outer.filter fun d => !declares own d.nsPrefix).find? (·.nsPrefix == p)
      = outer.find? (·.nsPrefix == p) := by
    rw [List.find?_filter]
    congr 1
    funext d
    by_cases hd : d.nsPrefix = p
    · rw [hd, h]
      simp
    · simp [hd]
  rw [uri?, uri?, enter, List.find?_append, hnone, Option.none_or, hfilter]

/-- The nearest declaration counts. -/
theorem uri?_enter (outer own : Scope) (p : String) :
    (outer.enter own).uri? p = (own.uri? p).or (outer.uri? p) := by
  by_cases h : own.declares p = true
  · obtain ⟨d, hd, rfl⟩ := declares_iff.1 h
    obtain ⟨u, hu⟩ := exists_uri? hd
    rw [uri?_enter_own h, hu, Option.some_or]
  · rw [Bool.not_eq_true] at h
    have hnone : own.uri? p = none := by
      rw [Option.eq_none_iff_forall_ne_some]
      intro u hu
      rw [declares_iff.2 ⟨_, mem_of_uri? hu, rfl⟩] at h
      exact absurd h (by simp)
    rw [uri?_enter_outer h, hnone, Option.none_or]

theorem distinctPrefixes_of_pairwise {s : Scope}
    (h : s.Pairwise fun d e => d.nsPrefix ≠ e.nsPrefix) : distinctPrefixes s = true := by
  induction s with
  | nil => rfl
  | cons d s ih =>
    obtain ⟨hd, hs⟩ := List.pairwise_cons.1 h
    have hnot : declares s d.nsPrefix = false := by
      rw [Bool.eq_false_iff]
      intro hdecl
      obtain ⟨e, he, hp⟩ := declares_iff.1 hdecl
      exact hd e he hp.symm
    rw [distinctPrefixes, hnot, ih hs]
    simp

theorem mem_of_prefixOf? {s : Scope} {u p : String} (h : s.prefixOf? u = some p) :
    p ≠ "" ∧ ⟨p, u⟩ ∈ s := by
  obtain ⟨d, hd, rfl⟩ := Option.map_eq_some_iff.1 h
  have hc := List.find?_some hd
  simp only [Bool.and_eq_true, bne_iff_ne, beq_iff_eq] at hc
  obtain ⟨hne, rfl⟩ := hc
  exact ⟨hne, List.mem_of_find?_eq_some hd⟩

/-- What a prefix is bound to has a prefix. -/
theorem exists_prefixOf? {s : Scope} {u p : String} (hp : p ≠ "") (h : s.uri? p = some u) :
    ∃ q, s.prefixOf? u = some q := by
  have hsome : (s.find? fun d => d.nsPrefix != "" && d.uri == u).isSome = true := by
    rw [List.find?_isSome]
    exact ⟨⟨p, u⟩, mem_of_uri? h, by simp [hp]⟩
  obtain ⟨d, hd⟩ := Option.isSome_iff_exists.1 hsome
  exact ⟨d.nsPrefix, by rw [prefixOf?, hd]; rfl⟩

/-! ## Scopes that reading can give -/

/-- Of distinct prefixes each is bound to what its declaration says. -/
theorem uri?_of_distinct {s : Scope} (h : distinctPrefixes s = true) {d : Declaration}
    (hd : d ∈ s) (hne : d.nsPrefix ≠ "") : s.uri? d.nsPrefix = some d.uri := by
  induction s with
  | nil => exact absurd hd (by simp)
  | cons e s ih =>
    simp only [distinctPrefixes, Bool.and_eq_true, Bool.or_eq_true, beq_iff_eq,
      Bool.not_eq_true'] at h
    rcases List.mem_cons.1 hd with rfl | hd
    · simp [uri?]
    · have hde : e.nsPrefix ≠ d.nsPrefix := by
        intro he
        have hnot := h.1.resolve_left (by rw [he]; exact hne)
        rw [declares_iff.2 ⟨d, hd, he.symm⟩] at hnot
        exact absurd hnot (by simp)
      rw [← ih h.2 hd]
      simp [uri?, hde]

/-- A scope that reading can give: every declaration of a prefix counts, while of two for the default
namespace only the first does. -/
structure WellFormed (s : Scope) : Prop where
  lexical : ∀ d ∈ s, d.Lexical
  counts : ∀ d ∈ s, d.nsPrefix ≠ "" → s.uri? d.nsPrefix = some d.uri

theorem wellFormed_nil : WellFormed [] :=
  ⟨fun d hd => absurd hd (by simp), fun d hd => absurd hd (by simp)⟩

theorem WellFormed.enter {outer : Scope} (ho : outer.WellFormed) {t : Tag} (ht : t.Lexical) :
    (outer.enter t.declarations).WellFormed where
  lexical d hd := (mem_enter hd).elim (ht.declarations d) (ho.lexical d)
  counts d hd hne := by
    rcases List.mem_append.1 hd with hd | hd
    · rw [uri?_enter_own (declares_iff.2 ⟨d, hd, rfl⟩)]
      exact uri?_of_distinct ht.distinct hd hne
    · obtain ⟨hd, hnot⟩ := List.mem_filter.1 hd
      rw [uri?_enter_outer (by simpa using hnot)]
      exact ho.counts d hd hne

theorem WellFormed.uri?_of_prefixOf? {s : Scope} (h : s.WellFormed) {u p : String}
    (hp : s.prefixOf? u = some p) : p ≠ "" ∧ p ≠ "xml" ∧ s.uri? p = some u := by
  obtain ⟨hne, hmem⟩ := mem_of_prefixOf? hp
  exact ⟨hne, (h.lexical _ hmem).ne_xml, h.counts _ hmem hne⟩

/-- The prefix `xml` is declared nowhere. -/
theorem WellFormed.uri?_xml {s : Scope} (h : s.WellFormed) : s.uri? "xml" = none := by
  rw [Option.eq_none_iff_forall_ne_some]
  intro u hu
  exact (h.lexical _ (mem_of_uri? hu)).ne_xml rfl

/-- A scope that reading can give and that does not declare the prefix `xmlns`. -/
structure Sound (s : Scope) : Prop extends WellFormed s where
  reserves : ∀ d ∈ s, d.nsPrefix ≠ "xmlns"

theorem sound_nil : Sound [] := ⟨wellFormed_nil, fun d hd => absurd hd (by simp)⟩

theorem Sound.enter {outer : Scope} (ho : outer.Sound) {t : Tag} (ht : t.Lexical)
    (hr : ∀ d ∈ t.declarations, d.nsPrefix ≠ "xmlns") : (outer.enter t.declarations).Sound where
  toWellFormed := ho.toWellFormed.enter ht
  reserves d hd := (mem_enter hd).elim (hr d) (ho.reserves d)

end Scope

/-! ## Parts of a document -/

namespace Content

theorem wellFormed_of_mem_elements {outer : Scope} {c : Content} (hl : c.Lexical)
    (hr : c.Resolved outer) : ∀ e ∈ c.elements, e.WellFormed outer := by
  induction c with
  | nil => exact fun e he => absurd he (by simp [elements])
  | text t rest ih => exact ih hl.2 hr
  | comment t rest ih => exact ih hl.2 hr
  | instruction target value rest ih => exact ih hl.2 hr
  | element tag inner rest _ ih =>
    exact List.forall_mem_cons.2 ⟨⟨hl.1, hr.1, hl.2.1, hr.2.1⟩, ih hl.2.2 hr.2.2⟩

end Content

namespace Located

/-- An element that reading can give, in its place. -/
structure WellFormed (l : Located) : Prop where
  outer : l.outer.WellFormed
  element : l.element.WellFormed l.outer

theorem wellFormed_root {text : String} {d : Document} (h : Document.read? text = some d) :
    (root d.root).WellFormed :=
  ⟨Scope.wellFormed_nil, wellFormed_of_read? h⟩

theorem WellFormed.scope {l : Located} (h : l.WellFormed) : l.scope.WellFormed :=
  h.outer.enter h.element.tag

theorem WellFormed.child {l c : Located} (h : l.WellFormed) (hc : c ∈ l.children) :
    c.WellFormed := by
  obtain ⟨e, he, rfl⟩ := List.mem_map.1 hc
  exact ⟨h.scope,
    Content.wellFormed_of_mem_elements h.element.inner h.element.innerResolved e he⟩

theorem WellFormed.at? {l p : Located} (h : l.WellFormed) {path : List Nat}
    (hp : l.at? path = some p) : p.WellFormed := by
  induction path generalizing l with
  | nil =>
    obtain rfl := Option.some.inj hp
    exact h
  | cons n path ih =>
    rw [Located.at?] at hp
    cases hc : l.children[n]? with
    | none => simp [hc] at hp
    | some c =>
      simp only [hc] at hp
      exact ih (h.child (List.mem_of_getElem? hc)) hp

theorem WellFormed.erase {l : Located} (h : l.WellFormed) (path : List Nat) :
    (l.erase path).WellFormed :=
  ⟨h.outer, h.element.tag, h.element.resolved, h.element.inner.erasePath path,
    h.element.innerResolved.erasePath path⟩

/-- Any part of an element that reading can give, with or without a part of its own. -/
theorem WellFormed.part? {l p : Located} (h : l.WellFormed) {path : List Nat}
    {without : Option (List Nat)} (hp : l.part? path without = some p) : p.WellFormed := by
  unfold Located.part? at hp
  split at hp
  · simp at hp
  · next q hq =>
    have hq := h.at? hq
    split at hp
    · obtain rfl := Option.some.inj hp
      exact hq
    · obtain rfl := Option.some.inj hp
      exact hq.erase _

/-- An element that reading can give, in its place, where nothing declares the prefix `xmlns`. -/
structure Sound (l : Located) : Prop where
  outer : l.outer.Sound
  wellFormed : l.element.WellFormed l.outer
  reserves : l.element.ReservesXmlns

theorem Sound.toWellFormed {l : Located} (h : l.Sound) : l.WellFormed :=
  ⟨h.outer.toWellFormed, h.wellFormed⟩

/-- The root of a document as read. -/
theorem sound_root {text : String} {d : Document} (h : Document.read? text = some d)
    (hr : d.root.ReservesXmlns) : (root d.root).Sound :=
  ⟨Scope.sound_nil, wellFormed_of_read? h, hr⟩

theorem Sound.scope {l : Located} (h : l.Sound) : l.scope.Sound :=
  h.outer.enter h.wellFormed.tag (h.reserves _ List.mem_cons_self)

theorem Sound.inner {l : Located} (h : l.Sound) : l.element.inner.ReservesXmlns :=
  fun t ht => h.reserves t (List.mem_cons_of_mem _ ht)

/-- Leaving out a part changes nothing of this. -/
theorem Sound.erase {l : Located} (h : l.Sound) (path : List Nat) : (l.erase path).Sound where
  outer := h.outer
  wellFormed := (h.toWellFormed.erase path).element
  reserves := List.forall_mem_cons.2 ⟨h.reserves _ List.mem_cons_self, fun t ht =>
    h.inner t ((Content.tags_erasePath path l.element.inner).subset ht)⟩

end Located

end Credential.Xml
