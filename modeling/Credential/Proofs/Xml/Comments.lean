import Credential.Proofs.Xml.CanonicalView

/-!
# Elements without comments

Putting comments into an element divides its texts (`Content.Commented`). Leaving out all comments
and putting texts together takes that back (`Content.Commented.uncommented_eq`), so what can be told
from an element without comments does not change: its canonical form without comments, with or
without a part (`canonicalize_congr`, `uncommented_erase_congr`), and what a reader sees of it
(`view_uncommented`).

Some elements may be `closed`, by what is declared in them and by their tags. Their content is left
as it is, comments and all.
-/

namespace Credential.Xml

variable {closed : Scope → Tag → Bool}

/-! ## Putting in comments -/

/-- The second content is the first with comments put in, but in no closed element. A comment in the
middle of a text divides it. -/
inductive Content.Commented (closed : Scope → Tag → Bool) : Scope → Content → Content → Prop
  | refl {outer : Scope} (c : Content) : Commented closed outer c c
  | here {outer : Scope} {c c' : Content} (t : String) (h : Commented closed outer c c') :
    Commented closed outer c (.comment t c')
  | split {outer : Scope} {rest c' : Content} (before after t : String)
    (h : Commented closed outer (.text after rest) c') :
    Commented closed outer (.text (before ++ after) rest) (.text before (.comment t c'))
  | text {outer : Scope} {c c' : Content} (t : String) (h : Commented closed outer c c') :
    Commented closed outer (.text t c) (.text t c')
  | comment {outer : Scope} {c c' : Content} (t : String) (h : Commented closed outer c c') :
    Commented closed outer (.comment t c) (.comment t c')
  | instruction {outer : Scope} {c c' : Content} (target : String) (value : Option String)
    (h : Commented closed outer c c') :
    Commented closed outer (.instruction target value c) (.instruction target value c')
  | element {outer : Scope} {tag : Tag} {inner inner' rest rest' : Content}
    (hinner : Commented closed (outer.enter tag.declarations) inner inner')
    (hclosed : closed (outer.enter tag.declarations) tag = true → inner' = inner)
    (hrest : Commented closed outer rest rest') :
    Commented closed outer (.element tag inner rest) (.element tag inner' rest')

/-- The second element is the first with comments put in. -/
def Element.Commented (closed : Scope → Tag → Bool) (e e' : Element) : Prop :=
  Content.Commented closed [] (.element e.tag e.inner .nil) (.element e'.tag e'.inner .nil)

/-! ## Leaving out comments -/

/-- The content without comments, and with texts side by side put together. -/
def Content.uncommented (closed : Scope → Tag → Bool) (outer : Scope) : Content → Content
  | .nil => .nil
  | .text t rest => (rest.uncommented closed outer).prependText t
  | .comment _ rest => rest.uncommented closed outer
  | .instruction target value rest => .instruction target value (rest.uncommented closed outer)
  | .element tag inner rest =>
    .element tag
      (if closed (outer.enter tag.declarations) tag then inner
        else inner.uncommented closed (outer.enter tag.declarations))
      (rest.uncommented closed outer)

/-- The element without comments. -/
def Located.uncommented (closed : Scope → Tag → Bool) (l : Located) : Located :=
  ⟨l.outer, l.element.tag,
    if closed l.scope l.element.tag then l.element.inner
    else l.element.inner.uncommented closed l.scope⟩

theorem Content.prependText_prependText (before after : String) (c : Content) :
    (c.prependText after).prependText before = c.prependText (before ++ after) := by
  by_cases ha : after = ""
  · rw [ha, String.append_empty]
    exact congrArg (Content.prependText before) (if_pos rfl)
  · have hne : before ++ after ≠ "" := by
      intro he
      rw [String.append_eq_empty_iff] at he
      exact ha he.2
    by_cases hb : before = ""
    · rw [hb, String.empty_append]
      exact if_pos rfl
    · cases c with
      | text u rest => simp [prependText, ha, hb, hne, String.append_assoc]
      | _ => simp [prependText, ha, hb, hne]

/-- **Without comments it does not matter where some were put in.** -/
theorem Content.Commented.uncommented_eq {outer : Scope} {c c' : Content}
    (h : Commented closed outer c c') :
    c'.uncommented closed outer = c.uncommented closed outer := by
  induction h with
  | refl c => rfl
  | here t _ ih => exact ih
  | split before after t _ ih =>
    exact (congrArg (prependText before) ih).trans (prependText_prependText before after _)
  | text t _ ih => exact congrArg (prependText t) ih
  | comment t _ ih => exact ih
  | instruction target value _ ih => exact congrArg (Content.instruction target value) ih
  | element _ hclosed _ ih ih' =>
    rw [uncommented, uncommented, ih']
    split
    · next hc => rw [hclosed hc]
    · rw [ih]

theorem Element.Commented.uncommented_eq {e e' : Element} (h : Commented closed e e') :
    (Located.root e').uncommented closed = (Located.root e).uncommented closed := by
  obtain ⟨htag, hinner, -⟩ := Content.element.inj (Content.Commented.uncommented_eq h)
  exact congrArg (Located.mk []) (congrArg₂ Element.mk htag hinner)

/-! ## What does not change -/

namespace Content

variable (closed)

theorem map_elements_uncommented (outer : Scope) (c : Content) :
    (c.uncommented closed outer).elements.map (fun e => (⟨outer, e⟩ : Located))
      = c.elements.map fun e => Located.uncommented closed ⟨outer, e⟩ := by
  induction c with
  | nil => rfl
  | text t rest ih => rw [uncommented, elements_prependText, ih, elements]
  | comment t rest ih => exact ih
  | instruction target value rest ih => exact ih
  | element tag inner rest _ ih => exact congrArg (_ :: ·) ih

theorem tags_uncommented (outer : Scope) (c : Content) :
    (c.uncommented closed outer).tags = c.tags := by
  induction c generalizing outer with
  | nil => rfl
  | text t rest ih => rw [uncommented, tags_prependText, ih, tags]
  | comment t rest ih => exact ih outer
  | instruction target value rest ih => exact ih outer
  | element tag inner rest ih ih' =>
    rw [uncommented, tags, tags, ih']
    split
    · rfl
    · rw [ih]

theorem join_texts_uncommented (outer : Scope) (c : Content) :
    String.join (c.uncommented closed outer).texts = String.join c.texts := by
  induction c with
  | nil => rfl
  | text t rest ih =>
    rw [uncommented, join_texts_prependText, ih]
    exact (String.join_cons).symm
  | comment t rest ih => exact ih
  | instruction target value rest ih => exact ih
  | element tag inner rest _ ih => exact ih

theorem views_uncommented (outer : Scope) (c : Content) :
    (c.uncommented closed outer).views outer = c.views outer := by
  induction c generalizing outer with
  | nil => rfl
  | text t rest ih => rw [uncommented, views_prependText, ih, views]
  | comment t rest ih => exact ih outer
  | instruction target value rest ih => exact ih outer
  | element tag inner rest ih ih' =>
    rw [uncommented, views, views, ih']
    split
    · rfl
    · rw [join_texts_uncommented, ih]
      rfl

end Content

namespace Located

theorem uncommented_of_closed {l : Located} (h : closed l.scope l.element.tag = true) :
    l.uncommented closed = l := by
  rw [uncommented, if_pos h]

theorem uncommented_of_open {l : Located} (h : closed l.scope l.element.tag = false) :
    l.uncommented closed
      = ⟨l.outer, l.element.tag, l.element.inner.uncommented closed l.scope⟩ := by
  rw [uncommented, if_neg (by simp [h])]

theorem tags_uncommented (l : Located) : (l.uncommented closed).element.tags = l.element.tags := by
  cases h : closed l.scope l.element.tag with
  | true => rw [uncommented_of_closed h]
  | false =>
    rw [uncommented_of_open h]
    exact congrArg (l.element.tag :: ·) (Content.tags_uncommented closed l.scope l.element.inner)

/-- **A reader that looks past comments sees the same.** -/
theorem view_uncommented (closed : Scope → Tag → Bool) (l : Located) :
    (l.uncommented closed).view = l.view := by
  cases h : closed l.scope l.element.tag with
  | true => rw [uncommented_of_closed h]
  | false =>
    have htext := Content.join_texts_uncommented closed l.scope l.element.inner
    have hviews := Content.views_uncommented closed l.scope l.element.inner
    rw [uncommented_of_open h]
    simp only [view, htext]
    congr 1

/-- Elements that are the same without comments are the same, or neither is closed. -/
theorem eq_or_open {a b : Located} (h : a.uncommented closed = b.uncommented closed) :
    a = b ∨ (closed a.scope a.element.tag = false ∧ closed b.scope b.element.tag = false) := by
  -- what is declared around the element and its tag are kept, so one is closed if the other is
  obtain ⟨houter, helement⟩ := Located.mk.inj h
  have hsame : closed a.scope a.element.tag = closed b.scope b.element.tag := by
    rw [scope, scope, houter, (Element.mk.inj helement).1]
  cases ha : closed a.scope a.element.tag with
  | true =>
    rw [uncommented_of_closed ha, uncommented_of_closed (hsame ▸ ha)] at h
    exact Or.inl h
  | false => exact Or.inr ⟨rfl, hsame ▸ ha⟩

theorem children_uncommented {l : Located} (h : closed l.scope l.element.tag = false) :
    (l.uncommented closed).children = l.children.map (uncommented closed) := by
  rw [uncommented_of_open h, children, children, List.map_map]
  exact Content.map_elements_uncommented closed l.scope l.element.inner

/-- The elements inside are the same without comments, one by one. -/
theorem map_children_congr {a b : Located} (h : a.uncommented closed = b.uncommented closed) :
    a.children.map (uncommented closed) = b.children.map (uncommented closed) := by
  rcases eq_or_open h with rfl | ⟨ha, hb⟩
  · rfl
  · rw [← children_uncommented ha, ← children_uncommented hb, h]

theorem map_childrenNamed_congr {a b : Located}
    (h : a.uncommented closed = b.uncommented closed) (uri name : String) :
    (a.childrenNamed uri name).map (uncommented closed)
      = (b.childrenNamed uri name).map (uncommented closed) := by
  have hfilter : ∀ ls : List Located, (ls.filter (·.isNamed uri name)).map (uncommented closed)
      = (ls.map (uncommented closed)).filter (·.isNamed uri name) := by
    intro ls
    rw [List.filter_map]
    rfl
  rw [childrenNamed, childrenNamed, hfilter, hfilter, map_children_congr h]

end Located

/-! ## Leaving out a part -/

namespace Content

variable (closed)

theorem uncommented_prependText (outer : Scope) (t : String) (c : Content) :
    (c.prependText t).uncommented closed outer = (c.uncommented closed outer).prependText t := by
  unfold prependText
  split
  · rfl
  · next ht =>
    split
    · next u rest =>
      rw [uncommented, uncommented, ← prependText_prependText]
      exact if_neg ht
    · rw [uncommented]
      exact if_neg ht

theorem uncommented_uncommented (outer : Scope) (c : Content) :
    (c.uncommented closed outer).uncommented closed outer = c.uncommented closed outer := by
  induction c generalizing outer with
  | nil => rfl
  | text t rest ih => rw [uncommented, uncommented_prependText, ih]
  | comment t rest ih => exact ih outer
  | instruction target value rest ih =>
    exact congrArg (Content.instruction target value) (ih outer)
  | element tag inner rest ih ih' =>
    rw [uncommented, uncommented, ih']
    split
    · rfl
    · rw [ih]

theorem uncommented_eraseElement_prependText (outer : Scope) (n : Nat) (t : String) (c : Content) :
    ((c.prependText t).eraseElement n).uncommented closed outer
      = ((c.eraseElement n).uncommented closed outer).prependText t := by
  unfold prependText
  split
  · rfl
  · next ht =>
    split
    · next u rest =>
      rw [eraseElement, uncommented, eraseElement, uncommented]
      exact (prependText_prependText t u _).symm.trans (if_neg ht)
    · rw [eraseElement, uncommented]
      exact if_neg ht

/-- Texts that an element stood between are put together only when it is left out. -/
theorem uncommented_eraseElement (outer : Scope) (n : Nat) (c : Content) :
    ((c.uncommented closed outer).eraseElement n).uncommented closed outer
      = (c.eraseElement n).uncommented closed outer := by
  induction c generalizing n with
  | nil => rfl
  | text t rest ih =>
    rw [uncommented, uncommented_eraseElement_prependText, ih, eraseElement, uncommented]
  | comment t rest ih => exact ih n
  | instruction target value rest ih => exact congrArg (Content.instruction target value) (ih n)
  | element tag inner rest _ ih =>
    cases n with
    | zero => exact uncommented_uncommented closed outer rest
    | succ n =>
      rw [uncommented, eraseElement, eraseElement, uncommented, uncommented, ih]
      split
      · rfl
      · rw [uncommented_uncommented]

end Content

namespace Located

theorem uncommented_erase {l : Located} (h : closed l.scope l.element.tag = false) (n : Nat) :
    ((l.uncommented closed).erase [n]).uncommented closed = (l.erase [n]).uncommented closed := by
  have herased := Content.uncommented_eraseElement closed l.scope n l.element.inner
  rw [← Content.erasePath_singleton, ← Content.erasePath_singleton] at herased
  rw [uncommented_of_open h, uncommented_of_open (l := l.erase [n]) h,
    uncommented_of_open (l := Located.erase ⟨l.outer, l.element.tag, _⟩ [n]) h]
  exact congrArg (fun c => Located.mk l.outer ⟨l.element.tag, c⟩) herased

/-- Elements that are the same without comments are so without one of the elements inside, too. -/
theorem uncommented_erase_congr {a b : Located}
    (h : a.uncommented closed = b.uncommented closed) (n : Nat) :
    (a.erase [n]).uncommented closed = (b.erase [n]).uncommented closed := by
  rcases eq_or_open h with rfl | ⟨ha, hb⟩
  · rfl
  · rw [← uncommented_erase ha, ← uncommented_erase hb, h]

end Located

/-! ## Canonical forms without comments -/

namespace Canonicalizer

variable {c : Canonicalizer} {rendered outer : Scope}

theorem write_content_uncommented (hc : c.comments = false) (x : Content) (tail : List Char) :
    (c.content outer rendered (x.uncommented closed outer)).write tail
      = (c.content outer rendered x).write tail := by
  induction x generalizing outer rendered tail with
  | nil => rfl
  | text t rest ih => rw [Content.uncommented, write_content_prependText, ih, content, Content.write]
  | comment t rest ih =>
    rw [Content.uncommented, content, if_neg (by simp [hc])]
    exact ih tail
  | instruction target value rest ih =>
    rw [Content.uncommented, content, content, Content.write, Content.write, ih]
  | element t inner rest ih ih' =>
    rw [Content.uncommented, content, content, Content.write, Content.write, ih']
    split
    · rfl
    · rw [ih]

theorem canonicalize_uncommented (hc : c.comments = false) (l : Located) :
    c.canonicalize (l.uncommented closed) = c.canonicalize l := by
  cases h : closed l.scope l.element.tag with
  | true => rw [Located.uncommented_of_closed h]
  | false =>
    rw [Located.uncommented_of_open h]
    exact congrArg (fun cs => String.ofList ((c.tag l.scope [] l.element.tag).writeOpening cs))
      (write_content_uncommented hc l.element.inner _)

/-- **Without comments the canonical form does not depend on them.** -/
theorem canonicalize_congr (hc : c.comments = false) {a b : Located}
    (h : a.uncommented closed = b.uncommented closed) : c.canonicalize a = c.canonicalize b := by
  rw [← canonicalize_uncommented hc a, h, canonicalize_uncommented hc]

end Canonicalizer

end Credential.Xml
