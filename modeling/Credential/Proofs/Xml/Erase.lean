import Credential.Xml.Tree
import Mathlib.Data.List.Flatten
import Mathlib.Data.List.InsertIdx

/-!
# Leaving out a part

An element without a part of it has the same children, but for the one that the part is or stands in
(`children_erase`, `children_erase_inside`). Looking for children by name does not notice, unless
the name is that of this child (`filter_eraseIdx`, `filter_set_of_not`).
-/

namespace Credential.Xml

/-! ## Lists -/

section Lists

variable {α : Type} {p : α → Bool} {as : List α} {a b : α} {n : Nat}

/-- A test does not notice that a member is missing that it fails on. -/
theorem filter_eraseIdx (hn : as[n]? = some a) (ha : p a = false) :
    (as.eraseIdx n).filter p = as.filter p := by
  induction as generalizing n with
  | nil => simp at hn
  | cons c as ih =>
    cases n with
    | zero =>
      obtain rfl : c = a := by simpa using hn
      rw [List.eraseIdx_cons_zero, List.filter_cons_of_neg (by simp [ha])]
    | succ n =>
      rw [List.getElem?_cons_succ] at hn
      rw [List.eraseIdx_cons_succ, List.filter_cons, List.filter_cons, ih hn]

/-- A test does not notice a change of a member that it fails on before and after. -/
theorem filter_set_of_not (hn : as[n]? = some a) (ha : p a = false) (hb : p b = false) :
    (as.set n b).filter p = as.filter p := by
  induction as generalizing n with
  | nil => simp at hn
  | cons c as ih =>
    cases n with
    | zero =>
      obtain rfl : c = a := by simpa using hn
      rw [List.set_cons_zero, List.filter_cons_of_neg (by simp [hb]),
        List.filter_cons_of_neg (by simp [ha])]
    | succ n =>
      rw [List.getElem?_cons_succ] at hn
      rw [List.set_cons_succ, List.filter_cons, List.filter_cons, ih hn]

/-- The only member that passes a test is still the only one when it is changed. -/
theorem filter_set_of_only (h : as.filter p = [a]) (hn : as[n]? = some a) (hb : p b = true) :
    (as.set n b).filter p = [b] := by
  have hpa : p a = true := by
    have hmem : a ∈ as.filter p := by rw [h]; exact List.mem_singleton_self a
    exact (List.mem_filter.1 hmem).2
  induction as generalizing n with
  | nil => simp at hn
  | cons c as ih =>
    cases n with
    | zero =>
      obtain rfl : c = a := by simpa using hn
      rw [List.filter_cons_of_pos hpa, List.cons.injEq] at h
      rw [List.set_cons_zero, List.filter_cons_of_pos hb, h.2]
    | succ n =>
      rw [List.getElem?_cons_succ] at hn
      have hc : ¬ p c = true := by
        intro hc
        have hmem : a ∈ as.filter p := List.mem_filter.2 ⟨List.mem_of_getElem? hn, hpa⟩
        rw [List.filter_cons_of_pos hc, List.cons.injEq] at h
        rw [h.2] at hmem
        exact absurd hmem (by simp)
      rw [List.filter_cons_of_neg hc] at h
      rw [List.set_cons_succ, List.filter_cons_of_neg hc, ih h hn]

end Lists

/-! ## Content -/

namespace Content

theorem erasePath_singleton (n : Nat) (c : Content) : c.erasePath [n] = c.eraseElement n := by
  cases c <;> rw [erasePath]

theorem elements_eraseElement (n : Nat) (c : Content) :
    (c.eraseElement n).elements = c.elements.eraseIdx n := by
  induction c generalizing n with
  | nil => rfl
  | text t rest ih => exact ih n
  | comment t rest ih => exact ih n
  | instruction target value rest ih => exact ih n
  | element tag inner rest _ ih =>
    cases n with
    | zero => rfl
    | succ n => exact congrArg (_ :: ·) (ih n)

theorem elements_erasePath {n m : Nat} {path : List Nat} {c : Content} {e : Element}
    (h : c.elements[n]? = some e) :
    (c.erasePath (n :: m :: path)).elements = c.elements.set n (e.erasePath (m :: path)) := by
  induction c generalizing n with
  | nil => simp [elements] at h
  | text t rest ih =>
    rw [erasePath]
    exact ih h
  | comment t rest ih =>
    rw [erasePath]
    exact ih h
  | instruction target value rest ih =>
    rw [erasePath]
    exact ih h
  | element tag inner rest _ ih =>
    cases n with
    | zero =>
      obtain rfl : ⟨tag, inner⟩ = e := by simpa [elements] using h
      rw [erasePath]
      rfl
    | succ n =>
      rw [erasePath]
      exact congrArg (_ :: ·) (ih h)

/-- Leaving out an element leaves out its parts. -/
theorem eraseElement_erasePath (n m : Nat) (path : List Nat) (c : Content) :
    (c.erasePath (n :: m :: path)).eraseElement n = c.eraseElement n := by
  induction c generalizing n with
  | nil => rw [erasePath]
  | text t rest ih =>
    rw [erasePath]
    exact congrArg (Content.text t) (ih n)
  | comment t rest ih =>
    rw [erasePath]
    exact congrArg (Content.comment t) (ih n)
  | instruction target value rest ih =>
    rw [erasePath]
    exact congrArg (Content.instruction target value) (ih n)
  | element tag inner rest _ ih =>
    cases n with
    | zero =>
      rw [erasePath]
      rfl
    | succ n =>
      rw [erasePath]
      exact congrArg (Content.element tag inner) (ih n)

theorem tags_eraseElement (n : Nat) (c : Content) : (c.eraseElement n).tags.Sublist c.tags := by
  induction c generalizing n with
  | nil => exact List.Sublist.refl _
  | text t rest ih => exact ih n
  | comment t rest ih => exact ih n
  | instruction target value rest ih => exact ih n
  | element tag inner rest _ ih =>
    cases n with
    | zero => exact (List.sublist_append_right inner.tags rest.tags).cons tag
    | succ n => exact ((List.Sublist.refl inner.tags).append (ih n)).cons_cons tag

theorem tags_erasePath (path : List Nat) (c : Content) :
    (c.erasePath path).tags.Sublist c.tags := by
  fun_induction erasePath path c with
  | case1 c => exact List.Sublist.refl _
  | case2 n c => exact tags_eraseElement n c
  | case3 => exact List.Sublist.refl _
  | case4 n m path t rest ih => exact ih
  | case5 n m path t rest ih => exact ih
  | case6 n m path target value rest ih => exact ih
  | case7 m path tag inner rest ih =>
    exact (ih.append (List.Sublist.refl rest.tags)).cons_cons tag
  | case8 n m path tag inner rest ih =>
    exact ((List.Sublist.refl inner.tags).append ih).cons_cons tag

end Content

/-! ## Elements in their place -/

namespace Located

/-- The element without the part at a path. -/
def erase (l : Located) (path : List Nat) : Located :=
  { l with element := l.element.erasePath path }

theorem children_erase (l : Located) (n : Nat) :
    (l.erase [n]).children = l.children.eraseIdx n := by
  have hinner : (l.erase [n]).element.inner = l.element.inner.eraseElement n :=
    Content.erasePath_singleton n l.element.inner
  rw [children, hinner, Content.elements_eraseElement, children, List.eraseIdx_map]
  rfl

/-- Only the child that the part stands in is changed. -/
theorem children_erase_inside {l c : Located} {n : Nat} (h : l.children[n]? = some c) (m : Nat)
    (path : List Nat) :
    (l.erase (n :: m :: path)).children = l.children.set n (c.erase (m :: path)) := by
  obtain ⟨e, he, rfl⟩ : ∃ e, l.element.inner.elements[n]? = some e ∧ ⟨l.scope, e⟩ = c := by
    rw [children, List.getElem?_map, Option.map_eq_some_iff] at h
    exact h
  have hinner : (l.erase (n :: m :: path)).element.inner.elements
      = l.element.inner.elements.set n (e.erasePath (m :: path)) := Content.elements_erasePath he
  rw [children, hinner, List.map_set]
  rfl

end Located

end Credential.Xml
