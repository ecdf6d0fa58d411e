import Credential.Proofs.Agreement
import Credential.Proofs.Xml.View
import Credential.Saml.Assertion

/-!
# Elements that look alike are read alike

Reading an assertion finds children by name, takes attributes without a namespace and text. So it
gives the same for elements that look the same, failures included (`ofElement_congr`).

The element itself may have children in other namespaces, which reading passes over: `Alike` asks
for less than the same view there. Below it the views are the same.
-/

namespace Credential.Saml

open Xml (Located)
open Xml.Located (view)

variable {α : Type} {l₁ l₂ : Located}

theorem uri_ne_empty : uri ≠ "" := by decide

/-! ## Looking alike -/

/-- The same attributes and the same children, as far as they are parts of an assertion. -/
structure Alike (l₁ l₂ : Located) : Prop where
  attributes : l₁.attribute? = l₂.attribute?
  children : ∀ name, (children l₁ name).map view = (children l₂ name).map view

/-- Elements that look the same have the same parts. -/
theorem alike_of_view_eq (h : l₁.view = l₂.view) : Alike l₁ l₂ where
  attributes := congrArg Xml.View.attribute? h
  children name := by
    rw [children, children, Located.map_childrenNamed uri_ne_empty,
      Located.map_childrenNamed uri_ne_empty, h]

theorem textOf_congr : textOf.FactorsThrough view := by
  intro a b h
  have htext : String.join a.element.inner.texts = String.join b.element.inner.texts :=
    congrArg Xml.View.text h
  rw [textOf, textOf, htext]

/-- The children of the elements look the same. -/
theorem flatMap_children_congr {ls₁ ls₂ : List Located} (h : ls₁.map view = ls₂.map view)
    (name : String) :
    (ls₁.flatMap (children · name)).map view = (ls₂.flatMap (children · name)).map view := by
  have hf : (fun l => (children l name).map view).FactorsThrough view := fun _ _ hab =>
    (alike_of_view_eq hab).children name
  rw [List.map_flatMap, List.map_flatMap, List.flatMap_def, List.flatMap_def, map_congr hf h]

namespace Alike

theorem child? (h : Alike l₁ l₂) (name : String) :
    (child? l₁ name = none ∧ child? l₂ name = none)
      ∨ ∃ a b, child? l₁ name = some a ∧ child? l₂ name = some b ∧ a.view = b.view := by
  refine cases_of_map_eq ?_
  show (Saml.children l₁ name).head?.map view = (Saml.children l₂ name).head?.map view
  rw [← List.head?_map, ← List.head?_map, h.children name]

theorem bind_child? (h : Alike l₁ l₂) (name : String) {f : Located → Option α}
    (hf : f.FactorsThrough view) : (Saml.child? l₁ name).bind f = (Saml.child? l₂ name).bind f := by
  rcases h.child? name with ⟨h₁, h₂⟩ | ⟨a, b, h₁, h₂, hab⟩
  · rw [h₁, h₂]
  · rw [h₁, h₂]
    exact hf hab

theorem instantOf? (h : Alike l₁ l₂) (name : String) :
    instantOf? l₁ name = instantOf? l₂ name := by
  unfold Saml.instantOf?
  rw [h.attributes]

end Alike

/-! ## Parts of an assertion -/

theorem nameIdOf?_congr (h : Alike l₁ l₂) : nameIdOf? l₁ = nameIdOf? l₂ := by
  unfold nameIdOf?
  rcases h.child? "NameID" with ⟨h₁, h₂⟩ | ⟨a, b, h₁, h₂, hab⟩
  · rw [h₁, h₂]
  · rw [h₁, h₂]
    simp only
    rw [textOf_congr hab, (alike_of_view_eq hab).attributes]

/-- The bearer confirmation is found in both places and looks the same, or in neither. -/
theorem agree_bearerOf (h : Alike l₁ l₂) : Agree Alike (bearerOf l₁) (bearerOf l₂) := by
  have hconf := h.children "SubjectConfirmation"
  have hp : (fun l : Located => l.attribute? "Method" == some bearerMethod).FactorsThrough view :=
    fun _ _ hab => congrArg (· "Method" == some bearerMethod) (alike_of_view_eq hab).attributes
  have hfind := find?_congr hp hconf
  unfold bearerOf
  cases hc₁ : children l₁ "SubjectConfirmation" with
  | nil =>
    rw [hc₁, List.map_nil] at hconf
    rw [List.map_eq_nil_iff.1 hconf.symm]
    exact .error _
  | cons c₁ cs₁ =>
    cases hc₂ : children l₂ "SubjectConfirmation" with
    | nil =>
      rw [hc₁, hc₂] at hconf
      exact absurd hconf (by simp)
    | cons c₂ cs₂ =>
      rw [hc₁, hc₂] at hfind
      rcases cases_of_map_eq hfind with ⟨h₁, h₂⟩ | ⟨a, b, h₁, h₂, hab⟩
      · simp only [h₁, h₂]
        exact .error _
      · simp only [h₁, h₂]
        exact .ok (alike_of_view_eq hab)

theorem confirmationOf_congr (h : Alike l₁ l₂) : confirmationOf l₁ = confirmationOf l₂ := by
  unfold confirmationOf
  rcases h.child? "SubjectConfirmationData" with ⟨h₁, h₂⟩ | ⟨a, b, h₁, h₂, hab⟩
  · rw [h₁, h₂]
  · have hdata := alike_of_view_eq hab
    rw [h₁, h₂]
    simp only
    rw [hdata.instantOf?, hdata.instantOf?, hdata.attributes]

theorem restrictionsOf_congr (h : Alike l₁ l₂) : restrictionsOf l₁ = restrictionsOf l₂ :=
  map_congr textOf_congr (flatMap_children_congr (h.children _) _)

theorem authnOf_congr (h : Alike l₁ l₂) : authnOf l₁ = authnOf l₂ := by
  have hclass : ((child? l₁ "AuthnContext").bind (child? · "AuthnContextClassRef")).map textOf
      = ((child? l₂ "AuthnContext").bind (child? · "AuthnContextClassRef")).map textOf := by
    rw [Option.map_bind, Option.map_bind]
    refine h.bind_child? _ fun a b hab => ?_
    rcases (alike_of_view_eq hab).child? "AuthnContextClassRef" with ⟨h₁, h₂⟩ | ⟨c, d, h₁, h₂, hcd⟩
    · rw [Function.comp_apply, Function.comp_apply, h₁, h₂]
    · rw [Function.comp_apply, Function.comp_apply, h₁, h₂]
      exact congrArg some (textOf_congr hcd)
  unfold authnOf
  rw [h.attributes]
  simp only [hclass]

theorem authnOf?_congr (h : Alike l₁ l₂) : authnOf? l₁ = authnOf? l₂ := by
  unfold authnOf?
  rcases h.child? "AuthnStatement" with ⟨h₁, h₂⟩ | ⟨a, b, h₁, h₂, hab⟩
  · rw [h₁, h₂]
  · rw [h₁, h₂]
    simp only [authnOf_congr (alike_of_view_eq hab)]

theorem addAttribute_congr (as : Attributes) : (addAttribute as).FactorsThrough view := by
  intro a b hab
  have h := alike_of_view_eq hab
  unfold addAttribute
  rw [h.attributes, map_congr textOf_congr (h.children "AttributeValue")]

theorem attributesOf_congr (h : Alike l₁ l₂) : attributesOf l₁ = attributesOf l₂ :=
  foldlM_congr addAttribute_congr (flatMap_children_congr (h.children _) _) []

/-! ## Assertions -/

/-- A part that must be there is there in both places, or missing in both. -/
theorem agree_child (h : Alike l₁ l₂) (name : String) (part : AssertionPart) :
    Agree Alike (orIncomplete (child? l₁ name) part) (orIncomplete (child? l₂ name) part) := by
  rcases h.child? name with ⟨h₁, h₂⟩ | ⟨a, b, h₁, h₂, hab⟩
  · rw [h₁, h₂]
    exact .error _
  · rw [h₁, h₂]
    exact .ok (alike_of_view_eq hab)

/-- **Elements that look alike are the same assertion**, or are refused for the same reason. -/
theorem ofElement_congr (h : Alike l₁ l₂) : Assertion.ofElement l₁ = Assertion.ofElement l₂ := by
  have hissuer := h.bind_child? "Issuer"
    (f := fun c => (Identifier.ofString .issuer (textOf c)).toOption)
    fun a b hab => congrArg (fun t => (Identifier.ofString .issuer t).toOption) (textOf_congr hab)
  unfold Assertion.ofElement
  rw [h.attributes, hissuer, authnOf?_congr h, attributesOf_congr h]
  refine bind_congr fun id => bind_congr fun written => bind_congr fun issueInstant =>
    bind_congr fun issuer => ?_
  refine (agree_child h "Subject" _).bind_eq fun a b hsubject => ?_
  rw [nameIdOf?_congr hsubject]
  refine bind_congr fun subject => (agree_bearerOf hsubject).bind_eq fun c d hbearer => ?_
  rw [confirmationOf_congr hbearer]
  refine bind_congr fun confirmation =>
    (agree_child h "Conditions" _).bind_eq fun e f hconditions => ?_
  rw [restrictionsOf_congr hconditions, hconditions.instantOf?, hconditions.instantOf?]

end Credential.Saml
