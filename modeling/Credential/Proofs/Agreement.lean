import Credential.Error
import Mathlib.Logic.Function.Basic

/-!
# Results that agree

A function that depends only on part of its argument gives the same for arguments that agree there
(`Function.FactorsThrough`), and so does what goes through a list or an option with it. Where what
is given is itself only the same in part, the two results agree (`Agree`): both fail the same way,
or both give something, and the two are related.
-/

namespace Credential

variable {α β γ δ ε : Type} {v : γ → β}

/-! ## Lists and options -/

/-- What is taken from each member is the same, if it depends only on what agrees. -/
theorem map_congr {f : γ → α} (hf : f.FactorsThrough v) {ls₁ ls₂ : List γ}
    (h : ls₁.map v = ls₂.map v) : ls₁.map f = ls₂.map f := by
  induction ls₁ generalizing ls₂ with
  | nil =>
    cases ls₂ with
    | nil => rfl
    | cons b ls₂ => exact absurd h (by simp)
  | cons a ls₁ ih =>
    cases ls₂ with
    | nil => exact absurd h (by simp)
    | cons b ls₂ =>
      obtain ⟨hab, hrest⟩ := List.cons.inj h
      rw [List.map_cons, List.map_cons, hf hab, ih hrest]

theorem find?_congr {p : γ → Bool} (hp : p.FactorsThrough v) {ls₁ ls₂ : List γ}
    (h : ls₁.map v = ls₂.map v) : (ls₁.find? p).map v = (ls₂.find? p).map v := by
  induction ls₁ generalizing ls₂ with
  | nil =>
    cases ls₂ with
    | nil => rfl
    | cons b ls₂ => exact absurd h (by simp)
  | cons a ls₁ ih =>
    cases ls₂ with
    | nil => exact absurd h (by simp)
    | cons b ls₂ =>
      obtain ⟨hab, hrest⟩ := List.cons.inj h
      rw [List.find?_cons, List.find?_cons, hp hab]
      cases p b with
      | true => exact congrArg some hab
      | false => exact ih hrest

theorem foldlM_congr {f : α → γ → Except ε α} (hf : ∀ acc, (f acc).FactorsThrough v)
    {ls₁ ls₂ : List γ} (h : ls₁.map v = ls₂.map v) (acc : α) :
    ls₁.foldlM f acc = ls₂.foldlM f acc := by
  induction ls₁ generalizing ls₂ acc with
  | nil =>
    cases ls₂ with
    | nil => rfl
    | cons b ls₂ => exact absurd h (by simp)
  | cons a ls₁ ih =>
    cases ls₂ with
    | nil => exact absurd h (by simp)
    | cons b ls₂ =>
      obtain ⟨hab, hrest⟩ := List.cons.inj h
      rw [List.foldlM_cons, List.foldlM_cons, hf acc hab]
      exact bind_congr fun acc => ih hrest acc

/-- There is a value in both places and the two agree, or there is none in either. -/
theorem cases_of_map_eq {o₁ o₂ : Option γ} (h : o₁.map v = o₂.map v) :
    (o₁ = none ∧ o₂ = none) ∨ ∃ a b, o₁ = some a ∧ o₂ = some b ∧ v a = v b := by
  cases o₁ with
  | none =>
    cases o₂ with
    | none => exact Or.inl ⟨rfl, rfl⟩
    | some b => exact absurd h (by simp)
  | some a =>
    cases o₂ with
    | none => exact absurd h (by simp)
    | some b => exact Or.inr ⟨a, b, rfl, rfl, Option.some.inj h⟩

/-! ## Results -/

/-- Both fail the same way, or both give something and the two are related. -/
inductive Agree (r : α → β → Prop) : Except ε α → Except ε β → Prop
  | error (e : ε) : Agree r (.error e) (.error e)
  | ok {a : α} {b : β} (h : r a b) : Agree r (.ok a) (.ok b)

theorem agree_orFail {o₁ o₂ : Option γ} (h : o₁.map v = o₂.map v) (e : Error) :
    Agree (fun a b => v a = v b) (orFail o₁ e) (orFail o₂ e) := by
  rcases cases_of_map_eq h with ⟨h₁, h₂⟩ | ⟨a, b, h₁, h₂, hab⟩
  · rw [h₁, h₂]
    exact .error e
  · rw [h₁, h₂]
    exact .ok hab

namespace Agree

variable {r : α → β → Prop} {q : γ → δ → Prop} {x : Except ε α} {y : Except ε β}

theorem bind (h : Agree r x y) {f : α → Except ε γ} {g : β → Except ε δ}
    (hfg : ∀ a b, r a b → Agree q (f a) (g b)) : Agree q (x >>= f) (y >>= g) := by
  cases h with
  | error e => exact .error e
  | ok h => exact hfg _ _ h

/-- The same step goes before steps whose results agree. -/
theorem bind_left {x : Except ε α} {f : α → Except ε γ} {g : α → Except ε δ}
    (hfg : ∀ a, Agree q (f a) (g a)) : Agree q (x >>= f) (x >>= g) := by
  cases x with
  | error e => exact .error e
  | ok a => exact hfg a

/-- What goes on the same way with related values ends the same way. -/
theorem bind_eq (h : Agree r x y) {f : α → Except ε γ} {g : β → Except ε γ}
    (hfg : ∀ a b, r a b → f a = g b) : (x >>= f) = (y >>= g) := by
  cases h with
  | error e => rfl
  | ok h => exact hfg _ _ h

/-- The values that are related are those that are given. -/
theorem with_ok (h : Agree r x y) : Agree (fun a b => x = .ok a ∧ r a b) x y := by
  cases h with
  | error e => exact .error e
  | ok h => exact .ok ⟨rfl, h⟩

end Agree

end Credential
