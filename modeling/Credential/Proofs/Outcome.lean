import Credential.Error

/-!
# When several steps succeed

An operation that takes several steps gives a value if each step does. These are the lemmas that
take such an operation apart, one for each way of failing.
-/

namespace Credential

variable {α β ε : Type}

/-- Two steps succeed if the first does and the second does with what the first gave. -/
theorem bind_eq_ok_iff {x : Except ε α} {f : α → Except ε β} {b : β} :
    (x >>= f) = .ok b ↔ ∃ a, x = .ok a ∧ f a = .ok b := by
  cases x with
  | error e =>
    constructor
    · intro h
      exact absurd h (by simp [bind, Except.bind])
    · rintro ⟨a, h, -⟩
      exact absurd h (by simp)
  | ok a =>
    constructor
    · intro h
      exact ⟨a, rfl, h⟩
    · rintro ⟨c, h, hf⟩
      obtain rfl := Except.ok.inj h
      exact hf

/-- A result that holds a value is that value. -/
theorem exists_eq_ok_of_isSome {x : Except ε α} (h : x.toOption.isSome = true) :
    ∃ a, x = .ok a := by
  cases x with
  | error e => cases h
  | ok a => exact ⟨a, rfl⟩

/-- A result that passes a test holds a value that does. -/
theorem exists_eq_ok_of_any {x : Except ε α} {p : α → Bool} (h : x.toOption.any p = true) :
    ∃ a, x = .ok a ∧ p a = true := by
  cases x with
  | error e => cases h
  | ok a => exact ⟨a, rfl, h⟩

theorem toOption_eq_some_iff {x : Except ε α} {a : α} : x.toOption = some a ↔ x = .ok a := by
  cases x with
  | error e => exact iff_of_false (fun h => nomatch h) (fun h => nomatch h)
  | ok b => exact ⟨fun h => congrArg _ (Option.some.inj h), fun h => congrArg _ (Except.ok.inj h)⟩

theorem orRefuse_eq_ok_iff {v : Option α} {c : Malformed} {a : α} :
    orRefuse v c = .ok a ↔ v = some a := orFail_eq_ok_iff

theorem refuse_ne_ok {c : Malformed} {a : α} : refuse c ≠ .ok a := by
  intro h
  cases h

theorem violatedIf_eq_ok_iff {b : Bool} {v : ClaimViolation} {u : Unit} :
    violatedIf b v = .ok u ↔ b = false := by
  unfold violatedIf
  cases b with
  | true => simp
  | false => simp

end Credential
