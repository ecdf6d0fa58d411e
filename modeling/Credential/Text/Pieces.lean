/-!
# Cutting at a separator, finding a run

`pieces sep xs` are the maximal runs without `sep`, in order; there is always at least one.
Joining them again with the separator gives `xs` back (`join_pieces`), and pieces that do not hold
the separator are found again (`pieces_join`).
-/

namespace Credential.Text

variable {α : Type} [DecidableEq α]

/-- The runs between separators. -/
def pieces (sep : α) : List α → List (List α)
  | [] => [[]]
  | x :: xs =>
    if x = sep then [] :: pieces sep xs
    else match pieces sep xs with
      | [] => [[x]]
      | p :: ps => (x :: p) :: ps

/-- The runs with one separator between each two. -/
def join (sep : α) : List (List α) → List α
  | [] => []
  | [p] => p
  | p :: q :: ps => p ++ sep :: join sep (q :: ps)

theorem pieces_ne_nil (sep : α) (xs : List α) : pieces sep xs ≠ [] := by
  cases xs with
  | nil => simp [pieces]
  | cons x xs => unfold pieces; split <;> (try split) <;> simp

/-- **Cutting loses nothing.** -/
theorem join_pieces (sep : α) (xs : List α) : join sep (pieces sep xs) = xs := by
  induction xs with
  | nil => rfl
  | cons x xs ih =>
    unfold pieces
    have hne := pieces_ne_nil sep xs
    split
    · next hx =>
      cases hp : pieces sep xs with
      | nil => exact absurd hp hne
      | cons p ps => rw [hp] at ih; simp [join, ih, hx]
    · cases hp : pieces sep xs with
      | nil => exact absurd hp hne
      | cons p ps =>
        rw [hp] at ih
        cases ps with
        | nil => simpa [join] using ih
        | cons q qs => simpa [join] using ih

theorem pieces_of_not_mem (sep : α) (p : List α) (h : sep ∉ p) : pieces sep p = [p] := by
  induction p with
  | nil => rfl
  | cons x p ih =>
    simp only [List.mem_cons, not_or] at h
    simp [pieces, Ne.symm h.1, ih h.2]

theorem pieces_append_sep (sep : α) (p xs : List α) (h : sep ∉ p) :
    pieces sep (p ++ sep :: xs) = p :: pieces sep xs := by
  induction p with
  | nil => simp [pieces]
  | cons x p ih =>
    simp only [List.mem_cons, not_or] at h
    simp [pieces, Ne.symm h.1, ih h.2]

/-- **Pieces without the separator are found again.** -/
theorem pieces_join (sep : α) (ps : List (List α)) (hne : ps ≠ []) (h : ∀ p ∈ ps, sep ∉ p) :
    pieces sep (join sep ps) = ps := by
  induction ps with
  | nil => exact absurd rfl hne
  | cons p ps ih =>
    cases ps with
    | nil => exact pieces_of_not_mem sep p (h p (by simp))
    | cons q qs =>
      rw [join, pieces_append_sep sep p _ (h p (by simp)),
        ih (by simp) (fun r hr => h r (List.mem_cons_of_mem _ hr))]

/-- The parts before and after the first `sep`, if there is one. -/
def cutFirst? (sep : α) : List α → Option (List α × List α)
  | [] => none
  | x :: xs => if x = sep then some ([], xs) else (cutFirst? sep xs).map fun c => (x :: c.1, c.2)

theorem cutFirst?_append (sep : α) (p xs : List α) (h : sep ∉ p) :
    cutFirst? sep (p ++ sep :: xs) = some (p, xs) := by
  induction p with
  | nil => simp [cutFirst?]
  | cons x p ih =>
    simp only [List.mem_cons, not_or] at h
    simp [cutFirst?, Ne.symm h.1, ih h.2]

theorem cutFirst?_eq_none (sep : α) (xs : List α) (h : sep ∉ xs) : cutFirst? sep xs = none := by
  induction xs with
  | nil => rfl
  | cons x xs ih =>
    simp only [List.mem_cons, not_or] at h
    simp [cutFirst?, Ne.symm h.1, ih h.2]

/-- Does a run of characters occur somewhere? -/
def occursIn (run : List α) : List α → Bool
  | [] => run.isEmpty
  | x :: rest => run.isPrefixOf (x :: rest) || occursIn run rest

end Credential.Text
