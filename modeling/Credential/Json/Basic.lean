import Credential.Json.Numeral

/-!
# JSON values

A value is free of notation: numbers are values, strings are texts, and an object is a list of
members in the order of their names without repetition. The operations on members keep that order,
so two objects with the same members are equal.
-/

namespace Credential

/-- A JSON value. The members of an object are sorted by name and no name occurs twice. -/
inductive Json where
  | null
  | bool (value : Bool)
  | number (value : Json.Number)
  | string (value : String)
  | array (items : List Json)
  | object (members : List (String × Json))

namespace Json

/-- Members of an object: sorted by name, no name twice. -/
abbrev Members := List (String × Json)

namespace Members

/-- The value of a member. -/
def get? (name : String) : Members → Option Json
  | [] => none
  | (k, v) :: rest => if k = name then some v else get? name rest

/-- Set a member, in its place in the order; an older value of that name is replaced. -/
def insert (name : String) (value : Json) : Members → Members
  | [] => [(name, value)]
  | (k, v) :: rest =>
    if name < k then (name, value) :: (k, v) :: rest
    else if k = name then (name, value) :: rest
    else (k, v) :: insert name value rest

/-- Drop a member. -/
def erase (name : String) (ms : Members) : Members := ms.filter fun m => m.1 != name

/-- The members of a list of pairs; of several with one name the last counts. -/
def ofList (ps : List (String × Json)) : Members :=
  ps.foldl (fun ms p => ms.insert p.1 p.2) []

/-- The names stand in increasing order. -/
def Sorted (ms : Members) : Prop := ms.Pairwise fun a b => a.1 < b.1

theorem get?_insert (name other : String) (value : Json) (ms : Members) :
    (ms.insert name value).get? other = if name = other then some value else ms.get? other := by
  induction ms with
  | nil => simp [insert, get?]
  | cons m rest ih =>
    obtain ⟨k, v⟩ := m
    unfold insert
    split
    · simp [get?]
    · split
      · next h => subst h; by_cases hk : k = other <;> simp [get?, hk]
      · next h =>
        rw [get?, get?, ih]
        by_cases hk : k = other
        · subst hk; simp [Ne.symm h]
        · simp [hk]

theorem get?_erase (name other : String) (ms : Members) :
    (ms.erase name).get? other = if name = other then none else ms.get? other := by
  induction ms with
  | nil => simp [erase, get?]
  | cons m rest ih =>
    obtain ⟨k, v⟩ := m
    unfold erase at ih ⊢
    by_cases hk : k = name
    · subst hk
      by_cases ho : k = other
      · simp_all
      · simp_all [get?]
    · have hb : (k != name) = true := by simp [hk]
      rw [List.filter_cons, if_pos hb, get?, get?, ih]
      by_cases ho : k = other
      · subst ho; simp [Ne.symm hk]
      · simp [ho]

theorem mem_insert {name : String} {value : Json} {ms : Members} {p : String × Json}
    (h : p ∈ ms.insert name value) : p.1 = name ∨ p ∈ ms := by
  induction ms with
  | nil => simp [insert] at h; exact .inl (by rw [h])
  | cons m rest ih =>
    obtain ⟨k, v⟩ := m
    unfold insert at h
    split at h
    · rcases List.mem_cons.1 h with rfl | h
      · exact .inl rfl
      · exact .inr h
    · split at h
      · rcases List.mem_cons.1 h with rfl | h
        · exact .inl rfl
        · exact .inr (List.mem_cons_of_mem _ h)
      · rcases List.mem_cons.1 h with rfl | h
        · exact .inr (List.mem_cons_self ..)
        · rcases ih h with h | h
          · exact .inl h
          · exact .inr (List.mem_cons_of_mem _ h)

/-- **Setting a member keeps the order.** -/
theorem sorted_insert (name : String) (value : Json) (ms : Members) (h : Sorted ms) :
    Sorted (ms.insert name value) := by
  induction ms with
  | nil => simp [insert, Sorted]
  | cons m rest ih =>
    obtain ⟨k, v⟩ := m
    unfold Sorted at h ih ⊢
    rw [List.pairwise_cons] at h
    unfold insert
    split
    · next hlt =>
      rw [List.pairwise_cons, List.pairwise_cons]
      refine ⟨fun p hp => ?_, h⟩
      rcases List.mem_cons.1 hp with rfl | hp
      · exact hlt
      · exact String.lt_trans hlt (h.1 p hp)
    · next hnlt =>
      split
      · next he => subst he; exact List.pairwise_cons.2 h
      · next hne =>
        rw [List.pairwise_cons]
        refine ⟨fun p hp => ?_, ih h.2⟩
        rcases mem_insert hp with hp | hp
        · show k < p.1
          rw [hp]
          exact Std.lt_of_le_of_ne (Std.not_lt.1 hnlt) hne
        · exact h.1 p hp

theorem sorted_ofList (ps : List (String × Json)) : Sorted (ofList ps) := by
  unfold ofList
  suffices ∀ ms : Members, Sorted ms → Sorted (ps.foldl (fun ms p => ms.insert p.1 p.2) ms) from
    this [] List.Pairwise.nil
  induction ps with
  | nil => exact fun _ h => h
  | cons p ps ih => exact fun ms h => ih _ (sorted_insert _ _ _ h)

end Members

/-- The text of a string. -/
def asString? : Json → Option String
  | .string s => some s
  | _ => none

end Json

end Credential
