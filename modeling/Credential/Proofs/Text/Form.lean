import Credential.Text.Form
import Mathlib.Data.List.Duplicate

/-!
# Parameters and their names

A form in which no name occurs twice is as good as the set of its parameters: a name has the value
that it occurs with (`value?_eq_some_iff`), whatever else is there and in whatever order. Otherwise
some name is found that occurs twice (`firstRepeated?_eq_none_iff`, `duplicate_of_firstRepeated?`).

In any form a name has a list of values (`values`), of which the first is its value. Where it has at
most one, the order of the form does not matter (`values_eq_of_perm`).
-/

namespace Credential.Form

/-! ## Repetitions -/

section

variable {α : Type} [BEq α] [LawfulBEq α] {x : α} {seen l : List α}

theorem firstRepeated?_eq_none_iff_of_seen :
    firstRepeated? seen l = none ↔ l.Nodup ∧ ∀ x ∈ l, x ∉ seen := by
  induction l generalizing seen with
  | nil => simp [firstRepeated?]
  | cons y l ih =>
    rw [firstRepeated?]
    by_cases hy : y ∈ seen
    · rw [if_pos (List.contains_iff_mem.2 hy)]
      exact iff_of_false (fun h => nomatch h) fun h => h.2 y List.mem_cons_self hy
    · rw [if_neg (mt List.contains_iff_mem.1 hy), ih, List.nodup_cons, List.forall_mem_cons]
      simp only [List.mem_cons, not_or]
      constructor
      · rintro ⟨hnodup, hrest⟩
        exact ⟨⟨fun hmem => (hrest y hmem).1 rfl, hnodup⟩, hy, fun x hx => (hrest x hx).2⟩
      · rintro ⟨⟨hmem, hnodup⟩, -, hrest⟩
        exact ⟨hnodup, fun x hx => ⟨fun he => hmem (he ▸ hx), hrest x hx⟩⟩

/-- Nothing is found just if nothing occurs twice. -/
theorem firstRepeated?_eq_none_iff : firstRepeated? [] l = none ↔ l.Nodup := by
  rw [firstRepeated?_eq_none_iff_of_seen]
  exact and_iff_left fun x _ => List.not_mem_nil

theorem mem_of_firstRepeated? (h : firstRepeated? seen l = some x) :
    (x ∈ seen ∧ x ∈ l) ∨ List.Duplicate x l := by
  induction l generalizing seen with
  | nil => cases h
  | cons y l ih =>
    rw [firstRepeated?] at h
    by_cases hy : y ∈ seen
    · rw [if_pos (List.contains_iff_mem.2 hy)] at h
      obtain rfl := Option.some.inj h
      exact Or.inl ⟨hy, List.mem_cons_self⟩
    · rw [if_neg (mt List.contains_iff_mem.1 hy)] at h
      rcases ih h with ⟨hseen, hmem⟩ | hdup
      · rcases List.mem_cons.1 hseen with rfl | hseen
        · exact Or.inr hmem.duplicate_cons_self
        · exact Or.inl ⟨hseen, List.mem_cons_of_mem y hmem⟩
      · exact Or.inr (hdup.duplicate_cons y)

/-- What is found occurs twice. -/
theorem duplicate_of_firstRepeated? (h : firstRepeated? [] l = some x) : List.Duplicate x l :=
  (mem_of_firstRepeated? h).resolve_left fun hseen => nomatch hseen.1

end

/-! ## Values -/

/-- No name occurs twice. -/
def Distinct (ps : List Parameter) : Prop := (ps.map (·.name)).Nodup

instance (ps : List Parameter) : Decidable (Distinct ps) := inferInstanceAs (Decidable (List.Nodup _))

variable {ps qs : List Parameter} {name value : String}

/-- **A name has the value that it occurs with.** -/
theorem value?_eq_some_iff (h : Distinct ps) : value? name ps = some value ↔ ⟨name, value⟩ ∈ ps := by
  rw [value?, Option.map_eq_some_iff]
  constructor
  · rintro ⟨p, hp, rfl⟩
    obtain rfl : p.name = name := by simpa using List.find?_some hp
    exact List.mem_of_find?_eq_some hp
  · intro hmem
    obtain ⟨p, hp⟩ : ∃ p, ps.find? (·.name == name) = some p :=
      Option.isSome_iff_exists.1 (List.find?_isSome.2 ⟨_, hmem, by simp⟩)
    have hname : p.name = name := by simpa using List.find?_some hp
    -- of the parameters there is only one of this name
    have hsame : p = ⟨name, value⟩ :=
      List.inj_on_of_nodup_map h (List.mem_of_find?_eq_some hp) hmem hname
    exact ⟨p, hp, congrArg Parameter.value hsame⟩

/-- Two forms that hold a name with the same values give it the same value. -/
theorem value?_congr (hps : Distinct ps) (hqs : Distinct qs)
    (h : ∀ value, (⟨name, value⟩ : Parameter) ∈ ps ↔ ⟨name, value⟩ ∈ qs) :
    value? name ps = value? name qs :=
  Option.ext fun value => by rw [value?_eq_some_iff hps, value?_eq_some_iff hqs, h]

theorem distinct_of_perm (h : qs.Perm ps) (hps : Distinct ps) : Distinct qs :=
  (h.map _).nodup_iff.2 hps

/-! ## All values of a name -/

/-- The values that a name occurs with, in order. -/
def values (name : String) (ps : List Parameter) : List String :=
  (ps.filter (·.name == name)).map (·.value)

theorem head?_values (name : String) (ps : List Parameter) :
    (values name ps).head? = value? name ps := by
  rw [value?, values, List.head?_map, List.head?_filter]

/-- What is not repeated is the value or nothing. -/
theorem values_eq_toList_iff {o : Option String} (h : (values name ps).length ≤ 1) :
    values name ps = o.toList ↔ value? name ps = o := by
  rw [← head?_values]
  match hvalues : values name ps with
  | [] => cases o <;> simp
  | [x] => cases o <;> simp
  | x :: y :: rest =>
    rw [hvalues] at h
    exact absurd h (by simp)

theorem values_append_of_unnamed (h : ∀ p ∈ qs, p.name ≠ name) :
    values name (ps ++ qs) = values name ps := by
  have hnone : qs.filter (·.name == name) = [] :=
    List.filter_eq_nil_iff.2 fun p hp => by simpa using h p hp
  rw [values, List.filter_append, hnone, List.append_nil, ← values]

/-- A name that is not repeated has the same values in every order of the parameters. -/
theorem values_eq_of_perm {o : Option String} (hperm : qs.Perm ps)
    (h : values name ps = o.toList) : values name qs = o.toList := by
  have hvalues : (values name qs).Perm o.toList := h ▸ (hperm.filter _).map _
  cases o with
  | none => exact List.perm_nil.1 hvalues
  | some x => exact List.perm_singleton.1 hvalues

end Credential.Form
