import Credential.Json.Raw
import Mathlib.Data.List.Induction

/-!
# Members of an object

Of members that are written with one name the last counts (`get?_ofList`), so what an object holds
can be said of the members as they are written (`parse_eq_object_iff`). Setting a member shows under
its own name only (`filter_insert`).
-/

namespace Credential.Json

/-! ## Members as they are written -/

/-- The value of the last member of a name. -/
def last? (name : String) (ps : List (String × Json)) : Option Json := ps.reverse.lookup name

/-- The members of a text that is an object, in order and with the repeated ones. -/
def writtenMembers? (b : Bytes) : Option (List (String × Json)) :=
  match Raw.parse b with
  | some (.object ms) =>
    ms.mapM fun m => do return (← readString m.1, ← m.2.read (Raw.maxDepth - 1))
  | _ => none

namespace Members

variable {name : String} {ms : Members}

theorem last?_append_singleton (ps : List (String × Json)) (p : String × Json) :
    last? name (ps ++ [p]) = if p.1 = name then some p.2 else last? name ps := by
  rw [last?, List.reverse_append, List.reverse_singleton, List.singleton_append, List.lookup_cons]
  by_cases h : p.1 = name
  · rw [if_pos h, beq_iff_eq.2 h.symm]
  · rw [if_neg h, beq_eq_false_iff_ne.2 (Ne.symm h), last?]

/-- **Of several members with one name the last counts.** -/
theorem get?_ofList (ps : List (String × Json)) : (ofList ps).get? name = last? name ps := by
  induction ps using List.reverseRecOn with
  | nil => rfl
  | append_singleton ps p ih =>
    rw [ofList, List.foldl_append, List.foldl_cons, List.foldl_nil, get?_insert,
      last?_append_singleton, ← ih, ofList]

/-- **A text is an object just if its members can be read.** -/
theorem parse_eq_object_iff {b : Bytes} :
    Json.parse b = some (.object ms) ↔ ∃ ps, writtenMembers? b = some ps ∧ ms = ofList ps := by
  rw [Json.parse, writtenMembers?]
  cases Raw.parse b with
  | none => exact iff_of_false (fun h => nomatch h) fun ⟨_, h, _⟩ => nomatch h
  | some raw =>
    show raw.read Raw.maxDepth = _ ↔ _
    cases raw with
    | object rs =>
      refine Option.bind_eq_some_iff.trans (exists_congr fun ps => and_congr Iff.rfl ?_)
      exact ⟨fun h => (Json.object.inj (Option.some.inj h)).symm, fun h => h ▸ rfl⟩
    | _ =>
      refine iff_of_false (fun h => ?_) fun ⟨_, h, _⟩ => nomatch h
      simp [Raw.read, Raw.maxDepth] at h

/-! ## Setting members -/

/-- Where its name is not looked at, a member makes no difference. -/
theorem filter_insert {keep : String × Json → Bool} (value : Json)
    (h : ∀ v, keep (name, v) = false) : (ms.insert name value).filter keep = ms.filter keep := by
  induction ms with
  | nil => simp [insert, h]
  | cons m ms ih =>
    obtain ⟨k, v⟩ := m
    unfold insert
    split
    · rw [List.filter_cons_of_neg (by simp [h])]
    · split
      · next hk =>
        rw [hk, List.filter_cons_of_neg (by simp [h]), List.filter_cons_of_neg (by simp [h])]
      · rw [List.filter_cons, List.filter_cons, ih]

theorem get?_eq_none_of_forall (h : ∀ m ∈ ms, m.1 ≠ name) : ms.get? name = none := by
  induction ms with
  | nil => rfl
  | cons m ms ih =>
    obtain ⟨hm, hms⟩ := List.forall_mem_cons.1 h
    rw [get?, if_neg hm, ih hms]

/-- What is kept of a name is looked up as before. -/
theorem get?_filter {keep : String × Json → Bool} (h : ∀ v, keep (name, v) = true) :
    get? name (ms.filter keep) = ms.get? name := by
  induction ms with
  | nil => rfl
  | cons m ms ih =>
    obtain ⟨k, v⟩ := m
    by_cases hk : k = name
    · rw [hk, List.filter_cons_of_pos (h v), get?, get?, if_pos rfl, if_pos rfl]
    · rw [List.filter_cons, get?, if_neg hk]
      split
      · rw [get?, if_neg hk, ih]
      · exact ih

end Members

end Credential.Json
