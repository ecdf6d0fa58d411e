import Credential.Json.Record

/-!
# What a record is read from

The fields of a record that is written as an object are what stands under their names
(`Record.get?_of_object`); no field may stand there twice, and the names of all members must be
texts (`Record.ofRaw?_object_eq_some_iff`). In a record that is written as an array they are the
items in their places (`Record.get?_of_array`).
-/

namespace Credential.Json

/-- The members of an object with their names as texts. -/
def named? (ms : List (Bytes × Raw)) : Option (List (String × Raw)) :=
  ms.mapM fun m => (readString m.1).map fun name => (name, m.2)

/-- The values under a name, in order. -/
def under (name : String) (ps : List (String × Raw)) : List Raw :=
  (ps.filter (·.1 == name)).map (·.2)

namespace Record

variable {names : List String} {name : String} {v : Raw} {ps : List (String × Raw)}

/-! ## Names -/

theorem named?_cons_eq_some_iff {k : Bytes} {ms : List (Bytes × Raw)} :
    named? ((k, v) :: ms) = some ps
      ↔ ∃ name qs, readString k = some name ∧ named? ms = some qs ∧ ps = (name, v) :: qs := by
  rw [named?, List.mapM_cons, ← named?]
  constructor
  · intro h
    obtain ⟨p, hp, h⟩ := Option.bind_eq_some_iff.1 h
    obtain ⟨name, hname, rfl⟩ := Option.map_eq_some_iff.1 hp
    obtain ⟨qs, hqs, h⟩ := Option.bind_eq_some_iff.1 h
    exact ⟨name, qs, hname, hqs, (Option.some.inj h).symm⟩
  · rintro ⟨name, qs, hname, hqs, rfl⟩
    exact Option.bind_eq_some_iff.2 ⟨(name, v), Option.map_eq_some_iff.2 ⟨name, hname, rfl⟩,
      Option.bind_eq_some_iff.2 ⟨qs, hqs, rfl⟩⟩

theorem under_cons_self : under name ((name, v) :: ps) = v :: under name ps := by
  simp [under]

theorem under_cons_of_ne {k : String} (h : k ≠ name) :
    under name ((k, v) :: ps) = under name ps := by
  simp [under, h]

/-- No name stands there more than once. -/
def Once (names : List String) (ps : List (String × Raw)) : Prop :=
  ∀ name ∈ names, (under name ps).length ≤ 1

theorem once_cons_of_mem (h : name ∈ names) :
    Once names ((name, v) :: ps) ↔ under name ps = [] ∧ Once names ps := by
  constructor
  · intro honce
    have hnil : under name ps = [] := by
      have := honce name h
      rw [under_cons_self, List.length_cons] at this
      exact List.eq_nil_of_length_eq_zero (by omega)
    refine ⟨hnil, fun n hn => ?_⟩
    by_cases hne : name = n
    · rw [← hne, hnil]
      exact Nat.zero_le 1
    · exact under_cons_of_ne hne ▸ honce n hn
  · rintro ⟨hnil, honce⟩ n hn
    by_cases hne : name = n
    · rw [← hne, under_cons_self, hnil]
      exact Nat.le_refl 1
    · exact (under_cons_of_ne hne).symm ▸ honce n hn

theorem once_cons_of_not_mem (h : name ∉ names) :
    Once names ((name, v) :: ps) ↔ Once names ps := by
  refine forall₂_congr fun n hn => ?_
  have hne : name ≠ n := fun he => h (he ▸ hn)
  rw [under_cons_of_ne hne]

/-! ## Objects -/

/-- The members that are fields. -/
def fieldsOf (names : List String) (ps : List (String × Raw)) : List (String × Raw) :=
  ps.filter fun p => names.contains p.1

theorem fieldsOf_cons_of_mem (h : name ∈ names) :
    fieldsOf names ((name, v) :: ps) = (name, v) :: fieldsOf names ps := by
  simp [fieldsOf, h]

theorem fieldsOf_cons_of_not_mem (h : name ∉ names) :
    fieldsOf names ((name, v) :: ps) = fieldsOf names ps := by
  simp [fieldsOf, h]

theorem any_fieldsOf_eq_false_iff (h : name ∈ names) :
    (fieldsOf names ps).any (·.1 == name) = false ↔ under name ps = [] := by
  simp only [fieldsOf, under, List.any_eq_false, List.mem_filter, List.map_eq_nil_iff,
    List.filter_eq_nil_iff, beq_iff_eq, List.contains_iff_mem]
  exact ⟨fun hall p hp he => hall p ⟨hp, he ▸ h⟩ he, fun hall p hp => hall p hp.1⟩

theorem Once.of_cons (h : Once names ((name, v) :: ps)) : Once names ps := by
  by_cases hmem : name ∈ names
  · exact ((once_cons_of_mem hmem).1 h).2
  · exact (once_cons_of_not_mem hmem).1 h

/-- One member more is kept if it is a field, unless it stands there already. -/
theorem collected_cons_eq_some_iff {fields : List (String × Raw)} (honce : Once names ps) :
    (if names.contains name then
      if (fieldsOf names ps).any (·.1 == name) then none else some ((name, v) :: fieldsOf names ps)
    else some (fieldsOf names ps)) = some fields
      ↔ Once names ((name, v) :: ps) ∧ fields = fieldsOf names ((name, v) :: ps) := by
  by_cases hmem : name ∈ names
  · rw [if_pos (List.contains_iff_mem.2 hmem), once_cons_of_mem hmem, fieldsOf_cons_of_mem hmem,
      ← any_fieldsOf_eq_false_iff hmem]
    cases (fieldsOf names ps).any (·.1 == name) with
    | true => simp
    | false => simp [honce, eq_comm]
  · rw [if_neg (mt List.contains_iff_mem.1 hmem), once_cons_of_not_mem hmem,
      fieldsOf_cons_of_not_mem hmem]
    simp [honce, eq_comm]

/-- Fields are collected exactly if all names are texts and none of a field stands there twice. -/
theorem collect_eq_some_iff {ms : List (Bytes × Raw)} {fields : List (String × Raw)} :
    collect names ms = some fields
      ↔ ∃ ps, named? ms = some ps ∧ Once names ps ∧ fields = fieldsOf names ps := by
  induction ms generalizing fields with
  | nil =>
    constructor
    · intro h
      obtain rfl := Option.some.inj h
      exact ⟨[], rfl, fun _ _ => Nat.zero_le 1, rfl⟩
    · rintro ⟨ps, hps, -, rfl⟩
      obtain rfl := Option.some.inj hps
      rfl
  | cons m rest ih =>
    obtain ⟨k, v⟩ := m
    simp only [collect, Option.bind_eq_bind, Option.bind_eq_some_iff, ih, named?_cons_eq_some_iff]
    constructor
    · rintro ⟨name, hname, more, ⟨qs, hqs, honce, rfl⟩, h⟩
      exact ⟨(name, v) :: qs, ⟨name, qs, hname, hqs, rfl⟩, (collected_cons_eq_some_iff honce).1 h⟩
    · rintro ⟨ps, ⟨name, qs, hname, hqs, rfl⟩, h⟩
      have honce : Once names qs := h.1.of_cons
      exact ⟨name, hname, _, ⟨qs, hqs, honce, rfl⟩, (collected_cons_eq_some_iff honce).2 h⟩

theorem ofRaw?_object_eq_some_iff {ms : List (Bytes × Raw)} {r : Record} :
    ofRaw? names (.object ms) = some r
      ↔ ∃ ps, named? ms = some ps ∧ Once names ps ∧ r.fields = fieldsOf names ps := by
  rw [ofRaw?, Option.map_eq_some_iff]
  constructor
  · rintro ⟨fields, hfields, rfl⟩
    exact collect_eq_some_iff.1 hfields
  · intro h
    exact ⟨r.fields, collect_eq_some_iff.2 h, rfl⟩

/-- **A field of an object is what stands under its name.** -/
theorem get?_of_object {r : Record} (hfields : r.fields = fieldsOf names ps)
    (honce : Once names ps) (hname : name ∈ names) : (r.get? name).toList = under name ps := by
  have hfind : r.get? name = (under name ps).head? := by
    rw [get?, hfields, fieldsOf, List.find?_filter, under, List.head?_map, List.head?_filter]
    congr 2
    funext p
    by_cases hp : p.1 = name
    · simp [hp, hname]
    · simp [hp]
  rw [hfind]
  have hlength := honce name hname
  generalize under name ps = values at hlength ⊢
  rcases values with - | ⟨v, - | ⟨w, rest⟩⟩
  · rfl
  · rfl
  · rw [List.length_cons, List.length_cons] at hlength
    omega

/-! ## Arrays -/

/-- **A field of an array is the item in its place.** -/
theorem get?_of_array {items : List Raw} (hname : name ∈ names) :
    get? ⟨names.zip items⟩ name = items[names.idxOf name]? := by
  induction names generalizing items with
  | nil => cases hname
  | cons n names ih =>
    cases items with
    | nil => rfl
    | cons v items =>
      by_cases hn : n = name
      · simp [get?, hn]
      · have hrest : get? ⟨names.zip items⟩ name = items[names.idxOf name]? :=
          ih ((List.mem_cons.1 hname).resolve_left (Ne.symm hn))
        simp only [get?, List.zip_cons_cons] at hrest ⊢
        rw [List.find?_cons_of_neg (by simpa using hn), hrest, List.idxOf_cons,
          beq_false_of_ne hn, cond_false, List.getElem?_cons_succ]

end Record

end Credential.Json
