import Credential.Text.Blank
import Mathlib.Data.List.TakeWhile

/-!
# Text around white space

White space is left out at both ends only. A text that has none is kept (`trimChars_eq_self`), also
where others follow it (`exists_trimChars_append`). Of one character, a run at the end is left out
(`trimEndOf_eq_iff`).
-/

namespace Credential.Text

variable {cs : List Char}

theorem dropWhile_isBlank_eq_self (h : ∀ c ∈ cs, isBlank c = false) : cs.dropWhile isBlank = cs :=
  List.dropWhile_eq_self_iff.2 fun hlength => by
    rw [h _ (List.getElem_mem hlength)]
    exact Bool.false_ne_true

/-- What has no white space in it has none around it. -/
theorem trimChars_eq_self (h : ∀ c ∈ cs, isBlank c = false) : trimChars cs = cs := by
  -- first from the front, then from the back
  rw [trimChars, dropWhile_isBlank_eq_self h,
    dropWhile_isBlank_eq_self fun c hc => h c (List.mem_reverse.1 hc), List.reverse_reverse]

theorem trimChars_cons {c : Char} (h : isBlank c = true) (cs : List Char) :
    trimChars (c :: cs) = trimChars cs := by
  rw [trimChars, List.dropWhile_cons_of_pos h, ← trimChars]

/-- A text without white space in it is kept, and of what follows nothing if that is white space. -/
theorem exists_trimChars_append (hne : cs ≠ []) (h : ∀ c ∈ cs, isBlank c = false)
    (ds : List Char) :
    ∃ es, trimChars (cs ++ ds) = cs ++ es ∧ (es = [] ↔ ∀ c ∈ ds, isBlank c = true) := by
  have hfront : (cs ++ ds).dropWhile isBlank = cs ++ ds := by
    obtain ⟨c, cs, rfl⟩ := List.exists_cons_of_ne_nil hne
    exact List.dropWhile_cons_of_neg (by rw [h c List.mem_cons_self]; exact Bool.false_ne_true)
  have hback : (ds.reverse ++ cs.reverse).dropWhile isBlank
      = ds.reverse.dropWhile isBlank ++ cs.reverse := by
    rw [List.dropWhile_append]
    split
    · next hnil =>
      rw [List.isEmpty_iff.1 hnil, List.nil_append,
        dropWhile_isBlank_eq_self fun c hc => h c (List.mem_reverse.1 hc)]
    · rfl
  refine ⟨(ds.reverse.dropWhile isBlank).reverse, ?_, ?_⟩
  · rw [trimChars, hfront, List.reverse_append, hback, List.reverse_append, List.reverse_reverse]
  · rw [List.reverse_eq_nil_iff, List.dropWhile_eq_nil_iff]
    simp only [List.mem_reverse]

/-! ## A run at the end -/

/-- A text has a run at its end taken off just if that run follows what is left, as long as the
character of the run does not occur there. -/
theorem trimEndOf_eq_iff {c : Char} {s t : String} (h : c ∉ t.toList) :
    trimEndOf c s = t ↔ ∃ n, s.toList = t.toList ++ List.replicate n c := by
  rw [trimEndOf, ← String.toList_inj, String.toList_ofList]
  constructor
  · intro ht
    have hrun := List.takeWhile_append_dropWhile (p := (· == c)) (l := s.toList.reverse)
    have hall : ∀ d ∈ s.toList.reverse.takeWhile (· == c), d = c := fun d hd =>
      beq_iff_eq.1 (List.mem_takeWhile_imp (p := (· == c)) hd)
    rw [List.eq_replicate_of_mem hall, List.reverse_eq_iff.1 ht] at hrun
    refine ⟨(s.toList.reverse.takeWhile (· == c)).length, List.reverse_inj.1 ?_⟩
    rw [List.reverse_append, List.reverse_replicate]
    exact hrun.symm
  · rintro ⟨n, hs⟩
    have hrun : ∀ d ∈ List.replicate n c, (d == c) = true := fun d hd =>
      beq_iff_eq.2 (List.eq_of_mem_replicate hd)
    have hkept : t.toList.reverse.dropWhile (· == c) = t.toList.reverse :=
      List.dropWhile_eq_self_iff.2 fun hlength hc =>
        h (List.mem_reverse.1 (beq_iff_eq.1 hc ▸ List.getElem_mem hlength))
    rw [hs, List.reverse_append, List.reverse_replicate, List.dropWhile_append_of_pos hrun, hkept,
      List.reverse_reverse]

end Credential.Text
