import Credential.Proofs.Xml.CharacterData
import Credential.Proofs.Xml.Name

/-!
# Lexemes as read

What the parts of a document can be when they come out of reading it: names are names, a comment
does not hold its own end, an instruction does not either, and all characters are characters of XML.

Main statement: `isLexeme_of_scan`.
-/

namespace Credential.Xml

open Xml.Token

/-! ## Runs of characters -/

/-- The characters of a comment: they hold no two hyphens in a row and do not end in one. -/
structure IsComment (cs : List Char) : Prop where
  chars : AllChars cs
  noMark : Text.occursIn "--".toList cs = false
  last : cs.getLast? ≠ some '-'

/-- The target of an instruction. -/
structure IsTarget (cs : List Char) : Prop where
  head : ∃ c ds, cs = c :: ds ∧ isNameStart c = true
  chars : ∀ c ∈ cs, isNameChar c = true

/-- What an instruction says: it does not start with white space and does not hold its end mark. -/
structure IsInstructionValue (cs : List Char) : Prop where
  chars : AllChars cs
  noMark : Text.occursIn "?>".toList cs = false
  head : ∀ c ∈ cs.head?, isSpace c = false

instance (cs : List Char) : Decidable (IsComment cs) :=
  decidable_of_iff
    (AllChars cs ∧ Text.occursIn "--".toList cs = false ∧ cs.getLast? ≠ some '-')
    ⟨fun ⟨hchars, hmark, hlast⟩ => ⟨hchars, hmark, hlast⟩,
      fun h => ⟨h.chars, h.noMark, h.last⟩⟩

instance (cs : List Char) : Decidable (IsTarget cs) :=
  decidable_of_iff (cs.head?.any isNameStart = true ∧ cs.all isNameChar = true)
    ⟨fun ⟨hhead, hchars⟩ => ⟨any_head?_iff.1 hhead, List.all_eq_true.1 hchars⟩,
      fun h => ⟨any_head?_iff.2 h.head, List.all_eq_true.2 h.chars⟩⟩

instance (cs : List Char) : Decidable (IsInstructionValue cs) :=
  decidable_of_iff
    (AllChars cs ∧ Text.occursIn "?>".toList cs = false ∧ cs.head?.any isSpace = false)
    ⟨fun ⟨hchars, hmark, hhead⟩ => ⟨hchars, hmark, (Option.any_eq_false ..).1 hhead⟩,
      fun h => ⟨h.chars, h.noMark, (Option.any_eq_false ..).2 h.head⟩⟩

theorem occursIn_cons_eq_false {run : List Char} {c : Char} {cs : List Char} :
    Text.occursIn run (c :: cs) = false
      ↔ run.isPrefixOf (c :: cs) = false ∧ Text.occursIn run cs = false := by
  rw [Text.occursIn, Bool.or_eq_false_iff]

/-- A run with a character that does not occur does not occur. -/
theorem occursIn_eq_false_of_not_mem {run cs : List Char} {c : Char} (hr : c ∈ run)
    (hc : c ∉ cs) : Text.occursIn run cs = false := by
  induction cs with
  | nil =>
    rw [Text.occursIn, List.isEmpty_eq_false_iff]
    exact List.ne_nil_of_mem hr
  | cons d cs ih =>
    refine occursIn_cons_eq_false.2 ⟨?_, ih fun h => hc (List.mem_cons_of_mem _ h)⟩
    rw [Bool.eq_false_iff]
    intro hp
    exact hc ((List.isPrefixOf_iff_prefix.1 hp).subset hr)

/-- What stands before a mark: characters of XML in which the mark does not occur. -/
theorem untilMark_spec {mark acc cs rest : List Char} {r : List Char} (hm : mark ≠ [])
    (h : untilMark mark acc cs = some (r, rest)) :
    ∃ t, r = acc.reverse ++ t ∧ t <+: cs ∧ AllChars t ∧ Text.occursIn mark t = false := by
  induction cs generalizing acc with
  | nil => simp [untilMark] at h
  | cons c cs ih =>
    rw [untilMark] at h
    split at h
    · obtain ⟨rfl, -⟩ := Prod.mk.inj (Option.some.inj h)
      refine ⟨[], by simp, List.nil_prefix, allChars_nil, ?_⟩
      rw [Text.occursIn, List.isEmpty_eq_false_iff]
      exact hm
    · next hp =>
      split at h
      · next hc =>
        obtain ⟨t, rfl, ht, hall, hno⟩ := ih h
        refine ⟨c :: t, by simp, List.cons_prefix_cons.2 ⟨rfl, ht⟩, allChars_cons.2 ⟨hc, hall⟩, ?_⟩
        refine occursIn_cons_eq_false.2 ⟨?_, hno⟩
        rw [Bool.eq_false_iff]
        intro hpre
        exact hp (List.isPrefixOf_iff_prefix.2
          ((List.isPrefixOf_iff_prefix.1 hpre).trans (List.cons_prefix_cons.2 ⟨rfl, ht⟩)))
      · simp at h

theorem untilTag_spec {acc cs rest r : List Char} (h : untilTag acc cs = some (r, rest)) :
    ∃ t, r = acc.reverse ++ t ∧ AllChars t := by
  induction cs generalizing acc with
  | nil =>
    obtain ⟨rfl, -⟩ := Prod.mk.inj (Option.some.inj h)
    exact ⟨[], by simp, allChars_nil⟩
  | cons c cs ih =>
    rw [untilTag] at h
    split at h
    · obtain ⟨rfl, -⟩ := Prod.mk.inj (Option.some.inj h)
      exact ⟨[], by simp, allChars_nil⟩
    · split at h
      · next hc =>
        obtain ⟨t, rfl, ht⟩ := ih h
        exact ⟨c :: t, by simp, allChars_cons.2 ⟨hc, ht⟩⟩
      · simp at h

theorem untilQuote_spec {quote : Char} {acc cs rest r : List Char}
    (h : untilQuote quote acc cs = some (r, rest)) : ∃ t, r = acc.reverse ++ t ∧ AllChars t := by
  induction cs generalizing acc with
  | nil => simp [untilQuote] at h
  | cons c cs ih =>
    rw [untilQuote] at h
    split at h
    · obtain ⟨rfl, -⟩ := Prod.mk.inj (Option.some.inj h)
      exact ⟨[], by simp, allChars_nil⟩
    · split at h
      · simp at h
      · next hc =>
        rw [Bool.or_eq_true, not_or] at hc
        obtain ⟨t, rfl, ht⟩ := ih h
        exact ⟨c :: t, by simp, allChars_cons.2 ⟨by simpa using hc.2, ht⟩⟩

/-! ## Lexemes -/

/-- A lexeme that reading can give. -/
def Token.IsLexeme : Token → Prop
  | .openTag name attributes _ =>
    name.IsName ∧ ∀ a ∈ attributes, a.1.IsName ∧ AllChars a.2
  | .closeTag name => name.IsName
  | .text cs | .literal cs => AllChars cs
  | .comment cs => IsComment cs
  | .instruction target value => IsTarget target ∧ IsInstructionValue value

theorem isName_of_attribute? {cs rest : List Char} {a : QName × List Char}
    (h : attribute? cs = some (a, rest)) : a.1.IsName ∧ AllChars a.2 := by
  unfold attribute? at h
  split at h
  · simp at h
  · next name more hq =>
    split at h
    · split at h
      · simp at h
      · split at h
        · obtain ⟨r, hr, he⟩ := Option.map_eq_some_iff.1 h
          obtain ⟨rfl, -⟩ := Prod.mk.inj he
          obtain ⟨t, ht, hall⟩ := untilQuote_spec hr
          refine ⟨isName_of_qname? hq, ?_⟩
          rw [show (name, r.1).2 = r.1 from rfl, ht]
          simpa using hall
        · simp at h
    · simp at h

theorem isName_of_attributes {acc as : List (QName × List Char)} {cs rest : List Char}
    {empty : Bool} (h : attributes acc cs = some (as, empty, rest))
    (hacc : ∀ a ∈ acc, a.1.IsName ∧ AllChars a.2) : ∀ a ∈ as, a.1.IsName ∧ AllChars a.2 := by
  fun_induction attributes acc cs with
  | case1 => simp at h
  | case2 acc cs more hs =>
    obtain ⟨rfl, -⟩ := Prod.mk.inj (Option.some.inj h)
    exact fun a ha => hacc a (List.mem_reverse.1 ha)
  | case3 acc cs more hs =>
    obtain ⟨rfl, -⟩ := Prod.mk.inj (Option.some.inj h)
    exact fun a ha => hacc a (List.mem_reverse.1 ha)
  | case4 => simp at h
  | case5 => simp at h
  | case6 acc cs c more _ _ hs _ a after ha ih =>
    refine ih h fun b hb => ?_
    rcases List.mem_cons.1 hb with rfl | hb
    · exact isName_of_attribute? ha
    · exact hacc b hb

theorem isLexeme_of_closing? {cs rest : List Char} {t : Token}
    (h : closing? cs = some (t, rest)) : t.IsLexeme := by
  unfold closing? at h
  split at h
  · simp at h
  · next name more hq =>
    split at h
    · obtain ⟨rfl, -⟩ := Prod.mk.inj (Option.some.inj h)
      exact isName_of_qname? hq
    · simp at h

theorem isLexeme_of_opening? {cs rest : List Char} {t : Token}
    (h : opening? cs = some (t, rest)) : t.IsLexeme := by
  unfold opening? at h
  split at h
  · simp at h
  · next name more hq =>
    obtain ⟨⟨as, empty, after⟩, hr, he⟩ := Option.map_eq_some_iff.1 h
    obtain ⟨rfl, -⟩ := Prod.mk.inj he
    exact ⟨isName_of_qname? hq, isName_of_attributes hr fun a ha => absurd ha (by simp)⟩

theorem isLexeme_of_comment? {cs rest : List Char} {t : Token}
    (h : comment? cs = some (t, rest)) : t.IsLexeme := by
  unfold comment? at h
  split at h
  · simp at h
  · next r more hu =>
    split at h
    · simp at h
    · next hc =>
      rw [Bool.or_eq_true, not_or] at hc
      obtain ⟨rfl, -⟩ := Prod.mk.inj (Option.some.inj h)
      obtain ⟨t, ht, -, hall, -⟩ := untilMark_spec (by decide) hu
      rw [List.reverse_nil, List.nil_append] at ht
      exact ⟨ht ▸ hall, Bool.eq_false_iff.2 hc.1, by simpa using hc.2⟩

theorem isLexeme_of_section? {cs rest : List Char} {t : Token}
    (h : section? cs = some (t, rest)) : t.IsLexeme := by
  obtain ⟨⟨r, more⟩, hr, he⟩ := Option.map_eq_some_iff.1 h
  obtain ⟨rfl, -⟩ := Prod.mk.inj he
  obtain ⟨t, ht, -, hall, -⟩ := untilMark_spec (by decide) hr
  rw [List.reverse_nil, List.nil_append] at ht
  exact ht ▸ hall

theorem isTarget_of_target? {cs t rest : List Char} (h : target? cs = some (t, rest)) :
    IsTarget t := by
  unfold target? at h
  split at h
  · next c ds =>
    split at h
    · next hs =>
      obtain ⟨rfl, -⟩ := Prod.mk.inj (Option.some.inj h)
      have hall := List.all_takeWhile (p := isNameChar) (l := c :: ds)
      refine ⟨?_, fun d hd => List.all_eq_true.1 hall d hd⟩
      have hc : isNameChar c = true := by
        unfold isNameStart at hs
        unfold isNameChar
        split at hs
        · next hlt =>
          rw [if_pos hlt]
          simp only [Bool.or_eq_true, beq_iff_eq] at hs ⊢
          rcases hs with (hs | hs) | hs
          · exact Or.inl (Or.inl (Or.inl (Or.inl (by simp [Char.isAlphanum, hs]))))
          · exact Or.inl (Or.inl (Or.inl (Or.inr hs)))
          · exact Or.inl (Or.inl (Or.inr hs))
        · next hlt => rw [if_neg hlt, hs, Bool.true_or]
      exact ⟨c, ds.takeWhile isNameChar, by rw [List.takeWhile_cons_of_pos hc], hs⟩
    · simp at h
  · simp at h

theorem isLexeme_of_instruction? {cs rest : List Char} {t : Token}
    (h : instruction? cs = some (t, rest)) : t.IsLexeme := by
  unfold instruction? at h
  split at h
  · simp at h
  · next target more ht =>
    obtain ⟨⟨r, following⟩, hr, he⟩ := Option.map_eq_some_iff.1 h
    obtain ⟨rfl, -⟩ := Prod.mk.inj he
    obtain ⟨v, hv, hpre, hall, hno⟩ := untilMark_spec (by decide) hr
    rw [List.reverse_nil, List.nil_append] at hv
    refine ⟨isTarget_of_target? ht, hv ▸ hall, hv ▸ hno, fun c hc => ?_⟩
    -- the value stands in front of what is left when the spaces are skipped
    obtain ⟨after, hafter⟩ := hpre
    have hhead : (more.dropWhile isSpace).head? = some c := by
      rw [show more.dropWhile isSpace = skipSpaces more from rfl, ← hafter, ← hv,
        List.head?_append, hc]
      rfl
    have := List.head?_dropWhile_not isSpace more
    rw [hhead] at this
    exact this

theorem isLexeme_of_text? {cs rest : List Char} {t : Token} (h : text? cs = some (t, rest)) :
    t.IsLexeme := by
  unfold text? at h
  split at h
  · simp at h
  · next r more hu =>
    split at h
    · simp at h
    · obtain ⟨rfl, -⟩ := Prod.mk.inj (Option.some.inj h)
      obtain ⟨t, ht, hall⟩ := untilTag_spec hu
      rw [List.reverse_nil, List.nil_append] at ht
      exact ht ▸ hall

theorem isLexeme_of_next {c : Char} {cs rest : List Char} {t : Token}
    (h : next c cs = some (t, rest)) : t.IsLexeme := by
  unfold next at h
  split at h
  · unfold markup? at h
    split at h
    · exact isLexeme_of_closing? h
    · split at h
      · simp at h
      · exact isLexeme_of_instruction? h
    · exact isLexeme_of_comment? h
    · exact isLexeme_of_section? h
    · simp at h
    · exact isLexeme_of_opening? h
  · exact isLexeme_of_text? h

/-- **Reading gives lexemes only.** -/
theorem isLexeme_of_scan {cs : List Char} {ts : List Token} (h : scan cs = some ts) :
    ∀ t ∈ ts, t.IsLexeme := by
  have key : ∀ acc cs ts, scanOnto acc cs = some ts → (∀ t ∈ acc, t.IsLexeme) →
      ∀ t ∈ ts, t.IsLexeme := by
    intro acc cs ts h hacc
    fun_induction scanOnto acc cs with
    | case1 acc =>
      obtain rfl := Option.some.inj h
      exact fun t ht => hacc t (List.mem_reverse.1 ht)
    | case2 => simp at h
    | case3 acc c rest t more hn ih =>
      refine ih h fun s hs => ?_
      rcases List.mem_cons.1 hs with rfl | hs
      · exact isLexeme_of_next hn
      · exact hacc s hs
  exact key [] cs ts h fun t ht => absurd ht (by simp)

end Credential.Xml
