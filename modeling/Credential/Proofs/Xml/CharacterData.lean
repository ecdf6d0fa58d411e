import Credential.Proofs.Xml.Name
import Credential.Xml.Printer
import Credential.Xml.Tag

/-!
# Character data is read back

What is written of a text or of an attribute value is read back (`readText_written`,
`readValue_written`), so it determines the text or the value. And what is read, whether it was
written so or not, holds characters of XML only (`isChar_of_characterData?` and its companions).

The writer refers to every carriage return, so line ends play no part in reading back. Still the
reader has to be followed one character beyond a reference, since it takes that character as it is.
-/

namespace Credential.Xml

/-- Only characters that a document may hold. -/
def AllChars (cs : List Char) : Prop := ∀ c ∈ cs, isChar c = true

instance (cs : List Char) : Decidable (AllChars cs) :=
  decidable_of_iff (cs.all isChar = true) List.all_eq_true

theorem allChars_nil : AllChars [] := fun c hc => absurd hc (by simp)

theorem allChars_cons {c : Char} {cs : List Char} :
    AllChars (c :: cs) ↔ isChar c = true ∧ AllChars cs := List.forall_mem_cons

theorem allChars_append {cs ds : List Char} :
    AllChars (cs ++ ds) ↔ AllChars cs ∧ AllChars ds := List.forall_mem_append

theorem AllChars.reverse {cs : List Char} (h : AllChars cs) : AllChars cs.reverse :=
  fun c hc => h c (List.mem_reverse.1 hc)

/-! ## What is written -/

/-- The characters that a text writer refers to. -/
def isTextSpecial (c : Char) : Bool := c == '&' || c == '<' || c == '>' || c == '\r'

/-- The characters that a value writer refers to. -/
def isValueSpecial (c : Char) : Bool :=
  c == '&' || c == '<' || c == '"' || c == '\t' || c == '\n' || c == '\r'

theorem textChar_of_not_special {c : Char} (h : isTextSpecial c = false) : textChar c = [c] := by
  unfold textChar
  split
  case h_5 => rfl
  all_goals exact absurd h (by decide)

theorem valueChar_of_not_special {c : Char} (h : isValueSpecial c = false) :
    valueChar c = [c] := by
  unfold valueChar
  split
  case h_7 => rfl
  all_goals exact absurd h (by decide)

theorem eq_of_isTextSpecial {c : Char} (h : isTextSpecial c = true) :
    c = '&' ∨ c = '<' ∨ c = '>' ∨ c = '\r' := by
  simpa [isTextSpecial, or_assoc] using h

theorem eq_of_isValueSpecial {c : Char} (h : isValueSpecial c = true) :
    c = '&' ∨ c = '<' ∨ c = '"' ∨ c = '\t' ∨ c = '\n' ∨ c = '\r' := by
  simpa [isValueSpecial, or_assoc] using h

/-- A character that a text writer refers to is what the reference stands for. -/
theorem textChar_reference {c : Char} (h : isTextSpecial c = true) :
    ∃ cs, textChar c = '&' :: cs ∧ ∀ more, reference? (cs ++ more) = some (c, more) := by
  rcases eq_of_isTextSpecial h with rfl | rfl | rfl | rfl
  · exact ⟨"amp;".toList, rfl, fun _ => rfl⟩
  · exact ⟨"lt;".toList, rfl, fun _ => rfl⟩
  · exact ⟨"gt;".toList, rfl, fun _ => rfl⟩
  · exact ⟨"#xD;".toList, rfl, fun _ => rfl⟩

/-- A character that a value writer refers to is what the reference stands for. -/
theorem valueChar_reference {c : Char} (h : isValueSpecial c = true) :
    ∃ cs, valueChar c = '&' :: cs ∧ ∀ more, reference? (cs ++ more) = some (c, more) := by
  rcases eq_of_isValueSpecial h with rfl | rfl | rfl | rfl | rfl | rfl
  · exact ⟨"amp;".toList, rfl, fun _ => rfl⟩
  · exact ⟨"lt;".toList, rfl, fun _ => rfl⟩
  · exact ⟨"quot;".toList, rfl, fun _ => rfl⟩
  · exact ⟨"#x9;".toList, rfl, fun _ => rfl⟩
  · exact ⟨"#xA;".toList, rfl, fun _ => rfl⟩
  · exact ⟨"#xD;".toList, rfl, fun _ => rfl⟩

/-- A written character is a character of XML, and none that ends a text. -/
theorem textChar_chars {c : Char} (h : isChar c = true) :
    ∀ d ∈ textChar c, isChar d = true ∧ d ≠ '<' ∧ d ≠ '>' := by
  cases hs : isTextSpecial c with
  | true =>
    rcases eq_of_isTextSpecial hs with rfl | rfl | rfl | rfl <;>
      exact all_decide_iff.1 (by decide)
  | false =>
    rw [textChar_of_not_special hs]
    intro d hd
    rw [List.mem_singleton] at hd
    subst hd
    refine ⟨h, ?_, ?_⟩ <;> rintro rfl <;> exact absurd hs (by decide)

/-- A written character is a character of XML, and none that ends a value. -/
theorem valueChar_chars {c : Char} (h : isChar c = true) :
    ∀ d ∈ valueChar c, isChar d = true ∧ d ≠ '<' ∧ d ≠ '"' := by
  cases hs : isValueSpecial c with
  | true =>
    rcases eq_of_isValueSpecial hs with rfl | rfl | rfl | rfl | rfl | rfl <;>
      exact all_decide_iff.1 (by decide)
  | false =>
    rw [valueChar_of_not_special hs]
    intro d hd
    rw [List.mem_singleton] at hd
    subst hd
    refine ⟨h, ?_, ?_⟩ <;> rintro rfl <;> exact absurd hs (by decide)

theorem written_text_chars {t : List Char} (h : AllChars t) :
    ∀ d ∈ t.flatMap textChar, isChar d = true ∧ d ≠ '<' ∧ d ≠ '>' := by
  intro d hd
  obtain ⟨c, hc, hdc⟩ := List.mem_flatMap.1 hd
  exact textChar_chars (h c hc) d hdc

theorem written_value_chars {v : List Char} (h : AllChars v) :
    ∀ d ∈ v.flatMap valueChar, isChar d = true ∧ d ≠ '<' ∧ d ≠ '"' := by
  intro d hd
  obtain ⟨c, hc, hdc⟩ := List.mem_flatMap.1 hd
  exact valueChar_chars (h c hc) d hdc

theorem flatMap_textChar_ne_nil {t : List Char} (h : t ≠ []) : t.flatMap textChar ≠ [] := by
  cases t with
  | nil => exact absurd rfl h
  | cons c t =>
    rw [List.flatMap_cons]
    cases hs : isTextSpecial c with
    | true =>
      obtain ⟨cs, hcs, -⟩ := textChar_reference hs
      rw [hcs]
      exact List.cons_ne_nil _ _
    | false =>
      rw [textChar_of_not_special hs]
      exact List.cons_ne_nil _ _

/-! ## Reading back -/

theorem readText_reference {acc more : List Char} {plain : Bool} {x : Char} {cs : List Char}
    (h : reference? cs = some (x, more)) :
    readText acc plain ('&' :: cs) = readText (x :: acc) true more := by
  rw [readText, if_pos rfl]
  split
  · next hn => rw [h] at hn; exact absurd hn (by simp)
  · next y more' hy =>
    rw [h] at hy
    obtain ⟨rfl, rfl⟩ := Prod.mk.inj (Option.some.inj hy)
    rfl

theorem pushChar_of_ne {last : Bool} {c : Char} {acc : List Char} (hc : c ≠ '\r')
    (ha : acc.head? ≠ some '\r') : pushChar last c acc = c :: acc := by
  unfold pushChar
  split
  · exact absurd rfl ha
  · rw [if_neg (by simp [hc])]

/-- **A text is read back.** A carriage return is only ever read by reference, so it is the last
character only right after a reference. -/
theorem readText_written (t acc : List Char) (plain : Bool)
    (h : plain = true ∨ acc.head? ≠ some '\r') :
    readText acc plain (t.flatMap textChar) = some (acc.reverse ++ t) := by
  induction t generalizing acc plain with
  | nil => rw [List.flatMap_nil, readText, List.append_nil]
  | cons c t ih =>
    have hrest : acc.reverse ++ c :: t = (c :: acc).reverse ++ t := by simp
    rw [List.flatMap_cons, hrest]
    cases hs : isTextSpecial c with
    | true =>
      obtain ⟨cs, hcs, hr⟩ := textChar_reference hs
      rw [hcs, List.cons_append, readText_reference (hr _)]
      exact ih _ _ (Or.inl rfl)
    | false =>
      have hamp : c ≠ '&' := by rintro rfl; exact absurd hs (by decide)
      have hcr : c ≠ '\r' := by rintro rfl; exact absurd hs (by decide)
      rw [textChar_of_not_special hs, List.singleton_append, readText, if_neg hamp]
      have hpush : (if plain = true then c :: acc
          else pushChar (t.flatMap textChar).isEmpty c acc) = c :: acc := by
        split
        · rfl
        · next hp => exact pushChar_of_ne hcr (h.resolve_left hp)
      rw [hpush]
      exact ih _ _ (Or.inr (by simpa using hcr))

theorem readValue_reference {acc more : List Char} {x : Char} {cs : List Char}
    (h : reference? cs = some (x, more)) :
    readValue acc ('&' :: cs) = readValue (x :: acc) more := by
  rw [readValue, if_pos rfl]
  · split
    · next hn => rw [h] at hn; exact absurd hn (by simp)
    · next y more' hy =>
      rw [h] at hy
      obtain ⟨rfl, rfl⟩ := Prod.mk.inj (Option.some.inj hy)
      rfl
  · intro rest hc
    exact absurd hc (by decide)

/-- **An attribute value is read back.** -/
theorem readValue_written (v acc : List Char) :
    readValue acc (v.flatMap valueChar) = some (acc.reverse ++ v) := by
  induction v generalizing acc with
  | nil => rw [List.flatMap_nil, readValue, List.append_nil]
  | cons c v ih =>
    have hrest : acc.reverse ++ c :: v = (c :: acc).reverse ++ v := by simp
    rw [List.flatMap_cons, hrest]
    cases hs : isValueSpecial c with
    | true =>
      obtain ⟨cs, hcs, hr⟩ := valueChar_reference hs
      rw [hcs, List.cons_append, readValue_reference (hr _)]
      exact ih _
    | false =>
      have hamp : c ≠ '&' := by rintro rfl; exact absurd hs (by decide)
      have hcr : c ≠ '\r' := by rintro rfl; exact absurd hs (by decide)
      have hsp : spaced c = c := by
        unfold spaced
        rw [if_neg]
        intro h
        simp only [Bool.or_eq_true, decide_eq_true_eq] at h
        rcases h with (rfl | rfl) | rfl <;> exact absurd hs (by decide)
      rw [valueChar_of_not_special hs, List.singleton_append, readValue, if_neg hamp, hsp]
      · exact ih _
      · intro rest he
        exact absurd he hcr

theorem flatMap_textChar_injective {s t : String}
    (h : s.toList.flatMap textChar = t.toList.flatMap textChar) : s = t := by
  have hs := readText_written s.toList [] true (Or.inl rfl)
  have ht := readText_written t.toList [] true (Or.inl rfl)
  rw [h, ht] at hs
  exact String.toList_inj.1 (by simpa using hs.symm)

theorem flatMap_valueChar_injective {s t : String}
    (h : s.toList.flatMap valueChar = t.toList.flatMap valueChar) : s = t := by
  have hs := readValue_written s.toList []
  have ht := readValue_written t.toList []
  rw [h, ht] at hs
  exact String.toList_inj.1 (by simpa using hs.symm)

/-! ## What is read -/

theorem isChar_of_namedChar? {name : List Char} {c : Char} (h : namedChar? name = some c) :
    isChar c = true := by
  unfold namedChar? at h
  repeat' split at h
  any_goals (obtain rfl := Option.some.inj h; decide)
  exact absurd h (by simp)

/-- What a reference stands for is a character of XML, and what follows it stands at the end. -/
theorem isChar_of_reference? {cs more : List Char} {x : Char}
    (h : reference? cs = some (x, more)) : isChar x = true ∧ ∀ c ∈ more, c ∈ cs := by
  have hdrop : ∀ (p : Char → Bool) (ds : List Char) (rest : List Char),
      ds.dropWhile p = ';' :: rest → ∀ c ∈ rest, c ∈ ds := fun p ds rest hd c hc =>
    (List.dropWhile_suffix p).subset (by rw [hd]; exact List.mem_cons_of_mem _ hc)
  have hnumeric : ∀ (base : Nat) (p : Char → Bool) (ds : List Char),
      numericReference? base p ds = some (x, more) → isChar x = true ∧ ∀ c ∈ more, c ∈ ds := by
    intro base p ds hn
    unfold numericReference? at hn
    cases hr : referenceNumber? base (ds.takeWhile p) with
    | none => simp [hr] at hn
    | some n =>
      simp only [hr, bind, Option.bind] at hn
      split at hn
      · next hc =>
        split at hn
        · next rest hd =>
          obtain ⟨rfl, rfl⟩ := Prod.mk.inj (Option.some.inj hn)
          exact ⟨hc, hdrop p ds rest hd⟩
        · simp at hn
      · simp at hn
  unfold reference? at h
  split at h
  · next ds =>
    obtain ⟨hx, hm⟩ := hnumeric 16 isHexDigit ds h
    exact ⟨hx, fun c hc => List.mem_cons_of_mem _ (List.mem_cons_of_mem _ (hm c hc))⟩
  · next ds _ =>
    obtain ⟨hx, hm⟩ := hnumeric 10 Char.isDigit ds h
    exact ⟨hx, fun c hc => List.mem_cons_of_mem _ (hm c hc)⟩
  · unfold namedReference? at h
    cases hn : namedChar? (cs.takeWhile isNameChar) with
    | none => simp [hn] at h
    | some c =>
      simp only [hn, bind, Option.bind] at h
      split at h
      · next rest hd =>
        obtain ⟨rfl, rfl⟩ := Prod.mk.inj (Option.some.inj h)
        exact ⟨isChar_of_namedChar? hn, hdrop isNameChar cs rest hd⟩
      · simp at h

theorem AllChars.pushChar {last : Bool} {c : Char} {acc : List Char} (hc : isChar c = true)
    (h : AllChars acc) : AllChars (pushChar last c acc) := by
  have hlf : isChar '\n' = true := by decide
  unfold Xml.pushChar
  split
  · next before =>
    have hb := (allChars_cons.1 h).2
    split
    · exact allChars_cons.2 ⟨hlf, allChars_cons.2 ⟨hlf, hb⟩⟩
    · split
      · exact allChars_cons.2 ⟨hlf, hb⟩
      · exact allChars_cons.2 ⟨hc, allChars_cons.2 ⟨hlf, hb⟩⟩
  · split
    · exact allChars_cons.2 ⟨hlf, h⟩
    · exact allChars_cons.2 ⟨hc, h⟩

theorem isChar_of_readText {acc cs out : List Char} {plain : Bool}
    (h : readText acc plain cs = some out) (ha : AllChars acc) (hc : AllChars cs) :
    AllChars out := by
  fun_induction readText acc plain cs with
  | case1 acc plain =>
    rw [← Option.some.inj h]
    exact ha.reverse
  | case2 => simp at h
  | case3 acc plain rest x more hr ih =>
    obtain ⟨hx, hm⟩ := isChar_of_reference? hr
    exact ih h (allChars_cons.2 ⟨hx, ha⟩) (fun c hcm => (allChars_cons.1 hc).2 c (hm c hcm))
  | case4 acc plain c rest _ ih =>
    obtain ⟨hc, hrest⟩ := allChars_cons.1 hc
    refine ih h ?_ hrest
    split
    · exact allChars_cons.2 ⟨hc, ha⟩
    · exact ha.pushChar hc

/-- **Texts as read hold characters of XML only.** -/
theorem isChar_of_characterData? {cs : List Char} {t : String} (h : characterData? cs = some t)
    (hc : AllChars cs) : AllChars t.toList := by
  obtain ⟨out, ho, rfl⟩ := Option.map_eq_some_iff.1 h
  rw [String.toList_ofList]
  exact isChar_of_readText ho allChars_nil hc

theorem isChar_readLines {acc cs : List Char} (ha : AllChars acc) (hc : AllChars cs) :
    AllChars (readLines acc cs) := by
  induction cs generalizing acc with
  | nil => exact ha.reverse
  | cons c cs ih =>
    obtain ⟨hc, hcs⟩ := allChars_cons.1 hc
    exact ih (ha.pushChar hc) hcs

theorem isChar_literalData {cs : List Char} (hc : AllChars cs) :
    AllChars (literalData cs).toList := by
  rw [literalData, String.toList_ofList]
  exact isChar_readLines allChars_nil hc

theorem isChar_spaced {c : Char} (h : isChar c = true) : isChar (spaced c) = true := by
  unfold spaced
  split
  · decide
  · exact h

theorem isChar_of_readValue {acc cs out : List Char} (h : readValue acc cs = some out)
    (ha : AllChars acc) (hc : AllChars cs) : AllChars out := by
  fun_induction readValue acc cs with
  | case1 acc =>
    rw [← Option.some.inj h]
    exact ha.reverse
  | case2 acc rest ih => exact ih h ha (allChars_cons.1 hc).2
  | case3 => simp at h
  | case4 acc rest x more hr _ ih =>
    obtain ⟨hx, hm⟩ := isChar_of_reference? hr
    exact ih h (allChars_cons.2 ⟨hx, ha⟩) (fun c hcm => (allChars_cons.1 hc).2 c (hm c hcm))
  | case5 acc c rest _ _ ih =>
    obtain ⟨hc, hrest⟩ := allChars_cons.1 hc
    exact ih h (allChars_cons.2 ⟨isChar_spaced hc, ha⟩) hrest

/-- **Attribute values as read hold characters of XML only.** -/
theorem isChar_of_attributeValue? {cs : List Char} {v : String}
    (h : attributeValue? cs = some v) (hc : AllChars cs) : AllChars v.toList := by
  obtain ⟨out, ho, rfl⟩ := Option.map_eq_some_iff.1 h
  rw [String.toList_ofList]
  exact isChar_of_readValue ho allChars_nil hc

end Credential.Xml
