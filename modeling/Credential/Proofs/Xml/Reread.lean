import Credential.Proofs.Xml.WellFormed
import Credential.Xml.Printer

/-!
# Lexemes are read back

Text, comments, instructions and tags are read back from what is written of them, together with what
follows (`front?_text`, `front?_comment`, `front?_instruction`, `front?_opening`, `front?_closing`).
What is read back from a tag gives the tag (`Tag.eq_of_named_eq`).

`Token.front?` takes one lexeme like the reader, but instructions with any target. The target `xml`
is one that the reader leaves out in front of a space, though it gives it in front of a tab.
-/

namespace Credential.Xml

open Xml.Token

/-! ## Reading back runs of characters -/

namespace Token

/-- The lexeme at the front, which may be an instruction with any target. -/
def front? : List Char → Option (Token × List Char)
  | '<' :: '?' :: cs => instruction? cs
  | c :: cs => next c cs
  | [] => none

theorem untilTag_append {cs : List Char} (h : ∀ c ∈ cs, isChar c = true ∧ c ≠ '<')
    (acc tail : List Char) : untilTag acc (cs ++ tail) = untilTag (cs.reverse ++ acc) tail := by
  induction cs generalizing acc with
  | nil => rfl
  | cons c cs ih =>
    rw [List.forall_mem_cons] at h
    rw [List.cons_append, untilTag, if_neg h.1.2, if_pos h.1.1, ih h.2]
    simp

theorem untilQuote_append {cs : List Char} (h : ∀ c ∈ cs, isChar c = true ∧ c ≠ '<' ∧ c ≠ '"')
    (acc tail : List Char) :
    untilQuote '"' acc (cs ++ '"' :: tail) = some (acc.reverse ++ cs, tail) := by
  induction cs generalizing acc with
  | nil => rw [List.nil_append, untilQuote, if_pos rfl, List.append_nil]
  | cons c cs ih =>
    rw [List.forall_mem_cons] at h
    obtain ⟨hc, hlt, hq⟩ := h.1
    rw [List.cons_append, untilQuote, if_neg hq, if_neg (by simp [hlt, hc]), ih h.2]
    simp

theorem commentMark : "-->".toList = ['-', '-', '>'] := by decide

theorem instructionMark : "?>".toList = ['?', '>'] := by decide

theorem untilMark_comment {cs : List Char} (h : IsComment cs) (acc tail : List Char) :
    untilMark "-->".toList acc (cs ++ ("-->".toList ++ tail)) = some (acc.reverse ++ cs, tail) := by
  rw [commentMark]
  induction cs generalizing acc with
  | nil => rw [List.append_nil]; rfl
  | cons c cs ih =>
    obtain ⟨hc, hcs⟩ := allChars_cons.1 h.chars
    obtain ⟨hp, hno⟩ := occursIn_cons_eq_false.1 h.noMark
    have hlast : cs.getLast? ≠ some '-' := fun hl => h.last (by
      rw [List.getLast?_cons, hl]
      rfl)
    have hmark : ['-', '-', '>'].isPrefixOf (c :: (cs ++ (['-', '-', '>'] ++ tail))) = false := by
      rw [Bool.eq_false_iff]
      intro hm
      -- the mark would start with this hyphen and one of the comment, or with the last one
      obtain ⟨rfl, hm'⟩ := List.cons_prefix_cons.1 (List.isPrefixOf_iff_prefix.1 hm)
      cases cs with
      | nil => exact h.last rfl
      | cons d ds =>
        obtain ⟨rfl, -⟩ := List.cons_prefix_cons.1 hm'
        exact absurd hp (by simp)
    rw [List.cons_append, untilMark, hmark, if_neg (by simp), if_pos hc, ih ⟨hcs, hno, hlast⟩,
      List.reverse_cons, List.append_assoc, List.singleton_append]

theorem untilMark_instruction {cs : List Char} (h : AllChars cs)
    (hno : Text.occursIn "?>".toList cs = false) (acc tail : List Char) :
    untilMark "?>".toList acc (cs ++ ("?>".toList ++ tail)) = some (acc.reverse ++ cs, tail) := by
  rw [instructionMark] at hno ⊢
  induction cs generalizing acc with
  | nil => rw [List.append_nil]; rfl
  | cons c cs ih =>
    obtain ⟨hc, hcs⟩ := allChars_cons.1 h
    obtain ⟨hp, hno⟩ := occursIn_cons_eq_false.1 hno
    have hmark : ['?', '>'].isPrefixOf (c :: (cs ++ (['?', '>'] ++ tail))) = false := by
      rw [Bool.eq_false_iff]
      intro hm
      obtain ⟨rfl, hm'⟩ := List.cons_prefix_cons.1 (List.isPrefixOf_iff_prefix.1 hm)
      cases cs with
      | nil =>
        obtain ⟨he, -⟩ := List.cons_prefix_cons.1 hm'
        exact absurd he (by decide)
      | cons d ds =>
        obtain ⟨rfl, -⟩ := List.cons_prefix_cons.1 hm'
        exact absurd hp (by simp)
    rw [List.cons_append, untilMark, hmark, if_neg (by simp), if_pos hc, ih hcs hno,
      List.reverse_cons, List.append_assoc, List.singleton_append]

theorem skipSpaces_of_head {c : Char} {cs : List Char} (h : isSpace c = false) :
    skipSpaces (c :: cs) = c :: cs :=
  List.dropWhile_cons_of_neg (by simp [h])

theorem skipSpaces_space (cs : List Char) : skipSpaces (' ' :: cs) = skipSpaces cs :=
  List.dropWhile_cons_of_pos (by decide)

/-! ## Reading back text, comments and instructions -/

theorem text?_written {t : String} (h : AllChars t.toList) {tail : List Char}
    (ht : ∃ more, tail = '<' :: more) :
    text? (writeText t tail) = some (.text (t.toList.flatMap textChar), tail) := by
  obtain ⟨more, rfl⟩ := ht
  have hchars := written_text_chars h
  have hno : Text.occursIn "]]>".toList (t.toList.flatMap textChar) = false :=
    occursIn_eq_false_of_not_mem (show '>' ∈ "]]>".toList by decide)
      fun hm => (hchars _ hm).2.2 rfl
  rw [writeText, text?, untilTag_append (fun c hc => ⟨(hchars c hc).1, (hchars c hc).2.1⟩),
    untilTag, if_pos rfl, List.append_nil, List.reverse_reverse]
  exact if_neg (by rw [hno]; simp)

theorem front?_text {t : String} (hne : t ≠ "") (h : AllChars t.toList) {tail : List Char}
    (ht : ∃ more, tail = '<' :: more) :
    front? (writeText t tail) = some (.text (t.toList.flatMap textChar), tail) := by
  have hread := text?_written h ht
  have hnil : t.toList ≠ [] := fun he => hne (String.toList_inj.1 (by rw [he, String.toList_empty]))
  cases hw : t.toList.flatMap textChar with
  | nil => exact absurd hw (flatMap_textChar_ne_nil hnil)
  | cons c cs =>
    have hc : c ≠ '<' := (written_text_chars h c (by rw [hw]; simp)).2.1
    rw [writeText, hw, List.cons_append] at hread ⊢
    have hnext : front? (c :: (cs ++ tail)) = next c (cs ++ tail) := by
      unfold front?
      split
      · next he => exact absurd (List.cons.inj he).1 hc
      · next he => rw [(List.cons.inj he).1, (List.cons.inj he).2]
      · next he => exact absurd he (by simp)
    rw [hnext, next, if_neg hc, hread]

theorem front?_comment {t : String} (h : IsComment t.toList) (tail : List Char) :
    front? (writeComment t tail) = some (.comment t.toList, tail) := by
  show comment? (t.toList ++ ("-->".toList ++ tail)) = _
  have hlast : (t.toList.getLast? == some '-') = false := by
    rw [beq_eq_false_iff_ne]
    exact h.last
  rw [comment?, untilMark_comment h]
  exact if_neg (by rw [List.reverse_nil, List.nil_append, h.noMark, hlast]; simp)

/-- What an instruction says, which may be nothing. -/
def instructionChars (value : Option String) : List Char := (value.getD "").toList

/-- The target of an instruction is read back, if what follows does not go on like a name. -/
theorem target?_append {target cs : List Char} (ht : IsTarget target)
    (hcs : ∀ c ∈ cs.head?, isNameChar c = false) : target? (target ++ cs) = some (target, cs) := by
  obtain ⟨c, ds, rfl, hs⟩ := ht.head
  have htake : cs.takeWhile isNameChar = [] := by
    cases cs with
    | nil => rfl
    | cons d cs => exact List.takeWhile_cons_of_neg (by simp [hcs d rfl])
  have hdrop : cs.dropWhile isNameChar = cs := by
    cases cs with
    | nil => rfl
    | cons d cs => exact List.dropWhile_cons_of_neg (by simp [hcs d rfl])
  rw [List.cons_append, target?, if_pos hs, ← List.cons_append,
    List.takeWhile_append_of_pos ht.chars, List.dropWhile_append_of_pos ht.chars, htake, hdrop,
    List.append_nil]

theorem front?_instruction {target : String} {value : Option String}
    (ht : IsTarget target.toList) (hv : ∀ v ∈ value, v ≠ "" ∧ IsInstructionValue v.toList)
    (tail : List Char) :
    front? (writeInstruction target value tail)
      = some (.instruction target.toList (instructionChars value), tail) := by
  cases value with
  | none =>
    show instruction? (target.toList ++ ("?>".toList ++ tail)) = _
    rw [instruction?, target?_append ht (by rw [instructionMark]; simp; decide)]
    rfl
  | some v =>
    obtain ⟨-, hval⟩ := hv v rfl
    have hskip : skipSpaces (' ' :: (v.toList ++ ("?>".toList ++ tail)))
        = v.toList ++ ("?>".toList ++ tail) := by
      rw [skipSpaces_space]
      cases hvl : v.toList with
      | nil => rfl
      | cons c cs => exact skipSpaces_of_head (hval.head c (by rw [hvl]; rfl))
    show instruction? (target.toList ++ (' ' :: (v.toList ++ ("?>".toList ++ tail)))) = _
    rw [instruction?, target?_append ht (by simp; decide)]
    simp only [hskip, untilMark_instruction hval.chars hval.noMark]
    rfl

end Token

/-! ## Reading back tags -/

/-- The name of the attribute that makes a declaration. -/
def Declaration.name (d : Declaration) : QName :=
  if d.nsPrefix = "" then ⟨"", "xmlns", false⟩ else ⟨"xmlns", d.nsPrefix, true⟩

theorem Declaration.written_name (d : Declaration) : d.name.written = d.written := by
  unfold Declaration.name Declaration.written
  split
  · rfl
  · rw [QName.written, if_pos rfl, ← show "xmlns" ++ ":" = "xmlns:" from by decide]

theorem Declaration.Lexical.name {d : Declaration} (h : d.Lexical) : d.name.IsName := by
  unfold Declaration.name
  split
  · exact ⟨isNcName_xmlns, Or.inl rfl, fun _ => rfl⟩
  · next hne =>
    exact ⟨h.nsPrefix.resolve_left hne, Or.inr isNcName_xmlns, fun hc => by simp at hc⟩

/-- The attribute of a declaration makes that declaration. -/
theorem Declaration.declaration?_name (d : Declaration) :
    Attribute.declaration? ⟨d.name, d.uri⟩ = some d := by
  unfold Declaration.name Attribute.declaration?
  split
  · next he =>
    rw [if_neg (show ("" : String) ≠ "xmlns" by decide), if_pos rfl, ← he]
  · rw [if_pos rfl]

namespace Tag

/-- What stands between the name of a tag and its end, with names that are not written yet. -/
def named (t : Tag) : List Attribute :=
  t.declarations.map (fun d => ⟨d.name, d.uri⟩) ++ t.attributes

theorem pairs_eq (t : Tag) : t.pairs = t.named.map fun a => (a.name.written, a.value) := by
  rw [pairs, named, List.map_append, List.map_map]
  congr 1
  refine List.map_congr_left fun d _ => ?_
  show (d.written, d.uri) = (d.name.written, d.uri)
  rw [Declaration.written_name]

theorem Lexical.named {t : Tag} (h : t.Lexical) :
    ∀ a ∈ t.named, a.name.IsName ∧ AllChars a.value.toList := by
  intro a ha
  rcases List.mem_append.1 ha with ha | ha
  · obtain ⟨d, hd, rfl⟩ := List.mem_map.1 ha
    exact ⟨(h.declarations d hd).name, (h.declarations d hd).uri⟩
  · exact ⟨(h.attributes a ha).name, (h.attributes a ha).value⟩

/-- Only the declarations of a tag declare anything. -/
theorem Lexical.declarations_named {t : Tag} (h : t.Lexical) :
    t.named.filterMap Attribute.declaration? = t.declarations := by
  rw [Tag.named, List.filterMap_append, List.filterMap_map,
    List.filterMap_eq_nil_iff.2 fun a ha => (h.attributes a ha).declares, List.append_nil]
  rw [show Attribute.declaration? ∘ (fun d : Declaration => ⟨d.name, d.uri⟩) = some from
    funext Declaration.declaration?_name, List.filterMap_some]

theorem Lexical.attributes_named {t : Tag} (h : t.Lexical) :
    t.named.filter (·.declaration?.isNone) = t.attributes := by
  rw [Tag.named, List.filter_append, List.filter_eq_nil_iff.2, List.nil_append,
    List.filter_eq_self.2 fun a ha => by rw [(h.attributes a ha).declares]; rfl]
  intro a ha
  obtain ⟨d, -, rfl⟩ := List.mem_map.1 ha
  rw [d.declaration?_name]
  simp

/-- **What a tag names gives back the tag**, since its attributes declare nothing. -/
theorem eq_of_named_eq {t u : Tag} (ht : t.Lexical) (hu : u.Lexical) (hn : t.name = u.name)
    (h : t.named = u.named) : t = u := by
  have hd : t.declarations = u.declarations := by
    rw [← ht.declarations_named, ← hu.declarations_named, h]
  have ha : t.attributes = u.attributes := by
    rw [← ht.attributes_named, ← hu.attributes_named, h]
  cases t
  cases u
  simp only at hn hd ha
  rw [hn, hd, ha]

end Tag

namespace Token

/-- An attribute as the reader takes it from a tag. -/
def rawAttribute (a : Attribute) : QName × List Char := (a.name, a.value.toList.flatMap valueChar)

theorem rawAttribute_injective {a b : Attribute} (h : rawAttribute a = rawAttribute b) : a = b := by
  obtain ⟨hn, hv⟩ := Prod.mk.inj h
  cases a
  cases b
  simp only at hn hv
  rw [hn, flatMap_valueChar_injective hv]

theorem attribute?_written {a : Attribute} (hn : a.name.IsName) (hv : AllChars a.value.toList)
    (tail : List Char) :
    attribute? (a.name.written.toList ++ ('=' :: '"' :: writeValue a.value ('"' :: tail)))
      = some (rawAttribute a, tail) := by
  have hq := untilQuote_append (written_value_chars hv) [] tail
  have heq : skipSpaces ('=' :: '"' :: writeValue a.value ('"' :: tail))
      = '=' :: '"' :: writeValue a.value ('"' :: tail) := skipSpaces_of_head (by decide)
  have hquote : skipSpaces ('"' :: writeValue a.value ('"' :: tail))
      = '"' :: writeValue a.value ('"' :: tail) := skipSpaces_of_head (by decide)
  rw [attribute?, qname?_written hn (by simp; decide)]
  simp only [heq, hquote]
  rw [writeValue, hq]
  rfl

/-- One more attribute is read from a tag. -/
theorem attributes_writePair {a : Attribute} (hn : a.name.IsName) (hv : AllChars a.value.toList)
    (acc : List (QName × List Char)) (tail : List Char) :
    attributes acc (writePair a.name.written a.value tail)
      = attributes (rawAttribute a :: acc) tail := by
  obtain ⟨c, cs, hc, hname⟩ := hn.exists_cons
  have hread := attribute?_written hn hv tail
  have hspace : isSpace c = false := by
    rw [Bool.eq_false_iff]
    intro hs
    unfold isSpace at hs
    have hnone : ∀ d ∈ [' ', '\t', '\n', '\r'], isNameChar d = false :=
      all_decide_iff.1 (by decide)
    have hd : ∀ d ∈ [' ', '\t', '\n', '\r'], c ≠ d := fun d hd => isNameChar_ne hname (hnone d hd)
    simp only [List.forall_mem_cons] at hd
    simp [hd.1, hd.2.1, hd.2.2.1, hd.2.2.2.1] at hs
  have hskip : skipSpaces (writePair a.name.written a.value tail)
      = a.name.written.toList ++ ('=' :: '"' :: writeValue a.value ('"' :: tail)) := by
    rw [writePair, skipSpaces_space, hc]
    exact skipSpaces_of_head hspace
  have hlength : (a.name.written.toList ++ ('=' :: '"' :: writeValue a.value ('"' :: tail))).length
      ≠ (writePair a.name.written a.value tail).length := by
    simp only [writePair, List.length_append, List.length_cons]
    omega
  rw [attributes]
  split
  · next he =>
    rw [hskip, hc] at he
    exact absurd he (by simp)
  · next more he =>
    rw [hskip, hc] at he
    exact absurd (List.cons.inj he).1 (isNameChar_ne hname (by decide))
  · next more he =>
    rw [hskip, hc] at he
    exact absurd (List.cons.inj he).1 (isNameChar_ne hname (by decide))
  · next d more _ _ he =>
    rw [if_neg (by rw [hskip]; exact hlength)]
    rw [hskip] at he
    rw [he] at hread
    split
    · next hnone =>
      rw [hnone] at hread
      exact absurd hread (by simp)
    · next b rest hsome =>
      rw [hsome] at hread
      obtain ⟨rfl, rfl⟩ := Prod.mk.inj (Option.some.inj hread)
      rfl

theorem attributes_written {as : List Attribute}
    (h : ∀ a ∈ as, a.name.IsName ∧ AllChars a.value.toList) (acc : List (QName × List Char))
    (tail : List Char) :
    attributes acc (as.foldr (fun a rest => writePair a.name.written a.value rest) ('>' :: tail))
      = some (acc.reverse ++ as.map rawAttribute, false, tail) := by
  induction as generalizing acc with
  | nil =>
    show attributes acc ('>' :: tail) = some (acc.reverse ++ [], false, tail)
    rw [attributes, List.append_nil]
    have hskip : skipSpaces ('>' :: tail) = '>' :: tail := skipSpaces_of_head (by decide)
    split
    · next he => rw [hskip] at he; exact absurd he (by simp)
    · next he => rw [hskip] at he; rw [(List.cons.inj he).2]
    · next he => rw [hskip] at he; exact absurd (List.cons.inj he).1 (by decide)
    · next hne _ he =>
      rw [hskip] at he
      exact absurd (List.cons.inj he).1.symm hne
  | cons a as ih =>
    rw [List.forall_mem_cons] at h
    rw [List.foldr_cons, attributes_writePair h.1.1 h.1.2, ih h.2, List.reverse_cons,
      List.append_assoc, List.map_cons, List.singleton_append]

theorem front?_opening {t : Tag} (h : t.Lexical) (tail : List Char) :
    front? (t.writeOpening tail)
      = some (.openTag t.name (t.named.map rawAttribute) false, tail) := by
  obtain ⟨c, cs, hc, hname⟩ := h.name.exists_cons
  have hne : ∀ d, isNameChar d = false → c ≠ d := fun d => isNameChar_ne hname
  have hpairs : t.pairs.foldr (fun p rest => writePair p.1 p.2 rest) ('>' :: tail)
      = t.named.foldr (fun a rest => writePair a.name.written a.value rest) ('>' :: tail) := by
    rw [t.pairs_eq, List.foldr_map]
  have hhead : ∀ d ∈ (t.named.foldr (fun a rest => writePair a.name.written a.value rest)
      ('>' :: tail)).head?, isNameChar d = false := by
    cases t.named with
    | nil => simp; decide
    | cons a as => simp [writePair]; decide
  have hopening : opening? (t.name.written.toList
      ++ t.pairs.foldr (fun p rest => writePair p.1 p.2 rest) ('>' :: tail))
        = some (.openTag t.name (t.named.map rawAttribute) false, tail) := by
    rw [hpairs, opening?, qname?_written h.name hhead]
    simp only [attributes_written h.named]
    rfl
  rw [Tag.writeOpening]
  rw [hc, List.cons_append] at hopening ⊢
  -- a name starts with none of the characters that start other markup
  have hnext : ∀ ds, front? ('<' :: c :: ds) = opening? (c :: ds) := by
    intro ds
    unfold front?
    split
    · next he => exact absurd (List.cons.inj (List.cons.inj he).2).1 (hne _ (by decide))
    · next d ds' _ he =>
      obtain ⟨rfl, rfl⟩ := List.cons.inj he
      rw [next, if_pos rfl]
      unfold markup?
      split
      · next he => exact absurd (List.cons.inj he).1 (hne _ (by decide))
      · next he => exact absurd (List.cons.inj he).1 (hne _ (by decide))
      · next he => exact absurd (List.cons.inj he).1 (hne _ (by decide))
      · next he => exact absurd (List.cons.inj he).1 (hne _ (by decide))
      · next he => exact absurd (List.cons.inj he).1 (hne _ (by decide))
      · rfl
    · next he => exact absurd he (by simp)
  rw [hnext, hopening]

theorem front?_closing {t : Tag} (h : t.name.IsName) (tail : List Char) :
    front? (t.writeClosing tail) = some (.closeTag t.name, tail) := by
  have hskip : skipSpaces ('>' :: tail) = '>' :: tail := skipSpaces_of_head (by decide)
  show closing? (t.name.written.toList ++ ('>' :: tail)) = _
  rw [closing?, qname?_written h (by simp; decide)]
  simp only [hskip]

end Token

end Credential.Xml
