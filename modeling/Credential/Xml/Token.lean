import Credential.Text.Pieces
import Credential.Xml.Char
import Credential.Xml.Tree

/-!
# Lexemes of XML

A document falls into tags, text, literal sections, comments and processing instructions. Nothing is
interpreted here: references are not replaced and namespaces not resolved. There is no document type
declaration; one makes the document unreadable.

## Termination

`scan` takes at least one character for each lexeme, and an opening tag at least one for each
attribute.
-/

namespace Credential.Xml

/-- One lexeme, its characters as written. -/
inductive Token where
  | openTag (name : QName) (attributes : List (QName × List Char)) (empty : Bool)
  | closeTag (name : QName)
  | text (chars : List Char)
  | literal (chars : List Char)
  | comment (chars : List Char)
  | instruction (target value : List Char)
  deriving DecidableEq, Repr

namespace Token

/-! ## Runs of characters -/

def skipSpaces (cs : List Char) : List Char := cs.dropWhile isSpace

theorem skipSpaces_length (cs : List Char) : (skipSpaces cs).length ≤ cs.length :=
  (List.dropWhile_suffix isSpace).length_le

/-- The characters before a mark, in front of those in `acc`, which are in reverse; and what follows
the mark. All must be characters of XML. -/
def untilMark (mark acc : List Char) : List Char → Option (List Char × List Char)
  | [] => none
  | c :: rest =>
    if mark.isPrefixOf (c :: rest) then some (acc.reverse, (c :: rest).drop mark.length)
    else if isChar c then untilMark mark (c :: acc) rest
    else none

theorem untilMark_length {mark acc cs : List Char} {r : List Char × List Char}
    (h : untilMark mark acc cs = some r) : r.2.length ≤ cs.length := by
  fun_induction untilMark mark acc cs with
  | case1 => simp at h
  | case2 => rw [← Option.some.inj h]; simp only [List.length_drop]; omega
  | case3 acc c rest _ _ ih => have := ih h; simp only [List.length_cons]; omega
  | case4 => simp at h

/-- The characters up to the next `<` or the end. -/
def untilTag (acc : List Char) : List Char → Option (List Char × List Char)
  | [] => some (acc.reverse, [])
  | c :: rest =>
    if c = '<' then some (acc.reverse, c :: rest)
    else if isChar c then untilTag (c :: acc) rest
    else none

theorem untilTag_length {acc cs : List Char} {r : List Char × List Char}
    (h : untilTag acc cs = some r) : r.2.length ≤ cs.length := by
  fun_induction untilTag acc cs with
  | case1 => obtain rfl := Option.some.inj h; simp
  | case2 => obtain rfl := Option.some.inj h; simp
  | case3 acc c rest _ _ ih => have := ih h; simp only [List.length_cons]; omega
  | case4 => simp at h

/-- The characters up to a closing quote, which must not hold `<`. -/
def untilQuote (quote : Char) (acc : List Char) : List Char → Option (List Char × List Char)
  | [] => none
  | c :: rest =>
    if c = quote then some (acc.reverse, rest)
    else if c = '<' || !isChar c then none
    else untilQuote quote (c :: acc) rest

theorem untilQuote_length {quote : Char} {acc cs : List Char} {r : List Char × List Char}
    (h : untilQuote quote acc cs = some r) : r.2.length < cs.length := by
  fun_induction untilQuote quote acc cs with
  | case1 => simp at h
  | case2 => obtain rfl := Option.some.inj h; simp
  | case3 => simp at h
  | case4 acc c rest _ _ ih => have := ih h; simp only [List.length_cons]; omega

/-! ## Names -/

/-- The name that characters without further colons write. -/
def nameOf? (nsPrefix localName : List Char) (colon : Bool) : Option QName :=
  match localName with
  | [] => none
  | c :: _ =>
    if isNameStart c && (nsPrefix.head?.all isNameStart) then
      some ⟨String.ofList nsPrefix, String.ofList localName, colon⟩
    else none

/-- A name with at most one colon, and what follows it. -/
def qname? (cs : List Char) : Option (QName × List Char) :=
  let run := cs.takeWhile isNameChar
  let before := run.takeWhile (· != ':')
  let name? := match run.dropWhile (· != ':') with
    | [] => nameOf? [] before false
    | _ :: after => if after.contains ':' then none else nameOf? before after true
  name?.map fun n => (n, cs.dropWhile isNameChar)

theorem qname?_length {cs : List Char} {r : QName × List Char} (h : qname? cs = some r) :
    r.2.length ≤ cs.length := by
  unfold qname? at h
  obtain ⟨n, _, rfl⟩ := Option.map_eq_some_iff.1 h
  exact (List.dropWhile_suffix isNameChar).length_le

/-- The target of a processing instruction, and what follows it. -/
def target? (cs : List Char) : Option (List Char × List Char) :=
  match cs with
  | c :: _ =>
    if isNameStart c then some (cs.takeWhile isNameChar, cs.dropWhile isNameChar) else none
  | [] => none

/-! ## Tags -/

/-- An attribute as written: its name, `=` and its value between quotes; and what follows it. -/
def attribute? (cs : List Char) : Option ((QName × List Char) × List Char) :=
  match qname? cs with
  | none => none
  | some (name, cs) =>
    match skipSpaces cs with
    | '=' :: cs =>
      match skipSpaces cs with
      | [] => none
      | q :: cs =>
        if q = '"' || q = '\'' then (untilQuote q [] cs).map fun r => ((name, r.1), r.2) else none
    | _ => none

theorem attribute?_length {cs : List Char} {r : (QName × List Char) × List Char}
    (h : attribute? cs = some r) : r.2.length < cs.length := by
  unfold attribute? at h
  split at h
  · simp at h
  · next name rest hq =>
    have h1 := qname?_length hq
    split at h
    · next eqRest he =>
      have h2 := skipSpaces_length rest
      rw [he] at h2
      split at h
      · simp at h
      · next q vs hs =>
        have h3 := skipSpaces_length eqRest
        rw [hs] at h3
        split at h
        · obtain ⟨x, hx, rfl⟩ := Option.map_eq_some_iff.1 h
          have h4 := untilQuote_length hx
          simp only [List.length_cons] at h1 h2 h3 ⊢
          omega
        · simp at h
    · simp at h

/-- The attributes of a tag in front of those in `acc`, which are in reverse; whether the tag closes
its element; and what follows it. White space must stand before each attribute. -/
def attributes (acc : List (QName × List Char)) (cs : List Char) :
    Option (List (QName × List Char) × Bool × List Char) :=
  match _h : skipSpaces cs with
  | [] => none
  | '>' :: rest => some (acc.reverse, false, rest)
  | '/' :: '>' :: rest => some (acc.reverse, true, rest)
  | c :: rest =>
    if (skipSpaces cs).length = cs.length then none
    else
      match _ha : attribute? (c :: rest) with
      | none => none
      | some (a, more) => attributes (a :: acc) more
termination_by cs.length
decreasing_by
  have h1 := skipSpaces_length cs
  have h2 := attribute?_length _ha
  rw [_h] at h1
  simp only at h2
  omega

theorem attributes_length {acc : List (QName × List Char)} {cs : List Char}
    {r : List (QName × List Char) × Bool × List Char} (h : attributes acc cs = some r) :
    r.2.2.length ≤ cs.length := by
  fun_induction attributes acc cs with
  | case1 => simp at h
  | case2 acc cs rest hs =>
    have := skipSpaces_length cs
    rw [hs] at this
    rw [← Option.some.inj h]
    simp only [List.length_cons] at this ⊢
    omega
  | case3 acc cs rest hs =>
    have := skipSpaces_length cs
    rw [hs] at this
    rw [← Option.some.inj h]
    simp only [List.length_cons] at this ⊢
    omega
  | case4 => simp at h
  | case5 => simp at h
  | case6 acc cs c rest _ _ hs _ a more ha ih =>
    have h1 := skipSpaces_length cs
    have h2 := attribute?_length ha
    have h3 := ih h
    rw [hs] at h1
    simp only at h2
    omega

/-- A closing tag from its name on, and what follows it. -/
def closing? (cs : List Char) : Option (Token × List Char) :=
  match qname? cs with
  | none => none
  | some (name, cs) =>
    match skipSpaces cs with
    | '>' :: rest => some (.closeTag name, rest)
    | _ => none

/-- An opening tag from its name on, and what follows it. -/
def opening? (cs : List Char) : Option (Token × List Char) :=
  match qname? cs with
  | none => none
  | some (name, cs) => (attributes [] cs).map fun r => (.openTag name r.1 r.2.1, r.2.2)

/-! ## Other markup -/

/-- A comment from its first character on; it must not hold two hyphens nor end in one. -/
def comment? (cs : List Char) : Option (Token × List Char) :=
  match untilMark "-->".toList [] cs with
  | none => none
  | some (t, rest) =>
    if Text.occursIn "--".toList t || t.getLast? == some '-' then none else some (.comment t, rest)

/-- A literal section from its first character on. -/
def section? (cs : List Char) : Option (Token × List Char) :=
  (untilMark "]]>".toList [] cs).map fun r => (.literal r.1, r.2)

/-- A processing instruction from its target on. -/
def instruction? (cs : List Char) : Option (Token × List Char) :=
  match target? cs with
  | none => none
  | some (t, cs) =>
    (untilMark "?>".toList [] (skipSpaces cs)).map fun r => (.instruction t r.1, r.2)

/-- Text up to the next tag. The end mark of literal sections must not stand in it. -/
def text? (cs : List Char) : Option (Token × List Char) :=
  match untilTag [] cs with
  | none => none
  | some (t, rest) => if Text.occursIn "]]>".toList t then none else some (.text t, rest)

/-- What comes after a `<`. The target `xml` followed by a space belongs to the declaration of the
document, which stands elsewhere. -/
def markup? (cs : List Char) : Option (Token × List Char) :=
  match cs with
  | '/' :: cs => closing? cs
  | '?' :: cs => if "xml ".toList.isPrefixOf cs then none else instruction? cs
  | '!' :: '-' :: '-' :: cs => comment? cs
  | '!' :: '[' :: 'C' :: 'D' :: 'A' :: 'T' :: 'A' :: '[' :: cs => section? cs
  | '!' :: _ => none
  | cs => opening? cs

theorem closing?_length {cs : List Char} {r : Token × List Char} (h : closing? cs = some r) :
    r.2.length ≤ cs.length := by
  unfold closing? at h
  split at h
  · simp at h
  · next name rest hq =>
    have h1 := qname?_length hq
    split at h
    · next more hs =>
      have h2 := skipSpaces_length rest
      rw [hs] at h2
      rw [← Option.some.inj h]
      simp only [List.length_cons] at h1 h2 ⊢
      omega
    · simp at h

theorem opening?_length {cs : List Char} {r : Token × List Char} (h : opening? cs = some r) :
    r.2.length ≤ cs.length := by
  unfold opening? at h
  split at h
  · simp at h
  · next name rest hq =>
    have h1 := qname?_length hq
    obtain ⟨x, hx, rfl⟩ := Option.map_eq_some_iff.1 h
    have h2 := attributes_length hx
    simp only at h1 ⊢
    omega

theorem comment?_length {cs : List Char} {r : Token × List Char} (h : comment? cs = some r) :
    r.2.length ≤ cs.length := by
  unfold comment? at h
  split at h
  · simp at h
  · next t rest hu =>
    have h1 := untilMark_length hu
    split at h
    · simp at h
    · rw [← Option.some.inj h]; exact h1

theorem section?_length {cs : List Char} {r : Token × List Char} (h : section? cs = some r) :
    r.2.length ≤ cs.length := by
  obtain ⟨x, hx, rfl⟩ := Option.map_eq_some_iff.1 h
  exact untilMark_length hx

theorem instruction?_length {cs : List Char} {r : Token × List Char}
    (h : instruction? cs = some r) : r.2.length ≤ cs.length := by
  unfold instruction? at h
  split at h
  · simp at h
  · next t rest ht =>
    have h1 : rest.length ≤ cs.length := by
      unfold target? at ht
      split at ht
      · split at ht
        · have := Option.some.inj ht
          simp only [Prod.mk.injEq] at this
          rw [← this.2]
          exact (List.dropWhile_suffix isNameChar).length_le
        · simp at ht
      · simp at ht
    obtain ⟨x, hx, rfl⟩ := Option.map_eq_some_iff.1 h
    have h2 := untilMark_length hx
    have h3 := skipSpaces_length rest
    simp only
    omega

theorem markup?_length {cs : List Char} {r : Token × List Char} (h : markup? cs = some r) :
    r.2.length ≤ cs.length := by
  unfold markup? at h
  split at h
  · have := closing?_length h; simp only [List.length_cons]; omega
  · split at h
    · simp at h
    · have := instruction?_length h; simp only [List.length_cons]; omega
  · have := comment?_length h; simp only [List.length_cons]; omega
  · have := section?_length h; simp only [List.length_cons]; omega
  · simp at h
  · exact opening?_length h

/-- The lexeme at the front, from its first character on, and what follows it. -/
def next (c : Char) (rest : List Char) : Option (Token × List Char) :=
  if c = '<' then markup? rest else text? (c :: rest)

theorem text?_length {c : Char} {rest : List Char} {r : Token × List Char} (hc : c ≠ '<')
    (h : text? (c :: rest) = some r) : r.2.length ≤ rest.length := by
  unfold text? at h
  split at h
  · simp at h
  · next t more hu =>
    have h1 : more.length ≤ rest.length := by
      unfold untilTag at hu
      rw [if_neg hc] at hu
      split at hu
      · exact untilTag_length hu
      · simp at hu
    split at h
    · simp at h
    · rw [← Option.some.inj h]; exact h1

theorem next_length {c : Char} {rest : List Char} {r : Token × List Char}
    (h : next c rest = some r) : r.2.length ≤ rest.length := by
  unfold next at h
  split at h
  · exact markup?_length h
  · next hc => exact text?_length hc h

/-- The lexemes of a text in front of those in `acc`, which are in reverse. -/
def scanOnto (acc : List Token) (cs : List Char) : Option (List Token) :=
  match cs with
  | [] => some acc.reverse
  | c :: rest =>
    match _h : next c rest with
    | none => none
    | some (t, more) => scanOnto (t :: acc) more
termination_by cs.length
decreasing_by
  have := next_length _h
  simp only [List.length_cons] at this ⊢
  omega

/-- The lexemes of a text. -/
def scan (cs : List Char) : Option (List Token) := scanOnto [] cs

end Token

end Credential.Xml
