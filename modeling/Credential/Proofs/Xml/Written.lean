import Credential.Proofs.Xml.Reread

/-!
# What is written determines the tree

The lexemes of a written tree can be read off again one by one (`front?_write`), so a tree is
determined by what is written of it, up to how its text is divided: texts side by side are written
as one (`merged_eq_of_written_eq`).
-/

namespace Credential.Xml

open Xml.Token

/-! ## Texts side by side -/

namespace Content

/-- Put a text in front; an empty one changes nothing. -/
def prependText (t : String) (c : Content) : Content :=
  if t = "" then c
  else
    match c with
    | .text u rest => .text (t ++ u) rest
    | c => .text t c

/-- The content with texts side by side put together. -/
def merged : Content → Content
  | .nil => .nil
  | .text t rest => rest.merged.prependText t
  | .comment t rest => .comment t rest.merged
  | .instruction target value rest => .instruction target value rest.merged
  | .element tag inner rest => .element tag inner.merged rest.merged

/-- No text is empty or follows a text. -/
def IsMerged : Content → Prop
  | .nil => True
  | .text t rest => t ≠ "" ∧ (∀ u more, rest ≠ .text u more) ∧ rest.IsMerged
  | .comment _ rest | .instruction _ _ rest => rest.IsMerged
  | .element _ inner rest => inner.IsMerged ∧ rest.IsMerged

theorem isMerged_prependText {t : String} {c : Content} (h : c.IsMerged) :
    (c.prependText t).IsMerged := by
  unfold prependText
  split
  · exact h
  · next ht =>
    split
    · next u rest =>
      refine ⟨fun he => ht ?_, h.2⟩
      rw [String.append_eq_empty_iff] at he
      exact he.1
    · next hne => exact ⟨ht, hne, h⟩

theorem isMerged_merged (c : Content) : c.merged.IsMerged := by
  induction c with
  | nil => trivial
  | text t rest ih => exact isMerged_prependText ih
  | comment t rest ih => exact ih
  | instruction target value rest ih => exact ih
  | element tag inner rest ih ih' => exact ⟨ih, ih'⟩

theorem Lexical.prependText {t : String} {c : Content} (ht : AllChars t.toList)
    (h : c.Lexical) : (c.prependText t).Lexical := by
  unfold Content.prependText
  split
  · exact h
  · split
    · next u rest =>
      refine ⟨?_, h.2⟩
      rw [String.toList_append]
      exact allChars_append.2 ⟨ht, h.1⟩
    · exact ⟨ht, h⟩

theorem Lexical.merged {c : Content} (h : c.Lexical) : c.merged.Lexical := by
  induction c with
  | nil => trivial
  | text t rest ih => exact (ih h.2).prependText h.1
  | comment t rest ih => exact ⟨h.1, ih h.2⟩
  | instruction target value rest ih => exact ⟨h.1, ih h.2⟩
  | element tag inner rest ih ih' => exact ⟨h.1, ih h.2.1, ih' h.2.2⟩

theorem write_prependText (t : String) (c : Content) (tail : List Char) :
    (c.prependText t).write tail = writeText t (c.write tail) := by
  unfold prependText
  split
  · next ht =>
    rw [ht]
    rfl
  · split
    · next u rest =>
      simp only [Content.write, writeText, String.toList_append, List.flatMap_append,
        List.append_assoc]
    · rfl

/-- What does not depend on texts is the same with a text in front. -/
theorem apply_prependText {α : Sort*} (f : Content → α) (hf : ∀ t c, f (.text t c) = f c)
    (t : String) (c : Content) : f (c.prependText t) = f c := by
  unfold prependText
  split
  · rfl
  · split
    · next u rest => rw [hf, hf]
    · exact hf t c

theorem elements_prependText (t : String) (c : Content) :
    (c.prependText t).elements = c.elements :=
  apply_prependText elements (fun _ _ => rfl) t c

theorem tags_prependText (t : String) (c : Content) : (c.prependText t).tags = c.tags :=
  apply_prependText tags (fun _ _ => rfl) t c

/-- Putting texts together does not change what is written. -/
theorem write_merged (c : Content) (tail : List Char) : c.merged.write tail = c.write tail := by
  induction c generalizing tail with
  | nil => rfl
  | text t rest ih => rw [merged, write_prependText, ih, Content.write]
  | comment t rest ih => rw [merged, Content.write, ih, Content.write]
  | instruction target value rest ih => rw [merged, Content.write, ih, Content.write]
  | element tag inner rest ih ih' => rw [merged, Content.write, ih, ih', Content.write]

end Content

/-- The element with texts side by side put together. -/
def Element.merged (e : Element) : Element := ⟨e.tag, e.inner.merged⟩

/-! ## Reading back content -/

namespace Content

/-- The lexeme that content starts with, where a closing tag follows it. -/
def lexeme (close : QName) : Content → Token
  | .nil => .closeTag close
  | .text t _ => .text (t.toList.flatMap textChar)
  | .comment t _ => .comment t.toList
  | .instruction target value _ => .instruction target.toList (instructionChars value)
  | .element tag _ _ => .openTag tag.name (tag.named.map rawAttribute) false

/-- What is written after that lexeme. -/
def afterLexeme (t : Tag) (tail : List Char) : Content → List Char
  | .nil => tail
  | .text _ rest | .comment _ rest | .instruction _ _ rest => rest.write (t.writeClosing tail)
  | .element tag inner rest => inner.write (tag.writeClosing (rest.write (t.writeClosing tail)))

/-- What is written of content starts with markup, unless it is a text. -/
theorem write_startsMarkup {c : Content} (h : ∀ u more, c ≠ .text u more) (t : Tag)
    (tail : List Char) : ∃ more, c.write (t.writeClosing tail) = '<' :: more := by
  cases c with
  | nil => exact ⟨_, rfl⟩
  | text u rest => exact absurd rfl (h u rest)
  | comment u rest => exact ⟨_, rfl⟩
  | instruction target value rest => exact ⟨_, rfl⟩
  | element tag inner rest => exact ⟨_, rfl⟩

/-- **The first lexeme is read back**, whatever comes after the closing tag. -/
theorem front?_write {c : Content} (hm : c.IsMerged) (hc : c.Lexical) {t : Tag}
    (ht : t.name.IsName) (tail : List Char) :
    front? (c.write (t.writeClosing tail)) = some (c.lexeme t.name, c.afterLexeme t tail) := by
  cases c with
  | nil => exact front?_closing ht tail
  | text u rest => exact front?_text hm.1 hc.1 (write_startsMarkup hm.2.1 t tail)
  | comment u rest => exact front?_comment hc.1 _
  | instruction target value rest => exact front?_instruction hc.1.1 hc.1.2 _
  | element tag inner rest => exact front?_opening hc.1 _

theorem lexeme_eq {c₁ c₂ : Content} (hm₁ : c₁.IsMerged) (hm₂ : c₂.IsMerged) (hc₁ : c₁.Lexical)
    (hc₂ : c₂.Lexical) {t₁ t₂ : Tag} (ht₁ : t₁.name.IsName) (ht₂ : t₂.name.IsName)
    {tail₁ tail₂ : List Char}
    (h : c₁.write (t₁.writeClosing tail₁) = c₂.write (t₂.writeClosing tail₂)) :
    c₁.lexeme t₁.name = c₂.lexeme t₂.name ∧ c₁.afterLexeme t₁ tail₁ = c₂.afterLexeme t₂ tail₂ := by
  have hfront := front?_write hm₁ hc₁ ht₁ tail₁
  rw [h, front?_write hm₂ hc₂ ht₂ tail₂] at hfront
  exact (Prod.mk.inj (Option.some.inj hfront)).imp Eq.symm Eq.symm

theorem instructionChars_injective {v w : Option String} (hv : ∀ s ∈ v, s ≠ "")
    (hw : ∀ s ∈ w, s ≠ "") (h : instructionChars v = instructionChars w) : v = w := by
  have h : v.getD "" = w.getD "" := String.toList_inj.1 h
  cases v with
  | none =>
    cases w with
    | none => rfl
    | some w => exact absurd h.symm (hw w rfl)
  | some v =>
    cases w with
    | none => exact absurd h (hv v rfl)
    | some w => exact congrArg some h

/-- **Content and the closing tag after it are determined by what is written**, and so is what
follows them. The induction is on the first content; that of the second is the same because it
starts with the same lexeme. -/
theorem eq_of_write_eq {c₁ c₂ : Content} (hm₁ : c₁.IsMerged) (hm₂ : c₂.IsMerged)
    (hc₁ : c₁.Lexical) (hc₂ : c₂.Lexical) {t₁ t₂ : Tag} (ht₁ : t₁.name.IsName)
    (ht₂ : t₂.name.IsName) {tail₁ tail₂ : List Char}
    (h : c₁.write (t₁.writeClosing tail₁) = c₂.write (t₂.writeClosing tail₂)) :
    c₁ = c₂ ∧ t₁.name = t₂.name ∧ tail₁ = tail₂ := by
  induction c₁ generalizing c₂ t₁ t₂ tail₁ tail₂ with
  | nil =>
    obtain ⟨hl, ha⟩ := lexeme_eq hm₁ hm₂ hc₁ hc₂ ht₁ ht₂ h
    cases c₂ with
    | nil => exact ⟨rfl, Token.closeTag.inj hl, ha⟩
    | _ => nomatch hl
  | text u rest ih =>
    obtain ⟨hl, ha⟩ := lexeme_eq hm₁ hm₂ hc₁ hc₂ ht₁ ht₂ h
    cases c₂ with
    | text v rest₂ =>
      obtain ⟨rfl, hrest⟩ := ih hm₁.2.2 hm₂.2.2 hc₁.2 hc₂.2 ht₁ ht₂ ha
      rw [flatMap_textChar_injective (Token.text.inj hl)]
      exact ⟨rfl, hrest⟩
    | _ => nomatch hl
  | comment u rest ih =>
    obtain ⟨hl, ha⟩ := lexeme_eq hm₁ hm₂ hc₁ hc₂ ht₁ ht₂ h
    cases c₂ with
    | comment v rest₂ =>
      obtain ⟨rfl, hrest⟩ : rest = rest₂ ∧ t₁.name = t₂.name ∧ tail₁ = tail₂ :=
        ih hm₁ (show rest₂.IsMerged from hm₂) hc₁.2 hc₂.2 ht₁ ht₂ ha
      rw [String.toList_inj.1 (Token.comment.inj hl)]
      exact ⟨rfl, hrest⟩
    | _ => nomatch hl
  | instruction target value rest ih =>
    obtain ⟨hl, ha⟩ := lexeme_eq hm₁ hm₂ hc₁ hc₂ ht₁ ht₂ h
    cases c₂ with
    | instruction target₂ value₂ rest₂ =>
      obtain ⟨rfl, hrest⟩ : rest = rest₂ ∧ t₁.name = t₂.name ∧ tail₁ = tail₂ :=
        ih hm₁ (show rest₂.IsMerged from hm₂) hc₁.2 hc₂.2 ht₁ ht₂ ha
      obtain ⟨htarget, hvalue⟩ := Token.instruction.inj hl
      rw [String.toList_inj.1 htarget, instructionChars_injective (fun s hs => (hc₁.1.2 s hs).1)
        (fun s hs => (hc₂.1.2 s hs).1) hvalue]
      exact ⟨rfl, hrest⟩
    | _ => nomatch hl
  | element tag inner rest ih ih' =>
    obtain ⟨hl, ha⟩ := lexeme_eq hm₁ hm₂ hc₁ hc₂ ht₁ ht₂ h
    cases c₂ with
    | element tag₂ inner₂ rest₂ =>
      obtain ⟨hname, hnamed, -⟩ := Token.openTag.inj hl
      obtain ⟨rfl, -, hafter⟩ :=
        ih hm₁.1 hm₂.1 hc₁.2.1 hc₂.2.1 hc₁.1.name hc₂.1.name ha
      obtain ⟨rfl, hrest⟩ := ih' hm₁.2 hm₂.2 hc₁.2.2 hc₂.2.2 ht₁ ht₂ hafter
      rw [Tag.eq_of_named_eq hc₁.1 hc₂.1 hname
        ((List.map_inj_right fun _ _ => rawAttribute_injective).1 hnamed)]
      exact ⟨rfl, hrest⟩
    | _ => nomatch hl

end Content

/-- **Elements that are written alike are the same**, up to how their text is divided. -/
theorem merged_eq_of_written_eq {e₁ e₂ : Element} (ht₁ : e₁.tag.Lexical) (ht₂ : e₂.tag.Lexical)
    (hc₁ : e₁.inner.Lexical) (hc₂ : e₂.inner.Lexical) (h : e₁.written = e₂.written) :
    e₁.merged = e₂.merged := by
  have hchars := String.ofList_inj.1 h
  have hfront := front?_opening ht₁ (e₁.inner.write (e₁.tag.writeClosing []))
  rw [hchars, front?_opening ht₂] at hfront
  obtain ⟨hl, ha⟩ := Prod.mk.inj (Option.some.inj hfront)
  obtain ⟨hname, hnamed, -⟩ := Token.openTag.inj hl
  have htag : e₁.tag = e₂.tag := (Tag.eq_of_named_eq ht₂ ht₁ hname
    ((List.map_inj_right fun _ _ => rawAttribute_injective).1 hnamed)).symm
  rw [← Content.write_merged, ← Content.write_merged e₁.inner] at ha
  obtain ⟨hinner, -⟩ := Content.eq_of_write_eq (Content.isMerged_merged _)
    (Content.isMerged_merged _) hc₂.merged hc₁.merged ht₂.name ht₁.name ha
  rw [Element.merged, Element.merged, htag, hinner]

end Credential.Xml
