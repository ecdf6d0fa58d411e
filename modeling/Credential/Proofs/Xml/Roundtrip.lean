import Credential.Proofs.Xml.Written

/-!
# A written element is read back

An element is read back from what is written of it, as a document of its own, up to how its text is
divided (`Document.read?_written`).

The lexemes of written content are found one after the other (`scanOnto_write`), and reading them
puts the content in front of what has been read before it (`readElement_tokens`). Only an
instruction with the target `xml` cannot be read back: in front of a space the reader takes it for
the declaration of the document.
-/

namespace Credential.Xml

open Xml.Token

/-! ## Scanning -/

namespace Token

/-- The reader takes a lexeme, unless it is an instruction with the target `xml`. -/
theorem next_of_front? {c : Char} {cs more : List Char} {t : Token}
    (h : front? (c :: cs) = some (t, more)) (ht : ∀ value, t ≠ .instruction "xml".toList value) :
    next c cs = some (t, more) := by
  unfold front? at h
  split at h
  · next ds he =>
    obtain ⟨rfl, rfl⟩ := List.cons.inj he
    have hno : "xml ".toList.isPrefixOf ds = false := by
      rw [Bool.eq_false_iff]
      intro hp
      obtain ⟨rest, rfl⟩ := List.isPrefixOf_iff_prefix.1 hp
      unfold instruction? at h
      split at h
      · simp at h
      · next target after htarget =>
        have hxml : target? ("xml ".toList ++ rest) = some ("xml".toList, ' ' :: rest) := rfl
        rw [hxml, Option.some.injEq, Prod.mk.injEq] at htarget
        obtain ⟨r, -, he⟩ := Option.map_eq_some_iff.1 h
        rw [Prod.mk.injEq, ← htarget.1] at he
        exact ht r.1 he.1.symm
    rw [next, if_pos rfl, markup?, hno]
    exact h
  · next d ds _ he =>
    obtain ⟨rfl, rfl⟩ := List.cons.inj he
    exact h
  · next he => exact absurd he (by simp)

theorem scanOnto_of_front? {cs more : List Char} {t : Token} (h : front? cs = some (t, more))
    (ht : ∀ value, t ≠ .instruction "xml".toList value) (acc : List Token) :
    scanOnto acc cs = scanOnto (t :: acc) more := by
  cases cs with
  | nil => exact absurd h (by simp [front?])
  | cons c cs =>
    have hnext := next_of_front? h ht
    rw [scanOnto]
    split
    · next hn => rw [hn] at hnext; exact absurd hnext (by simp)
    · next s after hs =>
      rw [hs] at hnext
      obtain ⟨rfl, rfl⟩ := Prod.mk.inj (Option.some.inj hnext)
      rfl

end Token

namespace Content

/-- The targets of all instructions, in document order. -/
def targets : Content → List String
  | .nil => []
  | .text _ rest | .comment _ rest => rest.targets
  | .instruction target _ rest => target :: rest.targets
  | .element _ inner rest => inner.targets ++ rest.targets

/-- The lexemes of content. -/
def tokens : Content → List Token
  | .nil => []
  | .text t rest => .text (t.toList.flatMap textChar) :: rest.tokens
  | .comment t rest => .comment t.toList :: rest.tokens
  | .instruction target value rest =>
    .instruction target.toList (instructionChars value) :: rest.tokens
  | .element tag inner rest =>
    .openTag tag.name (tag.named.map rawAttribute) false
      :: (inner.tokens ++ .closeTag tag.name :: rest.tokens)

theorem lexeme_ne_xml {c : Content} (h : "xml" ∉ c.targets) (close : QName) :
    ∀ value, c.lexeme close ≠ .instruction "xml".toList value := by
  intro value
  cases c with
  | instruction target v rest =>
    intro he
    have htarget : target = "xml" := String.toList_inj.1 (Token.instruction.inj he).1
    exact h (htarget ▸ List.mem_cons_self)
  | _ => simp [lexeme]

theorem scanOnto_first {c : Content} (hm : c.IsMerged) (hc : c.Lexical) (hx : "xml" ∉ c.targets)
    {t : Tag} (ht : t.name.IsName) (acc : List Token) (tail : List Char) :
    scanOnto acc (c.write (t.writeClosing tail))
      = scanOnto (c.lexeme t.name :: acc) (c.afterLexeme t tail) :=
  scanOnto_of_front? (front?_write hm hc ht tail) (lexeme_ne_xml hx t.name) acc

/-- **The lexemes of content are found where it is written**, and then the closing tag. -/
theorem scanOnto_write {c : Content} (hm : c.IsMerged) (hc : c.Lexical) (hx : "xml" ∉ c.targets)
    {t : Tag} (ht : t.name.IsName) (acc : List Token) (tail : List Char) :
    scanOnto acc (c.write (t.writeClosing tail))
      = scanOnto (.closeTag t.name :: (c.tokens.reverse ++ acc)) tail := by
  induction c generalizing t acc tail with
  | nil => exact scanOnto_first hm hc hx ht acc tail
  | text u rest ih =>
    rw [scanOnto_first hm hc hx ht, afterLexeme, ih hm.2.2 hc.2 hx ht]
    simp [tokens, lexeme]
  | comment u rest ih =>
    rw [scanOnto_first hm hc hx ht, afterLexeme, ih hm hc.2 hx ht]
    simp [tokens, lexeme]
  | instruction target value rest ih =>
    have hrest : "xml" ∉ rest.targets := fun h => hx (List.mem_cons_of_mem _ h)
    rw [scanOnto_first hm hc hx ht, afterLexeme, ih hm hc.2 hrest ht]
    simp [tokens, lexeme]
  | element tag inner rest ih ih' =>
    have hinner : "xml" ∉ inner.targets := fun h => hx (List.mem_append_left _ h)
    have hrest : "xml" ∉ rest.targets := fun h => hx (List.mem_append_right _ h)
    rw [scanOnto_first hm hc hx ht, afterLexeme, ih hm.1 hc.2.1 hinner hc.1.name,
      ih' hm.2 hc.2.2 hrest ht]
    simp [tokens, lexeme]

end Content

/-! ## Tags -/

theorem readAttributes?_written (as : List Attribute) :
    readAttributes? (as.map rawAttribute) = some as := by
  unfold readAttributes?
  induction as with
  | nil => rfl
  | cons a as ih =>
    have hvalue : attributeValue? (rawAttribute a).2 = some a.value := by
      rw [attributeValue?, rawAttribute, readValue_written, List.reverse_nil, List.nil_append,
        Option.map_some, String.ofList_toList]
    rw [List.map_cons, List.mapM_cons, ih, hvalue]
    rfl

/-- **A tag is read back** where its names are bound. -/
theorem Tag.read?_named {outer : Scope} {t : Tag} (ht : t.Lexical)
    (hr : t.isResolved outer = true) :
    Tag.read? outer t.name (t.named.map rawAttribute) = some t := by
  have hkeep : t.declarations.filter (·.uri != xmlNamespace) = t.declarations := by
    rw [List.filter_eq_self]
    intro d hd
    exact bne_iff_ne.2 (ht.declarations d hd).uri_ne_xml
  have htag : Tag.ofAttributes t.name t.named = t := by
    rw [Tag.ofAttributes, ht.declarations_named, ht.attributes_named, hkeep]
  have hwell : Tag.declaresWell t.named = true := by
    simp only [Tag.declaresWell, ht.declarations_named, hkeep, ht.distinct, Bool.and_true,
      List.all_eq_true]
    intro d hd
    have hd := ht.declarations d hd
    exact (bindable_iff hd.uri_ne_xml).2 ⟨hd.uri_ne_declaration, hd.ne_xml⟩
  rw [Tag.read?, readAttributes?_written]
  simp [htag, hwell, hr]

/-! ## Content -/

namespace Content

/-- More content after the content. -/
def append : Content → Content → Content
  | .nil, more => more
  | .text t rest, more => .text t (rest.append more)
  | .comment t rest, more => .comment t (rest.append more)
  | .instruction target value rest, more => .instruction target value (rest.append more)
  | .element tag inner rest, more => .element tag inner (rest.append more)

theorem append_nil (c : Content) : c.append .nil = c := by
  induction c with
  | nil => rfl
  | text t rest ih => rw [append, ih]
  | comment t rest ih => rw [append, ih]
  | instruction target value rest ih => rw [append, ih]
  | element tag inner rest _ ih => rw [append, ih]

theorem reverseOnto_reverseOnto (c acc more : Content) :
    (c.reverseOnto acc).reverseOnto more = acc.reverseOnto (c.append more) := by
  induction c generalizing acc with
  | nil => rfl
  | text t rest ih => exact ih _
  | comment t rest ih => exact ih _
  | instruction target value rest ih => exact ih _
  | element tag inner rest _ ih => exact ih _

theorem reverse_reverse (c : Content) : c.reverse.reverse = c := by
  rw [reverse, reverse, reverseOnto_reverseOnto, append_nil]
  rfl

end Content

theorem instructionValue?_chars {value : Option String} (h : ∀ v ∈ value, v ≠ "") :
    instructionValue? (instructionChars value) = value := by
  cases value with
  | none => rfl
  | some v =>
    have hne : v.toList ≠ [] := by
      intro he
      exact h v rfl (String.toList_inj.1 (by rw [he, String.toList_empty]))
    rw [instructionValue?, instructionChars, Option.getD_some, List.isEmpty_eq_false_iff.2 hne,
      String.ofList_toList]
    rfl

/-- **Reading the lexemes of content puts it in front of what has been read.** A text must not come
right after a text, which it would continue. -/
theorem readElement_tokens {c : Content} (hm : c.IsMerged) (hc : c.Lexical) {f : Frame}
    (hr : c.Resolved f.scope)
    (hf : ∀ u more, c = .text u more → ∀ v before, f.content ≠ .text v before)
    (stack : List Frame) (ts : List Token) :
    readElement f stack (c.tokens ++ ts)
      = readElement { f with content := c.reverseOnto f.content } stack ts := by
  induction c generalizing f stack ts with
  | nil => rfl
  | text t rest ih =>
    have hdata : characterData? (t.toList.flatMap textChar) = some t := by
      rw [characterData?, readText_written _ _ _ (Or.inr (by simp)), List.reverse_nil,
        List.nil_append, Option.map_some, String.ofList_toList]
    have hadd : f.addText t = { f with content := .text t f.content } := by
      unfold Frame.addText
      split
      · next v before he => exact absurd he (hf t rest rfl v before)
      · rfl
    rw [Content.tokens, List.cons_append, readElement, hdata]
    simp only [hadd]
    exact ih (f := { f with content := .text t f.content }) hm.2.2 hc.2 hr
      (fun u more he => absurd he (hm.2.1 u more)) stack ts
  | comment t rest ih =>
    rw [Content.tokens, List.cons_append, readElement, String.ofList_toList]
    exact ih (f := f.addComment t) hm hc.2 hr (fun _ _ _ _ _ => Content.noConfusion) stack ts
  | instruction target value rest ih =>
    rw [Content.tokens, List.cons_append, readElement, String.ofList_toList,
      instructionValue?_chars fun v hv => (hc.1.2 v hv).1]
    exact ih (f := f.addInstruction target value) hm hc.2 hr
      (fun _ _ _ _ _ => Content.noConfusion) stack ts
  | element tag inner rest ih ih' =>
    obtain ⟨htag, hinner, hrest⟩ := hr
    rw [Content.tokens, List.cons_append, readElement, Tag.read?_named hc.1 htag]
    simp only [Bool.false_eq_true, if_false]
    rw [List.append_assoc, ih (f := .enter f.scope tag) hm.1 hc.2.1 hinner
      (fun _ _ _ _ _ => Content.noConfusion), List.cons_append, readElement]
    have hclosed : Frame.closedBy { Frame.enter f.scope tag with
        content := inner.reverseOnto (Frame.enter f.scope tag).content } tag.name = true := by
      simp [Frame.closedBy, Frame.enter]
    have helement : Frame.element { Frame.enter f.scope tag with
        content := inner.reverseOnto (Frame.enter f.scope tag).content } = ⟨tag, inner⟩ :=
      congrArg (Element.mk tag) inner.reverse_reverse
    rw [if_pos hclosed]
    simp only [helement]
    exact ih' (f := f.addElement ⟨tag, inner⟩) hm.2 hc.2.2 hrest
      (fun _ _ _ _ _ => Content.noConfusion) stack ts

/-! ## Documents -/

namespace Content

theorem targets_prependText (t : String) (c : Content) :
    (c.prependText t).targets = c.targets :=
  apply_prependText targets (fun _ _ => rfl) t c

theorem targets_merged (c : Content) : c.merged.targets = c.targets := by
  induction c with
  | nil => rfl
  | text t rest ih => rw [merged, targets_prependText, ih, targets]
  | comment t rest ih => exact ih
  | instruction target value rest ih => exact congrArg (target :: ·) ih
  | element tag inner rest ih ih' => rw [merged, targets, targets, ih, ih']

theorem Resolved.prependText {outer : Scope} {c : Content} (h : c.Resolved outer) (t : String) :
    (c.prependText t).Resolved outer :=
  (apply_prependText (Content.Resolved outer) (fun _ _ => rfl) t c).mpr h

theorem Resolved.merged {outer : Scope} {c : Content} (h : c.Resolved outer) :
    c.merged.Resolved outer := by
  induction c generalizing outer with
  | nil => trivial
  | text t rest ih => exact (ih h).prependText t
  | comment t rest ih => exact ih h
  | instruction target value rest ih => exact ih h
  | element tag inner rest ih ih' => exact ⟨h.1, ih h.2.1, ih' h.2.2⟩

end Content

/-- What is written of an element starts neither like a byte order mark nor like a declaration. -/
theorem afterStart?_writeOpening {t : Tag} (ht : t.name.IsName) (tail : List Char) :
    afterStart? (t.writeOpening tail) = some (t.writeOpening tail) := by
  obtain ⟨c, cs, hc, hname⟩ := ht.exists_cons
  have hno : "<?xml ".toList.isPrefixOf ('<' :: c :: (cs
      ++ t.pairs.foldr (fun p rest => writePair p.1 p.2 rest) ('>' :: tail))) = false := by
    rw [Bool.eq_false_iff]
    intro hp
    obtain ⟨-, hp⟩ := List.cons_prefix_cons.1 (List.isPrefixOf_iff_prefix.1 hp)
    obtain ⟨he, -⟩ := List.cons_prefix_cons.1 hp
    exact isNameChar_ne hname (by decide) he.symm
  rw [Tag.writeOpening, hc, List.cons_append]
  exact if_neg (Bool.eq_false_iff.1 hno)

/-- **A written element is read back**, up to how its text is divided. -/
theorem Document.read?_written {e : Element} (h : e.WellFormed [])
    (hx : "xml" ∉ e.inner.targets) :
    Document.read? e.written = some ⟨.nil, e.merged, .nil⟩ := by
  have hscan : Token.scan (e.tag.writeOpening (e.inner.write (e.tag.writeClosing [])))
      = some (.openTag e.tag.name (e.tag.named.map rawAttribute) false
          :: (e.inner.merged.tokens ++ [.closeTag e.tag.name])) := by
    rw [Token.scan, scanOnto_of_front? (front?_opening h.tag _) (fun _ => Token.noConfusion),
      ← Content.write_merged, Content.scanOnto_write (Content.isMerged_merged _) h.inner.merged
        (by rw [Content.targets_merged]; exact hx) h.tag.name, scanOnto]
    simp
  have hread := readElement_tokens (f := .enter [] e.tag) (Content.isMerged_merged e.inner)
    h.inner.merged h.innerResolved.merged (fun _ _ _ _ _ => Content.noConfusion) []
    [.closeTag e.tag.name]
  have hclose : readElement { Frame.enter [] e.tag with
      content := e.inner.merged.reverseOnto (Frame.enter [] e.tag).content } []
      [.closeTag e.tag.name] = some (e.merged, []) := by
    rw [readElement, if_pos (by simp [Frame.closedBy, Frame.enter])]
    exact congrArg (fun x => some (Element.mk e.tag x, [])) e.inner.merged.reverse_reverse
  have hroot : readRoot e.tag.name (e.tag.named.map rawAttribute) false
      (e.inner.merged.tokens ++ [.closeTag e.tag.name]) = some (e.merged, []) := by
    rw [readRoot, Tag.read?_named h.tag h.resolved]
    exact hread.trans hclose
  rw [Document.read?, Element.written, String.toList_ofList, afterStart?_writeOpening h.tag.name]
  simp only [bind, Option.bind, hscan]
  rw [ofTokens?]
  simp only [readAround, hroot]

/-- An element whose text is not divided is read back as it is. -/
theorem Document.read?_written_of_merged {e : Element} (h : e.WellFormed [])
    (hx : "xml" ∉ e.inner.targets) (hm : e.inner.merged = e.inner) :
    Document.read? e.written = some ⟨.nil, e, .nil⟩ := by
  rw [read?_written h hx, Element.merged, hm]

end Credential.Xml
