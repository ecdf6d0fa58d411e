import Credential.Xml.Token

/-!
# Names are read back

A name with at most one colon is read back from what is written of it, whatever follows, as long as
that does not go on like a name (`qname?_written`). Reading gives such names only
(`isName_of_qname?`).

Both halves of a name are names without a colon. The empty prefix goes with names that have no
colon, and also with those that start with one, which reading tells apart.
-/

namespace Credential.Xml

/-- What is to hold of each of some characters can be checked one by one. -/
theorem all_decide_iff {p : Char → Prop} [DecidablePred p] {cs : List Char} :
    (cs.all fun c => decide (p c)) = true ↔ ∀ c ∈ cs, p c := by
  simp only [List.all_eq_true, decide_eq_true_iff]

theorem any_head?_iff {p : Char → Bool} {cs : List Char} :
    cs.head?.any p = true ↔ ∃ c ds, cs = c :: ds ∧ p c = true := by
  constructor
  · intro h
    obtain ⟨c, hc, hp⟩ := (Option.any_eq_true ..).1 h
    obtain ⟨ds, hcs⟩ := List.head?_eq_some_iff.1 hc
    exact ⟨c, ds, hcs, hp⟩
  · rintro ⟨c, ds, rfl, hp⟩
    exact hp

/-! ## Names without a colon -/

/-- The characters of a name without a colon: it starts like a name and goes on like one. -/
structure IsNcName (s : String) : Prop where
  head : ∃ c cs, s.toList = c :: cs ∧ isNameStart c = true
  chars : ∀ c ∈ s.toList, isNameChar c = true ∧ c ≠ ':'

/-- A name that a tag may have. -/
structure QName.IsName (n : QName) : Prop where
  localName : IsNcName n.localName
  nsPrefix : n.nsPrefix = "" ∨ IsNcName n.nsPrefix
  colon : n.colon = false → n.nsPrefix = ""

instance (s : String) : Decidable (IsNcName s) :=
  decidable_of_iff (s.toList.head?.any isNameStart = true
      ∧ (s.toList.all fun c => decide (isNameChar c = true ∧ c ≠ ':')) = true)
    ⟨fun ⟨hhead, hchars⟩ => ⟨any_head?_iff.1 hhead, all_decide_iff.1 hchars⟩,
      fun h => ⟨any_head?_iff.2 h.head, all_decide_iff.2 h.chars⟩⟩

instance (n : QName) : Decidable n.IsName :=
  decidable_of_iff (IsNcName n.localName ∧ (n.nsPrefix = "" ∨ IsNcName n.nsPrefix)
      ∧ (n.colon = false → n.nsPrefix = ""))
    ⟨fun ⟨hlocal, hp, hcolon⟩ => ⟨hlocal, hp, hcolon⟩,
      fun h => ⟨h.localName, h.nsPrefix, h.colon⟩⟩

theorem isNcName_xmlns : IsNcName "xmlns" := by decide

/-- A prefix, which may be empty, holds name characters other than colons. -/
theorem QName.IsName.chars_nsPrefix {n : QName} (h : n.IsName) :
    ∀ c ∈ n.nsPrefix.toList, isNameChar c = true ∧ c ≠ ':' := by
  rcases h.nsPrefix with he | hp
  · rw [he, String.toList_empty]
    intro c hc
    exact absurd hc (by simp)
  · exact hp.chars

/-! ## Characters that end a name -/

theorem ne_colon_of_contains_eq_false {cs : List Char} (h : cs.contains ':' = false) :
    ∀ c ∈ cs, c ≠ ':' := by
  intro c hc he
  rw [he] at hc
  rw [List.contains_eq_mem, decide_eq_false_iff_not] at h
  exact h hc

/-- A character that can be part of a name is none that delimits markup. -/
theorem isNameChar_ne {c d : Char} (h : isNameChar c = true) (hd : isNameChar d = false) :
    c ≠ d := by
  intro he
  rw [he, hd] at h
  exact absurd h (by simp)

/-! ## Reading -/

theorem takeWhile_ne_colon {cs after : List Char} (h : ∀ c ∈ cs, c ≠ ':') :
    (cs ++ ':' :: after).takeWhile (· != ':') = cs := by
  rw [List.takeWhile_append_of_pos (fun c hc => by simpa using h c hc)]
  simp

theorem dropWhile_ne_colon {cs after : List Char} (h : ∀ c ∈ cs, c ≠ ':') :
    (cs ++ ':' :: after).dropWhile (· != ':') = ':' :: after := by
  rw [List.dropWhile_append_of_pos (fun c hc => by simpa using h c hc)]
  simp

theorem isNcName_ofList {c : Char} {cs : List Char} (hs : isNameStart c = true)
    (h : ∀ d ∈ c :: cs, isNameChar d = true ∧ d ≠ ':') : IsNcName (String.ofList (c :: cs)) where
  head := ⟨c, cs, String.toList_ofList, hs⟩
  chars := by rw [String.toList_ofList]; exact h

/-- What `nameOf?` makes of characters without colons is a name. -/
theorem isName_of_nameOf? {before after : List Char} {colon : Bool} {n : QName}
    (h : Token.nameOf? before after colon = some n)
    (hb : ∀ c ∈ before, isNameChar c = true ∧ c ≠ ':')
    (ha : ∀ c ∈ after, isNameChar c = true ∧ c ≠ ':')
    (hc : colon = false → before = []) : n.IsName := by
  unfold Token.nameOf? at h
  split at h
  · simp at h
  · next c cs =>
    split at h
    · next hs =>
      rw [Bool.and_eq_true] at hs
      obtain rfl := Option.some.inj h
      refine ⟨isNcName_ofList hs.1 ha, ?_, ?_⟩
      · cases before with
        | nil => exact Or.inl rfl
        | cons d ds => exact Or.inr (isNcName_ofList (by simpa using hs.2) hb)
      · intro he
        rw [hc he]
    · simp at h

/-- **Reading gives names only.** -/
theorem isName_of_qname? {cs rest : List Char} {n : QName}
    (h : Token.qname? cs = some (n, rest)) : n.IsName := by
  unfold Token.qname? at h
  obtain ⟨m, hm, he⟩ := Option.map_eq_some_iff.1 h
  obtain rfl : m = n := congrArg Prod.fst he
  have hrun : ∀ c ∈ cs.takeWhile isNameChar, isNameChar c = true := fun c hc => by
    have := List.all_takeWhile (p := isNameChar) (l := cs)
    exact List.all_eq_true.1 this c hc
  have hbefore : ∀ c ∈ (cs.takeWhile isNameChar).takeWhile (· != ':'),
      isNameChar c = true ∧ c ≠ ':' := fun c hc => by
    have := List.all_takeWhile (p := (· != ':')) (l := cs.takeWhile isNameChar)
    exact ⟨hrun c ((List.takeWhile_prefix _).subset hc),
      by simpa using List.all_eq_true.1 this c hc⟩
  split at hm
  · exact isName_of_nameOf? hm (fun c hc => absurd hc (by simp)) hbefore (fun _ => rfl)
  · next x after hafter =>
    split at hm
    · simp at hm
    · next hcolon =>
      refine isName_of_nameOf? hm hbefore (fun c hc => ⟨hrun c ?_, ?_⟩) (fun hf => by simp at hf)
      · refine (List.dropWhile_suffix (· != ':')).subset ?_
        rw [hafter]
        exact List.mem_cons_of_mem _ hc
      · exact ne_colon_of_contains_eq_false (by simpa using hcolon) c hc

/-! ## Reading back -/

theorem nameOf?_toList {n : QName} (h : n.IsName) :
    Token.nameOf? n.nsPrefix.toList n.localName.toList n.colon = some n := by
  obtain ⟨c, cs, hc, hs⟩ := h.localName.head
  have hp : n.nsPrefix.toList.head?.all isNameStart = true := by
    rcases h.nsPrefix with he | hp
    · rw [he, String.toList_empty]; rfl
    · obtain ⟨d, ds, hd, hs⟩ := hp.head
      rw [hd]
      simpa using hs
  have hl : String.ofList (c :: cs) = n.localName := by rw [← hc, String.ofList_toList]
  rw [hc, Token.nameOf?]
  simp only [hs, hp, Bool.and_self, if_true, String.ofList_toList, hl]

theorem QName.IsName.chars_written {n : QName} (h : n.IsName) :
    ∀ c ∈ n.written.toList, isNameChar c = true := by
  intro c hc
  unfold QName.written at hc
  split at hc
  · simp only [String.toList_append, List.mem_append] at hc
    rcases hc with (hc | hc) | hc
    · exact (h.chars_nsPrefix c hc).1
    · rw [show (":" : String).toList = [':'] from rfl, List.mem_singleton] at hc
      rw [hc]
      decide
    · exact (h.localName.chars c hc).1
  · exact (h.localName.chars c hc).1

/-- **A name is read back**, if what follows does not go on like a name. -/
theorem qname?_written {n : QName} (h : n.IsName) {rest : List Char}
    (hr : ∀ c ∈ rest.head?, isNameChar c = false) :
    Token.qname? (n.written.toList ++ rest) = some (n, rest) := by
  have htake : rest.takeWhile isNameChar = [] := by
    cases rest with
    | nil => rfl
    | cons c cs => exact List.takeWhile_cons_of_neg (by simp [hr c rfl])
  have hdrop : rest.dropWhile isNameChar = rest := by
    cases rest with
    | nil => rfl
    | cons c cs => exact List.dropWhile_cons_of_neg (by simp [hr c rfl])
  unfold Token.qname?
  dsimp only
  rw [List.takeWhile_append_of_pos h.chars_written, List.dropWhile_append_of_pos h.chars_written,
    htake, hdrop, List.append_nil]
  have hn := nameOf?_toList h
  cases hc : n.colon with
  | true =>
    have hw : n.written.toList = n.nsPrefix.toList ++ ':' :: n.localName.toList := by
      rw [QName.written, if_pos hc]
      simp [String.toList_append]
    have hcolon := fun c hc => (h.chars_nsPrefix c hc).2
    have hlocal : n.localName.toList.contains ':' = false := by
      rw [List.contains_eq_mem, decide_eq_false_iff_not]
      exact fun hm => (h.localName.chars ':' hm).2 rfl
    rw [hw, dropWhile_ne_colon hcolon, takeWhile_ne_colon hcolon]
    simp only [hlocal, Bool.false_eq_true, if_false]
    rw [← hc, hn]
    rfl
  | false =>
    have hp := h.colon hc
    have hw : n.written.toList = n.localName.toList := by
      rw [QName.written, hc, if_neg (by simp)]
    have hall : ∀ c ∈ n.localName.toList, (c != ':') = true := fun c hm => by
      simpa using (h.localName.chars c hm).2
    have hd : n.localName.toList.dropWhile (· != ':') = [] := by
      rw [← List.append_nil n.localName.toList, List.dropWhile_append_of_pos hall,
        List.dropWhile_nil]
    have ht : n.localName.toList.takeWhile (· != ':') = n.localName.toList := by
      rw [← List.append_nil n.localName.toList, List.takeWhile_append_of_pos hall,
        List.takeWhile_nil]
    rw [hw, hd, ht]
    rw [hp, String.toList_empty, hc] at hn
    simp only [hn]
    rfl

/-- What is written of a name starts with a character of a name. -/
theorem QName.IsName.exists_cons {n : QName} (h : n.IsName) :
    ∃ c cs, n.written.toList = c :: cs ∧ isNameChar c = true := by
  cases hw : n.written.toList with
  | nil =>
    obtain ⟨c, cs, hc, -⟩ := h.localName.head
    rw [QName.written] at hw
    split at hw <;> simp [String.toList_append, hc] at hw
  | cons c cs => exact ⟨c, cs, rfl, h.chars_written c (by rw [hw]; simp)⟩

end Credential.Xml
