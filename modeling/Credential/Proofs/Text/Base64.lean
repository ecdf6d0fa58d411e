import Credential.Text.Base64

/-!
# Written octets

What is written for a token is read back (`decodeUrl_encodeUrl`), as is what is written with padding
(`decodePadded_encodePadded`), and it is written with the symbols of the alphabet only
(`forall_mem_encodeChars`). This follows the writer, which takes three octets at a time.

For a token nothing else is read: what is read is what is written for the octets
(`decodeUrl_eq_some_iff`). This follows the reader, which takes four symbols at a time and demands
that the bits to spare are zero.
-/

namespace Credential.Base64

variable {a : Alphabet}

/-! ## Symbols -/

/-- The alphabet has a symbol of its own for each value below 64. -/
def Alphabet.IsFaithful (a : Alphabet) : Prop :=
  ∀ v < 64, a.value (a.symbol v) = some v

instance : Decidable a.IsFaithful := inferInstanceAs (Decidable (∀ v < 64, _))

theorem Alphabet.isFaithful_urlSafe : Alphabet.urlSafe.IsFaithful := by decide

theorem Alphabet.isFaithful_standard : Alphabet.standard.IsFaithful := by decide

/-! ## Reading back -/

/-- The octet that was taken apart into a number. -/
theorem octet_eq (x : UInt8) {n : Nat} (h : n = x.toNat) : UInt8.ofNat n = x := by
  rw [h, UInt8.ofNat_toNat]

theorem decodeChars_encodeChars (ha : a.IsFaithful) (b : Bytes) :
    decodeChars a (encodeChars a b) = some b := by
  induction b using encodeChars.induct with
  | case1 => rfl
  | case2 x =>
    have hx := x.toNat_lt
    simp only [encodeChars, decodeChars, Option.bind_eq_bind]
    rw [ha _ (by omega), ha _ (by omega)]
    simp only [Option.bind_some]
    rw [if_pos (by omega), octet_eq x (by omega)]
  | case3 x y =>
    have hx := x.toNat_lt
    have hy := y.toNat_lt
    simp only [encodeChars, decodeChars, Option.bind_eq_bind]
    rw [ha _ (by omega), ha _ (by omega), ha _ (by omega)]
    simp only [Option.bind_some]
    rw [if_pos (by omega), octet_eq x (by omega), octet_eq y (by omega)]
  | case4 x y z rest ih =>
    have hx := x.toNat_lt
    have hy := y.toNat_lt
    have hz := z.toNat_lt
    simp only [encodeChars, decodeChars, Option.bind_eq_bind]
    rw [ha _ (by omega), ha _ (by omega), ha _ (by omega), ha _ (by omega), ih]
    simp only [Option.bind_some, Option.pure_def]
    rw [octet_eq x (by omega), octet_eq y (by omega), octet_eq z (by omega)]

/-- **What is written for a token is read back.** -/
theorem decodeUrl_encodeUrl (b : Bytes) : decodeUrl (encodeUrl b) = some b := by
  rw [decodeUrl, encodeUrl, String.toList_ofList]
  exact decodeChars_encodeChars Alphabet.isFaithful_urlSafe b

/-! ## One written form -/

/-- A character that has a value is the symbol of that value. -/
theorem Alphabet.symbol_of_value {c : Char} {v : Nat} (h : a.value c = some v) :
    v < 64 ∧ a.symbol v = c := by
  unfold value at h
  simp only [Bool.and_eq_true, decide_eq_true_eq] at h
  unfold symbol
  split at h
  · obtain rfl := Option.some.inj h
    rw [if_pos (by omega), show 65 + (c.toNat - 65) = c.toNat by omega, Char.ofNat_toNat]
    exact ⟨by omega, rfl⟩
  split at h
  · obtain rfl := Option.some.inj h
    rw [if_neg (by omega), if_pos (by omega), show 71 + (c.toNat - 71) = c.toNat by omega,
      Char.ofNat_toNat]
    exact ⟨by omega, rfl⟩
  split at h
  · obtain rfl := Option.some.inj h
    rw [if_neg (by omega), if_neg (by omega), if_pos (by omega),
      show c.toNat + 4 - 4 = c.toNat by omega, Char.ofNat_toNat]
    exact ⟨by omega, rfl⟩
  split at h
  · next hc =>
    obtain rfl := Option.some.inj h
    exact ⟨by decide, hc.symm⟩
  split at h
  · next hc =>
    obtain rfl := Option.some.inj h
    exact ⟨by decide, hc.symm⟩
  · cases h

theorem toNat_octet {n : Nat} (h : n < 256) : (UInt8.ofNat n).toNat = n :=
  UInt8.toNat_ofNat_of_lt h

/-- **What is read is what is written for the octets.** -/
theorem encodeChars_of_decodeChars {cs : List Char} {b : Bytes} (h : decodeChars a cs = some b) :
    encodeChars a b = cs := by
  induction cs using decodeChars.induct generalizing b with
  | case1 =>
    obtain rfl := Option.some.inj h
    rfl
  | case2 p => cases h
  | case3 p q =>
    simp only [decodeChars, Option.bind_eq_bind, Option.bind_eq_some_iff] at h
    obtain ⟨v, hv, w, hw, h⟩ := h
    obtain ⟨hv64, rfl⟩ := Alphabet.symbol_of_value hv
    obtain ⟨hw64, rfl⟩ := Alphabet.symbol_of_value hw
    split at h
    · obtain rfl := Option.some.inj h
      simp only [encodeChars]
      rw [toNat_octet (by omega), show (v * 4 + w / 16) / 4 = v by omega,
        show (v * 4 + w / 16) % 4 * 16 = w by omega]
    · cases h
  | case4 p q r =>
    simp only [decodeChars, Option.bind_eq_bind, Option.bind_eq_some_iff] at h
    obtain ⟨v, hv, w, hw, x, hx, h⟩ := h
    obtain ⟨hv64, rfl⟩ := Alphabet.symbol_of_value hv
    obtain ⟨hw64, rfl⟩ := Alphabet.symbol_of_value hw
    obtain ⟨hx64, rfl⟩ := Alphabet.symbol_of_value hx
    split at h
    · obtain rfl := Option.some.inj h
      simp only [encodeChars]
      rw [toNat_octet (by omega), toNat_octet (by omega), show (v * 4 + w / 16) / 4 = v by omega,
        show (v * 4 + w / 16) % 4 * 16 + (w % 16 * 16 + x / 4) / 16 = w by omega,
        show (w % 16 * 16 + x / 4) % 16 * 4 = x by omega]
    · cases h
  | case5 p q r s rest ih =>
    simp only [decodeChars, Option.bind_eq_bind, Option.bind_eq_some_iff] at h
    obtain ⟨v, hv, w, hw, x, hx, y, hy, more, hmore, h⟩ := h
    obtain ⟨hv64, rfl⟩ := Alphabet.symbol_of_value hv
    obtain ⟨hw64, rfl⟩ := Alphabet.symbol_of_value hw
    obtain ⟨hx64, rfl⟩ := Alphabet.symbol_of_value hx
    obtain ⟨hy64, rfl⟩ := Alphabet.symbol_of_value hy
    obtain rfl := Option.some.inj h
    simp only [encodeChars]
    rw [toNat_octet (by omega), toNat_octet (by omega), toNat_octet (by omega),
      show (v * 4 + w / 16) / 4 = v by omega,
      show (v * 4 + w / 16) % 4 * 16 + (w % 16 * 16 + x / 4) / 16 = w by omega,
      show (w % 16 * 16 + x / 4) % 16 * 4 + (x % 4 * 64 + y) / 64 = x by omega,
      show (x % 4 * 64 + y) % 64 = y by omega, ih hmore]

/-- **Octets have one written form**: a text is read as octets exactly if it is what is written for
them. -/
theorem decodeUrl_eq_some_iff {s : String} {b : Bytes} :
    decodeUrl s = some b ↔ s = encodeUrl b := by
  constructor
  · intro h
    rw [encodeUrl, encodeChars_of_decodeChars h, String.ofList_toList]
  · rintro rfl
    exact decodeUrl_encodeUrl b

/-! ## What is written -/

/-- What holds of all symbols holds of all that is written. -/
theorem forall_mem_encodeChars {P : Char → Prop} (hP : ∀ v < 64, P (a.symbol v)) (b : Bytes) :
    ∀ c ∈ encodeChars a b, P c := by
  induction b using encodeChars.induct with
  | case1 => exact fun c hc => (nomatch hc)
  | case2 x =>
    have hx := x.toNat_lt
    simp only [encodeChars, List.forall_mem_cons]
    exact ⟨hP _ (by omega), hP _ (by omega), fun c hc => (nomatch hc)⟩
  | case3 x y =>
    have hx := x.toNat_lt
    have hy := y.toNat_lt
    simp only [encodeChars, List.forall_mem_cons]
    exact ⟨hP _ (by omega), hP _ (by omega), hP _ (by omega), fun c hc => (nomatch hc)⟩
  | case4 x y z rest ih =>
    have hx := x.toNat_lt
    have hy := y.toNat_lt
    have hz := z.toNat_lt
    simp only [encodeChars, List.forall_mem_cons]
    exact ⟨hP _ (by omega), hP _ (by omega), hP _ (by omega), hP _ (by omega), ih⟩

/-- A character of base 64 as tokens write it. -/
def IsUrlSymbol (c : Char) : Prop := c.isAlphanum = true ∨ c = '-' ∨ c = '_'

instance (c : Char) : Decidable (IsUrlSymbol c) := inferInstanceAs (Decidable (_ ∨ _))

theorem isUrlSymbol_of_mem_encodeUrl (b : Bytes) : ∀ c ∈ (encodeUrl b).toList, IsUrlSymbol c := by
  rw [encodeUrl, String.toList_ofList]
  exact forall_mem_encodeChars (by decide) b

/-- Three octets take four symbols, and one or two that are left take one symbol more. -/
theorem length_encodeChars (a : Alphabet) (b : Bytes) :
    (encodeChars a b).length = (b.length * 4 + 2) / 3 := by
  induction b using encodeChars.induct with
  | case1 => rfl
  | case2 x => simp [encodeChars]
  | case3 x y => simp [encodeChars]
  | case4 x y z rest ih =>
    simp only [encodeChars, List.length_cons, ih]
    omega

theorem length_encodeUrl (b : Bytes) : (encodeUrl b).length = (b.length * 4 + 2) / 3 := by
  rw [encodeUrl, String.length_ofList, length_encodeChars]

theorem encodeUrl_eq_empty_iff {b : Bytes} : encodeUrl b = "" ↔ b = [] := by
  rw [← String.length_eq_zero_iff, length_encodeUrl, ← List.length_eq_zero_iff]
  omega

/-! ## Padding -/

/-- **What is written with padding is read back.** -/
theorem decodePadded_encodePadded (b : Bytes) : decodePadded (encodePadded b).toList = some b := by
  have hsymbols : ∀ c ∈ encodeChars .standard b, (c != '=') = true :=
    forall_mem_encodeChars (P := fun c => (c != '=') = true) (by decide) b
  have hpads (n : Nat) : (List.replicate n '=').takeWhile (· != '=') = [] := by
    cases n with
    | zero => rfl
    | succ n => rfl
  simp only [decodePadded, encodePadded, String.toList_ofList,
    List.takeWhile_append_of_pos hsymbols, hpads, List.append_nil, if_true]
  exact decodeChars_encodeChars Alphabet.isFaithful_standard b

example : encodePadded [0x31, 0x32, 0x33, 0x3A] = "MTIzOg==" := by decide

end Credential.Base64
