import Credential.Text.Utf8
import Mathlib.Data.List.Basic

/-!
# ASCII octets

Octets below `0x80` write one character each, so they are cut as octets where they are cut as text.
-/

namespace Credential.Utf8

variable {w : Bytes} {x : UInt8}

theorem encode_append (s t : String) : encode (s ++ t) = encode s ++ encode t := by
  simp [encode]

/-- The octets of a text are those of its characters. -/
theorem encode_ofList (cs : List Char) :
    encode (String.ofList cs) = cs.flatMap String.utf8EncodeChar := by
  rw [encode, String.toUTF8_eq_toByteArray, String.toByteArray_ofList, List.utf8Encode,
    List.data_toByteArray]

/-- The characters that ASCII octets write. -/
def asciiChars (w : Bytes) : List Char := w.map fun x => Char.ofNat x.toNat

theorem toNat_ofNat_octet (x : UInt8) : (Char.ofNat x.toNat).toNat = x.toNat := by
  have hx := x.toNat_lt
  have hvalid : x.toNat.isValidChar := Or.inl (by omega)
  rw [Char.ofNat, dif_pos hvalid]
  rfl

/-- Different octets write different characters. -/
theorem ofNat_octet_injective : Function.Injective fun x : UInt8 => Char.ofNat x.toNat :=
  fun x y h => UInt8.toNat_inj.1 <| by
    rw [← toNat_ofNat_octet x, ← toNat_ofNat_octet y]
    exact congrArg Char.toNat h

theorem mem_asciiChars_iff : Char.ofNat x.toNat ∈ asciiChars w ↔ x ∈ w :=
  List.mem_map_of_injective ofNat_octet_injective

theorem utf8EncodeChar_octet (h : x < 0x80) : String.utf8EncodeChar (Char.ofNat x.toNat) = [x] := by
  have hx : x.toNat ≤ 127 := by
    rw [UInt8.lt_iff_toNat_lt] at h
    exact Nat.le_of_lt_succ h
  have hval : (Char.ofNat x.toNat).val.toNat = x.toNat := toNat_ofNat_octet x
  rw [String.utf8EncodeChar]
  simp only [hval, if_pos hx, UInt8.ofNat_toNat]

/-- **ASCII octets are the text of their characters.** -/
theorem encode_asciiChars (h : ∀ x ∈ w, x < 0x80) : encode (String.ofList (asciiChars w)) = w := by
  have hflat : (asciiChars w).flatMap String.utf8EncodeChar = w := by
    induction w with
    | nil => rfl
    | cons x w ih =>
      obtain ⟨hx, hw⟩ := List.forall_mem_cons.1 h
      rw [asciiChars, List.map_cons, List.flatMap_cons, utf8EncodeChar_octet hx, ← asciiChars,
        ih hw]
      rfl
  rw [encode_ofList, hflat]

theorem decode_of_ascii (h : ∀ x ∈ w, x < 0x80) : decode w = some (String.ofList (asciiChars w)) :=
  decode_eq_some_iff.2 (encode_asciiChars h)

end Credential.Utf8
