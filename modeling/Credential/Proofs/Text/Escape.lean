import Credential.Proofs.Text.Ascii
import Credential.Text.Form

/-!
# Written forms of names and values

A name or value of a form has many written forms: an octet may stand for itself or be escaped, with
digits in either case. Whichever is taken for each octet, the octets are read back
(`unescape_of_writes`), as long as the two characters that are read in another way are escaped.
-/

namespace Credential.Form

variable {plain : UInt8 → Prop} {b w v : Bytes} {x : UInt8}

/-! ## Written forms -/

/-- The octet may be written so; `plain` says which octets may stand for themselves. -/
inductive WritesOctet (plain : UInt8 → Prop) (x : UInt8) : Bytes → Prop
  | self (h : plain x) : WritesOctet plain x [x]
  | plus (h : x = 0x20) : WritesOctet plain x [0x2B]
  | escape {high low : UInt8} (hhigh : octetValue high = some (x.toNat / 16))
    (hlow : octetValue low = some (x.toNat % 16)) : WritesOctet plain x [0x25, high, low]

/-- The octets may be written so, each in its own way. -/
inductive Writes (plain : UInt8 → Prop) : (octets written : Bytes) → Prop
  | nil : Writes plain [] []
  | cons {x : UInt8} {b w v : Bytes} (hx : WritesOctet plain x w) (hb : Writes plain b v) :
    Writes plain (x :: b) (w ++ v)

/-- What needs no escapes may be written as it is. -/
theorem writes_self [DecidablePred plain] (h : b.all (plain ·) = true) : Writes plain b b := by
  induction b with
  | nil => exact .nil
  | cons x b ih =>
    rw [List.all_cons, Bool.and_eq_true, decide_eq_true_eq] at h
    exact .cons (.self h.1) (ih h.2)

/-- What is written consists of digits, the two marks and octets that stand for themselves. -/
theorem forall_mem_of_writes {P : UInt8 → Prop} (hplain : ∀ x, plain x → P x) (hplus : P 0x2B)
    (hpercent : P 0x25) (hdigit : ∀ x d, octetValue x = some d → P x) (h : Writes plain b w) :
    ∀ x ∈ w, P x := by
  induction h with
  | nil => exact fun x hx => (nomatch hx)
  | cons hx _ ih =>
    rw [List.forall_mem_append]
    refine ⟨?_, ih⟩
    cases hx with
    | self h => exact List.forall_mem_singleton.2 (hplain _ h)
    | plus h => exact List.forall_mem_singleton.2 hplus
    | escape hhigh hlow =>
      simp only [List.forall_mem_cons]
      exact ⟨hpercent, hdigit _ _ hhigh, hdigit _ _ hlow, fun x hx => (nomatch hx)⟩

/-- An octet that may not stand for itself is not in what is written, digits and marks apart. -/
theorem not_mem_of_writes (hplain : ∀ y, plain y → y ≠ x) (hplus : x ≠ 0x2B) (hpercent : x ≠ 0x25)
    (hdigit : octetValue x = none) (h : Writes plain b w) : x ∉ w := fun hmem =>
  forall_mem_of_writes (P := (· ≠ x)) hplain hplus.symm hpercent.symm
    (fun y d hd he => by
      rw [he, hdigit] at hd
      cases hd) h x hmem rfl

/-! ## Reading back -/

/-- The octets that are read in another way than as themselves are escaped. -/
def EscapesMarks (plain : UInt8 → Prop) : Prop := ∀ x, plain x → x ≠ 0x25 ∧ x ≠ 0x2B

/-- Digits are ASCII. -/
theorem lt_of_octetValue {d : Nat} (h : octetValue x = some d) : x < 0x80 := by
  rw [UInt8.lt_iff_toNat_lt]
  simp only [octetValue, Bytes.hexValue, Utf8.toNat_ofNat_octet, Bool.and_eq_true,
    decide_eq_true_eq] at h
  show x.toNat < 128
  split at h
  · omega
  · split at h
    · omega
    · split at h
      · omega
      · cases h

theorem ne_plus_of_octetValue {d : Nat} (h : octetValue x = some d) : x ≠ 0x2B := by
  rintro rfl
  cases h

theorem unescape_cons (x : UInt8) (rest : Bytes) :
    unescape (x :: rest) = percentDecode ((if x = 0x2B then 0x20 else x) :: plusToSpace rest) := rfl

theorem percentDecode_cons_of_ne (h : x ≠ 0x25) (rest : Bytes) :
    percentDecode (x :: rest) = x :: percentDecode rest := by
  rw [percentDecode.eq_def]
  exact if_neg h

/-- One written octet is read back in front of what follows. -/
theorem unescape_append_of_writesOctet (hmarks : EscapesMarks plain) (h : WritesOctet plain x w)
    (rest : Bytes) : unescape (w ++ rest) = x :: unescape rest := by
  cases h with
  | self h =>
    obtain ⟨hpercent, hplus⟩ := hmarks x h
    rw [List.singleton_append, unescape_cons, if_neg hplus, percentDecode_cons_of_ne hpercent,
      ← unescape]
  | plus h =>
    rw [List.singleton_append, unescape_cons, if_pos rfl, percentDecode_cons_of_ne (by decide),
      ← unescape, h]
  | escape hhigh hlow =>
    have hhigh' := ne_plus_of_octetValue hhigh
    have hlow' := ne_plus_of_octetValue hlow
    have hx : x.toNat / 16 * 16 + x.toNat % 16 = x.toNat := by omega
    simp [unescape, plusToSpace, hhigh', hlow', percentDecode, hhigh, hlow, hx]

/-- **Every written form is read back.** -/
theorem unescape_of_writes (hmarks : EscapesMarks plain) (h : Writes plain b w) :
    unescape w = b := by
  induction h with
  | nil => rfl
  | cons hx _ ih => rw [unescape_append_of_writesOctet hmarks hx, ih]

/-! ## The form that is written here -/

theorem octetValue_digitOctet {d : Nat} (h : d < 16) : octetValue (digitOctet d) = some d := by
  revert d
  decide

/-- **The escaped form is a written form.** -/
theorem writes_escape (hplain : ∀ x, isPlain x = true → plain x) (b : Bytes) :
    Writes plain b (escape b) := by
  induction b with
  | nil => exact .nil
  | cons x b ih =>
    rw [escape, List.flatMap_cons, ← escape]
    refine .cons ?_ ih
    have hx := x.toNat_lt
    split
    · next h => exact .self (hplain x h)
    · split
      · next h => exact .plus h
      · exact .escape (octetValue_digitOctet (by omega)) (octetValue_digitOctet (by omega))

/-- Digits are written in upper case. -/
example : escape (Utf8.encode "a ~/é") = Utf8.encode "a+%7E%2F%C3%A9" := by decide

end Credential.Form
