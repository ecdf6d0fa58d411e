import Credential.Proofs.Text.Escape

/-!
# Written bodies

A list of parameters has many written forms. Each name and each value has its own, a parameter
without a value may go without the `=`, and there may be empty pieces between the others
(`WritesBody`). The order of the parameters and how often a name occurs is kept, and so all of these
forms are read back (`parameters_of_writesBody`).

In a value `=` may stand for itself, since the name before it has ended already.
-/

namespace Credential.Form

/-! ## Written forms -/

/-- The octets that may stand for themselves in a value: those that neither end it nor are read in
another way. -/
def MayStandInValue (x : UInt8) : Prop := x ≠ 0x26 ∧ x ≠ 0x25 ∧ x ≠ 0x2B

/-- The octets that may stand for themselves in a name, which `=` ends as well. -/
def MayStandInName (x : UInt8) : Prop := x ≠ 0x3D ∧ MayStandInValue x

instance : DecidablePred MayStandInValue := fun _ => inferInstanceAs (Decidable (_ ∧ _))

instance : DecidablePred MayStandInName := fun _ => inferInstanceAs (Decidable (_ ∧ _))

/-- The parameter may be written so. -/
inductive WritesParameter (p : Parameter) : Bytes → Prop
  | pair {n v : Bytes} (hn : Writes MayStandInName (Utf8.encode p.name) n)
    (hv : Writes MayStandInValue (Utf8.encode p.value) v) : WritesParameter p (n ++ 0x3D :: v)
  | nameOnly {n : Bytes} (hn : Writes MayStandInName (Utf8.encode p.name) n) (hne : n ≠ [])
    (hv : p.value = "") : WritesParameter p n

/-- The pieces write the parameters in order; the others are empty. -/
inductive WritesPieces : (ps : List Parameter) → (pieces : List Bytes) → Prop
  | nil : WritesPieces [] []
  | skip {ps : List Parameter} {ws : List Bytes} (h : WritesPieces ps ws) :
    WritesPieces ps ([] :: ws)
  | cons {p : Parameter} {ps : List Parameter} {w : Bytes} {ws : List Bytes}
    (hp : WritesParameter p w) (h : WritesPieces ps ws) : WritesPieces (p :: ps) (w :: ws)

/-- The body writes the parameters in order. -/
def WritesBody (ps : List Parameter) (body : Bytes) : Prop :=
  ∃ ws, WritesPieces ps ws ∧ body = Text.join 0x26 ws

variable {p : Parameter} {ps : List Parameter} {b w : Bytes} {ws : List Bytes} {body : Bytes}

/-! ## Separators -/

theorem not_ampersand_of_name {n : Bytes} (h : Writes MayStandInName b n) : 0x26 ∉ n :=
  not_mem_of_writes (fun _ hx => hx.2.1) (by decide) (by decide) (by decide) h

theorem not_ampersand_of_value {v : Bytes} (h : Writes MayStandInValue b v) : 0x26 ∉ v :=
  not_mem_of_writes (fun _ hx => hx.1) (by decide) (by decide) (by decide) h

/-- A written name ends at the first `=` after it. -/
theorem not_equals_of_name {n : Bytes} (h : Writes MayStandInName b n) : 0x3D ∉ n :=
  not_mem_of_writes (fun _ hx => hx.1) (by decide) (by decide) (by decide) h

theorem WritesParameter.not_ampersand (h : WritesParameter p w) : 0x26 ∉ w := by
  cases h with
  | pair hn hv =>
    rw [List.mem_append, List.mem_cons]
    rintro (hmem | hmem | hmem)
    · exact not_ampersand_of_name hn hmem
    · exact absurd hmem (by decide)
    · exact not_ampersand_of_value hv hmem
  | nameOnly hn => exact not_ampersand_of_name hn

theorem WritesPieces.not_ampersand (h : WritesPieces ps ws) : ∀ w ∈ ws, 0x26 ∉ w := by
  induction h with
  | nil => exact fun w hw => nomatch hw
  | skip _ ih => exact List.forall_mem_cons.2 ⟨List.not_mem_nil, ih⟩
  | cons hp _ ih => exact List.forall_mem_cons.2 ⟨hp.not_ampersand, ih⟩

/-! ## Reading back -/

/-- **A written parameter is read back.** -/
theorem WritesParameter.ofPiece (h : WritesParameter p w) : Parameter.ofPiece w = p := by
  cases h with
  | pair hn hv =>
    have hname := unescape_of_writes (fun _ hx => hx.2.2) hn
    have hvalue := unescape_of_writes (fun _ hx => hx.2) hv
    simp only [Parameter.ofPiece, Text.cutFirst?_append 0x3D _ _ (not_equals_of_name hn),
      Option.getD_some, hname, hvalue, Utf8.decodeLossy_encode]
  | nameOnly hn _ hempty =>
    have hname := unescape_of_writes (fun _ hx => hx.2.2) hn
    have hvalue : unescape [] = Utf8.encode "" := by decide
    simp only [Parameter.ofPiece, Text.cutFirst?_eq_none 0x3D _ (not_equals_of_name hn),
      Option.getD_none, hname, hvalue, Utf8.decodeLossy_encode]
    rw [← hempty]

theorem WritesParameter.ne_nil (h : WritesParameter p w) : w ≠ [] := by
  cases h with
  | pair hn hv => exact List.append_ne_nil_of_right_ne_nil _ (List.cons_ne_nil _ _)
  | nameOnly hn hne => exact hne

theorem WritesPieces.map_ofPiece (h : WritesPieces ps ws) :
    (ws.filter (!·.isEmpty)).map Parameter.ofPiece = ps := by
  induction h with
  | nil => rfl
  | skip _ ih => exact ih
  | cons hp _ ih =>
    rw [List.filter_cons_of_pos (by simpa using hp.ne_nil), List.map_cons, hp.ofPiece, ih]

/-- **All written forms of a list of parameters are read back.** -/
theorem parameters_of_writesBody (h : WritesBody ps body) : parameters body = ps := by
  obtain ⟨ws, hws, rfl⟩ := h
  cases hne : ws with
  | nil =>
    subst hne
    cases hws
    rfl
  | cons w ws' =>
    rw [← hne, parameters, Text.pieces_join 0x26 ws (by simp [hne]) hws.not_ampersand]
    exact hws.map_ofPiece

/-! ## The form that is written here -/

theorem mayStandInName_of_isPlain (x : UInt8) (h : isPlain x = true) : MayStandInName x := by
  simp only [isPlain, UInt8.le_iff_toNat_le, UInt8.reduceToNat, Bool.or_eq_true,
    Bool.and_eq_true, decide_eq_true_eq, beq_iff_eq, ← UInt8.toNat_inj] at h
  simp only [MayStandInName, MayStandInValue, UInt8.reduceToNat, ne_eq, ← UInt8.toNat_inj]
  omega

theorem writesParameter_escape (p : Parameter) :
    WritesParameter p (escape (Utf8.encode p.name) ++ 0x3D :: escape (Utf8.encode p.value)) :=
  .pair (writes_escape mayStandInName_of_isPlain _)
    (writes_escape (fun x hx => (mayStandInName_of_isPlain x hx).2) _)

/-- **The body that is written here is a written form.** -/
theorem writesBody_body (ps : List Parameter) : WritesBody ps (Form.body ps) := by
  refine ⟨_, ?_, rfl⟩
  induction ps with
  | nil => exact .nil
  | cons p ps ih => exact .cons (writesParameter_escape p) ih

end Credential.Form
