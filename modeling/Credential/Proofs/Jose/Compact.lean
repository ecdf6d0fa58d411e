import Credential.Jose.Token
import Credential.Proofs.Text.Base64
import Credential.Proofs.Text.Blank

/-!
# Written tokens

Octets that are written as segments with dots between them are read as these segments
(`segments_compact`): no symbol is a dot, and there is no white space to be left out.
-/

namespace Credential

/-- Segments in their written form, with dots between them. -/
def compact (segments : List Bytes) : String :=
  String.ofList (Text.join '.' (segments.map (Base64.encodeChars .urlSafe)))

/-- What holds of the separator and of all pieces holds of all that is joined. -/
theorem Text.forall_mem_join {α : Type} {P : α → Prop} {sep : α} (hsep : P sep)
    {ps : List (List α)} (h : ∀ p ∈ ps, ∀ x ∈ p, P x) : ∀ x ∈ join sep ps, P x := by
  induction ps with
  | nil => exact fun x hx => (nomatch hx)
  | cons p ps ih =>
    obtain ⟨hp, hps⟩ := List.forall_mem_cons.1 h
    cases ps with
    | nil => exact hp
    | cons q qs =>
      rw [join, List.forall_mem_append, List.forall_mem_cons]
      exact ⟨hp, hsep, ih hps⟩

/-- **Written segments are read.** -/
theorem Token.segments_compact {segments : List Bytes} (hne : segments ≠ []) :
    Token.segments (compact segments) = segments.map Base64.encodeUrl := by
  have hdot : ∀ p ∈ segments.map (Base64.encodeChars .urlSafe), '.' ∉ p := by
    intro p hp hmem
    obtain ⟨b, -, rfl⟩ := List.mem_map.1 hp
    exact Base64.forall_mem_encodeChars (P := (· ≠ '.')) (by decide) b '.' hmem rfl
  have hblank : ∀ p ∈ segments.map (Base64.encodeChars .urlSafe), ∀ c ∈ p,
      Text.isBlank c = false := by
    intro p hp
    obtain ⟨b, -, rfl⟩ := List.mem_map.1 hp
    exact Base64.forall_mem_encodeChars (by decide) b
  have hseparator : Text.isBlank '.' = false := by decide
  have htrim := Text.trimChars_eq_self <|
    Text.forall_mem_join (P := fun c => Text.isBlank c = false) hseparator hblank
  rw [Token.segments, compact, String.toList_ofList, htrim,
    Text.pieces_join '.' _ (by simpa using hne) hdot, List.map_map]
  rfl

end Credential
