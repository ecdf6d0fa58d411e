import Credential.Jose.HashBinding
import Credential.Proofs.Text.Base64

/-!
# What a hash binding says

The binding of a value is half of a hash, so its length alone tells the hash function
(`Binds.digest_unique`): whatever the value, a binding under one hash function is none under
another. Of the texts that might be claimed, the binding itself is the only one that is accepted
(`check_eq_ok_iff`), and nothing is accepted where the algorithm has no hash function.
-/

namespace Credential

open Crypto (Digest)

/-- The algorithm hashes with as many bits as the number at the end of its name says. The one name
without a number goes with 512 bits. -/
def Jws.Algorithm.HashesWith (a : Jws.Algorithm) (d : Digest) : Prop :=
  (toString (8 * d.size)).toList <:+ a.name.toList ∨ (a = .edDsa ∧ d = .sha512)

instance (a : Jws.Algorithm) (d : Digest) : Decidable (a.HashesWith d) :=
  inferInstanceAs (Decidable (_ ∨ _))

theorem Jws.Algorithm.digest?_eq_some_iff {a : Jws.Algorithm} {d : Digest} :
    a.digest? = some d ↔ a.HashesWith d := by
  cases a <;> cases d <;> decide

theorem Jws.Algorithm.exists_hashesWith {a : Jws.Algorithm} (h : a ≠ .unsecured) :
    ∃ d, a.HashesWith d := by
  simp only [← digest?_eq_some_iff, ← Option.isSome_iff_exists]
  revert h
  cases a <;> decide

namespace HashBinding

variable {value : Bytes} {a : Jws.Algorithm} {d d' : Digest} {text claimed : String}

/-! ## Texts that bind a value -/

/-- How many characters the half of a hash takes. -/
def textLength : Digest → Nat
  | .sha1 => 14
  | .sha256 => 22
  | .sha384 => 32
  | .sha512 => 43

/-- The text is the left half of the hash of the value, in base 64 without padding. -/
structure Binds (d : Digest) (value : Bytes) (text : String) : Prop where
  length : text.length = textLength d
  symbols : ∀ c ∈ text.toList, Base64.IsUrlSymbol c
  octets : Base64.decodeUrl text = some ((d.hash value).take (d.size / 2))

theorem binds_iff :
    Binds d value text ↔ text = Base64.encodeUrl ((d.hash value).take (d.size / 2)) := by
  constructor
  · intro h
    exact Base64.decodeUrl_eq_some_iff.1 h.octets
  · rintro rfl
    refine ⟨?_, Base64.isUrlSymbol_of_mem_encodeUrl _, Base64.decodeUrl_encodeUrl _⟩
    rw [Base64.length_encodeUrl, List.length_take, d.length_hash]
    cases d <;> rfl

/-- **A text binds nothing under two hash functions**, since their hashes differ in length. -/
theorem Binds.digest_unique (h : Binds d value text) (h' : Binds d' value text) : d = d' := by
  have hlength : textLength d = textLength d' := h.length.symm.trans h'.length
  revert hlength
  cases d <;> cases d' <;> decide

/-! ## Computing and checking -/

theorem compute?_eq_some_iff :
    compute? value a = some text ↔ ∃ d, a.HashesWith d ∧ Binds d value text := by
  simp only [compute?, Option.map_eq_some_iff, Jws.Algorithm.digest?_eq_some_iff, binds_iff,
    eq_comm (a := text)]

theorem check_eq_ok_iff :
    check value a claimed = .ok () ↔ ∃ d, a.HashesWith d ∧ Binds d value claimed := by
  rw [← compute?_eq_some_iff, check]
  by_cases h : compute? value a = some claimed
  · rw [if_pos h]
    exact iff_of_true rfl h
  · rw [if_neg h]
    exact iff_of_false (fun hok => nomatch hok) h

theorem check_eq_ok_iff_of_binds (h : Binds d value text) :
    check value a text = .ok () ↔ a.HashesWith d := by
  rw [check_eq_ok_iff]
  constructor
  · rintro ⟨d', ha, h'⟩
    rwa [h.digest_unique h']
  · intro ha
    exact ⟨d, ha, h⟩

/-- **A binding is half of a hash, and is accepted under the algorithms with that hash only.** No
other text is accepted in its place, and under no algorithm at all nothing is. -/
theorem bound_under_digest (value : Bytes) (a : Jws.Algorithm) :
    (a ≠ .unsecured → ∃ d text, a.HashesWith d ∧ compute? value a = some text
        ∧ Binds d value text ∧ ∀ b, check value b text = .ok () ↔ b.HashesWith d)
      ∧ (∀ claimed, check value a claimed = .ok ()
        ↔ ∃ d, a.HashesWith d ∧ Binds d value claimed)
      ∧ ∀ claimed, check value .unsecured claimed = .error .invalidHash := by
  refine ⟨fun ha => ?_, fun claimed => check_eq_ok_iff, fun claimed => rfl⟩
  obtain ⟨d, hd⟩ := Jws.Algorithm.exists_hashesWith ha
  have hbinds := binds_iff.2 (rfl : Base64.encodeUrl ((d.hash value).take (d.size / 2)) = _)
  exact ⟨d, _, hd, compute?_eq_some_iff.2 ⟨d, hd, hbinds⟩, hbinds,
    fun b => check_eq_ok_iff_of_binds hbinds⟩

/-- An access token that is bound under SHA-256, and what the binding is worth elsewhere. -/
theorem bound_under_digest_sha256 :
    let token := Utf8.encode "2YotnFZFEjr1zCsicMWpAA"
    (Jws.Algorithm.hs256 ≠ .unsecured)
      ∧ compute? token .hs256 = some "bJYTDxMKsNbRWDl-JNK8wQ"
      ∧ check token .es256 "bJYTDxMKsNbRWDl-JNK8wQ" = .ok ()
      ∧ check token .edDsa "bJYTDxMKsNbRWDl-JNK8wQ" ≠ .ok ()
      ∧ check token .hs256 "bJYTDxMKsNbRWDl-JNK8wQ==" ≠ .ok () := by
  intro token
  have hne : Jws.Algorithm.hs256 ≠ .unsecured := by decide
  have hcompute : compute? token .hs256 = some "bJYTDxMKsNbRWDl-JNK8wQ" := by decide +kernel
  obtain ⟨d, text, hd, htext, hbinds, hcheck⟩ := (bound_under_digest token .hs256).1 hne
  obtain rfl := Option.some.inj (hcompute.symm.trans htext)
  have hsha : d = .sha256 := by
    revert hd
    cases d <;> decide
  subst hsha
  refine ⟨hne, hcompute, (hcheck .es256).2 (by decide), mt (hcheck .edDsa).1 (by decide), ?_⟩
  -- no half of a hash takes 24 characters
  intro hpadded
  obtain ⟨d, -, hbinds⟩ := ((bound_under_digest token .hs256).2.1 _).1 hpadded
  have hlength := hbinds.length
  revert hlength
  cases d <;> decide

end HashBinding

end Credential
