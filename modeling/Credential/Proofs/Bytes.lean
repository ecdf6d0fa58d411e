import Credential.Bytes

/-!
# Octets in blocks

Blocks of one length are found again when their octets are cut (`chunks_flatten`), and octets that
are a multiple of a length are blocks of it (`exists_blocks`). Nothing else has to be known of
cutting.
-/

namespace Credential.Bytes

variable {n : Nat}

@[simp] theorem chunks_nil : chunks n [] = [] := by
  rw [chunks, dif_pos (Or.inl rfl)]

theorem chunks_append {b : Bytes} (hn : 0 < n) (hb : b.length = n) (rest : Bytes) :
    chunks n (b ++ rest) = b :: chunks n rest := by
  have hne : ¬(b ++ rest = [] ∨ n = 0) := by
    rintro (h | h)
    · rw [(List.append_eq_nil_iff.1 h).1] at hb
      exact absurd hb.symm (by rw [List.length_nil]; omega)
    · omega
  rw [chunks, dif_neg hne, List.take_left' hb, List.drop_left' hb]

/-- **Blocks of one length are found again.** -/
theorem chunks_flatten (hn : 0 < n) (bs : List Bytes) (h : ∀ b ∈ bs, b.length = n) :
    chunks n bs.flatten = bs := by
  induction bs with
  | nil => exact chunks_nil
  | cons b bs ih =>
    obtain ⟨hb, hbs⟩ := List.forall_mem_cons.1 h
    rw [List.flatten_cons, chunks_append hn hb, ih hbs]

/-- Octets that are a multiple of a length are blocks of it. -/
theorem exists_blocks {m : Nat} {b : Bytes} (h : b.length = m * n) :
    ∃ bs : List Bytes, bs.length = m ∧ (∀ c ∈ bs, c.length = n) ∧ bs.flatten = b := by
  induction m generalizing b with
  | zero =>
    rw [Nat.zero_mul, List.length_eq_zero_iff] at h
    exact ⟨[], rfl, fun c hc => (nomatch hc), h.symm⟩
  | succ m ih =>
    rw [Nat.succ_mul] at h
    obtain ⟨bs, hlength, hbs, hflatten⟩ := @ih (b.drop n) (by rw [List.length_drop]; omega)
    refine ⟨b.take n :: bs, by rw [List.length_cons, hlength], ?_, ?_⟩
    · exact List.forall_mem_cons.2 ⟨by rw [List.length_take]; omega, hbs⟩
    · rw [List.flatten_cons, hflatten, List.take_append_drop]

theorem length_flatten (bs : List Bytes) (h : ∀ b ∈ bs, b.length = n) :
    bs.flatten.length = bs.length * n := by
  induction bs with
  | nil => rw [List.flatten_nil, List.length_nil, List.length_nil, Nat.zero_mul]
  | cons b bs ih =>
    obtain ⟨hb, hbs⟩ := List.forall_mem_cons.1 h
    rw [List.flatten_cons, List.length_append, List.length_cons, ih hbs, hb, Nat.succ_mul,
      Nat.add_comm]

end Credential.Bytes
