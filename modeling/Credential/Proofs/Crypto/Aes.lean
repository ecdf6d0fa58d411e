import Credential.Crypto.Aes
import Credential.Proofs.Bytes
import Mathlib.Data.List.Nodup
import Mathlib.Data.List.Perm.Subperm

/-!
# AES can be undone

For keys of whole words decryption and encryption of blocks are inverse to one another
(`decryptBlock_encryptBlock`, `encryptBlock_decryptBlock`). Each step of a round has its inverse:

* the substitution box holds each octet once (`nodup_sbox`);
* shifting rows by one and by three places makes a whole turn;
* the two circulant matrices are inverse to each other over any ring of characteristic two, so that
  only the additivity of `double` is needed, not the field;
* round keys are added twice.

What remains is that the expanded key consists of whole blocks (`exists_isSchedule`).
-/

namespace Credential.Crypto.Aes

/-! ## The substitution -/

/-- The octets of a list as bits of a number. -/
def bits (bs : List UInt8) (start : Nat) : Nat := bs.foldl (fun m b => m ||| 1 <<< b.toNat) start

theorem mem_of_testBit_bits {n : Nat} (hn : n < 256) {bs : List UInt8} {start : Nat}
    (h : (bits bs start).testBit n = true) : start.testBit n = true ∨ UInt8.ofNat n ∈ bs := by
  induction bs generalizing start with
  | nil => exact Or.inl h
  | cons b bs ih =>
    obtain hstart | hmem := ih h
    · rw [Nat.testBit_or, Bool.or_eq_true, Nat.one_shiftLeft, Nat.testBit_two_pow,
        decide_eq_true_eq] at hstart
      obtain hstart | rfl := hstart
      · exact Or.inl hstart
      · rw [UInt8.ofNat_toNat]
        exact Or.inr List.mem_cons_self
    · exact Or.inr (List.mem_cons_of_mem b hmem)

theorem mem_sbox (b : UInt8) : b ∈ sbox.toList := by
  -- the list is gone through once for all octets, not once for each of them
  have hall : ∀ n < 256, (bits sbox.toList 0).testBit n = true := by decide +kernel
  obtain h | h := mem_of_testBit_bits b.toNat_lt (hall b.toNat b.toNat_lt)
  · rw [Nat.zero_testBit] at h
    cases h
  · rwa [UInt8.ofNat_toNat] at h

theorem length_sbox : sbox.toList.length = 256 := by decide +kernel

/-- A list of 256 octets that holds each of them holds each of them once. -/
theorem nodup_sbox : sbox.toList.Nodup := by
  have hnodup : ((List.range 256).map UInt8.ofNat).Nodup := by
    refine List.Nodup.map_on (fun m hm n hn h => ?_) List.nodup_range
    rw [List.mem_range] at hm hn
    rw [← UInt8.toNat_inj, UInt8.toNat_ofNat', UInt8.toNat_ofNat'] at h
    omega
  -- a list without repetition within one that is not longer is that one, up to the order
  have hsub := List.subperm_of_subset hnodup fun b _ => mem_sbox b
  refine (hsub.perm_of_length_le (Nat.le_of_eq ?_)).nodup_iff.1 hnodup
  rw [length_sbox, List.length_map, List.length_range]

theorem toNat_lt_length_sbox (b : UInt8) : b.toNat < sbox.toList.length := by
  rw [length_sbox]
  exact b.toNat_lt

theorem sub_eq (b : UInt8) : sub b = sbox.toList.get ⟨b.toNat, toNat_lt_length_sbox b⟩ := by
  rw [sub, Array.getD_eq_getD_getElem?, ← Array.getElem?_toList,
    List.getElem?_eq_getElem (toNat_lt_length_sbox b)]
  rfl

theorem inverseSub_eq (b : UInt8) : inverseSub b = UInt8.ofNat (sbox.toList.idxOf b) := by
  rw [inverseSub, inverseSbox, Array.getD_eq_getD_getElem?, List.getElem?_toArray,
    List.getElem?_map, List.getElem?_range b.toNat_lt]
  simp only [Option.map_some, Option.getD_some, UInt8.ofNat_toNat]

theorem inverseSub_sub (b : UInt8) : inverseSub (sub b) = b := by
  rw [inverseSub_eq, sub_eq, List.get_eq_getElem, nodup_sbox.idxOf_getElem, UInt8.ofNat_toNat]

theorem sub_inverseSub (b : UInt8) : sub (inverseSub b) = b := by
  have hlt := List.idxOf_lt_length_of_mem (mem_sbox b)
  have hidx : (UInt8.ofNat (sbox.toList.idxOf b)).toNat = sbox.toList.idxOf b := by
    rw [length_sbox] at hlt
    rw [UInt8.toNat_ofNat', Nat.mod_eq_of_lt hlt]
  simp only [inverseSub_eq, sub_eq, hidx, List.get_eq_getElem]
  exact List.getElem_idxOf hlt

/-! ## Multiplication -/

theorem lt_iff_msb (b : UInt8) : b < 0x80 ↔ b.toBitVec.msb = false := by
  rw [UInt8.lt_iff_toNat_lt, BitVec.msb_eq_decide, decide_eq_false_iff_not, UInt8.toNat_toBitVec,
    Nat.not_le]
  rfl

theorem xor_left_comm (a b c : UInt8) : a ^^^ (b ^^^ c) = b ^^^ (a ^^^ c) := by
  rw [← UInt8.xor_assoc, UInt8.xor_comm a, UInt8.xor_assoc]

theorem xor_cancel_left (a b : UInt8) : a ^^^ (a ^^^ b) = b := by
  rw [← UInt8.xor_assoc, UInt8.xor_self, UInt8.zero_xor]

theorem double_xor (a b : UInt8) : double (a ^^^ b) = double a ^^^ double b := by
  unfold double
  simp only [lt_iff_msb, UInt8.toBitVec_xor, BitVec.msb_xor, UInt8.shiftLeft_xor]
  cases a.toBitVec.msb <;> cases b.toBitVec.msb <;>
    simp [UInt8.xor_assoc, UInt8.xor_comm, xor_left_comm]

theorem times_xor (k : Nat) (a b : UInt8) : times k (a ^^^ b) = times k a ^^^ times k b := by
  have hif (p : Prop) [Decidable p] (x y : UInt8) :
      (if p then x ^^^ y else 0) = (if p then x else 0) ^^^ (if p then y else 0) := by
    split
    · rfl
    · rw [UInt8.xor_self]
  simp only [times, double_xor, hif]
  ac_rfl

/-! ## Columns -/

/-- Two circulant matrices are inverse to each other: what one octet contributes to the octet in its
own place is itself, and to any other nothing. -/
structure Inverts (c0 c1 c2 c3 m0 m1 m2 m3 : Nat) : Prop where
  own (x : UInt8) : times c0 (times m0 x) ^^^ times c1 (times m3 x) ^^^ times c2 (times m2 x)
    ^^^ times c3 (times m1 x) = x
  next (x : UInt8) : times c0 (times m1 x) ^^^ times c1 (times m0 x) ^^^ times c2 (times m3 x)
    ^^^ times c3 (times m2 x) = 0
  opposite (x : UInt8) : times c0 (times m2 x) ^^^ times c1 (times m1 x) ^^^ times c2 (times m0 x)
    ^^^ times c3 (times m3 x) = 0
  last (x : UInt8) : times c0 (times m3 x) ^^^ times c1 (times m2 x) ^^^ times c2 (times m1 x)
    ^^^ times c3 (times m0 x) = 0

theorem inverts_encryption : Inverts 14 11 13 9 2 3 1 1 := by
  constructor <;> intro x <;>
    simp only [times, Nat.reduceMod, Nat.reduceDiv, Nat.zero_ne_one, reduceIte, UInt8.xor_zero,
      UInt8.zero_xor, UInt8.xor_self, double_xor, UInt8.xor_assoc, UInt8.xor_comm, xor_left_comm,
      xor_cancel_left]

theorem inverts_decryption : Inverts 2 3 1 1 14 11 13 9 := by
  constructor <;> intro x <;>
    simp only [times, Nat.reduceMod, Nat.reduceDiv, Nat.zero_ne_one, reduceIte, UInt8.xor_zero,
      UInt8.zero_xor, UInt8.xor_self, double_xor, UInt8.xor_assoc, UInt8.xor_comm, xor_left_comm,
      xor_cancel_left]

section Columns

variable {c0 c1 c2 c3 m0 m1 m2 m3 : Nat} (h : Inverts c0 c1 c2 c3 m0 m1 m2 m3)
include h

/-- One octet of a column that is mixed twice. The others are the same for the turned column. -/
theorem Inverts.octet (a b c d : UInt8) :
    times c0 (times m0 a ^^^ times m1 b ^^^ times m2 c ^^^ times m3 d)
      ^^^ times c1 (times m3 a ^^^ times m0 b ^^^ times m1 c ^^^ times m2 d)
      ^^^ times c2 (times m2 a ^^^ times m3 b ^^^ times m0 c ^^^ times m1 d)
      ^^^ times c3 (times m1 a ^^^ times m2 b ^^^ times m3 c ^^^ times m0 d) = a := by
  simp only [times_xor]
  calc _ = (times c0 (times m0 a) ^^^ times c1 (times m3 a) ^^^ times c2 (times m2 a)
          ^^^ times c3 (times m1 a))
        ^^^ (times c0 (times m1 b) ^^^ times c1 (times m0 b) ^^^ times c2 (times m3 b)
          ^^^ times c3 (times m2 b))
        ^^^ (times c0 (times m2 c) ^^^ times c1 (times m1 c) ^^^ times c2 (times m0 c)
          ^^^ times c3 (times m3 c))
        ^^^ (times c0 (times m3 d) ^^^ times c1 (times m2 d) ^^^ times c2 (times m1 d)
          ^^^ times c3 (times m0 d)) := by ac_rfl
    _ = a ^^^ 0 ^^^ 0 ^^^ 0 := by rw [h.own, h.next, h.opposite, h.last]
    _ = a := by rw [UInt8.xor_zero, UInt8.xor_zero, UInt8.xor_zero]

theorem Inverts.mixColumns_mixColumns {block : Bytes} (hblock : block.length % 4 = 0) :
    mixColumns c0 c1 c2 c3 (mixColumns m0 m1 m2 m3 block) = block := by
  induction block using mixColumns.induct with
  | case1 a b c d rest ih =>
    have hrest : rest.length % 4 = 0 := by
      simp only [List.length_cons] at hblock
      omega
    simp only [mixColumns, ih hrest]
    -- four octets and the rest; each octet is the first one of the column turned to it
    congr 1
    · exact h.octet a b c d
    congr 1
    · exact .trans (by ac_rfl) (h.octet b c d a)
    congr 1
    · exact .trans (by ac_rfl) (h.octet c d a b)
    congr 1
    exact .trans (by ac_rfl) (h.octet d a b c)
  | case2 block hshort =>
    match block, hblock, hshort with
    | [], _, _ => rfl
    | a :: b :: c :: d :: rest, _, hshort => exact absurd rfl (hshort a b c d rest)

end Columns

theorem length_mixColumns (c0 c1 c2 c3 : Nat) {block : Bytes} (hblock : block.length % 4 = 0) :
    (mixColumns c0 c1 c2 c3 block).length = block.length := by
  induction block using mixColumns.induct with
  | case1 a b c d rest ih =>
    simp only [List.length_cons] at hblock
    simp only [mixColumns, List.length_cons, ih (by omega)]
  | case2 block hshort =>
    match block, hblock, hshort with
    | [], _, _ => rfl
    | a :: b :: c :: d :: rest, _, hshort => exact absurd rfl (hshort a b c d rest)

/-! ## Rows -/

/-- Where the octet at a place comes from. -/
def origin (k i : Nat) : Nat := 4 * ((i / 4 + k * (i % 4)) % 4) + i % 4

theorem origin_lt (k i : Nat) : origin k i < 16 := by
  unfold origin
  omega

theorem origin_origin {j k i : Nat} (hjk : (j + k) % 4 = 0) (hi : i < 16) :
    origin k (origin j i) = i := by
  have hrow : origin j i % 4 = i % 4 := by
    unfold origin
    omega
  have hcolumn : origin j i / 4 = (i / 4 + j * (i % 4)) % 4 := by
    unfold origin
    omega
  have hturn : (j * (i % 4) + k * (i % 4)) % 4 = 0 := by
    rw [← Nat.add_mul, Nat.mul_mod, hjk, Nat.zero_mul]
  rw [origin, hrow, hcolumn]
  omega

theorem length_shiftRows (k : Nat) (block : Bytes) : (shiftRows k block).length = 16 := by
  rw [shiftRows, List.length_map, List.length_range]

theorem getElem?_shiftRows (k : Nat) (block : Bytes) {i : Nat} (hi : i < 16) :
    (shiftRows k block)[i]? = some (block[origin k i]?.getD 0) := by
  rw [shiftRows, List.getElem?_map, List.getElem?_range hi, Option.map_some,
    Array.getD_eq_getD_getElem?, List.getElem?_toArray, origin]

/-- Two shifts that make a whole turn. -/
theorem shiftRows_shiftRows {j k : Nat} (hjk : (j + k) % 4 = 0) {block : Bytes}
    (hblock : block.length = 16) : shiftRows k (shiftRows j block) = block := by
  refine List.ext_getElem (by rw [length_shiftRows, hblock]) fun i hi hi' => Option.some.inj ?_
  rw [← List.getElem?_eq_getElem hi, ← List.getElem?_eq_getElem hi']
  rw [length_shiftRows] at hi
  have hkj : (k + j) % 4 = 0 := by rwa [Nat.add_comm]
  rw [getElem?_shiftRows k _ hi, getElem?_shiftRows j _ (origin_lt k i), origin_origin hkj hi,
    Option.getD_some, List.getElem?_eq_getElem hi', Option.getD_some]

/-! ## Rounds -/

theorem map_inverseSub_map_sub (block : Bytes) : (block.map sub).map inverseSub = block := by
  have hid (b : UInt8) : (inverseSub ∘ sub) b = b := by rw [Function.comp_apply, inverseSub_sub]
  rw [List.map_map, List.map_id'' hid]

theorem map_sub_map_inverseSub (block : Bytes) : (block.map inverseSub).map sub = block := by
  have hid (b : UInt8) : (sub ∘ inverseSub) b = b := by rw [Function.comp_apply, sub_inverseSub]
  rw [List.map_map, List.map_id'' hid]

theorem xor_xor_of_length {a m : Bytes} (ha : a.length = 16) (hm : m.length = 16) :
    Bytes.xor (Bytes.xor a m) m = a :=
  Bytes.xor_xor_cancel a m (Nat.le_of_eq (ha.trans hm.symm))

theorem length_xor_of_length {a m : Bytes} (ha : a.length = 16) (hm : m.length = 16) :
    (Bytes.xor a m).length = 16 := by
  rw [Bytes.length_xor, ha, hm, Nat.min_self]

theorem length_mixed (c0 c1 c2 c3 k : Nat) (block : Bytes) :
    (mixColumns c0 c1 c2 c3 (shiftRows k block)).length = 16 := by
  rw [length_mixColumns _ _ _ _ (by rw [length_shiftRows]), length_shiftRows]

section Rounds

variable {block roundKey : Bytes} (hkey : roundKey.length = 16)
include hkey

theorem length_encryptRound (block : Bytes) : (encryptRound block roundKey).length = 16 :=
  length_xor_of_length (length_mixed _ _ _ _ _ _) hkey

omit hkey in
theorem length_decryptRound (block roundKey : Bytes) :
    (decryptRound block roundKey).length = 16 := by
  rw [decryptRound, List.length_map, length_shiftRows]

theorem decryptRound_encryptRound (hblock : block.length = 16) :
    decryptRound (encryptRound block roundKey) roundKey = block := by
  have hmap : (block.map sub).length = 16 := by rw [List.length_map, hblock]
  rw [decryptRound, encryptRound, xor_xor_of_length (length_mixed _ _ _ _ _ _) hkey,
    inverts_encryption.mixColumns_mixColumns (by rw [length_shiftRows]),
    shiftRows_shiftRows rfl hmap, map_inverseSub_map_sub]

theorem encryptRound_decryptRound (hblock : block.length = 16) :
    encryptRound (decryptRound block roundKey) roundKey = block := by
  have hxor := length_xor_of_length hblock hkey
  have hmod : (Bytes.xor block roundKey).length % 4 = 0 := by rw [hxor]
  rw [encryptRound, decryptRound, map_sub_map_inverseSub,
    shiftRows_shiftRows rfl ((length_mixColumns _ _ _ _ hmod).trans hxor),
    inverts_decryption.mixColumns_mixColumns hmod, xor_xor_of_length hblock hkey]

end Rounds

/-! ## All rounds -/

section Inner

variable {inner : List Bytes} (hinner : ∀ k ∈ inner, k.length = 16) {block : Bytes}
include hinner

theorem length_foldl_encryptRound (hblock : block.length = 16) :
    (inner.foldl encryptRound block).length = 16 := by
  induction inner generalizing block with
  | nil => exact hblock
  | cons k inner ih =>
    obtain ⟨hk, hinner⟩ := List.forall_mem_cons.1 hinner
    exact ih hinner (length_encryptRound hk block)

theorem length_foldl_decryptRound (hblock : block.length = 16) :
    (inner.reverse.foldl decryptRound block).length = 16 := by
  rw [List.foldl_reverse]
  cases inner with
  | nil => exact hblock
  | cons k inner => exact length_decryptRound _ k

theorem decryptRounds_encryptRounds (hblock : block.length = 16) :
    inner.reverse.foldl decryptRound (inner.foldl encryptRound block) = block := by
  induction inner generalizing block with
  | nil => rfl
  | cons k inner ih =>
    obtain ⟨hk, hinner⟩ := List.forall_mem_cons.1 hinner
    rw [List.foldl_cons, List.reverse_cons, List.foldl_concat,
      ih hinner (length_encryptRound hk block), decryptRound_encryptRound hk hblock]

theorem encryptRounds_decryptRounds (hblock : block.length = 16) :
    inner.foldl encryptRound (inner.reverse.foldl decryptRound block) = block := by
  -- the first round of the one is the last of the other, so the block stays the same throughout
  induction inner with
  | nil => rfl
  | cons k inner ih =>
    obtain ⟨hk, hinner⟩ := List.forall_mem_cons.1 hinner
    rw [List.reverse_cons, List.foldl_concat, List.foldl_cons,
      encryptRound_decryptRound hk (length_foldl_decryptRound hinner hblock), ih hinner]

end Inner

/-- The cipher with its round keys taken apart. -/
theorem encryptWith_eq (first last : Bytes) (inner : List Bytes) (block : Bytes) :
    encryptWith (first :: (inner ++ [last])) block
      = Bytes.xor (shiftRows 1 ((inner.foldl encryptRound (Bytes.xor block first)).map sub))
        last := by
  rw [encryptWith, List.dropLast_concat, List.getLastD_concat]

theorem decryptWith_eq (first last : Bytes) (inner : List Bytes) (block : Bytes) :
    decryptWith (first :: (inner ++ [last])) block
      = Bytes.xor (inner.reverse.foldl decryptRound
          ((shiftRows 3 (Bytes.xor block last)).map inverseSub)) first := by
  rw [decryptWith, List.dropLast_concat, List.getLastD_concat]

/-- Round keys are a first block, blocks for the inner rounds, and a last one. -/
structure IsSchedule (first last : Bytes) (inner : List Bytes) : Prop where
  first : first.length = 16
  inner : ∀ k ∈ inner, k.length = 16
  last : last.length = 16

section Schedule

variable {first last : Bytes} {inner : List Bytes} (h : IsSchedule first last inner)
include h

theorem length_encryptWith (block : Bytes) :
    (encryptWith (first :: (inner ++ [last])) block).length = 16 := by
  rw [encryptWith_eq]
  exact length_xor_of_length (length_shiftRows _ _) h.last

theorem length_decryptWith (block : Bytes) :
    (decryptWith (first :: (inner ++ [last])) block).length = 16 := by
  have hmap : ((shiftRows 3 (Bytes.xor block last)).map inverseSub).length = 16 := by
    rw [List.length_map, length_shiftRows]
  rw [decryptWith_eq]
  exact length_xor_of_length (length_foldl_decryptRound h.inner hmap) h.first

theorem decryptWith_encryptWith {block : Bytes} (hblock : block.length = 16) :
    decryptWith (first :: (inner ++ [last])) (encryptWith (first :: (inner ++ [last])) block)
      = block := by
  have hstart := length_xor_of_length hblock h.first
  have hmap : ((inner.foldl encryptRound (Bytes.xor block first)).map sub).length = 16 := by
    rw [List.length_map, length_foldl_encryptRound h.inner hstart]
  rw [encryptWith_eq, decryptWith_eq, xor_xor_of_length (length_shiftRows _ _) h.last,
    shiftRows_shiftRows rfl hmap, map_inverseSub_map_sub,
    decryptRounds_encryptRounds h.inner hstart, xor_xor_of_length hblock h.first]

theorem encryptWith_decryptWith {block : Bytes} (hblock : block.length = 16) :
    encryptWith (first :: (inner ++ [last])) (decryptWith (first :: (inner ++ [last])) block)
      = block := by
  have hmap : ((shiftRows 3 (Bytes.xor block last)).map inverseSub).length = 16 := by
    rw [List.length_map, length_shiftRows]
  rw [decryptWith_eq, encryptWith_eq,
    xor_xor_of_length (length_foldl_decryptRound h.inner hmap) h.first,
    encryptRounds_decryptRounds h.inner hmap, map_sub_map_inverseSub,
    shiftRows_shiftRows rfl (length_xor_of_length hblock h.last), xor_xor_of_length hblock h.last]

end Schedule

/-! ## Round keys -/

/-- Words of four octets, as many as were made so far. -/
structure IsWords (n : Nat) (words : Array Bytes) : Prop where
  size : words.size = n
  word : ∀ w ∈ words.toList, w.length = 4

theorem IsWords.getD {n : Nat} {words : Array Bytes} (h : IsWords n words) {i : Nat} (hi : i < n) :
    (words.getD i []).length = 4 := by
  rw [← h.size, ← Array.length_toList] at hi
  rw [Array.getD_eq_getD_getElem?, ← Array.getElem?_toList, List.getElem?_eq_getElem hi,
    Option.getD_some]
  exact h.word _ (List.getElem_mem hi)

theorem length_nextWord {nk i : Nat} {words : Array Bytes} (hnk : 0 < nk) (hi : nk ≤ i)
    (h : IsWords i words) : (nextWord nk i words).length = 4 := by
  have hlast : (words.getD (i - 1) []).length = 4 := h.getD (by omega)
  have hearlier : (words.getD (i - nk) []).length = 4 := h.getD (by omega)
  unfold nextWord
  rw [Bytes.length_xor, hearlier]
  split
  · split
    · rfl
    · rw [hlast]
      rfl
  · split
    · rw [List.length_map, hlast]
      rfl
    · rw [hlast]
      rfl

theorem isWords_foldl {nk : Nat} (hnk : 0 < nk) {start : Array Bytes} (h : IsWords nk start)
    (n : Nat) :
    IsWords (nk + n) ((List.range n).foldl (fun w i => w.push (nextWord nk (nk + i) w)) start) := by
  induction n with
  | zero => exact h
  | succ n ih =>
    rw [List.range_succ, List.foldl_concat]
    refine ⟨by rw [Array.size_push, ih.size, Nat.add_assoc], fun w hw => ?_⟩
    rw [Array.toList_push, List.mem_append, List.mem_singleton] at hw
    obtain hw | rfl := hw
    · exact ih.word w hw
    · exact length_nextWord hnk (Nat.le_add_right nk n) ih

theorem IsWords.block {n : Nat} {words : Array Bytes} (h : IsWords n words) {r : Nat}
    (hr : 4 * r + 4 ≤ n) : (words.extract (4 * r) (4 * r + 4)).toList.flatten.length = 16 := by
  rw [Bytes.length_flatten (n := 4), Array.length_toList, Array.size_extract, h.size]
  · omega
  · intro w hw
    rw [Array.toList_extract] at hw
    exact h.word w (List.mem_of_mem_drop (List.mem_of_mem_take hw))

/-- **A key of whole words expands to whole blocks**, more than two of them. -/
theorem exists_isSchedule {nk : Nat} (hnk : 0 < nk) {key : Bytes} (hkey : key.length = nk * 4) :
    ∃ first last inner, expandKey key = first :: (inner ++ [last])
      ∧ IsSchedule first last inner := by
  have hstart : IsWords nk (Bytes.chunks 4 key).toArray := by
    obtain ⟨words, rfl, hwords, rfl⟩ := Bytes.exists_blocks hkey
    rw [Bytes.chunks_flatten (by decide) words hwords]
    exact ⟨rfl, hwords⟩
  have hdiv : key.length / 4 = nk := by omega
  have hblock : ∀ k ∈ expandKey key, k.length = 16 := by
    intro k hk
    simp only [expandKey, hdiv] at hk
    obtain ⟨r, hr, rfl⟩ := List.mem_map.1 hk
    rw [List.mem_range] at hr
    exact (isWords_foldl hnk hstart _).block (by omega)
  have hlength : (expandKey key).length = nk + 7 := by
    simp only [expandKey, hdiv, List.length_map, List.length_range]
  cases hkeys : expandKey key with
  | nil =>
    rw [hkeys, List.length_nil] at hlength
    omega
  | cons first rest =>
    rw [hkeys] at hblock hlength
    obtain rfl | ⟨inner, last, rfl⟩ := rest.eq_nil_or_concat
    · rw [List.length_singleton] at hlength
      omega
    · rw [List.concat_eq_append] at hblock ⊢
      obtain ⟨hfirst, hrest⟩ := List.forall_mem_cons.1 hblock
      obtain ⟨hinner, hlast⟩ := List.forall_mem_append.1 hrest
      exact ⟨first, last, inner, rfl, hfirst, hinner, hlast last (List.mem_singleton_self last)⟩

/-! ## The cipher -/

section Cipher

variable {nk : Nat} (hnk : 0 < nk) {key : Bytes} (hkey : key.length = nk * 4)
include hnk hkey

theorem length_encryptBlock (block : Bytes) : (encryptBlock key block).length = 16 := by
  obtain ⟨first, last, inner, hkeys, h⟩ := exists_isSchedule hnk hkey
  rw [encryptBlock, hkeys]
  exact length_encryptWith h block

theorem length_decryptBlock (block : Bytes) : (decryptBlock key block).length = 16 := by
  obtain ⟨first, last, inner, hkeys, h⟩ := exists_isSchedule hnk hkey
  rw [decryptBlock, hkeys]
  exact length_decryptWith h block

/-- **What is encrypted is decrypted.** -/
theorem decryptBlock_encryptBlock {block : Bytes} (hblock : block.length = 16) :
    decryptBlock key (encryptBlock key block) = block := by
  obtain ⟨first, last, inner, hkeys, h⟩ := exists_isSchedule hnk hkey
  rw [decryptBlock, encryptBlock, hkeys]
  exact decryptWith_encryptWith h hblock

/-- **What is decrypted is encrypted.** -/
theorem encryptBlock_decryptBlock {block : Bytes} (hblock : block.length = 16) :
    encryptBlock key (decryptBlock key block) = block := by
  obtain ⟨first, last, inner, hkeys, h⟩ := exists_isSchedule hnk hkey
  rw [decryptBlock, encryptBlock, hkeys]
  exact encryptWith_decryptWith h hblock

end Cipher

end Credential.Crypto.Aes
