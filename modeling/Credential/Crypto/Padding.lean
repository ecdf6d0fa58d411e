import Credential.Bytes

/-!
# Padding for hash functions

A message is filled up to whole blocks by a single one bit, zeros, and its length in bits as a
big-endian number at the end of the last block.
-/

namespace Credential.Crypto

/-- Fill a message up to blocks of `block` octets with a length field of `field` octets. -/
def pad (block field : Nat) (message : Bytes) : Bytes :=
  let n := message.length
  let zeros := (2 * block - (n + 1 + field) % block) % block
  message ++ 0x80 :: (List.replicate zeros 0 ++ Bytes.ofNat field (8 * n))

/-- **A padded message is a whole number of blocks.** -/
theorem length_pad (block field : Nat) (message : Bytes) (h : 0 < block) :
    (pad block field message).length % block = 0 := by
  have hr : (message.length + 1 + field) % block < block := Nat.mod_lt _ h
  have hd : block * ((message.length + 1 + field) / block) + (message.length + 1 + field) % block
      = message.length + 1 + field := Nat.div_add_mod _ _
  simp only [pad, List.length_append, List.length_cons, List.length_replicate, Bytes.length_ofNat]
  generalize message.length = n at *
  generalize hq : (n + 1 + field) / block = q at *
  generalize he : (n + 1 + field) % block = r at *
  by_cases h0 : r = 0
  · have : (2 * block - r) % block = 0 := by
      rw [h0, Nat.sub_zero, Nat.mul_mod_left]
    rw [this]
    have e : n + (0 + field + 1) = block * q := by omega
    rw [e, Nat.mul_mod_right]
  · have : (2 * block - r) % block = block - r := by
      have e : 2 * block - r = block + (block - r) := by omega
      rw [e, Nat.add_mod_left, Nat.mod_eq_of_lt (by omega)]
    rw [this]
    have e : n + (block - r + field + 1) = block * (q + 1) := by
      rw [Nat.mul_add, Nat.mul_one]; omega
    rw [e, Nat.mul_mod_right]

end Credential.Crypto
