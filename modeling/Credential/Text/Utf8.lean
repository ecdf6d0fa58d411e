import Credential.Bytes

/-!
# Text as octets

A text is valid UTF-8 by construction, so reading octets as text is a test and writing text is a
projection. `decode_eq_some_iff` says that the two are inverse to one another.

The forgiving reader `decodeLossy` is for form bodies: each maximal ill-formed piece becomes one
replacement character. On well-formed octets it is the strict reader (`decodeLossy_encode`).

## Termination

`repair` consumes at least one octet per step.
-/

namespace Credential.Utf8

/-- The octets of a text. -/
def encode (s : String) : Bytes := s.toUTF8.data.toList

/-- The text that the octets write, if they are well-formed. -/
def decode (b : Bytes) : Option String := String.fromUTF8? ⟨b.toArray⟩

theorem decode_encode (s : String) : decode (encode s) = some s := by
  have h : ByteArray.IsValidUTF8 ⟨(encode s).toArray⟩ := by simpa [encode] using s.isValidUTF8
  simp only [decode, String.fromUTF8?, h, ↓reduceDIte]
  simp [String.fromUTF8, encode]

theorem encode_of_decode {b : Bytes} {s : String} (h : decode b = some s) : encode s = b := by
  unfold decode String.fromUTF8? at h
  split at h
  · rw [← Option.some.inj h]; simp [encode, String.fromUTF8]
  · simp at h

/-- **Reading and writing text are inverse.** -/
theorem decode_eq_some_iff {b : Bytes} {s : String} : decode b = some s ↔ encode s = b :=
  ⟨encode_of_decode, fun h => h ▸ decode_encode s⟩

theorem encode_injective {s t : String} (h : encode s = encode t) : s = t := by
  have := decode_encode t
  rw [← h, decode_encode] at this
  exact Option.some.inj this

/-! ## Repairing ill-formed octets -/

/-- What a lead octet demands: the range of the second octet and how many octets follow it. -/
def leadDemand (b : UInt8) : Option (UInt8 × UInt8 × Nat) :=
  if 0xC2 ≤ b && b ≤ 0xDF then some (0x80, 0xBF, 1)
  else if b == 0xE0 then some (0xA0, 0xBF, 2)
  else if b == 0xED then some (0x80, 0x9F, 2)
  else if 0xE1 ≤ b && b ≤ 0xEF then some (0x80, 0xBF, 2)
  else if b == 0xF0 then some (0x90, 0xBF, 3)
  else if 0xF1 ≤ b && b ≤ 0xF3 then some (0x80, 0xBF, 3)
  else if b == 0xF4 then some (0x80, 0x8F, 3)
  else none

/-- How many of the next octets continue the character: at most `n`, the first between `lo` and
`hi`. -/
def continuation (lo hi : UInt8) : Nat → Bytes → Nat
  | n + 1, b :: rest => if lo ≤ b && b ≤ hi then continuation 0x80 0xBF n rest + 1 else 0
  | _, _ => 0

/-- Keep the well-formed characters and put U+FFFD for each maximal ill-formed piece. -/
def repair (b : Bytes) : Bytes :=
  match b with
  | [] => []
  | x :: rest =>
    if x < 0x80 then x :: repair rest
    else match leadDemand x with
      | none => 0xEF :: 0xBF :: 0xBD :: repair rest
      | some (lo, hi, n) =>
        let k := continuation lo hi n rest
        if k = n then x :: rest.take k ++ repair (rest.drop k)
        else 0xEF :: 0xBF :: 0xBD :: repair (rest.drop k)
termination_by b.length
decreasing_by all_goals (simp only [List.length_cons, List.length_drop]; omega)

/-- The text that the octets write after repair. -/
def decodeLossy (b : Bytes) : String :=
  match decode b with
  | some s => s
  | none => (decode (repair b)).getD ""

/-- **Well-formed octets need no repair.** -/
theorem decodeLossy_encode (s : String) : decodeLossy (encode s) = s := by
  simp [decodeLossy, decode_encode]

end Credential.Utf8
