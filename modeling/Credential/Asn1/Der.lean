import Credential.Bytes

/-!
# Distinguished encoding

Values as elements of a tag, a length and content (ITU-T X.690). Lengths are definite and as short
as possible, and integers have no superfluous octets, so a value has one encoding.

## Termination

An element takes at least two octets (`element?_length`), which bounds the reading of a sequence.
-/

namespace Credential.Der

/-- A value with its tag. -/
structure Element where
  tag : UInt8
  content : Bytes
  deriving DecidableEq, Repr

/-! ## Tags -/

def integer : UInt8 := 0x02
def bitString : UInt8 := 0x03
def octetString : UInt8 := 0x04
def null : UInt8 := 0x05
def objectId : UInt8 := 0x06
def utcTime : UInt8 := 0x17
def generalizedTime : UInt8 := 0x18
def sequence : UInt8 := 0x30
def set : UInt8 := 0x31

/-- The tag of a constructed field with a number below 31. -/
def field (n : Nat) : UInt8 := UInt8.ofNat (0xA0 + n)

/-- The tag of a primitive field with a number below 31. -/
def primitiveField (n : Nat) : UInt8 := UInt8.ofNat (0x80 + n)

/-! ## Elements -/

/-- The length that starts the octets, and how many octets it takes: one for lengths below 128, else
a count of at most four and as many octets as it says, no more than needed. -/
def length? : Bytes → Option (Nat × Nat)
  | [] => none
  | x :: rest =>
    if x < 0x80 then some (x.toNat, 1)
    else
      let k := x.toNat - 0x80
      let n := Bytes.toNat (rest.take k)
      if 1 ≤ k ∧ k ≤ 4 ∧ k ≤ rest.length ∧ 128 ≤ n ∧ Bytes.width n = k then some (n, k + 1)
      else none

/-- The first element and what follows it. -/
def element? : Bytes → Option (Element × Bytes)
  | [] => none
  | tag :: rest =>
    match length? rest with
    | none => none
    | some (n, k) =>
      let body := rest.drop k
      if tag &&& 0x1F ≠ 0x1F ∧ n ≤ body.length then some (⟨tag, body.take n⟩, body.drop n) else none

theorem element?_length {b r : Bytes} {e : Element} (h : element? b = some (e, r)) :
    r.length < b.length := by
  unfold element? at h
  split at h
  · simp at h
  · split at h
    · simp at h
    · dsimp only at h
      split at h
      · simp only [Option.some.injEq, Prod.mk.injEq] at h
        rw [← h.2]
        simp only [List.length_drop, List.length_cons]
        omega
      · simp at h

/-- All elements of a content. -/
def elements? (b : Bytes) : Option (List Element) :=
  if b = [] then some []
  else
    match _h : element? b with
    | none => none
    | some (e, r) => (elements? r).map (e :: ·)
termination_by b.length
decreasing_by exact element?_length _h

/-- The only element of a text. -/
def single? (b : Bytes) : Option Element :=
  match element? b with
  | some (e, []) => some e
  | _ => none

namespace Element

/-- The content, if the tag is the given one. -/
def contentOf? (e : Element) (tag : UInt8) : Option Bytes :=
  if e.tag = tag then some e.content else none

/-- The elements of a sequence. -/
def items? (e : Element) : Option (List Element) := do elements? (← e.contentOf? sequence)

/-- A non-negative integer without superfluous octets. -/
def natural? (e : Element) : Option Nat := do
  match ← e.contentOf? integer with
  | [] => none
  | [x] => if x < 0x80 then some x.toNat else none
  | x :: y :: rest =>
    if x < 0x80 ∧ ¬(x = 0 ∧ y < 0x80) then some (Bytes.toNat (x :: y :: rest)) else none

/-- A bit string of whole octets. -/
def octets? (e : Element) : Option Bytes := do
  match ← e.contentOf? bitString with
  | 0 :: rest => some rest
  | _ => none

end Element

end Credential.Der
