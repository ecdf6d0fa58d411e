import Credential.Bytes
import Credential.Xml.Char

/-!
# Character data

What the characters between tags and in attribute values stand for. References are replaced by the
characters they name, and line ends become line feeds: a carriage return stands for one, together
with a line feed after it if there is one. In attribute values all white space becomes spaces.

What a reference stands for is kept as it is, and so is the character right after it. A carriage
return stays one where a reference follows it or where it follows a reference and nothing comes
after it.

## Termination

Each step takes at least one character; a reference takes at least three.
-/

namespace Credential.Xml

/-! ## References -/

/-- The number that digits write, if there are digits and it is below `2 ^ 32`. -/
def referenceNumber? (base : Nat) (digits : List Char) : Option Nat :=
  if digits.isEmpty then none
  else do
    let n ← digits.foldlM (fun n c => do return n * base + (← Bytes.hexValue c)) 0
    if n < Nat.pow 2 32 then some n else none

/-- The character with a number; numbers without one stand for U+FFFD. -/
def charOfNumber (n : Nat) : Char := if n.isValidChar then Char.ofNat n else Char.ofNat 0xFFFD

/-- The named characters. -/
def namedChar? (name : List Char) : Option Char :=
  if name = "quot".toList then some '"'
  else if name = "amp".toList then some '&'
  else if name = "apos".toList then some '\''
  else if name = "lt".toList then some '<'
  else if name = "gt".toList then some '>'
  else none

def isHexDigit (c : Char) : Bool := (Bytes.hexValue c).isSome

/-- The character that a numeric reference stands for, from the digits on, and what follows the
semicolon. -/
def numericReference? (base : Nat) (isDigit : Char → Bool) (cs : List Char) :
    Option (Char × List Char) := do
  let c := charOfNumber (← referenceNumber? base (cs.takeWhile isDigit))
  if isChar c then
    match cs.dropWhile isDigit with
    | ';' :: rest => some (c, rest)
    | _ => none
  else none

/-- The character that a named reference stands for, from the name on, and what follows the
semicolon. -/
def namedReference? (cs : List Char) : Option (Char × List Char) := do
  let c ← namedChar? (cs.takeWhile isNameChar)
  match cs.dropWhile isNameChar with
  | ';' :: rest => some (c, rest)
  | _ => none

/-- The character that a reference stands for, from after the ampersand on, and what follows the
semicolon. -/
def reference? : List Char → Option (Char × List Char)
  | '#' :: 'x' :: cs => numericReference? 16 isHexDigit cs
  | '#' :: cs => numericReference? 10 Char.isDigit cs
  | cs => namedReference? cs

theorem dropWhile_length {p : Char → Bool} {cs rest : List Char} {c : Char}
    (h : cs.dropWhile p = c :: rest) : rest.length < cs.length := by
  have := (List.dropWhile_suffix p (l := cs)).length_le
  rw [h] at this
  simp only [List.length_cons] at this
  omega

theorem numericReference?_length {base : Nat} {p : Char → Bool} {cs : List Char}
    {r : Char × List Char} (h : numericReference? base p cs = some r) : r.2.length < cs.length := by
  unfold numericReference? at h
  cases hn : referenceNumber? base (cs.takeWhile p) with
  | none => simp [hn] at h
  | some n =>
    simp only [hn, bind, Option.bind] at h
    split at h
    · split at h
      · next rest hd =>
        rw [← Option.some.inj h]
        exact dropWhile_length hd
      · simp at h
    · simp at h

theorem namedReference?_length {cs : List Char} {r : Char × List Char}
    (h : namedReference? cs = some r) : r.2.length < cs.length := by
  unfold namedReference? at h
  cases hn : namedChar? (cs.takeWhile isNameChar) with
  | none => simp [hn] at h
  | some c =>
    simp only [hn, bind, Option.bind] at h
    split at h
    · next rest hd =>
      rw [← Option.some.inj h]
      exact dropWhile_length hd
    · simp at h

theorem reference?_length {cs : List Char} {r : Char × List Char} (h : reference? cs = some r) :
    r.2.length < cs.length := by
  unfold reference? at h
  split at h
  · have := numericReference?_length h
    simp only [List.length_cons]; omega
  · have := numericReference?_length h
    simp only [List.length_cons]; omega
  · exact namedReference?_length h

/-! ## Line ends -/

/-- Put a character of the text in front of those read so far, which are in reverse. A carriage
return waits for what comes next; `last` says that nothing does. -/
def pushChar (last : Bool) (c : Char) (acc : List Char) : List Char :=
  match acc with
  | '\r' :: before =>
    if last && c == '\r' then '\n' :: '\n' :: before
    else if c == '\n' then '\n' :: before
    else c :: '\n' :: before
  | _ => if last && c == '\r' then '\n' :: acc else c :: acc

/-- Read character data onto `acc`, which is in reverse; `plain` says that a reference came right
before. -/
def readText (acc : List Char) (plain : Bool) (cs : List Char) : Option (List Char) :=
  match cs with
  | [] => some acc.reverse
  | c :: rest =>
    if c = '&' then
      match _h : reference? rest with
      | none => none
      | some (x, more) => readText (x :: acc) true more
    else readText (if plain then c :: acc else pushChar rest.isEmpty c acc) false rest
termination_by cs.length
decreasing_by
  · have := reference?_length _h
    simp only [List.length_cons] at this ⊢
    omega
  · simp

/-- What the characters between two tags stand for. -/
def characterData? (cs : List Char) : Option String := (readText [] false cs).map String.ofList

/-- Normalize line ends onto `acc`, which is in reverse. -/
def readLines (acc : List Char) : List Char → List Char
  | [] => acc.reverse
  | c :: rest => readLines (pushChar rest.isEmpty c acc) rest

/-- What the characters of a literal section stand for. -/
def literalData (cs : List Char) : String := String.ofList (readLines [] cs)

/-! ## Attribute values -/

/-- White space as a space. -/
def spaced (c : Char) : Char := if c = '\t' || c = '\n' || c = '\r' then ' ' else c

/-- Read an attribute value onto `acc`, which is in reverse. -/
def readValue (acc : List Char) (cs : List Char) : Option (List Char) :=
  match cs with
  | [] => some acc.reverse
  | '\r' :: '\n' :: rest => readValue acc ('\n' :: rest)
  | c :: rest =>
    if c = '&' then
      match _h : reference? rest with
      | none => none
      | some (x, more) => readValue (x :: acc) more
    else readValue (spaced c :: acc) rest
termination_by cs.length
decreasing_by
  · simp
  · have := reference?_length _h
    simp only [List.length_cons] at this ⊢
    omega
  · simp

/-- What the characters between the quotes of an attribute stand for. -/
def attributeValue? (cs : List Char) : Option String := (readValue [] cs).map String.ofList

end Credential.Xml
