import Credential.Text.Base64

/-!
# Textual encodings

Octets as text between a line `-----BEGIN label-----` and a line `-----END label-----` (RFC 7468).
Text before the first line is skipped; after the last line nothing may follow but one line end. In
between stands base 64 with padding in lines of 64 symbols, the last of which may be shorter.
-/

namespace Credential

/-- Octets under a label. -/
structure Pem where
  label : String
  content : Bytes
  deriving DecidableEq

namespace Pem

def beginMark : List Char := "-----BEGIN ".toList
def endMark : List Char := "-----END ".toList
def dashes : List Char := "-----".toList

/-- The number of symbols in a full line. -/
def lineWidth : Nat := 64

/-- What remains after a given start. -/
def afterStart? (start cs : List Char) : Option (List Char) :=
  if start.isPrefixOf cs then some (cs.drop start.length) else none

/-- What remains before a given end. -/
def beforeEnd? (ending cs : List Char) : Option (List Char) :=
  if ending.isSuffixOf cs then some (cs.take (cs.length - ending.length)) else none

/-- What follows one line end. -/
def afterLineEnd? : List Char → Option (List Char)
  | '\r' :: '\n' :: rest => some rest
  | '\r' :: rest => some rest
  | '\n' :: rest => some rest
  | _ => none

theorem afterLineEnd?_length {cs rest : List Char} (h : afterLineEnd? cs = some rest) :
    rest.length < cs.length := by
  unfold afterLineEnd? at h
  split at h
  · obtain rfl := Option.some.inj h
    simp only [List.length_cons]
    omega
  · obtain rfl := Option.some.inj h
    simp
  · obtain rfl := Option.some.inj h
    simp
  · simp at h

/-- What comes before one line end. -/
def beforeLineEnd? (cs : List Char) : Option (List Char) :=
  match cs.reverse with
  | '\n' :: '\r' :: rest => some rest.reverse
  | '\r' :: rest => some rest.reverse
  | '\n' :: rest => some rest.reverse
  | _ => none

/-- The text from a mark on that stands after a line feed; nothing before it may be NUL. -/
def afterPreamble? : List Char → Option (List Char)
  | [] => none
  | c :: rest =>
    if c = '\x00' then none
    else if c = '\n' && beginMark.isPrefixOf rest then some rest
    else afterPreamble? rest

/-- The text from the first mark on. -/
def fromMark? (cs : List Char) : Option (List Char) :=
  if beginMark.isPrefixOf cs then some cs else afterPreamble? cs

/-- The symbols of full lines and a last one, which may be empty. -/
def symbols? (cs : List Char) : Option (List Char) :=
  if cs.length ≤ lineWidth then some ((beforeLineEnd? cs).getD cs)
  else
    match _h : afterLineEnd? (cs.drop lineWidth) with
    | none => none
    | some rest => (symbols? rest).map (cs.take lineWidth ++ ·)
termination_by cs.length
decreasing_by
  have := afterLineEnd?_length _h
  simp only [List.length_drop] at this
  omega

/-- Read a text. -/
def parse (s : String) : Option Pem := do
  let cs ← fromMark? s.toList
  let cs ← afterStart? beginMark cs
  let label := cs.takeWhile (· != '-')
  let cs ← afterStart? dashes (cs.drop label.length)
  let cs ← afterLineEnd? cs
  -- the last line may end in a line end; what stands before it must have one
  let cs := (beforeLineEnd? cs).getD cs
  let cs ← beforeEnd? (endMark ++ label ++ dashes) cs
  let cs ← beforeLineEnd? cs
  return ⟨String.ofList label, ← Base64.decodePadded (← symbols? cs)⟩

/-- The octets of a text with the given label. -/
def contentOf? (label s : String) : Option Bytes := do
  let p ← parse s
  if p.label = label then some p.content else none

end Pem

end Credential
