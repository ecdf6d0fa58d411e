import Credential.Json.Raw
import Credential.Identifier

/-!
# Records in JSON

A record is written as an object, or as an array of its fields in their order, of which a tail may
be left off. In an object, members with other names are ignored and never read, and a field that
occurs twice makes the record unreadable. In an array there may be no more items than fields.

A field is read where it is used: required, optional (then `null` stands for none) or with a
default.
-/

namespace Credential.Json

/-- The fields of a record that a text gives, still unread. -/
structure Record where
  fields : List (String × Raw)

namespace Record

/-- Sort the members of an object by field; names that are no field are dropped. -/
def collect (names : List String) : List (Bytes × Raw) → Option (List (String × Raw))
  | [] => some []
  | (k, v) :: rest => do
    let name ← readString k
    let more ← collect names rest
    if names.contains name then
      if more.any (·.1 == name) then none else some ((name, v) :: more)
    else some more

/-- The fields of a written record. -/
def ofRaw? (names : List String) : Raw → Option Record
  | .object ms => (collect names ms).map Record.mk
  | .array items => if items.length ≤ names.length then some ⟨names.zip items⟩ else none
  | _ => none

/-- The written value of a field. -/
def get? (r : Record) (name : String) : Option Raw := (r.fields.find? (·.1 == name)).map (·.2)

/-- A field that must be there. -/
def required {α : Type} (r : Record) (name : String) (read : Raw → Option α) : Option α := do
  read (← r.get? name)

/-- A field that may be missing or `null`. -/
def optional {α : Type} (r : Record) (name : String) (read : Raw → Option α) :
    Option (Option α) :=
  match r.get? name with
  | none | some .null => some none
  | some v => (read v).map some

/-- A field with a default; `null` is not the default. -/
def orElse {α : Type} (r : Record) (name : String) (fallback : α) (read : Raw → Option α) :
    Option α :=
  match r.get? name with
  | none => some fallback
  | some v => read v

end Record

namespace Raw

/-! ## Values of fields -/

/-- A text. -/
def text? : Raw → Option String
  | .string s => readString s
  | _ => none

/-- An identifier, which is never empty. -/
def identifier? (kind : IdentifierKind) (r : Raw) : Option (Identifier kind) := do
  (Identifier.ofString kind (← r.text?)).toOption

/-- A non-negative integer below `2 ^ 64`, written as an integer. -/
def natural? : Raw → Option Nat
  | .number n =>
    match n.toNumber with
    | some (.int v _) => if 0 ≤ v then some v.toNat else none
    | _ => none
  | _ => none

/-- A list of values. -/
def list? {α : Type} (read : Raw → Option α) : Raw → Option (List α)
  | .array items => items.mapM read
  | _ => none

/-- One of several names: a text, or an object with that name as its only member and no value. -/
def choice? : Raw → Option String
  | .string s => readString s
  | .object [(k, .null)] => readString k
  | _ => none

end Raw

end Credential.Json
