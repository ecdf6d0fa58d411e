import Credential.Error

/-!
# Identifiers

Issuers, subjects, clients, audiences, token ids and nonces are opaque texts that are never empty.
They are compared as they are: no case folding, no trimming. The kind is part of the type, so an
issuer is never taken for an audience.
-/

namespace Credential

/-- A text that is not empty, of a given kind. -/
structure Identifier (kind : IdentifierKind) where
  value : String
  value_ne_empty : value ≠ ""
  deriving DecidableEq

abbrev Issuer := Identifier .issuer
abbrev Subject := Identifier .subject
abbrev ClientId := Identifier .clientId
abbrev Audience := Identifier .audience
abbrev JwtId := Identifier .jwtId
abbrev Nonce := Identifier .nonce

namespace Identifier

variable {kind : IdentifierKind}

/-- The identifier that a text writes; the empty text writes none. -/
def ofString (kind : IdentifierKind) (s : String) : Result (Identifier kind) :=
  if h : s = "" then refuse (.emptyIdentifier kind) else .ok ⟨s, h⟩

@[ext] theorem ext {a b : Identifier kind} (h : a.value = b.value) : a = b := by
  cases a; cases b; simpa using h

theorem ofString_value (a : Identifier kind) : ofString kind a.value = .ok a := by
  simp [ofString, a.value_ne_empty]

theorem ofString_eq_ok_iff {s : String} {a : Identifier kind} :
    ofString kind s = .ok a ↔ a.value = s := by
  constructor
  · intro h
    unfold ofString at h
    split at h
    · simp [refuse] at h
    · rw [← Except.ok.inj h]
  · rintro rfl; exact ofString_value a

/-- The order of the texts by code points. -/
def lt (a b : Identifier kind) : Prop := a.value < b.value

instance : LT (Identifier kind) := ⟨lt⟩

instance (a b : Identifier kind) : Decidable (a < b) :=
  inferInstanceAs (Decidable (a.value < b.value))

end Identifier

/-- A client stands for itself as an audience. -/
def Identifier.toAudience (c : ClientId) : Audience := ⟨c.value, c.value_ne_empty⟩

end Credential
