import Credential.Client.Config
import Mathlib.Data.List.Induction

/-!
# What is registered

A registry is made by registering clients one after the other, and what it holds for a client is
what was registered for it last (`get?_after_eq_some_iff`). A registration replaces the one before
as a whole: neither the method nor the secrets nor the keys of the earlier one are left.

As a source, the registry gives out nothing but what this last registration has.
-/

namespace Credential.Client

/-! ## Registering -/

/-- One way to register a client. -/
inductive Registering where
  | secrets (id : ClientId) (m : Method) (held : List Secret)
  | keys (id : ClientId) (set : JwkSet)
  | unauthenticated (id : ClientId)
  | configured (c : ClientConfig)

namespace Registering

/-- The client that is registered. -/
def clientId : Registering → ClientId
  | .secrets id _ _ | .keys id _ | .unauthenticated id => id
  | .configured c => c.clientId

/-- What is registered for the client. -/
def registration : Registering → Registration
  | .secrets _ m held => ⟨m, held, none⟩
  | .keys _ set => ⟨.privateKeyJwt, [], some set⟩
  | .unauthenticated _ => ⟨.none, [], none⟩
  | .configured c => c.registration

/-- The registry with the client registered. -/
def run (r : Registry) : Registering → Registry
  | .secrets id m held => r.withSecrets id m held
  | .keys id set => r.withKeys id set
  | .unauthenticated id => r.withPublic id
  | .configured c => r.register c.clientId c.registration

/-- However a client is registered, what is there for it is replaced. -/
theorem run_eq_register (r : Registry) (s : Registering) :
    s.run r = r.register s.clientId s.registration := by
  cases s with
  | secrets id m held => rfl
  | keys id set => rfl
  | unauthenticated id => rfl
  | configured c => rfl

end Registering

/-- The entry is the last one that was registered for the client. -/
def IsLast (steps : List Registering) (id : ClientId) (entry : Registration) : Prop :=
  ∃ before last after, steps = before ++ last :: after ∧ last.clientId = id
    ∧ last.registration = entry ∧ ∀ later ∈ after, later.clientId ≠ id

/-- The last of several registrations counts if it is one of the client, and else plays no part. -/
theorem isLast_concat_iff {steps : List Registering} {s : Registering} {id : ClientId}
    {entry : Registration} :
    IsLast (steps ++ [s]) id entry
      ↔ (s.clientId = id ∧ s.registration = entry) ∨ (s.clientId ≠ id ∧ IsLast steps id entry) := by
  constructor
  · rintro ⟨before, last, after, h, rfl, rfl, hafter⟩
    rcases List.eq_nil_or_concat after with rfl | ⟨between, s', rfl⟩
    · obtain ⟨-, hlast⟩ := List.append_inj' h rfl
      obtain rfl : s = last := List.singleton_inj.1 hlast
      exact Or.inl ⟨rfl, rfl⟩
    · rw [List.concat_eq_append, ← List.cons_append, ← List.append_assoc] at h
      obtain ⟨hsteps, hlast⟩ := List.append_inj' h rfl
      obtain rfl : s = s' := List.singleton_inj.1 hlast
      exact Or.inr ⟨hafter s (by simp), before, last, between, hsteps, rfl, rfl,
        fun later hl => hafter later (by simp [hl])⟩
  · rintro (⟨rfl, rfl⟩ | ⟨hs, before, last, after, rfl, rfl, rfl, hafter⟩)
    · exact ⟨steps, s, [], rfl, rfl, rfl, fun later h => absurd h (by simp)⟩
    · refine ⟨before, last, after ++ [s], by simp, rfl, rfl, ?_⟩
      intro later hl
      rcases List.mem_append.1 hl with hl | hl
      · exact hafter later hl
      · obtain rfl := List.mem_singleton.1 hl
        exact hs

namespace Registry

/-- The registry after the registrations. -/
def after (steps : List Registering) : Registry := steps.foldl Registering.run empty

/-- The registry of a configuration is made in the same way. -/
theorem after_configured (c : Config) : after (c.clients.map .configured) = c.registry := by
  rw [after, List.foldl_map]
  rfl

/-- **What a registry holds for a client is what was registered last.** -/
theorem get?_after_eq_some_iff {steps : List Registering} {id : ClientId} {entry : Registration} :
    (after steps).get? id = some entry ↔ IsLast steps id entry := by
  -- a registry grows at the end of the list, which is also where the last registration is found
  induction steps using List.reverseRecOn with
  | nil =>
    constructor
    · intro h
      cases h
    · rintro ⟨before, last, after, h, -⟩
      exact absurd h (by simp)
  | append_singleton steps s ih =>
    have hafter : after (steps ++ [s]) = s.run (after steps) := by
      rw [after, List.foldl_append]
      rfl
    rw [hafter, Registering.run_eq_register, get?_register, isLast_concat_iff]
    by_cases hs : s.clientId = id
    · rw [if_pos hs, Option.some.injEq]
      constructor
      · intro h
        exact Or.inl ⟨hs, h⟩
      · rintro (⟨-, h⟩ | ⟨hne, -⟩)
        · exact h
        · exact absurd hs hne
    · rw [if_neg hs, ih]
      constructor
      · intro h
        exact Or.inr ⟨hs, h⟩
      · rintro (⟨he, -⟩ | ⟨-, h⟩)
        · exact absurd he hs
        · exact h

/-! ## Registries as sources -/

variable {r : Registry} {id : ClientId}

theorem source_method?_eq_some_iff {m : Method} :
    r.source.method? id = some m ↔ ∃ entry, r.get? id = some entry ∧ entry.method = m :=
  Option.map_eq_some_iff

theorem mem_source_secrets_iff {m : Method} {s : Secret} :
    s ∈ r.source.secrets id m
      ↔ m.usesSecret = true ∧ ∃ entry, r.get? id = some entry ∧ s ∈ entry.secrets := by
  unfold source
  dsimp only
  cases m.usesSecret with
  | false => simp
  | true =>
    cases r.get? id with
    | none => simp
    | some entry => simp

theorem source_keySet?_eq_some_iff {set : JwkSet} :
    r.source.keySet? id = some set
      ↔ ∃ entry, r.get? id = some entry ∧ entry.keySet = some set :=
  Option.bind_eq_some_iff

end Registry

end Credential.Client
