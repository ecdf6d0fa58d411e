import Credential.Proofs.RemoteKeys.History

/-!
# When a new key is found

A key that is published from some moment on is found by whoever looks for its id at least the least
interval later (`hasKeyId_of_published`). A look-up may find a set without the key and be refused to
refresh it, but only because of an attempt after that moment; then the kept set, which that attempt
brought, has the key.

The invariant is that the kept set was published after the last attempt was noted
(`KeptIsPublished`).
-/

namespace Credential.RemoteKeys

variable {ω : Type} {p : Policy} {w : World ω} {time : ω → Nat} {published : Nat → JwkSet}

/-- Every retrieval succeeds: it gives the set that is published at some moment between the call of
the retriever and its answer. -/
def World.Publishes (w : World ω) (time : ω → Nat) (published : Nat → JwkSet) : Prop :=
  ∀ e, ∃ m, time e ≤ m ∧ m ≤ time (w.respond e).2
    ∧ readResponse (w.respond e).1 = .ok (published m)

/-- What is kept was published no earlier than the last attempt. -/
def KeptIsPublished (published : Nat → JwkSet) (s : State) : Prop :=
  ∀ k, s.kept = some k → ∃ m l, k.set = published m ∧ s.lastAttempt = some l ∧ l ≤ m

section Operations

variable {s s' : State} {a b : Nat} {h : List Event} {r : Result JwkSet}

/-- A retrieval gives and keeps what is published meanwhile. -/
theorem Retrieves.gives (hpub : w.Publishes time published)
    (hr : Retrieves w time s a b h r s') :
    ∃ m t, a ≤ m ∧ r = .ok (published m) ∧ s' = s.keep (published m) t := by
  cases hr with
  | @kept e t set read begun answered ended =>
    obtain ⟨m, hm, -, hset⟩ := hpub e
    obtain rfl := Except.ok.inj (read.symm.trans hset)
    exact ⟨m, t, Nat.le_trans begun hm, rfl, rfl⟩
  | @failed e err read begun ended =>
    obtain ⟨m, -, -, hset⟩ := hpub e
    rw [read] at hset
    cases hset

theorem Retrieves.keptIsPublished (hpub : w.Publishes time published)
    (hr : Retrieves w time (s.attempt a) a b h r s') : KeptIsPublished published s' := by
  obtain ⟨m, t, ham, -, rfl⟩ := hr.gives hpub
  intro k hk
  obtain rfl := Option.some.inj hk
  exact ⟨m, a, rfl, rfl, ham⟩

theorem Gets.keptIsPublished (hpub : w.Publishes time published)
    (hs : KeptIsPublished published s) (hg : Gets p w time s a b h r s') :
    KeptIsPublished published s' := by
  cases hg with
  | found fresh begun ended => exact hs
  | missed stale begun noted hr => exact hr.keptIsPublished hpub

theorem Refreshes.keptIsPublished (hpub : w.Publishes time published)
    (hs : KeptIsPublished published s) (hr : Refreshes p w time s a b h r s') :
    KeptIsPublished published s' := by
  cases hr with
  | admitted admits begun hr => exact hr.keptIsPublished hpub
  | refused refuses begun hg => exact hg.keptIsPublished hpub hs

theorem isKept_keptIsPublished (hpub : w.Publishes time published) :
    IsKept p w time fun _ s _ => KeptIsPublished published s where
  start := fun _ _ hk => (nomatch hk)
  wait := fun h _ => h
  get := fun h hg => hg.keptIsPublished hpub h
  refresh := fun h hr => hr.keptIsPublished hpub h
  clear := fun _ _ hk => (nomatch hk)

/-- A set that is got is published late, or it was kept and the last attempt was no later than
that. -/
theorem Gets.gives (hpub : w.Publishes time published) (hs : KeptIsPublished published s)
    (hg : Gets p w time s a b h r s') :
    ∃ m, r = .ok (published m) ∧ (a ≤ m ∨ s' = s ∧ ∃ l, s.lastAttempt = some l ∧ l ≤ m) := by
  cases hg with
  | found fresh begun ended =>
    obtain ⟨since, hkept, -⟩ := State.fresh?_eq_some_iff.1 fresh
    obtain ⟨m, l, hset, hl, hlm⟩ := hs _ hkept
    exact ⟨m, congrArg Except.ok hset, Or.inr ⟨rfl, l, hl, hlm⟩⟩
  | missed stale begun noted hr =>
    obtain ⟨m, t, hm, hr, -⟩ := hr.gives hpub
    exact ⟨m, hr, Or.inl (Nat.le_trans begun (Nat.le_trans noted hm))⟩

/-- Whoever looks for the key late enough finds it. -/
theorem LooksUp.hasKeyId (hw : w.Steady time) (hpub : w.Publishes time published)
    (hs : KeptIsPublished published s) {id : String} {T : Nat}
    (hkey : ∀ m, T ≤ m → (published m).hasKeyId id = true) (hlate : T + p.minInterval ≤ a)
    (hl : LooksUp p w time s a b (some id) h r s') :
    ∃ set, r = .ok set ∧ set.hasKeyId id = true := by
  cases hl with
  | failed hg =>
    obtain ⟨m, hr, -⟩ := hg.gives hpub hs
    cases hr
  | got has hg => exact ⟨_, rfl, has id rfl⟩
  | @refreshed c h h' set r s₁ s' id wanted lacks hg hr =>
    obtain rfl := Option.some.inj wanted
    obtain ⟨m, hset, hm⟩ := hg.gives hpub hs
    obtain rfl := Except.ok.inj hset
    have hac := hg.le hw
    have hearly : m < T := by
      refine Nat.lt_of_not_le fun hTm => ?_
      rw [hkey m hTm] at lacks
      cases lacks
    cases hr with
    | admitted admits begun hr =>
      obtain ⟨m', t, hm', rfl, -⟩ := hr.gives hpub
      exact ⟨published m', rfl, hkey m' (by omega)⟩
    | @refused t h' r s' refuses begun hg' =>
      -- the set without the key was kept, and the last attempt was no later than that set
      have hadmits : s₁.refuses p t = false := by
        refine State.refuses_eq_false_iff.2 fun l hl => ?_
        rcases hm with hm | ⟨rfl, l', hl', hlm⟩
        · omega
        · obtain rfl := Option.some.inj (hl'.symm.trans hl)
          omega
      rw [hadmits] at refuses
      cases refuses

end Operations

/-- **A key that is published from `T` on is found from the least interval after `T` on**, whatever
was asked for before. -/
theorem hasKeyId_of_published (hw : w.Steady time) (hpub : w.Publishes time published)
    {id : String} {T : Nat} (hkey : ∀ m, T ≤ m → (published m).hasKeyId id = true)
    {past : List Event} {s : State} {e : ω} (hs : Session p w time past s e)
    (hlate : T + p.minInterval ≤ time e) :
    ∃ set, ((jwkSet (some id)).run p w (s, e)).1 = .ok set ∧ set.hasKeyId id = true := by
  have hkept : KeptIsPublished published s := (isKept_keptIsPublished hpub).holds hw hs
  exact (follows_jwkSet hw (some id) s e _ (Nat.le_refl _)).hasKeyId hw hpub hkept hkey hlate

/-! ## A rotation -/

/-- The set of one key with an id. -/
def oneKey (id : String) : JwkSet := ⟨[⟨.octets "AA", none, none, some id⟩]⟩

/-- The key `old` is replaced by `new` at 10. -/
def rotated (m : Nat) : JwkSet := if m < 10 then oneKey "old" else oneKey "new"

/-- The text of a set of one key. -/
def oneKeyText (id : String) : Bytes :=
  Utf8.encode ("\x7b\"keys\":[\x7b\"kty\":\"oct\",\"k\":\"AA\",\"kid\":\"" ++ id
    ++ "\"\x7d]\x7d")

/-- A world in which the rotation takes place; it is the moment. -/
def rotating : World Nat where
  now t := (t, t)
  respond t := (.ok (oneKeyText (if t < 10 then "old" else "new")), t)

theorem publishes_rotating : rotating.Publishes id rotated := by
  have hold : JwkSet.parse (oneKeyText "old") = some (oneKey "old") := by decide +kernel
  have hnew : JwkSet.parse (oneKeyText "new") = some (oneKey "new") := by decide +kernel
  intro t
  refine ⟨t, Nat.le_refl t, Nat.le_refl t, ?_⟩
  by_cases ht : t < 10
  · simp only [rotating, rotated, ht, if_true, readResponse, hold]
  · simp only [rotating, rotated, ht, if_false, readResponse, hnew]

/-- The old set is retrieved at 9, and it is still given at 12. At 15 the new key is found. -/
theorem hasKeyId_of_rotated :
    let p : Policy := ⟨600, 5⟩
    ∃ past s, Session p rotating id past s 15
      ∧ ∃ set, ((jwkSet (some "new")).run p rotating (s, 15)).1 = .ok set
        ∧ set.hasKeyId "new" = true := by
  have hw : rotating.Steady id :=
    ⟨fun _ => Nat.le_refl _, fun _ => Nat.le_refl _, fun _ => Nat.le_refl _⟩
  have hs : Session ⟨600, 5⟩ rotating id _ _ 15 :=
    ((((Session.start 9).ask .get).wait 12 (by decide +kernel)).ask (.jwkSet (some "new"))).wait 15
      (by decide +kernel)
  refine ⟨_, _, hs, ?_⟩
  refine hasKeyId_of_published hw publishes_rotating (T := 10) (fun m hm => ?_) hs (by decide)
  rw [rotated, if_neg (Nat.not_lt.2 hm)]
  decide

end Credential.RemoteKeys
