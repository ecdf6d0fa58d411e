import Credential.Proofs.RemoteKeys.History

/-!
# Where a key set comes from

What a remote key set gives is what was retrieved last (`lastRetrieved_of_ask`). It was retrieved in
the same call, or it is younger than the time to live and was not forgotten since. A retrieval that
fails leaves no trace in what is kept.

The invariant is that the kept set is what was retrieved last (`isKept_keptIsLast`). For a single
operation it is enough to know what it leaves kept (`Leaves`) and where the set that it gives comes
from (`Source`); both can be said of operations in a row.
-/

namespace Credential.RemoteKeys

variable {ω : Type} {p : Policy} {w : World ω} {time : ω → Nat}

/-! ## The last retrieval -/

/-- The event brings a set, or it forgets one. -/
def Event.replaces : Event → Bool
  | .receive r =>
    match readResponse r with
    | .ok _ => true
    | .error _ => false
  | .clear => true
  | _ => false

/-- Nothing was retrieved with success, and nothing was forgotten. -/
def Quiet (h : List Event) : Prop := ∀ ev ∈ h, ev.replaces = false

@[simp] theorem quiet_nil : Quiet [] := fun _ hev => (nomatch hev)

@[simp] theorem quiet_cons {ev : Event} {h : List Event} :
    Quiet (ev :: h) ↔ ev.replaces = false ∧ Quiet h := List.forall_mem_cons

theorem Quiet.append {h h' : List Event} (hh : Quiet h) (hh' : Quiet h') : Quiet (h ++ h') := by
  intro ev hev
  rcases List.mem_append.1 hev with hev | hev
  · exact hh ev hev
  · exact hh' ev hev

/-- This was retrieved and kept; nothing was retrieved with success after it, and nothing was
forgotten. -/
def LastRetrieved (h : List Event) (k : Kept) : Prop :=
  ∃ before r after, h = before ++ .receive r :: .keep k.set k.since :: after
    ∧ readResponse r = .ok k.set ∧ Quiet after

namespace LastRetrieved

variable {h h' : List Event} {k : Kept}

theorem after (past : List Event) (hk : LastRetrieved h k) : LastRetrieved (past ++ h) k := by
  obtain ⟨before, r, after, rfl, hr, hquiet⟩ := hk
  exact ⟨past ++ before, r, after, by simp, hr, hquiet⟩

theorem append (hk : LastRetrieved h k) (hh' : Quiet h') : LastRetrieved (h ++ h') k := by
  obtain ⟨before, r, after, rfl, hr, hquiet⟩ := hk
  exact ⟨before, r, after ++ h', by simp, hr, hquiet.append hh'⟩

end LastRetrieved

/-! ## What an operation gives and leaves -/

/-- What is kept in the end is what was retrieved, or else what was kept before. -/
inductive Leaves (s : State) (b : Nat) (h : List Event) (s' : State) : Prop
  | retrieved {k : Kept} (kept : s'.kept = some k) (ended : k.since ≤ b) (last : LastRetrieved h k)
  | same (quiet : Quiet h) (kept : s'.kept = s.kept)

/-- A given set was retrieved, or it was kept before and was fresh when it was looked for. -/
inductive Source (p : Policy) (s : State) (a : Nat) (h : List Event) (k : Kept) : Prop
  | retrieved (last : LastRetrieved h k)
  | kept {t : Nat} (quiet : Quiet h) (kept : s.kept = some k)
    (looked : Event.look (some k.set) t ∈ h) (begun : a ≤ t) (fresh : t - k.since < p.ttl)

/-- If a retrieval fails, the call ends there and fails with it, and what was kept when the
retriever was called is kept in the end. -/
def Fails (h : List Event) (result : Result JwkSet) (s' : State) : Prop :=
  ∀ r err, Event.receive r ∈ h → readResponse r = .error err →
    result = .error err
      ∧ ∃ before x t, h = before ++ [.request x t, .receive r] ∧ s'.kept = x.kept

/-- What an operation gives and leaves is accounted for by what it did. -/
structure Accounted (p : Policy) (s : State) (a b : Nat) (h : List Event) (result : Result JwkSet)
    (s' : State) : Prop where
  leaves : Leaves s b h s'
  source : ∀ set, result = .ok set → ∃ since, Source p s a h ⟨set, since⟩
  fails : Fails h result s'

section Operations

variable {s s₁ s' : State} {a b c : Nat} {h h' : List Event} {r : Result JwkSet}

theorem Leaves.trans (hh : Leaves s c h s₁) (hcb : c ≤ b) (hh' : Leaves s₁ b h' s') :
    Leaves s b (h ++ h') s' := by
  cases hh' with
  | retrieved kept ended last => exact .retrieved kept ended (last.after h)
  | same quiet' kept' =>
    cases hh with
    | retrieved kept ended last =>
      exact .retrieved (kept'.trans kept) (Nat.le_trans ended hcb) (last.append quiet')
    | same quiet kept => exact .same (quiet.append quiet') (kept'.trans kept)

theorem Source.trans {k : Kept} (hh' : Source p s₁ c h' k) (hh : Leaves s c h s₁) (hac : a ≤ c) :
    Source p s a (h ++ h') k := by
  cases hh' with
  | retrieved last => exact .retrieved (last.after h)
  | kept quiet' kept' looked begun fresh =>
    cases hh with
    | retrieved kept ended last =>
      obtain rfl := Option.some.inj (kept.symm.trans kept')
      exact .retrieved (last.append quiet')
    | same quiet kept =>
      exact .kept (quiet.append quiet') (kept.symm.trans kept') (List.mem_append_right h looked)
        (Nat.le_trans hac begun) fresh

theorem Fails.append (hh : ∀ r err, Event.receive r ∈ h → readResponse r ≠ .error err)
    (hh' : Fails h' r s') : Fails (h ++ h') r s' := by
  intro response err hmem hread
  rcases List.mem_append.1 hmem with hmem | hmem
  · exact absurd hread (hh response err hmem)
  · obtain ⟨hresult, before, x, t, rfl, hkept⟩ := hh' response err hmem hread
    exact ⟨hresult, h ++ before, x, t, by simp, hkept⟩

/-- An event that neither brings nor forgets anything may go before. -/
theorem Accounted.cons {ev : Event} (hh : Accounted p s₁ c b h r s') (hev : ev.replaces = false)
    (hne : ∀ r, ev ≠ .receive r) (hkept : s₁.kept = s.kept) (hac : a ≤ c) :
    Accounted p s a b (ev :: h) r s' := by
  have hsame : ∀ d, Leaves s d [ev] s₁ := fun d => .same (by simpa using hev) hkept
  refine ⟨(hsame b).trans (Nat.le_refl b) hh.leaves, ?_, ?_⟩
  · intro set hset
    obtain ⟨since, hsource⟩ := hh.source set hset
    exact ⟨since, hsource.trans (hsame c) hac⟩
  · refine hh.fails.append (h := [ev]) fun r err hmem => ?_
    exact absurd (List.mem_singleton.1 hmem).symm (hne r)

/-- An operation that gave a set may go before. -/
theorem Accounted.trans {set : JwkSet} (hh : Accounted p s a c h (.ok set) s₁)
    (hh' : Accounted p s₁ c b h' r s') (hac : a ≤ c) (hcb : c ≤ b) :
    Accounted p s a b (h ++ h') r s' where
  leaves := hh.leaves.trans hcb hh'.leaves
  source := by
    intro set hset
    obtain ⟨since, hsource⟩ := hh'.source set hset
    exact ⟨since, hsource.trans hh.leaves hac⟩
  fails := by
    refine hh'.fails.append fun response err hmem hread => ?_
    -- a retrieval that failed would have ended the first operation
    obtain ⟨hresult, -⟩ := hh.fails response err hmem hread
    cases hresult

theorem Retrieves.accounted (hr : Retrieves w time s a b h r s') : Accounted p s a b h r s' := by
  cases hr with
  | @kept e t set read begun answered ended =>
    have hlast : LastRetrieved [.request s (time e), .receive (w.respond e).1, .keep set t]
        ⟨set, t⟩ := ⟨[_], _, [], rfl, read, quiet_nil⟩
    refine ⟨.retrieved rfl ended hlast, ?_, ?_⟩
    · intro set' hset
      obtain rfl := Except.ok.inj hset
      exact ⟨t, .retrieved hlast⟩
    · intro response err hmem hread
      obtain rfl : response = (w.respond e).1 := by simpa using hmem
      rw [read] at hread
      cases hread
  | @failed e err read begun ended =>
    refine ⟨.same (by simp [Event.replaces, read]) rfl, fun set hset => (nomatch hset), ?_⟩
    intro response err' hmem hread
    obtain rfl : response = (w.respond e).1 := by simpa using hmem
    rw [read] at hread
    cases hread
    exact ⟨rfl, [], s, _, rfl, rfl⟩

theorem Gets.accounted (hg : Gets p w time s a b h r s') : Accounted p s a b h r s' := by
  cases hg with
  | @found t set fresh begun ended =>
    refine ⟨.same (by simp [Event.replaces]) rfl, ?_, ?_⟩
    · intro set' hset
      obtain rfl := Except.ok.inj hset
      obtain ⟨since, hkept, hage⟩ := State.fresh?_eq_some_iff.1 fresh
      exact ⟨since, .kept (by simp [Event.replaces]) hkept (List.mem_singleton_self _) begun hage⟩
    · intro response err hmem
      cases List.mem_singleton.1 hmem
  | @missed t u h r s' stale begun noted hr =>
    have hnoted : Accounted p s t b (.attempt u :: h) r s' :=
      hr.accounted.cons rfl (fun r => Event.noConfusion) rfl noted
    exact hnoted.cons rfl (fun r => Event.noConfusion) rfl begun

theorem Refreshes.accounted (hr : Refreshes p w time s a b h r s') : Accounted p s a b h r s' := by
  cases hr with
  | admitted admits begun hr =>
    exact hr.accounted.cons rfl (fun r => Event.noConfusion) rfl begun
  | refused refuses begun hg =>
    exact hg.accounted.cons rfl (fun r => Event.noConfusion) rfl begun

theorem LooksUp.accounted (hw : w.Steady time) {keyId : Option String}
    (hl : LooksUp p w time s a b keyId h r s') : Accounted p s a b h r s' := by
  cases hl with
  | failed hg => exact hg.accounted
  | got has hg => exact hg.accounted
  | refreshed wanted lacks hg hr =>
    exact hg.accounted.trans hr.accounted (hg.le hw) (hr.le hw)

theorem Lookup.Goes.accounted (hw : w.Steady time) {l : Lookup}
    (hl : l.Goes p w time s a b h r s') : Accounted p s a b h r s' := by
  cases l with
  | get => exact Gets.accounted hl
  | refresh => exact Refreshes.accounted hl
  | jwkSet keyId => exact LooksUp.accounted hw hl

end Operations

/-! ## Whole runs -/

/-- What is kept is what was retrieved last. -/
def KeptIsLast (past : List Event) (s : State) (now : Nat) : Prop :=
  ∀ k, s.kept = some k → LastRetrieved past k ∧ k.since ≤ now

theorem KeptIsLast.append {past h : List Event} {s s' : State} {a b : Nat}
    (hpast : KeptIsLast past s a) (hh : Leaves s b h s') (hab : a ≤ b) :
    KeptIsLast (past ++ h) s' b := by
  intro k hk
  cases hh with
  | retrieved kept ended last =>
    obtain rfl := Option.some.inj (kept.symm.trans hk)
    exact ⟨last.after past, ended⟩
  | same quiet kept =>
    obtain ⟨hlast, hsince⟩ := hpast k (kept.symm.trans hk)
    exact ⟨hlast.append quiet, Nat.le_trans hsince hab⟩

theorem isKept_keptIsLast (hw : w.Steady time) : IsKept p w time KeptIsLast where
  start := fun _ _ hk => (nomatch hk)
  wait := fun h hab k hk => ⟨(h k hk).1, Nat.le_trans (h k hk).2 hab⟩
  get := fun h hg => h.append hg.accounted.leaves (hg.le hw)
  refresh := fun h hr => h.append hr.accounted.leaves (hr.le hw)
  clear := fun _ _ hk => (nomatch hk)

/-- **What is given is what was retrieved last in the run**, and not forgotten since: it was
retrieved in the same call, or it is younger than the time to live. **A retrieval that fails leaves
what is kept, and since when**, as it was when the retriever was called. -/
theorem lastRetrieved_of_ask (hw : w.Steady time) {past : List Event} {s : State} {e : ω}
    (hs : Session p w time past s e) (l : Lookup) :
    let h := l.call.history p w time (s, e)
    let result := (l.call.run p w (s, e)).1
    let s' := (l.call.run p w (s, e)).2.1
    (∀ set, result = .ok set → ∃ since, LastRetrieved (past ++ h) ⟨set, since⟩
        ∧ (LastRetrieved h ⟨set, since⟩
          ∨ ∃ t, Event.look (some set) t ∈ h ∧ time e ≤ t ∧ since ≤ t ∧ t < since + p.ttl))
      ∧ ∀ r err, Event.receive r ∈ h → readResponse r = .error err →
          result = .error err
            ∧ ∃ before x t, h = before ++ [.request x t, .receive r] ∧ s'.kept = x.kept := by
  have hgoes := (l.follows (p := p) hw s e _ (Nat.le_refl _)).accounted hw
  refine ⟨fun set hset => ?_, hgoes.fails⟩
  obtain ⟨since, hsource⟩ := hgoes.source set hset
  refine ⟨since, ?_⟩
  cases hsource with
  | retrieved last => exact ⟨last.after past, Or.inl last⟩
  | @kept t quiet kept looked begun fresh =>
    -- what was kept when the call began is what was retrieved last by then
    obtain ⟨hlast, hsince⟩ := (isKept_keptIsLast hw).holds hw hs _ kept
    have hage : since ≤ t := Nat.le_trans hsince begun
    refine ⟨hlast.append quiet, Or.inr ⟨t, looked, begun, hage, ?_⟩⟩
    dsimp only at fresh
    omega

/-- A set is retrieved at 0; at 5 it is refreshed in vain; at 8 it is given again, since it is the
one that was retrieved last and is kept for 10. -/
theorem lastRetrieved_despite_failure :
    let p : Policy := ⟨10, 3⟩
    ∃ past s e, Session p replaying Prod.fst past s e
      ∧ past.length = 8
      ∧ (RemoteKeys.get.run p replaying (s, e)).1.toOption = some ⟨[]⟩
      ∧ ∀ set, (RemoteKeys.get.run p replaying (s, e)).1 = .ok set → ∃ since, LastRetrieved
          (past ++ RemoteKeys.get.history p replaying Prod.fst (s, e)) ⟨set, since⟩ := by
  have hs : Session ⟨10, 3⟩ replaying Prod.fst _ _ (8, []) :=
    ((((Session.start (0, [noKeys, .error (.status 500)])).ask .get).wait
      (5, [.error (.status 500)]) (by decide +kernel)).ask .refresh).wait (8, [])
      (by decide +kernel)
  refine ⟨_, _, _, hs, by decide +kernel, by decide +kernel, fun set hset => ?_⟩
  obtain ⟨since, hlast, -⟩ := (lastRetrieved_of_ask steady_replaying hs .get).1 set hset
  exact ⟨since, hlast⟩

end Credential.RemoteKeys
