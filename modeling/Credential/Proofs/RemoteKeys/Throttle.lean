import Credential.Proofs.RemoteKeys.History

/-!
# How often the retriever is called

The retriever is called while a fresh set is kept only if the last attempt is long enough ago
(`requests_spaced`). There are two places where an attempt is noted and only one of them asks
whether it is admitted; the other is reached only without a fresh set. So a flood of unknown key ids
leads to one call in each interval, whether or not the retrievals succeed.

The invariant is that no call was noted later than the attempt that is remembered (`Throttled`).
-/

namespace Credential.RemoteKeys

variable {ω : Type} {p : Policy} {w : World ω} {time : ω → Nat}

/-! ## Requests -/

/-- What was remembered when the retriever was called, and when that was. -/
def Event.request? : Event → Option (State × Nat)
  | .request s t => some (s, t)
  | _ => none

/-- The calls of the retriever, in order. A call was noted at its `State.lastAttempt`. -/
def requests (h : List Event) : List (State × Nat) := h.filterMap Event.request?

theorem requests_append (h h' : List Event) : requests (h ++ h') = requests h ++ requests h' :=
  List.filterMap_append

/-- Of two calls, the later one found nothing fresh, or it was noted at least the least interval
after the earlier one. -/
def Spaced (p : Policy) (c d : State × Nat) : Prop :=
  d.1.fresh? p d.2 = none
    ∨ ∃ t u, c.1.lastAttempt = some t ∧ d.1.lastAttempt = some u ∧ t + p.minInterval ≤ u ∧ u ≤ d.2

/-- The retriever was called although a fresh set was kept. -/
def forced (p : Policy) (c : State × Nat) : Bool := (c.1.fresh? p c.2).isSome

/-- The call was noted within one least interval from a moment on. -/
def notedWithin (p : Policy) (a : Nat) (c : State × Nat) : Bool :=
  c.1.lastAttempt.any fun t => a ≤ t && t < a + p.minInterval

/-- Of calls that are spaced, no interval holds two that were forced. -/
theorem length_forced_le_one {cs : List (State × Nat)} (h : cs.Pairwise (Spaced p)) (a : Nat) :
    (cs.filter fun c => forced p c && notedWithin p a c).length ≤ 1 := by
  have hspaced := h.filter fun c => forced p c && notedWithin p a c
  have hmem : ∀ c ∈ cs.filter fun c => forced p c && notedWithin p a c,
      forced p c = true ∧ notedWithin p a c = true := by
    intro c hc
    simpa using (List.mem_filter.1 hc).2
  match hcs : cs.filter fun c => forced p c && notedWithin p a c with
  | [] => exact Nat.zero_le 1
  | [_] => exact Nat.le_refl 1
  | c :: d :: rest =>
    -- the first two would be noted in one interval
    rw [hcs] at hspaced hmem
    obtain ⟨-, hc⟩ := hmem c (by simp)
    obtain ⟨hforced, hd⟩ := hmem d (by simp)
    rcases List.rel_of_pairwise_cons hspaced (List.mem_cons_self ..) with hstale | hgap
    · rw [forced, hstale] at hforced
      cases hforced
    · obtain ⟨t, u, ht, hu, hgap, -⟩ := hgap
      simp only [notedWithin, ht, hu, Option.any_some, Bool.and_eq_true, decide_eq_true_eq] at hc hd
      omega

/-! ## The invariant -/

/-- All calls of the retriever were noted by the attempt that is remembered, and they are spaced. -/
structure Throttled (p : Policy) (past : List Event) (s : State) (now : Nat) : Prop where
  noted : ∀ l, s.lastAttempt = some l → l ≤ now
  stamped : ∀ c ∈ requests past, ∃ t l, c.1.lastAttempt = some t ∧ s.lastAttempt = some l ∧ t ≤ l
  spaced : (requests past).Pairwise (Spaced p)

section Operations

variable {past h : List Event} {s s' : State} {a b t : Nat} {r : Result JwkSet}

/-- A retrieval calls the retriever once, and does not note another attempt. -/
theorem Retrieves.requests_eq (hw : w.Steady time) (hr : Retrieves w time s a b h r s') :
    ∃ u, requests h = [(s, u)] ∧ a ≤ u ∧ u ≤ b ∧ s'.lastAttempt = s.lastAttempt := by
  cases hr with
  | @kept e t set read begun answered ended =>
    exact ⟨time e, rfl, begun,
      Nat.le_trans (hw.le_respond e) (Nat.le_trans answered ended), rfl⟩
  | @failed e err read begun ended =>
    exact ⟨time e, rfl, begun, Nat.le_trans (hw.le_respond e) ended, rfl⟩

/-- An attempt that is noted at a moment when nothing fresh is kept, or when a forced one is
admitted, may be made. -/
theorem Throttled.retrieve (hpast : Throttled p past s a) (hw : w.Steady time) (hat : a ≤ t)
    (hmay : s.fresh? p t = none ∨ s.refuses p t = false)
    (hr : Retrieves w time (s.attempt t) t b h r s') : Throttled p (past ++ h) s' b := by
  obtain ⟨u, hrequests, htu, hub, hlast⟩ := hr.requests_eq hw
  have hlast' : s'.lastAttempt = some t := hlast
  have hrequests' : requests (past ++ h) = requests past ++ [(s.attempt t, u)] := by
    rw [requests_append, hrequests]
  refine ⟨?_, ?_, ?_⟩
  · intro l hl
    obtain rfl := Option.some.inj (hlast'.symm.trans hl)
    exact Nat.le_trans htu hub
  · intro c hc
    rw [hrequests', List.mem_append, List.mem_singleton] at hc
    rcases hc with hc | rfl
    · obtain ⟨v, l, hv, hl, hvl⟩ := hpast.stamped c hc
      exact ⟨v, t, hv, hlast', Nat.le_trans hvl (Nat.le_trans (hpast.noted l hl) hat)⟩
    · exact ⟨t, t, rfl, hlast', Nat.le_refl t⟩
  · rw [hrequests', List.pairwise_append]
    refine ⟨hpast.spaced, List.pairwise_singleton _ _, ?_⟩
    intro c hc d hd
    obtain rfl := List.mem_singleton.1 hd
    rcases hmay with hstale | hadmits
    · exact Or.inl (State.fresh?_eq_none_of_le hstale htu)
    · obtain ⟨v, l, hv, hl, hvl⟩ := hpast.stamped c hc
      have hgap := State.refuses_eq_false_iff.1 hadmits l hl
      have hlt := Nat.le_trans (hpast.noted l hl) hat
      exact Or.inr ⟨v, t, hv, rfl, by omega, htu⟩

/-- Events that are no requests change nothing. -/
theorem Throttled.append (hpast : Throttled p past s a) (hh : requests h = []) :
    Throttled p (past ++ h) s a := by
  have hrequests : requests (past ++ h) = requests past := by
    rw [requests_append, hh, List.append_nil]
  exact ⟨hpast.noted, hrequests ▸ hpast.stamped, hrequests ▸ hpast.spaced⟩

theorem Throttled.wait (hpast : Throttled p past s a) (hab : a ≤ b) : Throttled p past s b :=
  ⟨fun l hl => Nat.le_trans (hpast.noted l hl) hab, hpast.stamped, hpast.spaced⟩

theorem Throttled.get (hpast : Throttled p past s a) (hw : w.Steady time)
    (hg : Gets p w time s a b h r s') : Throttled p (past ++ h) s' b := by
  cases hg with
  | found fresh begun ended =>
    exact (hpast.append rfl).wait (Nat.le_trans begun ended)
  | @missed t u h r s' stale begun noted hr =>
    have hstale := State.fresh?_eq_none_of_le stale noted
    rw [List.append_cons, List.append_cons]
    exact ((hpast.append rfl).append rfl).retrieve hw (Nat.le_trans begun noted) (Or.inl hstale) hr

theorem Throttled.refresh (hpast : Throttled p past s a) (hw : w.Steady time)
    (hr : Refreshes p w time s a b h r s') : Throttled p (past ++ h) s' b := by
  cases hr with
  | admitted admits begun hr =>
    rw [List.append_cons]
    exact (hpast.append rfl).retrieve hw begun (Or.inr admits) hr
  | refused refuses begun hg =>
    rw [List.append_cons]
    exact ((hpast.append rfl).wait begun).get hw hg

end Operations

theorem isKept_throttled (hw : w.Steady time) : IsKept p w time (Throttled p) where
  start := fun _ => ⟨fun _ hl => (nomatch hl), fun _ hc => (nomatch hc), List.Pairwise.nil⟩
  wait := fun h hab => h.wait hab
  get := fun h hg => h.get hw hg
  refresh := fun h hr => h.refresh hw hr
  clear := fun {_ _ _} h =>
    have hcleared := h.append (h := [.clear]) rfl
    ⟨hcleared.noted, hcleared.stamped, hcleared.spaced⟩

/-- **The retriever is called only where nothing fresh is kept, or at least the least interval after
every earlier call was noted.** So of the calls that are made although a fresh set is kept, no
interval holds two. -/
theorem requests_spaced (hw : w.Steady time) {past : List Event} {s : State} {e : ω}
    (hs : Session p w time past s e) :
    (requests past).Pairwise (Spaced p)
      ∧ ∀ a, ((requests past).filter fun c => forced p c && notedWithin p a c).length ≤ 1 := by
  have hspaced := ((isKept_throttled hw).holds hw hs).spaced
  exact ⟨hspaced, length_forced_le_one hspaced⟩

/-- A flood of unknown key ids from 1 on: the set was retrieved at 0 and is kept for 100, so the
retriever is called again at 12 only, in vain, and not once more before 22. -/
theorem requests_spaced_flood :
    let p : Policy := ⟨100, 10⟩
    ∃ past s e, Session p replaying Prod.fst past s e
      ∧ (requests past).map (fun c => (c.2, forced p c)) = [(0, false), (12, true)]
      ∧ (requests past).Pairwise (Spaced p)
      ∧ ((requests past).filter fun c => forced p c && notedWithin p 12 c).length ≤ 1 := by
  have hs : Session ⟨100, 10⟩ replaying Prod.fst _ _ (21, []) :=
    ((((((((Session.start (0, [noKeys, .error (.status 500)])).ask .get).wait
      (1, [.error (.status 500)]) (by decide +kernel)).ask (.jwkSet (some "unknown"))).wait
      (12, [.error (.status 500)]) (by decide +kernel)).ask (.jwkSet (some "unknown"))).wait
      (13, []) (by decide +kernel)).ask (.jwkSet (some "unknown"))).wait (21, [])
      (by decide +kernel)
  obtain ⟨hspaced, hfew⟩ := requests_spaced steady_replaying hs
  exact ⟨_, _, _, hs, by decide +kernel, hspaced, hfew 12⟩

end Credential.RemoteKeys
