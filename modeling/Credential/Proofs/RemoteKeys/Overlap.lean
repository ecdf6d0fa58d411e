import Mathlib.Data.Fintype.Basic
import Mathlib.Data.List.Pairwise
import Mathlib.Logic.Function.Basic
import Credential.Proofs.RemoteKeys.Throttle

/-!
# Calls that overlap

Several calls share one key set, and each waits for its own responses. A schedule says who takes a
step next, at what moment, and what has arrived by then; the steps that are taken are the `turns`.
Any interleaving of the calls is one of some schedule, and a call that runs alone is one as well
(`exists_turns_eq_history`).

The guard notes an attempt in the same step that admits it. So after one admission there is no other
before the least interval is over, even if the retrieval is still under way then
(`pairwise_admitted`). What a single call does is seen in its own turns, whatever the others did in
between (`Call.Takes`): it asks the guard before it calls the retriever, and calls it once at most.
From both it follows that overlapping refreshes retrieve once
(`overlapping_refreshes_retrieve_once`).
-/

namespace Credential.RemoteKeys

/-! ## Turns -/

/-- What the next step of a call does, unless the call is over. -/
def Call.event? {α : Type} (p : Policy) (now : Nat) (response : Response) :
    Call α → State → Option Event
  | .done _, _ => none
  | .look _, s => some (.look (s.fresh? p now) now)
  | .reserve _, s => some (.reserve (s.reserve p now).1 now)
  | .attempt _, _ => some (.attempt now)
  | .request _, s => some (.request s now)
  | .receive _, _ => some (.receive response)
  | .keep set _, _ => some (.keep set now)
  | .clear _, _ => some .clear

/-- Who takes a step, at what moment, and the response that has arrived. -/
structure Slot (ι : Type) where
  caller : ι
  now : Nat
  response : Response

/-- A step that was taken: by whom, at what moment, in which state, and what it did. -/
structure Turn (ι : Type) where
  caller : ι
  now : Nat
  before : State
  event : Event

deriving instance DecidableEq for Event

/-- The answer of the guard, if this was asked. -/
def Event.guard? : Event → Option Bool
  | .reserve admitted _ => some admitted
  | _ => none

/-- Was the retriever called? -/
def Event.isRequest (e : Event) : Bool := e.request?.isSome

theorem Event.exists_of_guard? {e : Event} {b : Bool} (h : e.guard? = some b) :
    ∃ t, e = .reserve b t := by
  unfold guard? at h
  split at h
  · next admitted t =>
    obtain rfl := Option.some.inj h
    exact ⟨t, rfl⟩
  · cases h

/-- Was an unexpired set kept? -/
def Turn.isFresh {ι : Type} (p : Policy) (u : Turn ι) : Bool := (u.before.fresh? p u.now).isSome

section Turns

variable {ι α : Type} [DecidableEq ι] (p : Policy)

/-- The steps that calls take in a schedule. A call that is over takes none. -/
def turns : (ι → Call α) → State → List (Slot ι) → List (Turn ι)
  | _, _, [] => []
  | calls, s, x :: rest =>
    let next := (calls x.caller).step p x.now x.response s
    let later := turns (Function.update calls x.caller next.1) next.2 rest
    match (calls x.caller).event? p x.now x.response s with
    | some e => ⟨x.caller, x.now, s, e⟩ :: later
    | none => later

/-- The call asked the guard in this window. -/
def asksWithin (us : List (Turn ι)) (a b : Nat) (i : ι) : Bool :=
  us.any fun u => u.caller = i && u.event.guard?.isSome && a ≤ u.now && u.now ≤ b

end Turns

/-! ## A call alone -/

section Alone

variable {ω α : Type} {p : Policy} {w : World ω} {time : ω → Nat}

/-- In the schedule of a single call that is not over, its step comes first. -/
theorem map_event_turns_cons {c : Call α} {s : State} {x : Slot Unit} {rest : List (Slot Unit)}
    {e : Event} (h : c.event? p x.now x.response s = some e) :
    (turns p (fun _ => c) s (x :: rest)).map Turn.event
      = e :: (turns p (fun _ => (c.step p x.now x.response s).1)
          (c.step p x.now x.response s).2 rest).map Turn.event := by
  have hpool : Function.update (fun _ : Unit => c) x.caller (c.step p x.now x.response s).1
      = fun _ => (c.step p x.now x.response s).1 := by
    funext i
    rw [Subsingleton.elim i x.caller, Function.update_self]
  rw [turns, h, hpool]
  rfl

/-- The turns of some schedule are the history, and the clock of the schedule, which does not run
backwards, begins at a moment. -/
def IsScheduled (p : Policy) (c : Call α) (s : State) (a : Nat) (h : List Event) : Prop :=
  ∃ sched : List (Slot Unit), sched.Pairwise (·.now ≤ ·.now) ∧ (∀ x ∈ sched, a ≤ x.now)
    ∧ (turns p (fun _ => c) s sched).map Turn.event = h

theorem IsScheduled.cons {c : Call α} {s : State} {a b t : Nat} {r : Response} {e : Event}
    {h : List Event} (hat : a ≤ t) (htb : t ≤ b) (he : c.event? p t r s = some e)
    (hrest : IsScheduled p (c.step p t r s).1 (c.step p t r s).2 b h) :
    IsScheduled p c s a (e :: h) := by
  obtain ⟨sched, hclock, hbegin, hturns⟩ := hrest
  refine ⟨⟨(), t, r⟩ :: sched, ?_, ?_, ?_⟩
  · exact List.pairwise_cons.2 ⟨fun x hx => Nat.le_trans htb (hbegin x hx), hclock⟩
  · intro x hx
    rcases List.mem_cons.1 hx with rfl | hx
    · exact hat
    · exact Nat.le_trans hat (Nat.le_trans htb (hbegin x hx))
  · rw [map_event_turns_cons (x := ⟨(), t, r⟩) he, hturns]

/-- **A run of a call without interruption is its history in a schedule.** -/
theorem exists_turns_eq_history (hw : w.Steady time) (c : Call α) (s : State) (e : ω) :
    IsScheduled p c s (time e) (c.history p w time (s, e)) := by
  -- where a step reads no clock it is taken as late as the world is, and any response will do
  let r : Response := .ok []
  induction c generalizing s e with
  | done a => exact ⟨[], List.Pairwise.nil, by simp, rfl⟩
  | look k ih => exact .cons (r := r) (hw.le_now e) (hw.now_le e) rfl (ih _ _ _)
  | reserve k ih => exact .cons (r := r) (hw.le_now e) (hw.now_le e) rfl (ih _ _ _)
  | attempt k ih => exact .cons (r := r) (hw.le_now e) (hw.now_le e) rfl (ih _ _)
  | request k ih => exact .cons (r := r) (Nat.le_refl _) (Nat.le_refl _) rfl (ih _ _)
  | receive k ih => exact .cons (Nat.le_refl _) (hw.le_respond e) rfl (ih _ _ _)
  | keep set k ih => exact .cons (r := r) (hw.le_now e) (hw.now_le e) rfl (ih _ _)
  | clear k ih => exact .cons (r := r) (Nat.le_refl _) (Nat.le_refl _) rfl (ih _ _)

end Alone

/-! ## Admissions are spaced -/

section Admissions

variable {ι α : Type} [DecidableEq ι] {p : Policy}

/-- The guard leaves the state as it was, or admits an attempt and notes it. -/
theorem State.reserve_cases (s : State) (p : Policy) (t : Nat) :
    s.reserve p t = (false, s) ∨ s.refuses p t = false ∧ s.reserve p t = (true, s.attempt t) := by
  unfold reserve
  cases s.refuses p t with
  | true => exact Or.inl rfl
  | false => exact Or.inr ⟨rfl, rfl⟩

/-- A step leaves the last attempt as it was, or notes one at its own moment. -/
theorem lastAttempt_step (c : Call α) (s : State) (t : Nat) (r : Response) :
    (c.step p t r s).2.lastAttempt = s.lastAttempt ∨ (c.step p t r s).2.lastAttempt = some t := by
  cases c with
  | reserve k =>
    rcases s.reserve_cases p t with h | ⟨-, h⟩
    · exact Or.inl (by rw [Call.step, h])
    · exact Or.inr (by rw [Call.step, h]; rfl)
  | attempt k => exact Or.inr rfl
  | done a => exact Or.inl rfl
  | look k => exact Or.inl rfl
  | request k => exact Or.inl rfl
  | receive k => exact Or.inl rfl
  | keep set k => exact Or.inl rfl
  | clear k => exact Or.inl rfl

/-- A step that is admitted finds no attempt that is too recent, and notes one. -/
theorem step_of_admitted {c : Call α} {s : State} {t u : Nat} {r : Response}
    (h : c.event? p t r s = some (.reserve true u)) :
    s.refuses p t = false ∧ (c.step p t r s).2.lastAttempt = some t := by
  cases c with
  | reserve k =>
    rcases s.reserve_cases p t with hr | ⟨hadmits, hr⟩
    · rw [Call.event?, hr] at h
      cases h
    · exact ⟨hadmits, by rw [Call.step, hr]; rfl⟩
  | done a => cases h
  | _ => simp [Call.event?] at h

/-- A turn is the first caller's, or one of the rest of the schedule. -/
theorem mem_turns_cons {calls : ι → Call α} {s : State} {x : Slot ι} {rest : List (Slot ι)}
    {u : Turn ι} (h : u ∈ turns p calls s (x :: rest)) :
    (u.now = x.now ∧ (calls x.caller).event? p x.now x.response s = some u.event)
      ∨ u ∈ turns p
          (Function.update calls x.caller ((calls x.caller).step p x.now x.response s).1)
          ((calls x.caller).step p x.now x.response s).2 rest := by
  rw [turns] at h
  split at h
  · next e he =>
    rcases List.mem_cons.1 h with rfl | h
    · exact Or.inl ⟨rfl, he⟩
    · exact Or.inr h
  · exact Or.inr h

/-- After an attempt that was noted, nothing is admitted before the least interval is over. -/
theorem le_now_of_admitted {calls : ι → Call α} {s : State} {sched : List (Slot ι)} {l : Nat}
    (hclock : sched.Pairwise (·.now ≤ ·.now)) (hl : s.lastAttempt = some l)
    (hlater : ∀ x ∈ sched, l ≤ x.now) {u : Turn ι} (hu : u ∈ turns p calls s sched)
    (hadmitted : u.event.guard? = some true) :
    l + p.minInterval ≤ u.now := by
  induction sched generalizing calls s l with
  | nil => cases hu
  | cons x rest ih =>
    obtain ⟨hx, hclock⟩ := List.pairwise_cons.1 hclock
    have hlx : l ≤ x.now := hlater x (List.mem_cons_self ..)
    rcases mem_turns_cons hu with ⟨hnow, he⟩ | hu
    · obtain ⟨t, ht⟩ := Event.exists_of_guard? hadmitted
      rw [ht] at he
      have hgap := State.refuses_eq_false_iff.1 (step_of_admitted he).1 l hl
      omega
    · -- whatever the first step noted, it was not earlier
      rcases lastAttempt_step (p := p) (calls x.caller) s x.now x.response with hs | hs
      · exact ih hclock (hs.trans hl) (fun y hy => hlater y (List.mem_cons_of_mem _ hy)) hu
      · exact Nat.le_trans (Nat.add_le_add_right hlx _) (ih hclock hs hx hu)

/-- **Any two calls that pass the guard do so at least the least interval apart.** -/
theorem pairwise_admitted {calls : ι → Call α} {s : State} {sched : List (Slot ι)}
    (hclock : sched.Pairwise (·.now ≤ ·.now)) :
    ((turns p calls s sched).filter (·.event.guard? = some true)).Pairwise
      (·.now + p.minInterval ≤ ·.now) := by
  induction sched generalizing calls s with
  | nil => exact List.Pairwise.nil
  | cons x rest ih =>
    obtain ⟨hx, hclock⟩ := List.pairwise_cons.1 hclock
    rw [turns]
    split
    · next e he =>
      rw [List.filter_cons]
      split
      · next hadmitted =>
        refine List.pairwise_cons.2 ⟨?_, ih hclock⟩
        intro u hu
        obtain ⟨hu, hu'⟩ := List.mem_filter.1 hu
        obtain ⟨t, rfl⟩ := Event.exists_of_guard? (of_decide_eq_true hadmitted)
        exact le_now_of_admitted hclock (step_of_admitted he).2 hx hu (of_decide_eq_true hu')
      · exact ih hclock
    · exact ih hclock

end Admissions

/-! ## The turns of one call -/

section Takes

variable {ι α : Type} {p : Policy}

/-- Turns that a call takes one after the other, each in whatever state the others left. -/
inductive Call.Takes (p : Policy) : Call α → List (Turn ι) → Prop
  | nil (c : Call α) : Takes p c []
  | cons {c : Call α} {u : Turn ι} {us : List (Turn ι)} (r : Response)
    (does : c.event? p u.now r u.before = some u.event)
    (rest : Takes p (c.step p u.now r u.before).1 us) : Takes p c (u :: us)

/-- What a caller does in a schedule is what its call takes. -/
theorem takes_turns [DecidableEq ι] (calls : ι → Call α) (s : State) (sched : List (Slot ι))
    (i : ι) : (calls i).Takes p ((turns p calls s sched).filter (·.caller = i)) := by
  induction sched generalizing calls s with
  | nil => exact .nil _
  | cons x rest ih =>
    have hrest := ih (Function.update calls x.caller
      ((calls x.caller).step p x.now x.response s).1)
      ((calls x.caller).step p x.now x.response s).2
    rw [turns]
    by_cases hi : x.caller = i
    · subst hi
      rw [Function.update_self] at hrest
      split
      · next e he =>
        rw [List.filter_cons_of_pos (by simp)]
        exact .cons x.response he hrest
      · next he =>
        -- the call is over, so its step was none
        cases hc : calls x.caller with
        | done a =>
          simp only [hc, Call.step] at hrest ⊢
          exact hrest
        | _ => simp [hc, Call.event?] at he
    · rw [Function.update_of_ne (Ne.symm hi)] at hrest
      split
      · rw [List.filter_cons_of_neg (by simpa using hi)]
        exact hrest
      · exact hrest

/-- Whatever it is answered, the call asks the retriever `n` times at most, and the guard never. -/
def Call.Unguarded : Call α → Nat → Prop
  | .done _, _ => True
  | .look k, n => ∀ found, (k found).Unguarded n
  | .reserve _, _ => False
  | .attempt k, n => k.Unguarded n
  | .request k, n => 0 < n ∧ k.Unguarded (n - 1)
  | .receive k, n => ∀ response, (k response).Unguarded n
  | .keep _ k, n => k.Unguarded n
  | .clear k, n => k.Unguarded n

theorem unguarded_retrieve : retrieve.Unguarded 1 := by
  refine ⟨Nat.one_pos, fun response => ?_⟩
  dsimp only
  split
  · exact trivial
  · exact trivial

theorem step_of_unguarded {c : Call α} {n : Nat} (hc : c.Unguarded n) {s : State} {t : Nat}
    {r : Response} {e : Event} (he : c.event? p t r s = some e) :
    e.guard? = none
      ∧ ∃ m, (c.step p t r s).1.Unguarded m ∧ m + (if e.isRequest then 1 else 0) ≤ n := by
  cases c with
  | done a => cases he
  | reserve k => exact hc.elim
  | request k =>
    cases he
    obtain ⟨hpos, hk⟩ := hc
    exact ⟨rfl, n - 1, hk, Nat.le_of_eq (Nat.sub_add_cancel hpos)⟩
  | look k => cases he; exact ⟨rfl, n, hc _, Nat.le_refl n⟩
  | attempt k => cases he; exact ⟨rfl, n, hc, Nat.le_refl n⟩
  | receive k => cases he; exact ⟨rfl, n, hc _, Nat.le_refl n⟩
  | keep set k => cases he; exact ⟨rfl, n, hc, Nat.le_refl n⟩
  | clear k => cases he; exact ⟨rfl, n, hc, Nat.le_refl n⟩

namespace Call.Takes

variable {us : List (Turn ι)}

theorem eq_nil_of_done {a : α} (h : (Call.done a).Takes p us) : us = [] := by
  cases h with
  | nil => rfl
  | cons r does rest => cases does

theorem of_unguarded {c : Call α} (h : c.Takes p us) {n : Nat} (hc : c.Unguarded n) :
    (∀ u ∈ us, u.event.guard? = none) ∧ us.countP (·.event.isRequest) ≤ n := by
  induction h generalizing n with
  | nil c => exact ⟨fun u hu => (nomatch hu), Nat.zero_le n⟩
  | @cons c u us r does rest ih =>
    obtain ⟨hguard, m, hnext, hm⟩ := step_of_unguarded hc does
    obtain ⟨hguards, hrequests⟩ := ih hnext
    refine ⟨List.forall_mem_cons.2 ⟨hguard, hguards⟩, ?_⟩
    rw [List.countP_cons]
    omega

/-- A call for a set that finds an unexpired one does nothing else. -/
theorem of_get (h : RemoteKeys.get.Takes p us) (hfresh : ∀ u ∈ us, u.isFresh p) :
    ∀ u ∈ us, u.event.isRequest = false := by
  cases h with
  | nil => exact fun u hu => nomatch hu
  | @cons _ u us r does rest =>
    obtain ⟨set, hset⟩ := Option.isSome_iff_exists.1 (hfresh u (List.mem_cons_self ..))
    have hover : (RemoteKeys.get.step p u.now r u.before).1 = .done (.ok set) := by
      simp only [RemoteKeys.get, Call.step, hset]
    rw [hover] at rest
    obtain rfl := rest.eq_nil_of_done
    intro v hv
    obtain rfl := List.mem_singleton.1 hv
    rw [← Option.some.inj does]
    rfl

/-- A refresh asks the guard first. Then it retrieves, or gets what there is. -/
theorem refresh_cases (h : refresh.Takes p us) :
    us = [] ∨ ∃ u rest admitted, us = u :: rest ∧ u.event = .reserve admitted u.now
      ∧ (if admitted then retrieve else RemoteKeys.get).Takes p rest := by
  cases h with
  | nil => exact Or.inl rfl
  | @cons _ u us r does rest =>
    refine Or.inr ⟨u, us, (u.before.reserve p u.now).1, rfl, (Option.some.inj does).symm, ?_⟩
    have hnext : (refresh.step p u.now r u.before).1
        = if (u.before.reserve p u.now).1 then retrieve else RemoteKeys.get := by
      simp only [refresh, Call.step]
      cases (u.before.reserve p u.now).1 with
      | true => rfl
      | false => rfl
    rw [hnext] at rest
    exact rest

/-- While an unexpired set is kept, a refresh calls the retriever once at most, and not at all if
the guard refused it. -/
theorem of_refresh (h : refresh.Takes p us) (hfresh : ∀ u ∈ us, u.isFresh p) :
    us.countP (·.event.isRequest) ≤ 1
      ∧ ∀ u ∈ us, u.event.guard? = some false → ∀ v ∈ us, v.event.isRequest = false := by
  rcases h.refresh_cases with rfl | ⟨u, rest, admitted, rfl, hu, hrest⟩
  · simp
  cases admitted with
  | true =>
    obtain ⟨hguards, hrequests⟩ := hrest.of_unguarded unguarded_retrieve
    refine ⟨?_, ?_⟩
    · rw [List.countP_cons_of_neg (by simp [hu, Event.isRequest, Event.request?])]
      exact hrequests
    · intro v hv hrefused
      rcases List.mem_cons.1 hv with rfl | hv
      · rw [hu] at hrefused
        cases hrefused
      · rw [hguards v hv] at hrefused
        cases hrefused
  | false =>
    have hquiet : ∀ v ∈ u :: rest, v.event.isRequest = false := by
      refine List.forall_mem_cons.2 ⟨by rw [hu]; rfl, fun v hv => ?_⟩
      exact of_get hrest (fun v hv => hfresh v (List.mem_cons_of_mem _ hv)) v hv
    refine ⟨?_, fun _ _ _ => hquiet⟩
    rw [List.countP_eq_zero.2 (by simpa using hquiet)]
    exact Nat.zero_le 1

end Call.Takes

end Takes

/-! ## A set that does not expire -/

section Kept

variable {ι α : Type} [DecidableEq ι] {p : Policy}

/-- A step that does not clear the cache leaves the kept set as it was, or keeps one at its own
moment. -/
theorem kept_step {c : Call α} {s : State} {t : Nat} {r : Response}
    (h : c.event? p t r s ≠ some .clear) :
    (c.step p t r s).2.kept = s.kept ∨ ∃ set, (c.step p t r s).2.kept = some ⟨set, t⟩ := by
  cases c with
  | clear k => exact absurd rfl h
  | keep set k => exact Or.inr ⟨set, rfl⟩
  | reserve k =>
    rcases s.reserve_cases p t with hr | ⟨-, hr⟩
    · exact Or.inl (by rw [Call.step, hr])
    · exact Or.inl (by rw [Call.step, hr]; rfl)
  | done a => exact Or.inl rfl
  | look k => exact Or.inl rfl
  | attempt k => exact Or.inl rfl
  | request k => exact Or.inl rfl
  | receive k => exact Or.inl rfl

/-- If a set is kept that does not expire before the schedule ends, and nobody clears the cache, an
unexpired set is kept at every turn. -/
theorem isFresh_of_kept {calls : ι → Call α} {s : State} {sched : List (Slot ι)} {since : Nat}
    (hkept : ∃ k, s.kept = some k ∧ since ≤ k.since)
    (htimes : ∀ x ∈ sched, since ≤ x.now ∧ x.now - since < p.ttl)
    (hclear : ∀ u ∈ turns p calls s sched, u.event ≠ .clear) :
    ∀ u ∈ turns p calls s sched, u.isFresh p := by
  induction sched generalizing calls s with
  | nil => exact fun u hu => nomatch hu
  | cons x rest ih =>
    obtain ⟨⟨hsince, hage⟩, htimes⟩ := List.forall_mem_cons.1 htimes
    obtain ⟨k, hk, hks⟩ := hkept
    have hfresh : (s.fresh? p x.now).isSome :=
      Option.isSome_iff_exists.2 ⟨k.set, State.fresh?_eq_some_iff.2 ⟨k.since, hk, by omega⟩⟩
    have hnext : (calls x.caller).event? p x.now x.response s ≠ some .clear →
        ∃ k, ((calls x.caller).step p x.now x.response s).2.kept = some k ∧ since ≤ k.since := by
      intro h
      rcases kept_step h with hs | ⟨set, hs⟩
      · exact ⟨k, hs.trans hk, hks⟩
      · exact ⟨⟨set, x.now⟩, hs, hsince⟩
    intro u hu
    rw [turns] at hu hclear
    split at hu
    · next e he =>
      simp only [he] at hclear
      obtain ⟨hfirst, hlater⟩ := List.forall_mem_cons.1 hclear
      rcases List.mem_cons.1 hu with rfl | hu
      · exact hfresh
      · refine ih (hnext ?_) htimes hlater u hu
        rw [he]
        exact fun h => hfirst (Option.some.inj h)
    · next he =>
      simp only [he] at hclear
      exact ih (hnext (by rw [he]; exact fun h => nomatch h)) htimes hclear u hu

end Kept

/-! ## Overlapping refreshes -/

section Overlap

variable {ι : Type}

/-- Where of any two elements one fails a test, one at most passes it. -/
theorem countP_le_one {α : Type} {q : α → Bool} {l : List α}
    (h : l.Pairwise fun v w => q v = true → q w = false) : l.countP q ≤ 1 := by
  induction h with
  | nil => exact Nat.zero_le 1
  | @cons v l hv _ ih =>
    rw [List.countP_cons]
    split
    · next hq =>
      rw [List.countP_eq_zero.2 fun w hw => by simp [hv w hw hq]]
    · exact ih

/-- Of turns that follow each other at a distance, any two are as far apart. -/
theorem le_or_le_of_pairwise {us : List (Turn ι)} {d : Nat} (h : us.Pairwise (·.now + d ≤ ·.now))
    {u v : Turn ι} (hu : u ∈ us) (hv : v ∈ us) (hne : u ≠ v) :
    u.now + d ≤ v.now ∨ v.now + d ≤ u.now := by
  have hp : us.Pairwise fun u v => u.now + d ≤ v.now ∨ v.now + d ≤ u.now :=
    h.imp fun h => Or.inl h
  have : Std.Symm fun u v : Turn ι => u.now + d ≤ v.now ∨ v.now + d ≤ u.now :=
    ⟨fun _ _ h => h.symm⟩
  exact hp.forall hu hv hne

variable [DecidableEq ι] {p : Policy}

/-- A guard that a caller asked is found among the turns. -/
theorem exists_of_asksWithin {us : List (Turn ι)} {a b : Nat} {i : ι}
    (h : asksWithin us a b i = true) :
    ∃ u ∈ us, u.caller = i ∧ (∃ admitted, u.event.guard? = some admitted) ∧ a ≤ u.now
      ∧ u.now ≤ b := by
  simpa [asksWithin, Option.isSome_iff_exists, and_assoc] using h

/-- A request of a refresh that asked the guard in the window. -/
def isForcedRequest (us : List (Turn ι)) (forced : Finset ι) (a b : Nat) (v : Turn ι) : Bool :=
  v.caller ∈ forced && asksWithin us a b v.caller && v.event.isRequest

/-- Of refreshes that pass the guard at least the least interval apart, and call the retriever once
each and only after that, no shorter window holds two that call it. -/
theorem countP_isForcedRequest_le_one {us : List (Turn ι)} {forced : Finset ι}
    (hspaced : (us.filter (·.event.guard? = some true)).Pairwise (·.now + p.minInterval ≤ ·.now))
    (honce : ∀ i ∈ forced, (us.filter (·.caller = i)).countP (·.event.isRequest) ≤ 1)
    (hquiet : ∀ u ∈ us, u.caller ∈ forced → u.event.guard? = some false →
      ∀ v ∈ us, v.caller = u.caller → v.event.isRequest = false)
    {a b : Nat} (hab : b < a + p.minInterval) :
    us.countP (isForcedRequest us forced a b) ≤ 1 := by
  have hadmitted : ∀ v ∈ us, isForcedRequest us forced a b v = true →
      v.caller ∈ forced ∧ v.event.isRequest = true
        ∧ ∃ u ∈ us.filter (·.event.guard? = some true),
            u.caller = v.caller ∧ a ≤ u.now ∧ u.now ≤ b := by
    intro v hv h
    simp only [isForcedRequest, Bool.and_eq_true, decide_eq_true_eq] at h
    obtain ⟨⟨hforced, hasks⟩, hrequest⟩ := h
    obtain ⟨u, hu, hcaller, ⟨admitted, hguard⟩, hau, hub⟩ := exists_of_asksWithin hasks
    refine ⟨hforced, hrequest, u, List.mem_filter.2 ⟨hu, ?_⟩, hcaller, hau, hub⟩
    cases admitted with
    | true => simpa using hguard
    | false =>
      have hno := hquiet u hu (hcaller ▸ hforced) hguard v hv hcaller.symm
      rw [hrequest] at hno
      cases hno
  refine countP_le_one (List.pairwise_iff_forall_sublist.2 ?_)
  intro v w hvw hv
  by_contra hw
  rw [Bool.not_eq_false] at hw
  obtain ⟨hforced, hv, g, hg, hgv, hag, hgb⟩ :=
    hadmitted v (hvw.subset (List.mem_cons_self ..)) hv
  obtain ⟨-, hw, g', hg', hgw, hag', hgb'⟩ :=
    hadmitted w (hvw.subset (by simp)) hw
  by_cases hcaller : w.caller = v.caller
  · -- two requests of one call
    have hone := (hvw.filter (·.caller = v.caller)).countP_le (p := (·.event.isRequest))
    have honce := honce v.caller hforced
    simp [hcaller, hv, hw] at hone
    omega
  · -- two admissions in the window
    have hne : g ≠ g' := fun h => hcaller (by rw [← hgw, ← h, hgv])
    have hapart := le_or_le_of_pairwise hspaced hg hg' hne
    omega

/-- **Overlapping refreshes retrieve once.** In any schedule the calls that pass the guard do so at
least the least interval apart. While an unexpired set is kept, a refresh that is refused does not
call the retriever, so all refreshes that ask the guard in a window shorter than the least interval
call it once at most, whatever comes of it. -/
theorem overlapping_refreshes_retrieve_once (calls : ι → Call (Result JwkSet)) (s : State)
    (forced : Finset ι) (hforced : ∀ i ∈ forced, calls i = refresh) (sched : List (Slot ι))
    (hclock : sched.Pairwise (·.now ≤ ·.now)) :
    let us := turns p calls s sched
    (us.filter (·.event.guard? = some true)).Pairwise (·.now + p.minInterval ≤ ·.now)
      ∧ ((∀ u ∈ us, u.isFresh p) →
        (∀ u ∈ us, u.caller ∈ forced → u.event.guard? = some false →
          ∀ v ∈ us, v.caller = u.caller → v.event.isRequest = false)
        ∧ ∀ a b, b < a + p.minInterval →
          us.countP (isForcedRequest us forced a b) ≤ 1) := by
  intro us
  have hspaced : (us.filter (·.event.guard? = some true)).Pairwise
      (·.now + p.minInterval ≤ ·.now) := pairwise_admitted hclock
  refine ⟨hspaced, fun hfresh => ?_⟩
  have hown : ∀ i ∈ forced, (us.filter (·.caller = i)).countP (·.event.isRequest) ≤ 1
      ∧ ∀ u ∈ us.filter (·.caller = i), u.event.guard? = some false →
        ∀ v ∈ us.filter (·.caller = i), v.event.isRequest = false := by
    intro i hi
    have htakes := takes_turns (p := p) calls s sched i
    rw [hforced i hi] at htakes
    exact htakes.of_refresh fun u hu => hfresh u (List.mem_of_mem_filter hu)
  have hquiet : ∀ u ∈ us, u.caller ∈ forced → u.event.guard? = some false →
      ∀ v ∈ us, v.caller = u.caller → v.event.isRequest = false := by
    intro u hu hi hrefused v hv hcaller
    exact (hown u.caller hi).2 u (List.mem_filter.2 ⟨hu, by simp⟩) hrefused v
      (List.mem_filter.2 ⟨hv, by simpa using hcaller⟩)
  exact ⟨hquiet, fun a b hab =>
    countP_isForcedRequest_le_one hspaced (fun i hi => (hown i hi).1) hquiet hab⟩

/-- Three refreshes of a set that was retrieved at 0: the first is admitted at 12 and waits for a
response, the second is refused meanwhile, and the third is admitted at 22, before the first one
fails. -/
theorem overlapping_refreshes_retrieve_once_slow :
    let p : Policy := ⟨100, 10⟩
    let failed : Response := .error (.status 500)
    let sched : List (Slot (Fin 3)) := [⟨0, 12, failed⟩, ⟨0, 13, failed⟩, ⟨1, 14, failed⟩,
      ⟨1, 15, failed⟩, ⟨2, 22, failed⟩, ⟨2, 23, failed⟩, ⟨0, 30, failed⟩, ⟨2, 31, failed⟩]
    let us := turns p (fun _ => refresh) ⟨some ⟨⟨[]⟩, 0⟩, some 0⟩ sched
    (∀ i ∈ Finset.univ, (fun _ : Fin 3 => refresh) i = refresh)
      ∧ sched.Pairwise (·.now ≤ ·.now) ∧ (∀ u ∈ us, u.isFresh p)
      ∧ us.map (fun u => (u.caller, u.now, u.event.guard?, u.event.isRequest))
        = [(0, 12, some true, false), (0, 13, none, true), (1, 14, some false, false),
          (1, 15, none, false), (2, 22, some true, false), (2, 23, none, true),
          (0, 30, none, false), (2, 31, none, false)]
      ∧ (us.filter (·.event.guard? = some true)).Pairwise (·.now + 10 ≤ ·.now)
      ∧ (∀ u ∈ us, u.caller ∈ Finset.univ → u.event.guard? = some false →
          ∀ v ∈ us, v.caller = u.caller → v.event.isRequest = false)
      ∧ us.countP (isForcedRequest us Finset.univ 12 21) ≤ 1 := by
  intro p failed sched us
  have hclock : sched.Pairwise (·.now ≤ ·.now) := by decide +kernel
  have hfresh : ∀ u ∈ us, u.isFresh p :=
    isFresh_of_kept ⟨_, rfl, Nat.le_refl 0⟩ (by decide +kernel) (by decide +kernel)
  obtain ⟨hspaced, hrest⟩ := overlapping_refreshes_retrieve_once (p := p) (fun _ => refresh)
    ⟨some ⟨⟨[]⟩, 0⟩, some 0⟩ Finset.univ (fun _ _ => rfl) sched hclock
  obtain ⟨hquiet, hfew⟩ := hrest hfresh
  exact ⟨fun _ _ => rfl, hclock, hfresh, by decide +kernel, hspaced, hquiet,
    hfew 12 21 (by decide)⟩

end Overlap

end Credential.RemoteKeys
