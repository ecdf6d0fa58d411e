import Credential.RemoteKeys.Call

/-!
# How calls on a remote key set go

The run of a call leaves a history: what its steps did, in order, with the moments that the clock
showed (`Call.history`). This module says what histories there are. For each operation a relation
lists the ways in which it may go (`Retrieves`, `Gets`, `Refreshes`, `LooksUp`), and every run goes
in one of them (`Lookup.follows`), whatever the clock shows and the retriever answers, as long as
the clock does not run backwards (`World.Steady`).

`Session` is a whole run: calls one after the other on one key set, with time passing in between.
What holds at its beginning and is kept by every operation holds at any time (`IsKept.holds`).
-/

namespace Credential.RemoteKeys

variable {ω : Type}

/-- A clock that does not run backwards. `time` says how late it is in a world: what the clock shows
lies between how late it was before and how late it is then. -/
structure World.Steady (w : World ω) (time : ω → Nat) : Prop where
  le_now : ∀ e, time e ≤ (w.now e).1
  now_le : ∀ e, (w.now e).1 ≤ time (w.now e).2
  le_respond : ∀ e, time e ≤ time (w.respond e).2

/-! ## What is remembered -/

namespace State

variable {s : State} {p : Policy}

theorem fresh?_eq_some_iff {t : Nat} {set : JwkSet} :
    s.fresh? p t = some set
      ↔ ∃ since, s.kept = some ⟨set, since⟩ ∧ t - since < p.ttl := by
  unfold fresh?
  constructor
  · intro h
    split at h
    · next k hk =>
      split at h
      · next hage =>
        obtain rfl := Option.some.inj h
        exact ⟨k.since, hk, hage⟩
      · cases h
    · cases h
  · rintro ⟨since, hk, hage⟩
    rw [hk]
    exact if_pos hage

/-- What is not fresh does not become so. -/
theorem fresh?_eq_none_of_le {t u : Nat} (h : s.fresh? p t = none) (htu : t ≤ u) :
    s.fresh? p u = none := by
  rw [Option.eq_none_iff_forall_ne_some] at h ⊢
  intro set hset
  obtain ⟨since, hk, hage⟩ := fresh?_eq_some_iff.1 hset
  exact h set (fresh?_eq_some_iff.2 ⟨since, hk, by omega⟩)

theorem refuses_eq_false_iff {t : Nat} :
    s.refuses p t = false ↔ ∀ l, s.lastAttempt = some l → p.minInterval ≤ t - l := by
  unfold refuses
  cases s.lastAttempt with
  | none => simp
  | some l => simp

end State

/-! ## Histories -/

/-- What a step of a call did. A request also says what was remembered at that moment. -/
inductive Event where
  | look (found : Option JwkSet) (now : Nat)
  | reserve (admitted : Bool) (now : Nat)
  | attempt (now : Nat)
  | request (state : State) (now : Nat)
  | receive (response : Response)
  | keep (set : JwkSet) (now : Nat)
  | clear

namespace Call

variable {α β : Type}

/-- What the steps of a run do. -/
def history (p : Policy) (w : World ω) (time : ω → Nat) : Call α → State × ω → List Event
  | .done _, _ => []
  | .look k, (s, e) =>
    let (t, e) := w.now e
    .look (s.fresh? p t) t :: history p w time (k (s.fresh? p t)) (s, e)
  | .reserve k, (s, e) =>
    let (t, e) := w.now e
    let (admitted, s) := s.reserve p t
    .reserve admitted t :: history p w time (k admitted) (s, e)
  | .attempt k, (s, e) =>
    let (t, e) := w.now e
    .attempt t :: history p w time k (s.attempt t, e)
  | .request k, (s, e) => .request s (time e) :: history p w time k (s, e)
  | .receive k, (s, e) =>
    let (r, e) := w.respond e
    .receive r :: history p w time (k r) (s, e)
  | .keep set k, (s, e) =>
    let (t, e) := w.now e
    .keep set t :: history p w time k (s.keep set t, e)
  | .clear k, (s, e) => .clear :: history p w time k (s.clear, e)

variable {p : Policy} {w : World ω} {time : ω → Nat}

theorem run_bind (c : Call α) (f : α → Call β) (x : State × ω) :
    (c.bind f).run p w x = (f (c.run p w x).1).run p w (c.run p w x).2 := by
  induction c generalizing x with
  | done a => rfl
  | look k ih => exact ih _ _
  | reserve k ih => exact ih _ _
  | attempt k ih => exact ih _
  | request k ih => exact ih _
  | receive k ih => exact ih _ _
  | keep set k ih => exact ih _
  | clear k ih => exact ih _

theorem history_bind (c : Call α) (f : α → Call β) (x : State × ω) :
    (c.bind f).history p w time x
      = c.history p w time x ++ (f (c.run p w x).1).history p w time (c.run p w x).2 := by
  induction c generalizing x with
  | done a => rfl
  | look k ih => exact congrArg (_ :: ·) (ih _ _)
  | reserve k ih => exact congrArg (_ :: ·) (ih _ _)
  | attempt k ih => exact congrArg (_ :: ·) (ih _)
  | request k ih => exact congrArg (_ :: ·) (ih _)
  | receive k ih => exact congrArg (_ :: ·) (ih _ _)
  | keep set k ih => exact congrArg (_ :: ·) (ih _)
  | clear k ih => exact congrArg (_ :: ·) (ih _)

end Call

/-! ## The ways in which an operation may go -/

/-- How an operation may go that begins in a state, not before one moment, and is over by another:
what is done, what comes of it, and the state in the end. -/
abbrev Course := State → Nat → Nat → List Event → Result JwkSet → State → Prop

section Courses

variable (p : Policy) (w : World ω) (time : ω → Nat) (s : State) (a b : Nat)

/-- The retriever is called and answers; a set that can be read is kept. -/
inductive Retrieves : List Event → Result JwkSet → State → Prop
  | kept {e : ω} {t : Nat} {set : JwkSet} (read : readResponse (w.respond e).1 = .ok set)
    (begun : a ≤ time e) (answered : time (w.respond e).2 ≤ t) (ended : t ≤ b) :
    Retrieves [.request s (time e), .receive (w.respond e).1, .keep set t] (.ok set)
      (s.keep set t)
  | failed {e : ω} {err : Error} (read : readResponse (w.respond e).1 = .error err)
    (begun : a ≤ time e) (ended : time (w.respond e).2 ≤ b) :
    Retrieves [.request s (time e), .receive (w.respond e).1] (.error err) s

/-- A fresh set is found, or an attempt is noted and made. -/
inductive Gets : List Event → Result JwkSet → State → Prop
  | found {t : Nat} {set : JwkSet} (fresh : s.fresh? p t = some set) (begun : a ≤ t)
    (ended : t ≤ b) : Gets [.look (some set) t] (.ok set) s
  | missed {t u : Nat} {h : List Event} {r : Result JwkSet} {s' : State}
    (stale : s.fresh? p t = none) (begun : a ≤ t) (noted : t ≤ u)
    (retrieves : Retrieves w time (s.attempt u) u b h r s') :
    Gets (.look none t :: .attempt u :: h) r s'

/-- An attempt is noted and made, or it is refused and there is only what is got. -/
inductive Refreshes : List Event → Result JwkSet → State → Prop
  | admitted {t : Nat} {h : List Event} {r : Result JwkSet} {s' : State}
    (admits : s.refuses p t = false) (begun : a ≤ t)
    (retrieves : Retrieves w time (s.attempt t) t b h r s') :
    Refreshes (.reserve true t :: h) r s'
  | refused {t : Nat} {h : List Event} {r : Result JwkSet} {s' : State}
    (refuses : s.refuses p t = true) (begun : a ≤ t) (gets : Gets p w time s t b h r s') :
    Refreshes (.reserve false t :: h) r s'

/-- A set is got, and if it lacks the wanted id it is refreshed. -/
inductive LooksUp (keyId : Option String) : List Event → Result JwkSet → State → Prop
  | failed {h : List Event} {err : Error} {s' : State}
    (gets : Gets p w time s a b h (.error err) s') : LooksUp keyId h (.error err) s'
  | got {h : List Event} {set : JwkSet} {s' : State}
    (has : ∀ id, keyId = some id → set.hasKeyId id = true)
    (gets : Gets p w time s a b h (.ok set) s') : LooksUp keyId h (.ok set) s'
  | refreshed {c : Nat} {h h' : List Event} {set : JwkSet} {r : Result JwkSet} {s₁ s' : State}
    {id : String} (wanted : keyId = some id) (lacks : set.hasKeyId id = false)
    (gets : Gets p w time s a c h (.ok set) s₁) (refreshes : Refreshes p w time s₁ c b h' r s') :
    LooksUp keyId (h ++ h') r s'

variable {p w time s a b} {h : List Event} {r : Result JwkSet} {s' : State}

theorem Retrieves.le (hw : w.Steady time) (hr : Retrieves w time s a b h r s') : a ≤ b := by
  cases hr with
  | kept _ begun answered ended =>
    exact Nat.le_trans begun (Nat.le_trans (hw.le_respond _) (Nat.le_trans answered ended))
  | failed _ begun ended => exact Nat.le_trans begun (Nat.le_trans (hw.le_respond _) ended)

theorem Gets.le (hw : w.Steady time) (hg : Gets p w time s a b h r s') : a ≤ b := by
  cases hg with
  | found _ begun ended => exact Nat.le_trans begun ended
  | missed _ begun noted hr => exact Nat.le_trans begun (Nat.le_trans noted (hr.le hw))

theorem Refreshes.le (hw : w.Steady time) (hr : Refreshes p w time s a b h r s') : a ≤ b := by
  cases hr with
  | admitted _ begun hr => exact Nat.le_trans begun (hr.le hw)
  | refused _ begun hg => exact Nat.le_trans begun (hg.le hw)

end Courses

section Follows

variable (p : Policy) (w : World ω) (time : ω → Nat)

/-- Every run of the call goes in one of the ways. -/
def Call.Follows (c : Call (Result JwkSet)) (R : Course) : Prop :=
  ∀ s e a, a ≤ time e →
    R s a (time (c.run p w (s, e)).2.2) (c.history p w time (s, e)) (c.run p w (s, e)).1
      (c.run p w (s, e)).2.1

variable {p w time} (hw : w.Steady time)

include hw

theorem follows_retrieve : retrieve.Follows p w time (Retrieves w time) := by
  intro s e a ha
  cases hr : readResponse (w.respond e).1 with
  | ok set =>
    have hk := Retrieves.kept (b := time (w.now (w.respond e).2).2) (s := s) hr ha
      (hw.le_now _) (hw.now_le _)
    simpa only [retrieve, Call.run, Call.history, hr] using hk
  | error err =>
    have hk := Retrieves.failed (s := s) hr ha (Nat.le_refl _)
    simpa only [retrieve, Call.run, Call.history, hr] using hk

theorem follows_get : RemoteKeys.get.Follows p w time (Gets p w time) := by
  intro s e a ha
  have ht := Nat.le_trans ha (hw.le_now e)
  cases hf : s.fresh? p (w.now e).1 with
  | some set =>
    have hk : Gets p w time s a _ _ _ _ := .found hf ht (hw.now_le e)
    simpa only [RemoteKeys.get, Call.run, Call.history, hf] using hk
  | none =>
    have hu := Nat.le_trans (hw.now_le e) (hw.le_now (w.now e).2)
    have hk := Gets.missed hf ht hu
      (follows_retrieve (p := p) hw _ (w.now (w.now e).2).2 _ (hw.now_le _))
    simpa only [RemoteKeys.get, Call.run, Call.history, hf] using hk

theorem follows_refresh : refresh.Follows p w time (Refreshes p w time) := by
  intro s e a ha
  have ht := Nat.le_trans ha (hw.le_now e)
  cases hf : s.refuses p (w.now e).1 with
  | true =>
    have hk := Refreshes.refused hf ht (follows_get (p := p) hw s (w.now e).2 _ (hw.now_le e))
    simpa [refresh, Call.run, Call.history, State.reserve, hf] using hk
  | false =>
    have hk := Refreshes.admitted hf ht
      (follows_retrieve (p := p) hw _ (w.now e).2 _ (hw.now_le e))
    simpa [refresh, Call.run, Call.history, State.reserve, hf] using hk

theorem follows_jwkSet (keyId : Option String) :
    (jwkSet keyId).Follows p w time fun s a b => LooksUp p w time s a b keyId := by
  intro s e a ha
  have hg := follows_get (p := p) hw s e a ha
  unfold jwkSet
  rw [Call.run_bind, Call.history_bind]
  cases hr : (RemoteKeys.get.run p w (s, e)).1 with
  | error err =>
    rw [hr] at hg
    simpa [Call.run, Call.history] using LooksUp.failed hg
  | ok set =>
    rw [hr] at hg
    cases keyId with
    | none =>
      have hk : LooksUp p w time s a _ none _ _ _ := .got (fun id h => nomatch h) hg
      simpa [Call.run, Call.history] using hk
    | some id =>
      cases hid : set.hasKeyId id with
      | true =>
        have hk : LooksUp p w time s a _ (some id) _ _ _ :=
          .got (fun _ h => Option.some.inj h ▸ hid) hg
        simpa [Call.run, Call.history, hid] using hk
      | false =>
        have hk := LooksUp.refreshed rfl hid hg
          (follows_refresh hw _ _ _ (Nat.le_refl _))
        simpa [hid] using hk

end Follows

/-! ## Whole runs -/

/-- What a remote key set may be asked for. -/
inductive Lookup where
  | get
  | refresh
  | jwkSet (keyId : Option String)

namespace Lookup

def call : Lookup → Call (Result JwkSet)
  | .get => RemoteKeys.get
  | .refresh => RemoteKeys.refresh
  | .jwkSet keyId => RemoteKeys.jwkSet keyId

/-- The ways in which it may go. -/
def Goes (p : Policy) (w : World ω) (time : ω → Nat) : Lookup → Course
  | .get => Gets p w time
  | .refresh => Refreshes p w time
  | .jwkSet keyId => fun s a b => LooksUp p w time s a b keyId

/-- **Every run goes in one of the ways.** -/
theorem follows {p : Policy} {w : World ω} {time : ω → Nat} (hw : w.Steady time) (l : Lookup) :
    l.call.Follows p w time (l.Goes p w time) := by
  cases l with
  | get => exact follows_get hw
  | refresh => exact follows_refresh hw
  | jwkSet keyId => exact follows_jwkSet hw keyId

end Lookup

section Session

variable (p : Policy) (w : World ω) (time : ω → Nat)

/-- A run of calls on a key set from the beginning, one after the other: what was done so far, what
is remembered now, and the world that it is in. Between two calls time passes, and the world may
become any other. -/
inductive Session : List Event → State → ω → Prop
  | start (e : ω) : Session [] .start e
  | wait {past : List Event} {s : State} {e : ω} (e' : ω) (h : Session past s e)
    (later : time e ≤ time e') : Session past s e'
  | ask {past : List Event} {s : State} {e : ω} (l : Lookup) (h : Session past s e) :
    Session (past ++ l.call.history p w time (s, e)) (l.call.run p w (s, e)).2.1
      (l.call.run p w (s, e)).2.2
  | clear {past : List Event} {s : State} {e : ω} (h : Session past s e) :
    Session (past ++ clearCache.history p w time (s, e)) (clearCache.run p w (s, e)).2.1
      (clearCache.run p w (s, e)).2.2

/-- A property of what was done, what is remembered and how late it is that holds at the beginning
and that every operation keeps. -/
structure IsKept (Inv : List Event → State → Nat → Prop) : Prop where
  start : ∀ t, Inv [] .start t
  wait : ∀ {past s a b}, Inv past s a → a ≤ b → Inv past s b
  get : ∀ {past s a b h r s'}, Inv past s a → Gets p w time s a b h r s' → Inv (past ++ h) s' b
  refresh : ∀ {past s a b h r s'}, Inv past s a → Refreshes p w time s a b h r s' →
    Inv (past ++ h) s' b
  clear : ∀ {past s a}, Inv past s a → Inv (past ++ [.clear]) s.clear a

variable {p w time} {Inv : List Event → State → Nat → Prop}

theorem IsKept.ask (hInv : IsKept p w time Inv) {l : Lookup} {past more : List Event} {s s' : State}
    {a b : Nat} {r : Result JwkSet} (hpast : Inv past s a)
    (h : l.Goes p w time s a b more r s') :
    Inv (past ++ more) s' b := by
  cases l with
  | get => exact hInv.get hpast h
  | refresh => exact hInv.refresh hpast h
  | jwkSet keyId =>
    cases h with
    | failed hg => exact hInv.get hpast hg
    | got _ hg => exact hInv.get hpast hg
    | refreshed _ _ hg hr =>
      rw [← List.append_assoc]
      exact hInv.refresh (hInv.get hpast hg) hr

/-- **What holds at the beginning and is kept by every operation holds at any time of a run.** -/
theorem IsKept.holds (hInv : IsKept p w time Inv) (hw : w.Steady time) {past : List Event}
    {s : State} {e : ω} (h : Session p w time past s e) : Inv past s (time e) := by
  induction h with
  | start e => exact hInv.start _
  | wait e' _ later ih => exact hInv.wait ih later
  | ask l _ ih => exact hInv.ask ih (l.follows hw _ _ _ (Nat.le_refl _))
  | clear _ ih => exact hInv.clear ih

end Session

/-! ## A world that follows a script -/

/-- The clock stands still unless the world is left for another one, and the responses are given
beforehand. -/
def replaying : World (Nat × List Response) where
  now e := (e.1, e)
  respond
    | (t, []) => (.error (.http "exhausted"), (t, []))
    | (t, r :: rest) => (r, (t, rest))

/-- A response with a set of no keys. -/
def noKeys : Response := .ok (Utf8.encode "\x7b\"keys\":[]\x7d")

theorem steady_replaying : replaying.Steady Prod.fst where
  le_now := fun _ => Nat.le_refl _
  now_le := fun _ => Nat.le_refl _
  le_respond := by
    rintro ⟨t, _ | ⟨r, rest⟩⟩
    · exact Nat.le_refl t
    · exact Nat.le_refl t

end Credential.RemoteKeys
