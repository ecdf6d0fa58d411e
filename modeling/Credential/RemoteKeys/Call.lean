import Credential.RemoteKeys.State
import Credential.Jws.Selector

/-!
# Calls on a remote key set

A call is a tree of atomic steps. Between two steps of one call other calls may take theirs, time
may pass, and a response may be under way; each step sees and changes the shared state at one
moment.

`Call.step` takes one step, so any interleaving of calls is a sequence of steps. `Call.run` takes
all steps of one call without interruption, reading the clock and asking for responses in a world of
its own choosing.
-/

namespace Credential.RemoteKeys

/-- A call that will give an `α`. -/
inductive Call (α : Type) where
  /-- The call is over. -/
  | done (result : α)
  /-- Look for a fresh set. -/
  | look (next : Option JwkSet → Call α)
  /-- Ask whether a forced attempt is admitted, and note it if so. -/
  | reserve (next : Bool → Call α)
  /-- Note an attempt. -/
  | attempt (next : Call α)
  /-- Send a request for the set. -/
  | request (next : Call α)
  /-- Receive the response. -/
  | receive (next : Response → Call α)
  /-- Keep a set. -/
  | keep (set : JwkSet) (next : Call α)
  /-- Forget the kept set. -/
  | clear (next : Call α)

namespace Call

variable {α β : Type}

/-- Go on with another call. -/
def bind : Call α → (α → Call β) → Call β
  | .done a, f => f a
  | .look k, f => .look fun r => bind (k r) f
  | .reserve k, f => .reserve fun r => bind (k r) f
  | .attempt k, f => .attempt (bind k f)
  | .request k, f => .request (bind k f)
  | .receive k, f => .receive fun r => bind (k r) f
  | .keep set k, f => .keep set (bind k f)
  | .clear k, f => .clear (bind k f)

instance : Monad Call where
  pure := .done
  bind := bind

end Call

/-! ## The operations -/

/-- Retrieve a set and keep it if it can be read. -/
def retrieve : Call (Result JwkSet) :=
  .request <| .receive fun response =>
    match readResponse response with
    | .ok set => .keep set (.done (.ok set))
    | .error e => .done (.error e)

/-- The fresh set, or else one that is retrieved now. -/
def get : Call (Result JwkSet) :=
  .look fun
    | some set => .done (.ok set)
    | none => .attempt retrieve

/-- A set that is retrieved now, or, if that is refused, what `get` gives. -/
def refresh : Call (Result JwkSet) :=
  .reserve fun
    | true => retrieve
    | false => get

/-- The set to look up a key id in; one without the id is refreshed. -/
def jwkSet (keyId : Option String) : Call (Result JwkSet) :=
  get.bind fun
    | .error e => .done (.error e)
    | .ok set =>
      match keyId with
      | none => .done (.ok set)
      | some id => if set.hasKeyId id then .done (.ok set) else refresh

/-- Forget the kept set. -/
def clearCache : Call Unit := .clear (.done ())

/-! ## Taking steps -/

namespace Call

variable {α : Type}

/-- One atomic step at a moment. `response` is what arrives if the step is to receive one. -/
def step (p : Policy) (now : Nat) (response : Response) : Call α → State → Call α × State
  | .done a, s => (.done a, s)
  | .look k, s => (k (s.fresh? p now), s)
  | .reserve k, s => (k (s.reserve p now).1, (s.reserve p now).2)
  | .attempt k, s => (k, s.attempt now)
  | .request k, s => (k, s)
  | .receive k, s => (k response, s)
  | .keep set k, s => (k, s.keep set now)
  | .clear k, s => (k, s.clear)

end Call

/-- A world in which calls run: its clock can be read, and it answers requests. -/
structure World (ω : Type) where
  now : ω → Nat × ω
  respond : ω → Response × ω

/-- All steps of a call, one after the other. -/
def Call.run {α ω : Type} (p : Policy) (w : World ω) : Call α → State × ω → α × State × ω
  | .done a, (s, e) => (a, s, e)
  | .look k, (s, e) => let (t, e) := w.now e; run p w (k (s.fresh? p t)) (s, e)
  | .reserve k, (s, e) =>
    let (t, e) := w.now e
    let (admitted, s) := s.reserve p t
    run p w (k admitted) (s, e)
  | .attempt k, (s, e) => let (t, e) := w.now e; run p w k (s.attempt t, e)
  | .request k, (s, e) => run p w k (s, e)
  | .receive k, (s, e) => let (r, e) := w.respond e; run p w (k r) (s, e)
  | .keep set k, (s, e) => let (t, e) := w.now e; run p w k (s.keep set t, e)
  | .clear k, (s, e) => run p w k (s.clear, e)

/-- A remote key set as a source of key sets. -/
def source {ω : Type} (p : Policy) (w : World ω) : JwkSource (State × ω) :=
  fun keyId s => (jwkSet keyId).run p w s

end Credential.RemoteKeys
