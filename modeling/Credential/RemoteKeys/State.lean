import Credential.Error
import Credential.Jwk.Basic

/-!
# What a remote key set remembers

A key set that is retrieved from elsewhere is kept for a while. What is remembered is the last set
that could be read with the moment it was kept, and the moment of the last attempt to retrieve one.
Each operation here is one atomic step at a given moment.

Moments are nanoseconds on a clock that never runs backwards.
-/

namespace Credential.RemoteKeys

/-- How long a set is kept, and the least time between a retrieval and a forced one. -/
structure Policy where
  ttl : Nat
  minInterval : Nat
  deriving DecidableEq, Repr

/-- A set and the moment it was kept. -/
structure Kept where
  set : JwkSet
  since : Nat
  deriving DecidableEq, Repr

/-- What is remembered between operations. -/
structure State where
  kept : Option Kept
  lastAttempt : Option Nat
  deriving DecidableEq, Repr

namespace State

/-- Nothing kept, nothing attempted. -/
def start : State := ⟨none, none⟩

/-- The kept set, if it is still fresh. -/
def fresh? (s : State) (p : Policy) (now : Nat) : Option JwkSet :=
  match s.kept with
  | some k => if now - k.since < p.ttl then some k.set else none
  | none => none

/-- Is the last attempt so recent that a forced one is refused? -/
def refuses (s : State) (p : Policy) (now : Nat) : Bool :=
  match s.lastAttempt with
  | some t => now - t < p.minInterval
  | none => false

/-- Note an attempt. -/
def attempt (s : State) (now : Nat) : State := { s with lastAttempt := some now }

/-- Note a forced attempt unless it is refused; the answer says whether it is admitted. -/
def reserve (s : State) (p : Policy) (now : Nat) : Bool × State :=
  if s.refuses p now then (false, s) else (true, s.attempt now)

/-- Keep a set. -/
def keep (s : State) (set : JwkSet) (now : Nat) : State := { s with kept := some ⟨set, now⟩ }

/-- Forget the set, but not the last attempt. -/
def clear (s : State) : State := { s with kept := none }

end State

/-! ## Retrieval -/

/-- Why a retrieval failed. -/
inductive RetrieveFailure where
  | client (text : String)
  | http (text : String)
  | status (code : Nat)
  | tooLarge (limit : Nat)
  deriving DecidableEq, Repr

def RetrieveFailure.toError : RetrieveFailure → Error
  | .client t => .configuration (.retriever t)
  | .http t => .keySource (.http t)
  | .status n => .keySource (.status n)
  | .tooLarge n => .keySource (.tooLarge n)

/-- What comes back from a retrieval. -/
abbrev Response := Except RetrieveFailure Bytes

/-- The set that a response holds. -/
def readResponse : Response → Result JwkSet
  | .error f => .error f.toError
  | .ok b =>
    match JwkSet.parse b with
    | some set => .ok set
    | none => .error (.keySource .jwkSet)

end Credential.RemoteKeys
