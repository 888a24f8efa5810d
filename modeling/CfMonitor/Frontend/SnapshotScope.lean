/-
  The scope that owns the live view (`createLiveSnapshotScope`).

  1. **Data** — the view, the read that is pending with the patches it will replay, and the patches that came before
     any snapshot.  `received` is the history of all patches.

  2. **Program** — one event for each method that changes the scope.  A request is the number of its `beginRead`.
-/
import CfMonitor.Frontend.LiveView
import CfMonitor.Lib.Machine

namespace CfMonitor.Frontend

open CfMonitor.Lib

/-! ## Data -/

inductive LivePatch where
  | update (message : LiveDataUpdateMessage)
  | remove (message : LiveDataRemoveMessage)

namespace LivePatch

def client : LivePatch → String
  | update message => message.client
  | remove message => message.client

def timestamp : LivePatch → ℚ
  | update message => message.timestamp
  | remove message => message.timestamp

/-- `apply`. -/
def apply (value : Option LiveDataResponse) : LivePatch → Option LiveDataResponse
  | update message => some (applyLiveUpdate value message)
  | remove message => applyLiveRemove value message

end LivePatch

structure LiveSnapshotRead where
  priorUpdates : List LivePatch
  updates : List LivePatch

structure LiveSnapshotScope where
  active : Bool
  hasSnapshot : Bool
  current : Option LiveDataResponse
  pending : Option (Nat × LiveSnapshotRead)
  initialUpdates : List LivePatch
  nextRequest : Nat
  received : List LivePatch

inductive ScopeEvent where
  | beginRead
  | finishRead (request : Nat)
  | complete (request : Nat) (snapshot : LiveDataResponse)
  | snapshot (snapshot : LiveDataResponse)
  | seed (snapshot : LiveDataResponse)
  | patch (message : LivePatch)
  | dispose

/-! ## Program -/

/-- `merge`. -/
def mergePatches (snapshot : LiveDataResponse) (updates : List LivePatch) : LiveDataResponse :=
  updates.foldl (fun value update => (update.apply (some value)).getD value) snapshot

/-- The patches that are newer than a snapshot. -/
def newerThan (snapshot : LiveDataResponse) (updates : List LivePatch) : List LivePatch :=
  updates.filter fun update => decide (snapshot.timestamp < update.timestamp)

def mergePrior (snapshot : LiveDataResponse) (updates : List LivePatch) : LiveDataResponse :=
  mergePatches snapshot (newerThan snapshot updates)

namespace LiveSnapshotScope

variable (s : LiveSnapshotScope)

def start : LiveSnapshotScope := ⟨true, false, none, none, [], 0, []⟩

def beginRead : LiveSnapshotScope :=
  { s with pending := some (s.nextRequest, ⟨s.initialUpdates, []⟩), nextRequest := s.nextRequest + 1 }

/-- `pending === request`. -/
def isPending (request : Nat) : Option LiveSnapshotRead :=
  (s.pending.filter fun p => decide (p.1 = request)).map Prod.snd

def finishRead (request : Nat) : LiveSnapshotScope :=
  if (s.isPending request).isSome then { s with pending := none } else s

def complete (request : Nat) (snapshot : LiveDataResponse) : LiveSnapshotScope :=
  match s.isPending request with
  | some read =>
    if s.active then
      { s with
        current := some (mergePatches (mergePrior snapshot read.priorUpdates) read.updates)
        hasSnapshot := true
        initialUpdates := []
        pending := none }
    else s
  | none => s

def takeSnapshot (snapshot : LiveDataResponse) : LiveSnapshotScope :=
  if s.active then { s with pending := none, initialUpdates := [], hasSnapshot := true, current := some snapshot } else s

def seed (snapshot : LiveDataResponse) : LiveSnapshotScope :=
  if s.active && !s.hasSnapshot then
    { s with
      current := some (mergePrior snapshot s.initialUpdates)
      initialUpdates := []
      hasSnapshot := true }
  else s

def patch (message : LivePatch) : LiveSnapshotScope :=
  if s.active then
    { s with
      initialUpdates := if s.hasSnapshot then s.initialUpdates else s.initialUpdates ++ [message]
      pending := s.pending.map fun p => (p.1, { p.2 with updates := p.2.updates ++ [message] })
      current := message.apply s.current
      received := s.received ++ [message] }
  else s

def dispose : LiveSnapshotScope :=
  { s with active := false, pending := none, initialUpdates := [], current := none }

end LiveSnapshotScope

def scopeMachine : Machine LiveSnapshotScope ScopeEvent :=
  ⟨fun s event => some <| match event with
    | .beginRead => s.beginRead
    | .finishRead request => s.finishRead request
    | .complete request snapshot => s.complete request snapshot
    | .snapshot snapshot => s.takeSnapshot snapshot
    | .seed snapshot => s.seed snapshot
    | .patch message => s.patch message
    | .dispose => s.dispose⟩

end CfMonitor.Frontend
