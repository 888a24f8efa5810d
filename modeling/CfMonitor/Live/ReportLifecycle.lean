/-
  Reports in flight, removals and restores (`runClientReport`, `updateClientReport`,
  `updateHttpClientReport`, `handleMessage`, `removeClient`, `restoreClients`).

  1. **Data** — for every node a LANE: its entries in both maps, its stored record, its session, the
     removal version, and the queue of its reports, the running one first.

  2. **Program** — a report is at one of its awaits (`Phase`); a step takes it from there to its next
     await, or to its end.  What the await returned is in the label.  Everything else can run at
     every await, those of storage included, although the input gate excludes that: only the
     credential check of an HTTP report is part of the step that starts it.  A storage write takes
     effect when it is issued; one that fails has no effect.

  3. **History** — `epoch` counts the removals and restores of a node, `updated` has the epoch of
     capture of every report whose live update was made, `ended` has how the reports ended.
-/
import CfMonitor.Live.ClientState
import Mathlib.Logic.Function.Basic

namespace CfMonitor.Live

open CfMonitor.Lib

/-! ## Data -/

/-- What `runClientReport` captures. -/
structure ReportLifecycle where
  receivedAt : Int
  removalVersion : Nat
  restoreVersion : Nat

/-- A request with reports: over a socket or, without one, over HTTP.  `report` is the last report of
    the batch, normalised and sanitised. -/
structure ReportRequest where
  socket : Option Nat
  name : String
  hidden : Bool
  reports : Nat
  report : Fields
  ttlMs : Int
  basicInfo : Bool

/-- The await at which a report is.  A number says how many reports of the batch come after. -/
inductive Phase where
  | queued
  | control
  | ping (todo : Nat)
  | website (todo : Nat)
  | resolving
  | putting (next : ClientState) (landed wroteSnapshot : Bool)
  | checking (next : ClientState)
  | undoing
  | alarm
  | basicInfo

/-- A report in flight; `captured` is the epoch in which its lifecycle was captured. -/
structure LiveReport where
  lifecycle : ReportLifecycle
  request : ReportRequest
  name : String
  hidden : Bool
  phase : Phase
  captured : Nat

/-- How a report ended: the epochs of its capture and of its end, and whether it threw. -/
structure Ending where
  captured : Nat
  ended : Nat
  thrown : Bool

/-- What the object and its storage hold for one node. -/
structure Lane where
  client : Option ClientState
  lastKnown : Option ClientState
  stored : Option ClientState
  session : Option Nat
  removalVersion : Option Nat
  queue : List LiveReport
  epoch : Nat
  updated : List Nat
  ended : List Ending

/-- What an await returned. -/
inductive Reply where
  | failed
  | done
  | credential (current : Option Bool)
  | snapshot (read : Option AdminClientsSnapshot)

/-! ## The steps of a report -/

namespace Lane

variable (compactLiveReport : Fields → Fields) (uuid : String) (restoreVersion : Nat)
  (controls : Controls)

def isReportCurrent (n : Lane) (r : LiveReport) : Bool :=
  decide (r.lifecycle.removalVersion = n.removalVersion.getD 0) &&
    decide (r.lifecycle.restoreVersion = restoreVersion)

/-- A state with its report in the durable format. -/
def compacted (client : ClientState) : ClientState :=
  { client with lastReport := compactLiveReport client.lastReport }

/-- The running report awaits something. -/
def goto (n : Lane) (r : LiveReport) (rest : List LiveReport) (phase : Phase) : Lane :=
  { n with queue := { r with phase := phase } :: rest }

/-- The running report ends; the last of the queue drops the removal version. -/
def finish (n : Lane) (r : LiveReport) (rest : List LiveReport) (thrown : Bool) : Lane :=
  { n with
    queue := rest
    removalVersion := if rest.isEmpty then none else n.removalVersion
    ended := ⟨r.captured, n.epoch, thrown⟩ :: n.ended }

/-- `assertReportCurrent`, and what follows it. -/
def guarded (n : Lane) (r : LiveReport) (rest : List LiveReport) (next : Lane) : Lane :=
  if n.isReportCurrent restoreVersion r then next else n.finish r rest true

/-- After the batch, and the alarm of an HTTP report. -/
def afterAlarm (n : Lane) (r : LiveReport) (rest : List LiveReport) : Lane :=
  if r.request.basicInfo then n.goto r rest .basicInfo
  else n.guarded restoreVersion r rest (n.finish r rest false)

/-- The head of the loop over the batch. -/
def loop (n : Lane) (r : LiveReport) (rest : List LiveReport) : Nat → Lane
  | 0 => if r.request.socket.isNone then n.goto r rest .alarm else n.afterAlarm restoreVersion r rest
  | 1 => n.guarded restoreVersion r rest (n.goto r rest .resolving)
  | todo + 2 => n.guarded restoreVersion r rest (n.goto r rest (.ping (todo + 1)))

/-- `persistClientSnapshot(next)` in the loop of `updateClientReport`. -/
def persist (n : Lane) (r : LiveReport) (rest : List LiveReport) (next : ClientState)
    (wroteSnapshot putFails : Bool) : Lane :=
  { n.goto r rest (.putting next (!putFails) wroteSnapshot) with
    stored := if putFails then n.stored else some (compacted compactLiveReport next) }

/-- The `catch` of `updateClientReport`. -/
def caught (n : Lane) (r : LiveReport) (rest : List LiveReport) (wroteSnapshot putFails : Bool) :
    Lane :=
  if wroteSnapshot then
    match (if n.isReportCurrent restoreVersion r then
        n.lastKnown.bind controls.controlledClientState else none) with
    | some retained => { n.goto r rest .undoing with
        stored := if putFails then n.stored else some (compacted compactLiveReport retained) }
    | none => { n.goto r rest .undoing with stored := none }
  else n.finish r rest true

/-- The end of `updateClientReport`: the live update. -/
def update (n : Lane) (r : LiveReport) (rest : List LiveReport) (next : ClientState)
    (socketOpen : Bool) : Lane :=
  let online := match r.request.socket with
    | none => true
    | some socket => n.session == some socket && socketOpen
  { n.goto r rest (.ping 0) with
    lastKnown := some (compacted compactLiveReport next)
    client := if online then some next else n.client
    updated := r.captured :: n.updated }

/-- The state that a report brings. -/
def nextState (r : LiveReport) (control : String × Bool) : ClientState where
  uuid := uuid
  name := control.1
  hidden := control.2
  lastReportTime := r.lifecycle.receivedAt
  lastReport := r.request.report
  expiresAt := if r.request.socket.isNone then some (r.lifecycle.receivedAt + r.request.ttlMs) else none
  transport := some (if r.request.socket.isNone then .http else .ws)

/-- `resolveReportClientControl` after its read. -/
def resolved (n : Lane) (read : Option AdminClientsSnapshot) (name : String) (hidden : Bool) :
    Option (String × Bool) :=
  resolveReportClientControl (Rules.readAdminClientsSnapshot read) (n.client.or n.lastKnown) uuid name hidden

/-- The first resolve of `updateClientReport` has read the snapshot. -/
def resolvedFirst (n : Lane) (r : LiveReport) (rest : List LiveReport)
    (read : Option AdminClientsSnapshot) (putFails : Bool) : Lane :=
  match n.resolved uuid read r.name r.hidden with
  | none => n.finish r rest true
  | some control => n.guarded restoreVersion r rest
      (n.persist compactLiveReport r rest (nextState uuid r control) false putFails)

/-- The second resolve of `updateClientReport` has read the snapshot. -/
def resolvedAgain (n : Lane) (r : LiveReport) (rest : List LiveReport) (next : ClientState)
    (read : Option AdminClientsSnapshot) (putFails socketOpen : Bool) : Lane :=
  match n.resolved uuid read next.name next.hidden with
  | none => n.caught compactLiveReport restoreVersion controls r rest true putFails
  | some control =>
    if n.isReportCurrent restoreVersion r then
      if control = (next.name, next.hidden) then n.update compactLiveReport r rest next socketOpen
      else n.persist compactLiveReport r rest { next with name := control.1, hidden := control.2 }
        true putFails
    else n.caught compactLiveReport restoreVersion controls r rest true putFails

/-- One step of the running report.  `putFails` is about a write of the step, `socketOpen` about the
    socket of the report. -/
def advance (n : Lane) (r : LiveReport) (rest : List LiveReport) (reply : Reply)
    (putFails socketOpen : Bool) : Option Lane :=
  match r.phase, reply with
  | .queued, .credential current => some (n.guarded restoreVersion r rest
      (if r.request.socket.isSome then n.goto r rest .control
      else match current with
        | none => n.finish r rest true
        | some false => n.finish r rest false
        | some true => n.goto r rest .control))
  | .control, .failed => some (n.finish r rest true)
  | .control, .snapshot read => some (match n.resolved uuid read r.request.name r.request.hidden with
      | none => n.finish r rest true
      | some (name, hidden) => n.guarded restoreVersion r rest
          (n.loop restoreVersion { r with name := name, hidden := hidden } rest r.request.reports))
  | .ping _, .failed => some (n.finish r rest true)
  | .ping todo, .done => some (n.guarded restoreVersion r rest (n.goto r rest (.website todo)))
  | .website _, .failed => some (n.finish r rest true)
  | .website todo, .done =>
    some (n.guarded restoreVersion r rest (n.loop restoreVersion r rest todo))
  | .resolving, .failed => some (n.finish r rest true)
  | .resolving, .snapshot read =>
    some (n.resolvedFirst compactLiveReport uuid restoreVersion r rest read putFails)
  | .putting _ false wrote, .done =>
    some (n.caught compactLiveReport restoreVersion controls r rest wrote putFails)
  | .putting next true _, .done => some (
      if n.isReportCurrent restoreVersion r then n.goto r rest (.checking next)
      else n.caught compactLiveReport restoreVersion controls r rest true putFails)
  | .checking _, .failed =>
    some (n.caught compactLiveReport restoreVersion controls r rest true putFails)
  | .checking next, .snapshot read => some (n.resolvedAgain compactLiveReport uuid restoreVersion
      controls r rest next read putFails socketOpen)
  | .undoing, .done => some (n.finish r rest true)
  | .alarm, .done => some (n.guarded restoreVersion r rest (n.afterAlarm restoreVersion r rest))
  | .basicInfo, .failed => some (n.finish r rest true)
  | .basicInfo, .done => some (n.guarded restoreVersion r rest (n.finish r rest false))
  | _, _ => none

/-! ## The other steps -/

/-- `runClientReport`: capture the lifecycle and take a place in the queue. -/
def enqueue (n : Lane) (request : ReportRequest) (now : Int) : Lane :=
  { n with queue := n.queue ++ [{
      lifecycle := ⟨now, n.removalVersion.getD 0, restoreVersion⟩
      request := request
      name := request.name
      hidden := request.hidden
      phase := .queued
      captured := n.epoch }] }

/-- `removeClient`. -/
def removeClient (n : Lane) : Lane :=
  { n with
    removalVersion := if n.queue.isEmpty then n.removalVersion
      else some (n.removalVersion.getD 0 + 1)
    client := none
    lastKnown := none
    stored := none
    session := none
    epoch := n.epoch + 1 }

/-- What `restoreClients` does to a node. -/
def restoreClients (n : Lane) : Lane :=
  { n with
    client := none
    lastKnown := none
    stored := none
    session := none
    epoch := n.epoch + 1 }

/-- `cleanupSession` of an agent. -/
def cleanupSession (n : Lane) (socket : Nat) : Lane :=
  if n.session = some socket then { n with session := none, client := none } else n

/-- What `removeExpiredClients` does to a node. -/
def removeExpired (n : Lane) (now : Int) : Lane :=
  { n with client := n.client.filter fun c => c.isOnline now }

/-- What `updateClientMeta` does to the entries of a node. -/
def updateClientMeta (n : Lane) (now : Int) : Lane :=
  let current := n.client.filter fun c => c.isOnline now
  match (n.client.or n.lastKnown).bind controls.controlledClientState with
  | none => { n with client := current }
  | some next => { n with
      client := if current.isSome then some next else none
      lastKnown := some (compacted compactLiveReport next) }

/-- `applyInferredNetworkMetadataToLiveReport`, when it changes the report to `report`. -/
def inferNetwork (n : Lane) (report : Fields) (now : Int) : Lane :=
  match n.client.bind controls.controlledClientState with
  | none => n
  | some current =>
    if current.expiresAt.any fun at_ => decide (at_ ≤ now) then n
    else { n with
      client := some { current with lastReport := report }
      lastKnown := some (compacted compactLiveReport { current with lastReport := report }) }

end Lane

/-! ## The object as a machine -/

structure LiveWorld where
  restoreVersion : Nat
  controls : Controls
  lanes : String → Lane

/-- What happens next. -/
inductive LiveEvent where
  | report (uuid : String) (request : ReportRequest) (now : Int)
  | advance (uuid : String) (reply : Reply) (putFails socketOpen : Bool)
  | removeClient (uuid : String)
  | restoreClients (snapshot : AdminClientsSnapshot)
  | control (read : Option AdminClientsSnapshot)
  | connect (uuid : String) (socket : Nat)
  | disconnect (uuid : String) (socket : Nat)
  | expire (now : Int)
  | updateClientMeta (uuid : String) (now : Int)
  | inferNetwork (uuid : String) (report : Fields) (now : Int)

/-- Replace the lane of a node. -/
def LiveWorld.setLane (w : LiveWorld) (uuid : String) (n : Lane) : LiveWorld :=
  { w with lanes := Function.update w.lanes uuid n }

/-- The controls after an await: a read of the management snapshot is remembered. -/
def Reply.controls (reply : Reply) (old : Controls) : Controls :=
  match reply with
  | .snapshot read => Controls.ofRead read
  | _ => old

/-- One step. -/
def liveStep (compactLiveReport : Fields → Fields) (w : LiveWorld) : LiveEvent → Option LiveWorld
  | .report uuid request now =>
    -- an HTTP request without reports is invalid
    if request.socket.isNone ∧ request.reports = 0 then none
    else some (w.setLane uuid ((w.lanes uuid).enqueue w.restoreVersion request now))
  | .advance uuid reply putFails socketOpen =>
    match (w.lanes uuid).queue with
    | [] => none
    | r :: rest =>
      let controls := reply.controls w.controls
      ((w.lanes uuid).advance compactLiveReport uuid w.restoreVersion controls r rest reply putFails
        socketOpen).map fun n => { w.setLane uuid n with controls := controls }
  | .removeClient uuid => some (w.setLane uuid (w.lanes uuid).removeClient)
  | .restoreClients snapshot => some {
      restoreVersion := w.restoreVersion + 1
      controls := Controls.remember snapshot
      lanes := fun uuid => (w.lanes uuid).restoreClients }
  | .control read => some { w with controls := Controls.ofRead read }
  | .connect uuid socket => some (w.setLane uuid { w.lanes uuid with session := some socket })
  | .disconnect uuid socket => some (w.setLane uuid ((w.lanes uuid).cleanupSession socket))
  | .expire now => some { w with lanes := fun uuid => (w.lanes uuid).removeExpired now }
  | .updateClientMeta uuid now =>
    some (w.setLane uuid ((w.lanes uuid).updateClientMeta compactLiveReport w.controls now))
  | .inferNetwork uuid report now =>
    some (w.setLane uuid ((w.lanes uuid).inferNetwork compactLiveReport w.controls report now))

/-- The object as a machine. -/
def liveMachine (compactLiveReport : Fields → Fields) : Machine LiveWorld LiveEvent :=
  ⟨liveStep compactLiveReport⟩

/-- An object without nodes. -/
def LiveWorld.start : LiveWorld :=
  ⟨0, Controls.absent, fun _ => ⟨none, none, none, none, none, [], 0, [], []⟩⟩

end CfMonitor.Live
