/-
  The alarm of the live-data object (`scheduleExpiryAlarm`, `alarm`, `removeExpiredViewers`).

  The object has one alarm for three kinds of deadlines: the expiry of the nodes that report over
  HTTP, the end of the viewers' windows, and the times of the website rechecks.

  1. **Program** — a step is what a handler does up to its next await; it may end with one call of
     `scheduleExpiryAlarm` (`before` says with which clock).  A report over HTTP makes that call after
     its probe results were stored, with the clock of its receipt; `alarm` makes it at its end, with
     the clock of that moment.

  2. **Results** — when every deadline has an alarm (`expiries_planned`).
-/
import CfMonitor.Live.PublicSnapshot
import CfMonitor.Live.Rechecks
import CfMonitor.Live.ReportLifecycle
import Mathlib.Order.MinMax

namespace CfMonitor.Live

open CfMonitor.Lib

/-! ## Data -/

/-- The object with its alarm.  `nodes` has the nodes that have sent reports, `scheduledAt` the clock
    of the last scheduling. -/
structure AlarmWorld where
  live : LiveWorld
  nodes : List String
  viewers : List (String × Int)
  rechecks : Rechecks
  alarm : Option Int
  scheduledAt : Option Int
  alarmRuns : Bool

namespace AlarmWorld

/-! ## Scheduling -/

/-- The expiries of the nodes that count as online. -/
def clientExpiries (w : AlarmWorld) : List Int :=
  w.nodes.filterMap fun uuid => (w.live.lanes uuid).client.bind ClientState.expiresAt

/-- The ends of the viewers' windows. -/
def viewerExpiries (w : AlarmWorld) : List Int := w.viewers.map Prod.snd

/-- The times that `scheduleExpiryAlarm` takes into account. -/
def considered (w : AlarmWorld) (now : Int) : List Int :=
  (w.clientExpiries ++ w.viewerExpiries).filter (fun e => decide (now < e)) ++
    w.rechecks.listed.map fun p => max (now + 1000) p.2.retryAt

def scheduleExpiryAlarm (w : AlarmWorld) (now : Int) : AlarmWorld :=
  { w with
    alarm := (w.considered now).min?.map fun next => max next (now + 1000)
    scheduledAt := some now }

/-! ## The handlers -/

/-- `boundedHttpTtlMs` of a value that `Number` reads as `ttlMs`. -/
def boundedHttpTtlMs (ttlMs : Option Int) : Int :=
  match ttlMs with
  | none => 180000
  | some ttl => if ttl ≤ 0 then 180000 else min (max ttl 30000) 86400000

/-- `normalizeViewerTtlMs`. -/
def normalizeViewerTtlMs (ttlMs : Option Int) : Int :=
  match ttlMs with
  | none => 120000
  | some ttl => if ttl ≤ 0 then 120000 else min (max ttl 60000) 3600000

/-- The clock of the scheduling call of a report that has come to it. -/
def reportCall (n : Lane) : Option Int :=
  match n.queue with
  | ⟨lifecycle, _, _, _, .alarm, _⟩ :: _ => some lifecycle.receivedAt
  | _ => none

end AlarmWorld

/-- What happens next. -/
inductive AlarmEvent where
  | report (uuid : String) (request : ReportRequest) (ttlMs : Option Int) (now : Int)
  | advance (uuid : String) (reply : Reply) (putFails socketOpen : Bool)
  | removeClient (uuid : String)
  | restoreClients (snapshot : AdminClientsSnapshot) (now : Int)
  | control (read : Option AdminClientsSnapshot)
  | connect (uuid : String) (socket : Nat)
  | disconnect (uuid : String) (socket : Nat)
  | updateClientMeta (uuid : String) (now : Int)
  | inferNetwork (uuid : String) (report : Fields) (now : Int)
  | viewer (id : String) (ttlMs : Option Int) (now : Int)
  | viewerGone (id : String)
  | queueRecheck (check : WebsiteCheckInput) (now : Int)
  | alarmStarts (database : Bool) (now : Int)
  | attemptEnds (place : Nat) (ok : Bool) (now : Int)
  | alarmEnds (now : Int)

namespace AlarmWorld

/-- A step that only concerns the nodes. -/
def onLive (compact : Fields → Fields) (w : AlarmWorld) (e : LiveEvent) : Option AlarmWorld :=
  (liveStep compact w.live e).map fun live => { w with live := live }

/-- A step up to its scheduling call, and the clock of that call. -/
def before (compact : Fields → Fields) (w : AlarmWorld) :
    AlarmEvent → Option (AlarmWorld × Option Int)
  | .report uuid request ttlMs now =>
    (w.onLive compact (.report uuid { request with ttlMs := boundedHttpTtlMs ttlMs } now)).map
      fun v => ({ v with nodes := if w.nodes.contains uuid then w.nodes else w.nodes ++ [uuid] }, none)
  | .advance uuid reply putFails socketOpen =>
    (w.onLive compact (.advance uuid reply putFails socketOpen)).map
      fun v => (v, reportCall (v.live.lanes uuid))
  | .removeClient uuid => (w.onLive compact (.removeClient uuid)).map fun v => (v, none)
  | .restoreClients snapshot now =>
    (w.onLive compact (.restoreClients snapshot)).map fun v => (v, some now)
  | .control read => (w.onLive compact (.control read)).map fun v => (v, none)
  | .connect uuid socket => (w.onLive compact (.connect uuid socket)).map
      fun v => ({ v with viewers := Assoc.erase v.viewers uuid }, none)
  | .disconnect uuid socket => (w.onLive compact (.disconnect uuid socket)).map fun v => (v, none)
  | .updateClientMeta uuid now =>
    (w.onLive compact (.updateClientMeta uuid now)).map fun v => (v, none)
  | .inferNetwork uuid report now =>
    (w.onLive compact (.inferNetwork uuid report now)).map fun v => (v, none)
  | .viewer id ttlMs now =>
    some ({ w with viewers := Assoc.set w.viewers id (now + normalizeViewerTtlMs ttlMs) }, some now)
  | .viewerGone id => some ({ w with viewers := Assoc.erase w.viewers id }, none)
  | .queueRecheck check now =>
    (w.rechecks.queueWebsiteRecheck check now).map fun q => ({ w with rechecks := q }, some now)
  | .alarmStarts database now =>
    match w.alarm with
    | none => none
    | some time =>
      if w.alarmRuns ∨ now < time then none
      else some ({ w with
        live := { w.live with lanes := fun uuid => (w.live.lanes uuid).removeExpired now }
        viewers := w.viewers.filter fun p => decide (now < p.2)
        rechecks := if database then w.rechecks.processWebsiteRechecks now else w.rechecks
        alarm := none
        alarmRuns := true }, none)
  | .attemptEnds place ok now =>
    if w.alarmRuns then (recheckStep w.rechecks (.finish place ok now)).map
      fun q => ({ w with rechecks := q }, none)
    else none
  | .alarmEnds now =>
    if w.alarmRuns ∧ w.rechecks.running = [] then some ({ w with alarmRuns := false }, some now)
    else none

/-- One step. -/
def step (compact : Fields → Fields) (w : AlarmWorld) (e : AlarmEvent) : Option AlarmWorld :=
  (w.before compact e).map fun p => match p.2 with
    | none => p.1
    | some now => p.1.scheduleExpiryAlarm now

end AlarmWorld

/-- The object with its alarm as a machine. -/
def alarmMachine (compact : Fields → Fields) : Machine AlarmWorld AlarmEvent :=
  ⟨fun w e => w.step compact e⟩

/-- An object without nodes, viewers and tasks. -/
def AlarmWorld.start : AlarmWorld := ⟨LiveWorld.start, [], [], Rechecks.start, none, none, false⟩

/-! ## Specification -/

namespace AlarmWorld

/-- There is an alarm for a deadline. -/
def Covered (w : AlarmWorld) (deadline : Int) : Prop :=
  ∃ time at_, w.alarm = some time ∧ w.scheduledAt = some at_ ∧ time ≤ max deadline (at_ + 1000)

/-- The expiry of a node that counts as online. -/
def Expires (w : AlarmWorld) (uuid : String) (expiry : Int) : Prop :=
  ∃ c, (w.live.lanes uuid).client = some c ∧ c.expiresAt = some expiry

/-- Every deadline has an alarm. -/
structure Planned (w : AlarmWorld) : Prop where
  clients : ∀ {uuid e}, w.Expires uuid e → w.Covered e
  viewers : ∀ {id e}, (id, e) ∈ w.viewers → w.Covered e
  tasks : ∀ {key t}, w.rechecks.tasks.get? key = some t → w.Covered t.retryAt

/-- No handler is at work. -/
def Idle (w : AlarmWorld) : Prop := w.alarmRuns = false ∧ ∀ uuid, (w.live.lanes uuid).queue = []

/-- A scheduling call sees every expiry, or has something to wake up for within a second. -/
def Sees (w : AlarmWorld) (now : Int) : Prop :=
  ((∀ uuid e, w.Expires uuid e → now < e) ∧ ∀ id e, (id, e) ∈ w.viewers → now < e) ∨
  ∃ time ∈ w.considered now, time ≤ now + 1000

/-- The running report of a node has made its live update over HTTP and not its scheduling call. -/
def Unplanned (n : Lane) : Prop :=
  ∃ r rest, n.queue = r :: rest ∧ r.request.socket = none ∧ (r.phase = .ping 0 ∨ r.phase = .website 0)

/-- The step ends such a report: its probe results could not be stored. -/
def Abandons (w : AlarmWorld) (e : AlarmEvent) (w' : AlarmWorld) (uuid : String) : Prop :=
  (∃ reply putFails socketOpen, e = .advance uuid reply putFails socketOpen) ∧
  Unplanned (w.live.lanes uuid) ∧ (w'.live.lanes uuid).queue = (w.live.lanes uuid).queue.tail

/-- The condition on a step. -/
def Timely (compact : Fields → Fields) (w : AlarmWorld) (e : AlarmEvent) (w' : AlarmWorld) : Prop :=
  (∀ v now, w.before compact e = some (v, some now) → v.Sees now) ∧
  ∀ uuid expiry, w.Abandons e w' uuid → w.Expires uuid expiry → w.Covered expiry

end AlarmWorld

end CfMonitor.Live
