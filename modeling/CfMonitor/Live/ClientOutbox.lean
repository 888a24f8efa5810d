/-
  The outbox of client controls: the trigger on `clients`, `client_sync_queue`,
  `cfm_pending_client_syncs`, `cfm_acknowledge_client_syncs`, `synchronizePendingClientChanges` and
  `applyClientSynchronizationBatch`.

  1. **SQL** — a statement is one step.  A queue row has a uuid and a revision from a sequence; a
     pending change is read together with the row of `clients` as it is then.

  2. **Workers** — any number of synchronizers, each a loop of three awaits: read what is pending,
     send it to the live-data object, acknowledge it.  An answer may be lost, and an acknowledgement
     that was sent may reach the database late and more than once.

  3. **Object** — a batch applies its changes one after the other, each with the steps of
     `ClientSync`; it may fail after any of them, and it goes on when its worker has given up.

  4. **History** — `latest` and `applied` are not read by the program: the revision that a uuid was
     queued with last, and the change that the object has completed last.
-/
import CfMonitor.Live.ClientProjection
import Mathlib.Data.List.Sort

namespace CfMonitor.Live

open CfMonitor.Lib

/-! ## SQL -/

/-- The tables `clients` and `client_sync_queue` with the sequence of revisions. -/
structure SyncDb where
  clients : String → Option SqlClient
  clientSyncQueue : List (String × Nat)
  revisionSeq : Nat
  latest : String → Nat

/-- A pending change, as a worker passes it on. -/
structure Change where
  uuid : String
  revision : Nat
  client : Option Fields

/-- What an acknowledgement names of a change. -/
def Change.key (c : Change) : String × Nat := (c.uuid, c.revision)

/-- `enqueue_client_sync`.  The inserted row draws a revision, and a conflict draws another. -/
def enqueueClientSync (uuid : String) (db : SyncDb) : SyncDb :=
  let candidate := db.revisionSeq + 1
  let revision := if (Assoc.get? db.clientSyncQueue uuid).isSome then candidate + 1 else candidate
  { db with
    clientSyncQueue := Assoc.set db.clientSyncQueue uuid revision
    revisionSeq := revision
    latest := Function.update db.latest uuid revision }

/-- The trigger `queue_client_control_change`, after a row was written. -/
def queueClientControlChange (old new : Option SqlClient) (db : SyncDb) : SyncDb :=
  match old, new with
  | some old, some new => if new.controls = old.controls then db else enqueueClientSync new.uuid db
  | some old, none => enqueueClientSync old.uuid db
  | none, some new => enqueueClientSync new.uuid db
  | none, none => db

/-- A statement that writes the row of a uuid. -/
def writeClient (uuid : String) (new : Option SqlClient) (db : SyncDb) : SyncDb :=
  queueClientControlChange (db.clients uuid) new { db with clients := Function.update db.clients uuid new }

/-- What a worker gets of a row: the projection, with its flags as booleans. -/
def clientObject (rules : ProjectionRules) (row : SqlClient) : Fields :=
  normalizeClientBooleans (rules.projection row)

/-- `cfm_pending_client_syncs`, read by `listPendingClientSyncs`. -/
def listPendingClientSyncs (rules : ProjectionRules) (db : SyncDb) (uuids : Option (List String))
    (limit : Int) : List Change :=
  let selected := db.clientSyncQueue.filter fun p => uuids.all fun ids => ids.contains p.1
  let pending := (selected.insertionSort fun p q => p.2 ≤ q.2).take (min (max limit 1) 200).toNat
  pending.map fun p => ⟨p.1, p.2, (db.clients p.1).map (clientObject rules)⟩

/-- `cfm_acknowledge_client_syncs`: how many rows it deletes; no answer when the list is invalid. -/
def cfmAcknowledgeClientSyncs (changes : List (String × Nat)) (db : SyncDb) : Option (Nat × SyncDb) :=
  if 200 < changes.length ∨ (changes.any fun c => c.1 = "" || c.2 = 0) then none
  else some ((db.clientSyncQueue.filter fun p => changes.contains p).length,
    { db with clientSyncQueue := db.clientSyncQueue.filter fun p => !changes.contains p })

/-! ## Workers -/

/-- The options of `synchronizePendingClientChanges`. -/
structure SyncOptions where
  uuids : Option (List String)
  limit : Option Int
  drain : Bool

/-- `Math.min(200, options.limit ?? options.uuids?.length ?? (options.drain ? 200 : 10))`. -/
def SyncOptions.limitValue (options : SyncOptions) : Int :=
  min 200 (options.limit.getD
    ((options.uuids.map fun ids => (ids.length : Int)).getD (if options.drain then 200 else 10)))

def SyncOptions.batches (options : SyncOptions) : Nat := if options.drain then 10 else 1

/-- What a synchronizer does next. -/
inductive SyncPhase where
  | listing
  | awaiting (pending : List Change)
  | acknowledging (pending : List Change)
  | checking
  | returned
  | failed

/-- A call of `synchronizePendingClientChanges`. -/
structure Synchronizer where
  options : SyncOptions
  batch : Nat
  synchronized : Nat
  phase : SyncPhase

/-- After a batch was acknowledged: the next one, or the end of the loop. -/
def Synchronizer.acknowledged (s : Synchronizer) (count : Nat) : Synchronizer :=
  { s with
    batch := s.batch + 1
    synchronized := s.synchronized + count
    phase :=
      if s.batch + 1 < s.options.batches then .listing
      else if s.options.uuids.isSome ∨ s.options.drain then .checking
      else .returned }

/-! ## Object -/

inductive BatchPhase where
  | ready
  | waiting
  | answered
  | failed
  deriving DecidableEq

/-- A request of `applyClientSynchronizationBatch` in the object. -/
structure BatchCall where
  changes : List Change
  applied : List (String × Nat)
  phase : BatchPhase

/-- The change that a batch is at. -/
def BatchCall.current (call : BatchCall) : Option Change := call.changes[call.applied.length]?

/-- The key and the change of a request for `applyClientSynchronization`; none when it is invalid. -/
def Change.request (c : Change) : Option (String × Option AgentAuthSnapshot) :=
  let uuid := trim c.uuid
  if uuid = "" ∨ c.revision = 0 then none
  else match c.client with
    | none => some (uuid, none)
    | some raw =>
      match normalizeAgentAuthSnapshot raw with
      | none => none
      | some client => if client.uuid = uuid then some (uuid, some client) else none

/-- What a request learns from a segment; nothing when it was cut off or has failed. -/
def segmentOutcome (run : Exec SyncStore Refusal SyncOutcome) (cut : Option Nat) : Option SyncOutcome :=
  match cut, run.result with
  | none, .ok outcome => some outcome
  | _, _ => none

/-- A batch after a segment of the change it is at. -/
def BatchCall.after (call : BatchCall) (c : Change) : Option SyncOutcome → BatchCall
  | none => { call with phase := .failed }
  | some (.waits _) => { call with phase := .waiting }
  | some (.answered _) =>
    let applied := call.applied ++ [c.key]
    { call with
      applied
      phase := if applied.length = call.changes.length then .answered else .ready }

/-! ## The system as a machine -/

/-- The database, the object, the workers and what is under way between them. -/
structure OutboxWorld where
  db : SyncDb
  object : SyncWorld
  synchronizers : Nat → Option Synchronizer
  batches : Nat × Nat → Option BatchCall
  writer : String → Option (Nat × Nat)
  acks : List (List (String × Nat))
  applied : String → Option Change

/-- What happens next.  A report changes columns that the trigger does not watch; `enqueue` is a
    statement that queues a uuid by itself. -/
inductive OutboxEvent where
  | insert (row : SqlClient)
  | update (row : SqlClient)
  | report (row : SqlClient)
  | delete (uuid : String)
  | enqueue (uuid : String)
  | start (i : Nat) (options : SyncOptions)
  | list (i : Nat)
  | apply (b : Nat × Nat) (cut : Option Nat)
  | resume (key : String) (now : Int) (fits : Bool) (cut : Option Nat)
  | refuse (b : Nat × Nat)
  | restart
  | receive (i : Nat)
  | lose (i : Nat)
  | acknowledge (i : Nat) (lost : Bool)
  | acknowledgeAgain (n : Nat)
  | check (i : Nat)

namespace OutboxWorld

variable (w : OutboxWorld)

def setSynchronizer (i : Nat) (s : Synchronizer) : OutboxWorld :=
  { w with synchronizers := Function.update w.synchronizers i (some s) }

def setBatch (b : Nat × Nat) (call : BatchCall) : OutboxWorld :=
  { w with batches := Function.update w.batches b (some call) }

/-- A segment of the change `c` of a batch has ended, with the object as it is then. -/
def settle (b : Nat × Nat) (call : BatchCall) (c : Change) (key : String) (object : SyncWorld)
    (outcome : Option SyncOutcome) : OutboxWorld :=
  { w with
    object
    batches := Function.update w.batches b (some (call.after c outcome))
    writer := Function.update w.writer key
      (match outcome with
        | some (.waits _) => some b
        | _ => none)
    applied :=
      if w.object.store.syncRevision key ≠ some (c.revision, true) ∧
          object.store.syncRevision key = some (c.revision, true) then
        Function.update w.applied key (some c)
      else w.applied }

end OutboxWorld

section Step

variable (rules : SyncRules) (projection : ProjectionRules) (owner : String → String)

/-- A batch begins the change it is at. -/
def applyNext (w : OutboxWorld) (b : Nat × Nat) (cut : Option Nat) : Option OutboxWorld := do
  let call ← w.batches b
  let c ← call.current
  if call.phase = .ready then
    match c.request with
    | none => some (w.setBatch b { call with phase := .failed })
    | some (key, change) => do
      let object ← syncStep rules owner w.object (.sync key c.revision change cut)
      some (w.settle b call c key object
        (segmentOutcome (rules.applyClientSynchronization key c.revision change w.object.store) cut))
  else none

/-- The synchronisation of a node goes on. -/
def resumeWriter (w : OutboxWorld) (key : String) (now : Int) (fits : Bool) (cut : Option Nat) :
    Option OutboxWorld := do
  let b ← w.writer key
  let running ← w.object.running key
  let call ← w.batches b
  let c ← call.current
  let object ← syncStep rules owner w.object (.resume key now fits cut)
  some (w.settle b call c key object
    (segmentOutcome (rules.resume key running.revision now fits running.next w.object.store) cut))

/-- The object restarts: every batch in progress is lost. -/
def restartObject (w : OutboxWorld) : Option OutboxWorld := do
  let object ← syncStep rules owner w.object .restart
  some { w with
    object
    writer := fun _ => none
    batches := fun b => (w.batches b).map fun call =>
      if call.phase = .answered then call else { call with phase := .failed } }

/-- A worker reads what is pending, and sends it. -/
def listPending (w : OutboxWorld) (i : Nat) : Option OutboxWorld := do
  let s ← w.synchronizers i
  match s.phase with
  | .listing =>
    let pending := listPendingClientSyncs projection w.db s.options.uuids s.options.limitValue
    if pending.isEmpty then some (w.setSynchronizer i { s with phase := .returned })
    else some ((w.setSynchronizer i { s with phase := .awaiting pending }).setBatch (i, s.batch)
      ⟨pending, [], .ready⟩)
  | _ => none

/-- A worker gets the answer to its batch.  When it names the changes that were sent, their
    acknowledgement goes out. -/
def receiveAnswer (w : OutboxWorld) (i : Nat) : Option OutboxWorld := do
  let s ← w.synchronizers i
  match s.phase with
  | .awaiting pending => do
    let call ← w.batches (i, s.batch)
    match call.phase with
    | .answered =>
      if call.applied = pending.map Change.key then
        some { w.setSynchronizer i { s with phase := .acknowledging pending } with
          acks := pending.map Change.key :: w.acks }
      else some (w.setSynchronizer i { s with phase := .failed })
    | .failed => some (w.setSynchronizer i { s with phase := .failed })
    | _ => none
  | _ => none

/-- The acknowledgement of a batch reaches the database; its answer may be lost. -/
def acknowledgeBatch (w : OutboxWorld) (i : Nat) (lost : Bool) : Option OutboxWorld := do
  let s ← w.synchronizers i
  match s.phase with
  | .acknowledging pending =>
    match cfmAcknowledgeClientSyncs (pending.map Change.key) w.db with
    | none => some (w.setSynchronizer i { s with phase := .failed })
    | some (count, db) =>
      if lost ∨ count ≠ pending.length then
        some ({ w with db }.setSynchronizer i { s with phase := .failed })
      else some ({ w with db }.setSynchronizer i (s.acknowledged pending.length))
  | _ => none

/-- An acknowledgement that was sent reaches the database once more. -/
def acknowledgeOnceMore (w : OutboxWorld) (n : Nat) : Option OutboxWorld := do
  let changes ← w.acks[n]?
  match cfmAcknowledgeClientSyncs changes w.db with
  | none => some w
  | some (_, db) => some { w with db }

/-- The last look of a worker that was asked for certain nodes or to drain the queue. -/
def checkPending (w : OutboxWorld) (i : Nat) : Option OutboxWorld := do
  let s ← w.synchronizers i
  match s.phase with
  | .checking =>
    if (listPendingClientSyncs projection w.db s.options.uuids 1).isEmpty then
      some (w.setSynchronizer i { s with phase := .returned })
    else some (w.setSynchronizer i { s with phase := .failed })
  | _ => none

/-- One step. -/
def outboxStep (w : OutboxWorld) : OutboxEvent → Option OutboxWorld
  | .insert row =>
    if (w.db.clients row.uuid).isNone then some { w with db := writeClient row.uuid (some row) w.db } else none
  | .update row =>
    match w.db.clients row.uuid with
    | none => none
    | some old =>
      if row.controls = old.controls then none
      else some { w with db := writeClient row.uuid (some row) w.db }
  | .report row =>
    match w.db.clients row.uuid with
    | none => none
    | some old =>
      if row.controls = old.controls then some { w with db := writeClient row.uuid (some row) w.db }
      else none
  | .delete uuid =>
    if (w.db.clients uuid).isSome then some { w with db := writeClient uuid none w.db } else none
  | .enqueue uuid => some { w with db := enqueueClientSync uuid w.db }
  | .start i options =>
    if (w.synchronizers i).isNone then some (w.setSynchronizer i ⟨options, 0, 0, .listing⟩) else none
  | .list i => listPending projection w i
  | .apply b cut => applyNext rules owner w b cut
  | .resume key now fits cut => resumeWriter rules owner w key now fits cut
  | .refuse b => do
    let call ← w.batches b
    if call.phase = .ready then some (w.setBatch b { call with phase := .failed }) else none
  | .restart => restartObject rules owner w
  | .receive i => receiveAnswer w i
  | .lose i => do
    let s ← w.synchronizers i
    some (w.setSynchronizer i { s with phase := .failed })
  | .acknowledge i lost => acknowledgeBatch w i lost
  | .acknowledgeAgain n => acknowledgeOnceMore w n
  | .check i => checkPending projection w i

def outboxMachine : Machine OutboxWorld OutboxEvent := ⟨outboxStep rules projection owner⟩

end Step

/-- Empty tables and an object with empty storage. -/
def OutboxWorld.start : OutboxWorld where
  db := ⟨fun _ => none, [], 0, fun _ => 0⟩
  object := SyncWorld.start
  synchronizers := fun _ => none
  batches := fun _ => none
  writer := fun _ => none
  acks := []
  applied := fun _ => none

end CfMonitor.Live
