/-
  The tasks about the network of a node (`syncNetworkMetadataFromReport`, `runClientMetadataSync`,
  `inferRegionFromPublicIp`, `applyInferredNetworkMetadataToLiveReport`).

  1. **Data** — every accepted report has a TASK, in the order of acceptance.  A task has a patch: the
     addresses and the region of its report, with the region that was inferred from then on.

  2. **Program** — a task infers the region, patches the entry in `clients`, and waits for its turn to write
     its patch to the row of the node.  The awaits are the answer about the region, the call of the database
     and the update of the management snapshot.  What they returned is in the label.

  3. **Machine** — the object of `ReportLifecycle` with the tasks: a report that is accepted starts its
     task in the same step.
-/
import CfMonitor.Live.RetainedReport

namespace CfMonitor.Live

open CfMonitor.Lib
open ReportRules (NetworkPatch)

/-! ## Data -/

/-- What the tasks use from elsewhere.  `database` says whether `getQueryDatabase` finds one. -/
structure NetworkRules extends ReportRules where
  isDetailedRegion : String → Bool
  database : Bool
  isPublicIpAddress_trim : ∀ s, isPublicIpAddress (trim s) = isPublicIpAddress s
  isPublicIpAddress_blank : isPublicIpAddress "" = false

inductive NetworkField where
  | ipv4
  | ipv6
  | region
  deriving DecidableEq

/-- The key of a field in a report. -/
def NetworkField.key : NetworkField → String
  | .ipv4 => "ipv4"
  | .ipv6 => "ipv6"
  | .region => "region"

/-- A patch written over another. -/
def ReportRules.NetworkPatch.over (patch old : ReportRules.NetworkPatch) : ReportRules.NetworkPatch :=
  ⟨patch.ipv4.or old.ipv4, patch.ipv6.or old.ipv6, patch.region.or old.region⟩

namespace ReportRules.NetworkPatch

def get (patch : NetworkPatch) : NetworkField → Option String
  | .ipv4 => patch.ipv4
  | .ipv6 => patch.ipv6
  | .region => patch.region

def isEmpty (patch : NetworkPatch) : Bool :=
  patch.ipv4.isNone && patch.ipv6.isNone && patch.region.isNone

/-- `String(patch.ipv4 || patch.ipv6 || '')`. -/
def address (patch : NetworkPatch) : String :=
  if patch.ipv4.getD "" ≠ "" then patch.ipv4.getD "" else patch.ipv6.getD ""

@[simp] theorem get_over (patch old : NetworkPatch) (f : NetworkField) :
    (patch.over old).get f = (patch.get f).or (old.get f) := by
  cases f <;> rfl

theorem get_of_isEmpty {patch : NetworkPatch} (h : patch.isEmpty = true) (f : NetworkField) : patch.get f = none := by
  simp only [isEmpty, Bool.and_eq_true, Option.isNone_iff_eq_none] at h
  obtain ⟨⟨hipv4, hipv6⟩, hregion⟩ := h
  cases f
  · exact hipv4
  · exact hipv6
  · exact hregion

end ReportRules.NetworkPatch

/-- Where a task is. -/
inductive NetworkStage where
  | inferring
  | waiting
  | writing
  | upserting
  | returned
  | thrown
  deriving DecidableEq

/-- The task of an accepted report. -/
structure NetworkTask where
  receivedAt : Int
  patch : NetworkPatch
  stage : NetworkStage

/-- What there is about the network of a node: the tasks of its accepted reports, those in its queue of
    metadata (the first runs), the remembered signature, and what the tasks last wrote to its row. -/
structure NetworkNode where
  tasks : List NetworkTask
  queue : List Nat
  signature : Option NetworkPatch
  sql : NetworkPatch

/-- How a call of the database ended; `unclear`: it wrote, and an error came back. -/
inductive CallEnd where
  | done
  | unclear
  | failed

/-! ## Program -/

namespace NetworkRules

variable (rules : NetworkRules)

/-- What a report says about its network. -/
def ownPatch (report : Fields) : NetworkPatch where
  ipv4 := ((Json.str? (Assoc.get? report "ipv4")).filter rules.isPublicIpAddress).map trim
  ipv6 := ((Json.str? (Assoc.get? report "ipv6")).filter rules.isPublicIpAddress).map trim
  region := ((Json.str? (Assoc.get? report "region")).filter rules.isUsefulRegion).map trim

/-- Whether the region of a patch needs no inference. -/
def detailed (patch : NetworkPatch) : Bool := rules.isDetailedRegion (patch.region.getD "")

/-- `inferRegionFromPublicIp`, with the region that is cached or that the service answers. -/
def inferRegionFromPublicIp (ip : String) (answer : Option String) : String :=
  if rules.isPublicIpAddress (trim ip) = true ∧ rules.isUsefulRegion (answer.getD "") = true then answer.getD ""
  else ""

/-- The patch, when a region was inferred. -/
def withRegion (patch : NetworkPatch) (inferredRegion : String) : NetworkPatch :=
  if inferredRegion ≠ "" ∧ (patch.region.getD "" = "" ∨ rules.isDetailedRegion inferredRegion = true) then
    { patch with region := some inferredRegion }
  else patch

/-- Whether a text of a patch changes the report. -/
def fieldChanges (useful : String → Bool) (field : String) (value : Option String) (report : Fields) : Bool :=
  value.any fun text => useful text && trim text != "" && Json.str? (Assoc.get? report field) != some (trim text)

def patchChanges (patch : NetworkPatch) (report : Fields) : Bool :=
  fieldChanges rules.isPublicIpAddress "ipv4" patch.ipv4 report ||
    fieldChanges rules.isPublicIpAddress "ipv6" patch.ipv6 report ||
    fieldChanges rules.isUsefulRegion "region" patch.region report

end NetworkRules

/-- `applyInferredNetworkMetadataToLiveReport`. -/
def Lane.applyInferredNetworkMetadataToLiveReport (rules : NetworkRules) (controls : Controls) (n : Lane)
    (patch : NetworkPatch) (now : Int) : Lane :=
  match n.client with
  | none => n
  | some source =>
    if rules.patchChanges patch source.lastReport then
      n.inferNetwork rules.compactLiveReport controls (rules.inferredReport patch source.lastReport) now
    else n

namespace NetworkNode

def setTask (m : NetworkNode) (id : Nat) (task : NetworkTask) : NetworkNode :=
  { m with tasks := m.tasks.set id task }

/-- The running task leaves the queue of metadata. -/
def leave (m : NetworkNode) (id : Nat) (task : NetworkTask) (rest : List Nat) (stage : NetworkStage) : NetworkNode :=
  { m.setTask id { task with stage := stage } with queue := rest }

/-- The rest of `syncNetworkMetadataFromReport` once the patch is known, up to the queue of metadata. -/
def resume (m : NetworkNode) (id : Nat) (task : NetworkTask) (patch : NetworkPatch) : NetworkNode :=
  if patch.isEmpty then m.setTask id { task with patch := patch, stage := .returned }
  else { m.setTask id { task with patch := patch, stage := .waiting } with queue := m.queue ++ [id] }

/-- The task of the queue begins to run. -/
def sync (rules : NetworkRules) (m : NetworkNode) (id : Nat) (task : NetworkTask) (rest : List Nat) : NetworkNode :=
  if m.signature = some task.patch ∨ rules.database = false then m.leave id task rest .returned
  else m.setTask id { task with stage := .writing }

/-- `db.updateClient` has ended. -/
def update (m : NetworkNode) (id : Nat) (task : NetworkTask) (rest : List Nat) : CallEnd → NetworkNode
  | .done => { m.setTask id { task with stage := .upserting } with sql := task.patch.over m.sql }
  | .unclear => { m.leave id task rest .thrown with sql := task.patch.over m.sql }
  | .failed => m.leave id task rest .thrown

/-- `upsertAdminClientSnapshot` has ended. -/
def upsert (m : NetworkNode) (id : Nat) (task : NetworkTask) (rest : List Nat) (fails : Bool) : NetworkNode :=
  if fails then m.leave id task rest .thrown
  else { m.leave id task rest .returned with signature := some task.patch }

end NetworkNode

/-- A task goes on with its patch, at a node and its tasks. -/
def continueTask (rules : NetworkRules) (controls : Controls) (n : Lane) (m : NetworkNode) (id : Nat)
    (task : NetworkTask) (patch : NetworkPatch) : Lane × NetworkNode :=
  (if patch.isEmpty then n else n.applyInferredNetworkMetadataToLiveReport rules controls patch task.receivedAt,
    m.resume id task patch)

/-- The task of a report. -/
def NetworkRules.taskOf (rules : NetworkRules) (r : LiveReport) : NetworkTask :=
  ⟨r.lifecycle.receivedAt, rules.ownPatch r.request.report, .inferring⟩

/-- A report was accepted: its task runs up to its first await. -/
def startTask (rules : NetworkRules) (controls : Controls) (n : Lane) (m : NetworkNode) (r : LiveReport) :
    Lane × NetworkNode :=
  let task := rules.taskOf r
  let started := { m with tasks := m.tasks ++ [task] }
  if rules.detailed task.patch then continueTask rules controls n started m.tasks.length task task.patch
  else (n, started)

/-! ## Machine -/

structure NetworkWorld where
  live : LiveWorld
  nodes : String → NetworkNode

/-- What happens next. -/
inductive NetworkEvent where
  | live (e : LiveEvent)
  | infer (uuid : String) (id : Nat) (answer : Option String)
  | sync (uuid : String)
  | update (uuid : String) (result : CallEnd)
  | upsert (uuid : String) (fails : Bool)

/-- The report that a step has accepted. -/
def Lane.acceptedReport (n n' : Lane) : Option LiveReport :=
  if n'.updated.length = n.updated.length then none else n.queue.head?

/-- Replace what there is of a node. -/
def NetworkWorld.put (w : NetworkWorld) (uuid : String) (node : Lane × NetworkNode) : NetworkWorld :=
  ⟨w.live.setLane uuid node.1, Function.update w.nodes uuid node.2⟩

/-- The running task of a node. -/
def NetworkNode.running (m : NetworkNode) : Option (Nat × NetworkTask × List Nat) :=
  match m.queue with
  | [] => none
  | id :: rest => m.tasks[id]?.map fun task => (id, task, rest)

/-- A step of the running task, if it is at that stage. -/
def NetworkWorld.runTask (w : NetworkWorld) (uuid : String) (stage : NetworkStage)
    (work : Nat → NetworkTask → List Nat → NetworkNode) : Option NetworkWorld :=
  match (w.nodes uuid).running with
  | none => none
  | some (id, task, rest) =>
    if task.stage = stage then some { w with nodes := Function.update w.nodes uuid (work id task rest) } else none

/-- One step. -/
def networkStep (rules : NetworkRules) (w : NetworkWorld) : NetworkEvent → Option NetworkWorld
  | .live e => (liveStep rules.compactLiveReport w.live e).bind fun live =>
    match e with
    -- a patch is made by a task alone
    | .inferNetwork _ _ _ => none
    | .advance uuid _ _ _ =>
      match (w.live.lanes uuid).acceptedReport (live.lanes uuid) with
      | none => some { w with live := live }
      | some r => some (NetworkWorld.put { w with live := live } uuid
          (startTask rules live.controls (live.lanes uuid) (w.nodes uuid) r))
    | .restoreClients _ => some ⟨live, fun uuid => { w.nodes uuid with signature := none }⟩
    | _ => some { w with live := live }
  | .infer uuid id answer =>
    match (w.nodes uuid).tasks[id]? with
    | none => none
    | some task =>
      if task.stage = .inferring then
        let region := rules.inferRegionFromPublicIp task.patch.address answer
        some (w.put uuid (continueTask rules w.live.controls (w.live.lanes uuid) (w.nodes uuid) id task
          (rules.withRegion task.patch region)))
      else none
  | .sync uuid => w.runTask uuid .waiting ((w.nodes uuid).sync rules)
  | .update uuid result => w.runTask uuid .writing fun id task rest => (w.nodes uuid).update id task rest result
  | .upsert uuid fails => w.runTask uuid .upserting fun id task rest => (w.nodes uuid).upsert id task rest fails

/-- The object with its tasks as a machine. -/
def networkMachine (rules : NetworkRules) : Machine NetworkWorld NetworkEvent := ⟨networkStep rules⟩

def NetworkWorld.start : NetworkWorld := ⟨LiveWorld.start, fun _ => ⟨[], [], none, ⟨none, none, none⟩⟩⟩

end CfMonitor.Live
