/-
  The traffic state files of the agent (`agent/traffic_persistence.go`).

  Data
    * A file name stands for what follows the base name of the state file: "" is the state file
      itself, ".bak" its backup, ".tmp-" and ".backup-" start the names of staged files.  Files
      whose name does not start with the base name are never touched and are left out.
    * `Entry` — what a name holds: a directory, a file that cannot be read, bytes that are no JSON
      document (an interrupted write), or a complete document.  Two documents with one record can
      still differ in their bytes (`layout`).
    * The environment's choices are arguments: `TempPlan` and `WritePlan` say which file
      operations fail, which name `os.CreateTemp` picks, and what a file holds while it is being
      written.

  Program
    * `trafficStateCandidates`, `readTrafficResetState` — recovery: the highest revision among
      the candidates, the first one of equals, nothing while a candidate is fatal;
    * `writeSyncedTrafficTemp`, `quarantineTrafficState`, `writeTrafficResetState` — the update,
      as a program with a crash between any two file operations.
-/
import CfMonitor.Agent.TrafficState
import CfMonitor.Lib.Crash
import CfMonitor.Lib.Directory
import Mathlib.Data.String.Basic

namespace CfMonitor.Agent

open CfMonitor.Lib

/-! ## Names and contents -/

/-- The state file. -/
def mainName : String := ""

/-- The backup of the generation before. -/
def bakName : String := ".bak"

/-- The staged file of older versions. -/
def tmpName : String := ".tmp"

/-- Prefix of a staged new generation. -/
def stagedPrefix : String := ".tmp-"

/-- Prefix of a staged backup. -/
def backupPrefix : String := ".backup-"

/-- Prefix of a quarantined file; no candidate. -/
def corruptPrefix : String := ".corrupt-"

/-- `strings.HasPrefix`. -/
def hasPrefix (name start : String) : Bool := start.toList.isPrefixOf name.toList

/-- What a name holds. -/
inductive Entry where
  | directory
  | unreadable
  /-- Bytes that `json.Unmarshal` refuses. -/
  | torn (text : String)
  /-- Bytes that `json.Unmarshal` reads as `state`. -/
  | document (layout : String) (state : TrafficResetState)
  deriving DecidableEq

/-- The files beside the state file. -/
abbrev TrafficDir : Type := Directory String Entry

/-- `json.MarshalIndent`. -/
def marshalIndent (s : TrafficResetState) : Entry := .document "" s

/-! ## Recovery -/

/-- What recovery makes of an entry. -/
inductive Verdict where
  | absent
  /-- Unreadable or of a newer format: it could supersede every known generation. -/
  | fatal
  | corrupt
  | valid (s : TrafficResetState)
  deriving DecidableEq

/-- Read and decode one candidate. -/
def classify : Option Entry → Verdict
  | none => .absent
  | some .directory => .fatal
  | some .unreadable => .fatal
  | some (.torn _) => .corrupt
  | some (.document _ s) => match decodeTrafficState s with
    | .ok s' => .valid s'
    | .error .newerFormat => .fatal
    | .error _ => .corrupt

/-- A name that recovery looks for in the listing. -/
def isStaged (name : String) : Bool := hasPrefix name stagedPrefix || hasPrefix name backupPrefix

/-- A listed staged file; directories of that name are skipped. -/
def isListed (d : TrafficDir) (name : String) : Bool :=
  isStaged name && decide (d.get? name ≠ some .directory)

/-- `trafficStateCandidates`. -/
def trafficStateCandidates (d : TrafficDir) : List String :=
  [mainName, bakName, tmpName] ++ d.names.filter (isListed d)

/-- A recovered generation: the record, the bytes it came from, and the name. -/
structure Generation where
  state : TrafficResetState
  data : Entry
  name : String
  deriving DecidableEq

/-- A candidate that decodes. -/
def generationAt (d : TrafficDir) (name : String) : Option Generation :=
  match classify (d.get? name), d.get? name with
  | .valid s, some e => some ⟨s, e, name⟩
  | _, _ => none

/-- Keep the first generation of the highest revision. -/
def keepBest (best : Option Generation) (g : Generation) : Option Generation :=
  match best with
  | none => some g
  | some b => if g.state.revision > b.state.revision then some g else some b

/-- Why nothing is recovered. -/
inductive ReadError where
  | fatal (names : List String)
  /-- `trafficStateCorruption`: every existing candidate is damaged. -/
  | corruption (names : List String)
  | notExist
  deriving DecidableEq

/-- `readTrafficResetState`. -/
def readTrafficResetState (d : TrafficDir) : Except ReadError Generation :=
  let candidates := trafficStateCandidates d
  let fatal := candidates.filter fun n => decide (classify (d.get? n) = .fatal)
  let corrupt := candidates.filter fun n => decide (classify (d.get? n) = .corrupt)
  if fatal ≠ [] then .error (.fatal fatal)
  else match (candidates.filterMap (generationAt d)).foldl keepBest none with
    | some g => .ok g
    | none => if corrupt ≠ [] then .error (.corruption corrupt) else .error .notExist

/-- The record that recovery finds. -/
def recovered (d : TrafficDir) : Option TrafficResetState :=
  match readTrafficResetState d with
  | .ok g => some g.state
  | .error _ => none

/-! ## The update -/

/-- Why an update ends early. -/
inductive WriteError where
  | mkdir
  | readDir
  | read (e : ReadError)
  | createTemp
  | writeTemp
  | replace
  | syncDirectory
  | remove
  deriving DecidableEq

/-- What a file holds while it is being written: bytes that are no document, a document of which
    only closing white space is missing, or everything. -/
inductive Progress where
  | torn (text : String)
  | trimmed (layout : String)
  | whole
  deriving DecidableEq

/-- The entry at that point of writing `data`. -/
def Progress.entry : Progress → Entry → Entry
  | .torn text, _ => .torn text
  | .trimmed layout, .document _ s => .document layout s
  | .trimmed _, data => data
  | .whole, data => data

/-- The environment's part in one `writeSyncedTrafficTemp`. -/
structure TempPlan where
  /-- `os.CreateTemp` succeeds, with this random part. -/
  created : Bool := true
  random : String
  /-- What the file holds before the write is complete. -/
  progress : List Progress := []
  /-- Write, sync and close all succeed. -/
  completed : Bool := true
  /-- After a failure, the file is removed. -/
  removed : Bool := true
  deriving DecidableEq

/-- Programs over the directory. -/
abbrev FileProg (α : Type) : Type := Prog TrafficDir WriteError α

/-- `writeSyncedTrafficTemp`: a new file of that prefix, with its name. -/
def writeSyncedTrafficTemp (start : String) (data : Entry) (plan : TempPlan) :
    FileProg String := do
  let d ← Prog.get
  let name := start ++ plan.random
  Prog.require (plan.created && decide (d.get? name = none)) .createTemp
  Prog.modify fun d => d.put name (.torn "")
  Prog.forEach plan.progress fun p => Prog.modify fun d => d.put name (p.entry data)
  if plan.completed then
    Prog.modify fun d => d.put name data
    pure name
  else
    Prog.modify fun d => if plan.removed then d.remove name else d
    Prog.fail .writeTemp

/-- `replace`: an atomic rename, or nothing. -/
def replaceFile (src dst : String) (ok : Bool) : FileProg Unit := do
  Prog.require ok .replace
  Prog.modify fun d => d.rename src dst

/-- The environment's part in one round of `quarantineTrafficState`. -/
structure QuarantinePlan where
  copy : TempPlan
  synced : Bool
  removed : Bool
  deriving DecidableEq

/-- One damaged file: copied under a name that is no candidate, then removed. -/
def quarantineOne (name : String) (plan : QuarantinePlan) : FileProg Unit := do
  let d ← Prog.get
  let _ ← writeSyncedTrafficTemp corruptPrefix ((d.get? name).getD (.torn "")) plan.copy
  Prog.require plan.synced .syncDirectory
  Prog.require plan.removed .remove
  Prog.modify fun d => d.remove name

/-- The environment's part in one `writeTrafficResetState`. -/
structure WritePlan where
  mkdir : Bool := true
  /-- The directory can be listed, before the update and for the cleanup. -/
  listed : Bool := true
  listedAgain : Bool := true
  quarantine : String → QuarantinePlan := fun n => ⟨{ random := n }, true, true⟩
  staged : TempPlan
  backup : TempPlan
  replaceBackup : Bool := true
  syncBackup : Bool := true
  replaceMain : Bool := true
  syncMain : Bool := true
  /-- The cleanup fails to remove this name. -/
  sticks : String → Bool := fun _ => false

/-- What the update writes: `next`, marked incomplete when the history before it is. -/
def markHistory (incomplete : Bool) (next : TrafficResetState) : TrafficResetState :=
  if incomplete then { next with historyIncomplete := true } else next

/-- The generation before carries an incomplete history of the same period. -/
def inheritsGap (prior next : TrafficResetState) : Bool :=
  decide (prior.period = next.period) && prior.historyIncomplete

/-- Back up the generation before. -/
def backupPrior (data : Entry) (plan : WritePlan) : FileProg Unit := do
  let backupStage ← writeSyncedTrafficTemp backupPrefix data plan.backup
  replaceFile backupStage bakName plan.replaceBackup
  Prog.require plan.syncBackup .syncDirectory

/-- Remove every candidate but the state file and its backup; failures are ignored. -/
def cleanup (plan : WritePlan) : FileProg Unit := do
  let d ← Prog.get
  Prog.forEach ((trafficStateCandidates d).filter
      fun n => decide (n ≠ mainName) && decide (n ≠ bakName)) fun n =>
    Prog.modify fun d => if plan.sticks n then d else d.remove n

/-- The backup is skipped when there is nothing to back up. -/
def backupWhenAny (prior : Option Entry) (plan : WritePlan) : FileProg Unit :=
  match prior with
  | some data => backupPrior data plan
  | none => pure ()

/-- Back up the generation before, and move the staged one into place. -/
def placeGeneration (staged : String) (prior : Option Entry) (plan : WritePlan) :
    FileProg Unit := do
  backupWhenAny prior plan
  replaceFile staged mainName plan.replaceMain
  Prog.require plan.syncMain .syncDirectory
  Prog.require plan.listedAgain .readDir
  cleanup plan

/-- Stage the new generation and put it in place. -/
def installGeneration (next : TrafficResetState) (prior : Option Entry) (plan : WritePlan) :
    FileProg Unit := do
  let staged ← writeSyncedTrafficTemp stagedPrefix (marshalIndent next) plan.staged
  placeGeneration staged prior plan

/-- `writeTrafficResetState`. -/
def writeTrafficResetState (next : TrafficResetState) (plan : WritePlan) : FileProg Unit := do
  Prog.require plan.mkdir .mkdir
  Prog.require plan.listed .readDir
  let d ← Prog.get
  match readTrafficResetState d with
  | .ok g => installGeneration (markHistory (inheritsGap g.state next) next) (some g.data) plan
  | .error .notExist => installGeneration next none plan
  | .error (.corruption names) => do
    Prog.forEach names fun n => quarantineOne n (plan.quarantine n)
    installGeneration (markHistory true next) none plan
  | .error (.fatal names) => Prog.fail (.read (.fatal names))

end CfMonitor.Agent
