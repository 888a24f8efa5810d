/-
  Client synchronisation and agent credentials (`applyClientSynchronization`,
  `storeAgentAuthSnapshot`, `removeAgentAuthByUuid`, `lookupAgentAuthSnapshot`, `removeClient`,
  `updateClientMeta`).

  Four storage keys decide whether a token is accepted: the high-water mark of a node with its
  `complete` flag, its control row, its pointer to a token hash, and the snapshot under that hash.

  1. **Program** — a request runs in SEGMENTS.  Inside a segment it awaits storage alone, so the
     input gate keeps every other request out; a segment is a `Prog` of `Lib.Crash` over the storage
     and can be cut off after any of its writes.  Between two segments the request awaits a body to
     be read, and anything else can run: except the control writes of the same node, which
     `runClientControlWrite` queues behind it.

  2. **History** — `cred` and `revoked` are not read by the program: the last versioned change of
     the credentials of a node, and whether a removal has touched them since.
-/
import CfMonitor.Lib.Crash
import CfMonitor.Live.AdminSnapshot
import Mathlib.Logic.Function.Basic

namespace CfMonitor.Live

open CfMonitor.Lib

/-! ## Storage -/

/-- The control row of a node. -/
structure AgentAuthControl where
  tokenHash : Option String
  rotatedAt : Int
  revision : Option Nat
  removed : Bool

/-- A normalised agent record: what decides about credentials, and the whole object. -/
structure AgentAuthSnapshot where
  uuid : String
  tokenHash : String
  tokenRotatedAt : String
  createdAt : String
  updatedAt : String
  payload : Fields

/-- The keys that synchronisation uses, and the history of the credentials. -/
structure SyncStore where
  syncRevision : String → Option (Nat × Bool)
  control : String → Option AgentAuthControl
  pointer : String → Option String
  auth : String → Option AgentAuthSnapshot
  admin : Option AdminClientsSnapshot
  cred : String → Option (Nat × Option String)
  revoked : String → Bool

/-- What `storeAgentAuthSnapshot` decides. -/
inductive StoreVerdict where
  | superseded
  | newer
  | save
  deriving DecidableEq

/-- Where a synchronisation awaits a body: in `removeClient` or in `updateClientMeta`. -/
inductive SyncAwait where
  | removing (client : Option AgentAuthSnapshot)
  | describing (client : AgentAuthSnapshot)

/-- How a segment of a synchronisation ends. -/
inductive SyncOutcome where
  | waits (next : SyncAwait)
  | answered (applied : Bool)

/-- What synchronisation uses from elsewhere: `Date.parse`, and the rules of the management
    snapshot. -/
structure SyncRules extends Rules where
  dateParse : String → Option Int

namespace SyncRules

variable (rules : SyncRules)

/-- `Date.parse(client.token_rotated_at || client.created_at || '') || 0`. -/
def rotatedAt (client : AgentAuthSnapshot) : Int :=
  (rules.dateParse (if client.tokenRotatedAt.isEmpty then client.createdAt
    else client.tokenRotatedAt)).getD 0

/-- `Date.parse(client.updated_at || '') || 0`. -/
def updatedAt (client : AgentAuthSnapshot) : Int := (rules.dateParse client.updatedAt).getD 0

/-! ## Credentials -/

/-- The decision on an unversioned record. -/
def unversionedVerdict (s : SyncStore) (client : AgentAuthSnapshot) : StoreVerdict :=
  let control := s.control client.uuid
  let previousHash := s.pointer client.uuid
  let previous := previousHash.bind s.auth
  let oldRotatedAt := match control with
    | some c => c.rotatedAt
    | none => (previous.map rules.rotatedAt).getD 0
  if (control.map AgentAuthControl.removed).getD false then .superseded
  else if (control.bind AgentAuthControl.revision).isSome ∧
      control.bind AgentAuthControl.tokenHash ≠ some client.tokenHash then .superseded
  else if previousHash.isSome ∧ previousHash ≠ some client.tokenHash ∧
      rules.rotatedAt client ≤ oldRotatedAt then .superseded
  else if previousHash = some client.tokenHash ∧
      ((previous.map fun p => decide (rules.updatedAt client < rules.updatedAt p)).getD false) then
    .newer
  else .save

/-- The decision on a versioned record. -/
def versionedVerdict (s : SyncStore) (client : AgentAuthSnapshot) (revision : Nat) : StoreVerdict :=
  match (s.control client.uuid).bind AgentAuthControl.revision with
  | some old => if revision < old then .superseded else .save
  | none => .save

/-- The one commit of `storeAgentAuthSnapshot`: the old record goes, the new one, the pointer and
    the control row come. -/
def saveCredentials (client : AgentAuthSnapshot) (revision : Option Nat) (s : SyncStore) :
    SyncStore :=
  let auth := match s.pointer client.uuid with
    | some hash => if hash = client.tokenHash then s.auth else Function.update s.auth hash none
    | none => s.auth
  { s with
    auth := Function.update auth client.tokenHash (some client)
    pointer := Function.update s.pointer client.uuid (some client.tokenHash)
    control := Function.update s.control client.uuid (some {
      tokenHash := some client.tokenHash
      rotatedAt := rules.rotatedAt client
      revision := revision.or ((s.control client.uuid).bind AgentAuthControl.revision)
      removed := false }) }

/-- The one commit of `removeAgentAuthByUuid`. -/
def removeAgentAuthByUuid (uuid : String) (now : Int) (s : SyncStore) : SyncStore :=
  { s with
    auth := match s.pointer uuid with
      | some hash => Function.update s.auth hash none
      | none => s.auth
    pointer := Function.update s.pointer uuid none
    control := Function.update s.control uuid (some {
      tokenHash := none
      rotatedAt := match (s.control uuid).map AgentAuthControl.rotatedAt with
        | some at_ => if at_ = 0 then now else at_
        | none => now
      revision := (s.control uuid).bind AgentAuthControl.revision
      removed := true }) }

section Fields

variable (client : AgentAuthSnapshot) (revision : Option Nat) (s : SyncStore) (uuid : String) (now : Int)

@[simp] theorem saveCredentials_pointer (v : String) : (rules.saveCredentials client revision s).pointer v
      = if v = client.uuid then some client.tokenHash else s.pointer v := Function.update_apply ..

@[simp] theorem saveCredentials_control (v : String) : (rules.saveCredentials client revision s).control v
      = if v = client.uuid then some ⟨some client.tokenHash, rules.rotatedAt client,
          revision.or ((s.control client.uuid).bind AgentAuthControl.revision), false⟩
        else s.control v := Function.update_apply ..

@[simp] theorem saveCredentials_auth (h : String) : (rules.saveCredentials client revision s).auth h
      = if h = client.tokenHash then some client
        else if s.pointer client.uuid = some h then none else s.auth h := by
  simp only [saveCredentials, Function.update_apply]
  by_cases hnew : h = client.tokenHash
  · rw [if_pos hnew, if_pos hnew]
  · rw [if_neg hnew, if_neg hnew]
    cases s.pointer client.uuid with
    | none => simp
    | some old =>
      by_cases hsame : old = client.tokenHash
      · have hne : ¬ client.tokenHash = h := fun h' => hnew h'.symm
        simp [hsame, hne]
      · by_cases hold : h = old
        · simp [hsame, hold]
        · have hold' : ¬ old = h := fun h' => hold h'.symm
          simp [hsame, hold, hold']

@[simp] theorem removeAgentAuthByUuid_pointer (v : String) :
    (removeAgentAuthByUuid uuid now s).pointer v = if v = uuid then none else s.pointer v :=
  Function.update_apply ..

@[simp] theorem removeAgentAuthByUuid_auth (h : String) : (removeAgentAuthByUuid uuid now s).auth h
      = if s.pointer uuid = some h then none else s.auth h := by
  rw [removeAgentAuthByUuid]
  cases s.pointer uuid with
  | none => simp
  | some old =>
    by_cases hold : h = old
    · simp [hold]
    · have hold' : ¬ old = h := fun h' => hold h'.symm
      simp [hold, hold']

theorem removeAgentAuthByUuid_control_ne {v : String} (hne : v ≠ uuid) :
    (removeAgentAuthByUuid uuid now s).control v = s.control v := Function.update_of_ne hne _ _

theorem removeAgentAuthByUuid_control_self :
    ∃ c, (removeAgentAuthByUuid uuid now s).control uuid = some c ∧ c.removed = true ∧
      c.revision = (s.control uuid).bind AgentAuthControl.revision :=
  ⟨_, Function.update_self .., rfl, rfl⟩

end Fields

/-- `lookupAgentAuthSnapshot`. -/
def lookupAgentAuthSnapshot (s : SyncStore) (tokenHash : String) : Option AgentAuthSnapshot :=
  match s.auth tokenHash with
  | none => none
  | some client =>
    let control := s.control client.uuid
    if s.pointer client.uuid = some tokenHash ∧ (control.map AgentAuthControl.removed).getD false = false
      ∧ (control.isNone ∨ control.bind AgentAuthControl.tokenHash = some tokenHash) then some client
    else none

/-! ## Segments -/

/-- Write the high-water mark. -/
def putRevision (uuid : String) (revision : Nat) (complete : Bool) (s : SyncStore) : SyncStore :=
  { s with syncRevision := Function.update s.syncRevision uuid (some (revision, complete)) }

/-- Remember the versioned change of the credentials. -/
def remember (uuid : String) (revision : Nat) (change : Option String) (s : SyncStore) : SyncStore :=
  { s with
    cred := Function.update s.cred uuid (some (revision, change))
    revoked := Function.update s.revoked uuid false }

/-- Remember that a removal has touched the credentials of a node. -/
def touch (uuid : String) (s : SyncStore) : SyncStore :=
  { s with revoked := Function.update s.revoked uuid true }

/-- `upsertAdminClientSnapshot` of a synchronised record, by an administrator. -/
def upsertAdmin (client : AgentAuthSnapshot) (now : Int) (s : SyncStore) : SyncStore :=
  match (rules.upsertAdminClientSnapshot s.admin client.payload false none now).2 with
  | none => s
  | some snapshot => { s with admin := some snapshot }

/-- `removeAdminClientSnapshot`. -/
def removeAdmin (uuid : String) (now : Int) (s : SyncStore) : SyncStore :=
  { s with admin := some (Rules.removeAdminClientSnapshot s.admin uuid now) }

/-- The versioned save, and then the body of `updateClientMeta`. -/
def storeVersioned (uuid : String) (revision : Nat) (client : AgentAuthSnapshot) :
    Prog SyncStore Refusal SyncOutcome := fun s =>
  match versionedVerdict s client revision with
  | .save =>
    (do
      Prog.modify fun s =>
        remember uuid revision (some client.tokenHash) (rules.saveCredentials client (some revision) s)
      pure (.waits (.describing client)) : Prog SyncStore Refusal SyncOutcome) s
  | _ => (Prog.fail ⟨409, "Newer credentials already applied"⟩ : Prog SyncStore Refusal SyncOutcome) s

/-- What follows the high-water mark: up to the body of `removeClient`, when the node or its old
    token has to go, or of `updateClientMeta`. -/
def applyChange (uuid : String) (revision : Nat) (change : Option AgentAuthSnapshot) :
    Prog SyncStore Refusal SyncOutcome := fun s =>
  match change with
  | none => (pure (.waits (.removing none)) : Prog SyncStore Refusal SyncOutcome) s
  | some client =>
    if (s.pointer uuid).isSome ∧ s.pointer uuid ≠ some client.tokenHash then
      (pure (.waits (.removing (some client))) : Prog SyncStore Refusal SyncOutcome) s
    else rules.storeVersioned uuid revision client s

/-- Whether the stored mark answers a synchronisation without effect. -/
def alreadyApplied (s : SyncStore) (uuid : String) (revision : Nat) : Bool :=
  match s.syncRevision uuid with
  | none => false
  | some (stored, complete) => decide (revision < stored) || (decide (stored = revision) && complete)

/-- The first segment of `applyClientSynchronization`. -/
def applyClientSynchronization (uuid : String) (revision : Nat)
    (change : Option AgentAuthSnapshot) : Prog SyncStore Refusal SyncOutcome := fun s =>
  if alreadyApplied s uuid revision then
    (pure (.answered false) : Prog SyncStore Refusal SyncOutcome) s
  else
    (do
      Prog.modify (putRevision uuid revision false)
      rules.applyChange uuid revision change : Prog SyncStore Refusal SyncOutcome) s

/-- The end of `applyClientSynchronization`. -/
def finish (uuid : String) (revision : Nat) : Prog SyncStore Refusal SyncOutcome := do
  Prog.modify (putRevision uuid revision true)
  pure (.answered true)

/-- The segments after a body was read.  `fits` says whether the body of `updateClientMeta` is
    within the limit of a request; if not, that call changes nothing. -/
def resume (uuid : String) (revision : Nat) (now : Int) (fits : Bool) :
    SyncAwait → Prog SyncStore Refusal SyncOutcome
  | .removing none => do
    Prog.modify fun s => remember uuid revision none (removeAgentAuthByUuid uuid now s)
    Prog.modify (removeAdmin uuid now)
    finish uuid revision
  | .removing (some client) => do
    Prog.modify (removeAgentAuthByUuid uuid now)
    rules.storeVersioned uuid revision client
  | .describing client => do
    Prog.modify (if fits then rules.upsertAdmin client now else id)
    finish uuid revision

end SyncRules

/-! ## The object as a machine -/

/-- A synchronisation that awaits a body. -/
structure SyncCall where
  revision : Nat
  next : SyncAwait

/-- The storage, the synchronisation in progress for each node, and the answers `applied: true` that
    were given (a node, a revision, the token hash of the change). -/
structure SyncWorld where
  store : SyncStore
  running : String → Option SyncCall
  answers : List (String × Nat × Option String)

/-- What happens next.  `cut` cuts a request off after so many of its writes. -/
inductive SyncEvent where
  | sync (uuid : String) (revision : Nat) (change : Option AgentAuthSnapshot) (cut : Option Nat)
  | resume (uuid : String) (now : Int) (fits : Bool) (cut : Option Nat)
  | upsert (client : AgentAuthSnapshot)
  | removeAuth (uuid tokenHash : String) (now : Int) (cut : Bool)
  | removeClient (uuid : String) (keepMetadata : Bool) (now : Int) (cut : Bool)
  | restart

/-- The token hash of a change. -/
def changeHash (change : Option AgentAuthSnapshot) : Option String :=
  change.map AgentAuthSnapshot.tokenHash

/-- The token hash of the change that an awaiting synchronisation is about. -/
def SyncAwait.hash : SyncAwait → Option String
  | .removing client => changeHash client
  | .describing client => some client.tokenHash

/-- Take a segment of a synchronisation of `uuid`, whole or cut off. -/
def SyncWorld.segment (w : SyncWorld) (uuid : String) (revision : Nat) (hash : Option String)
    (segment : Prog SyncStore Refusal SyncOutcome) (cut : Option Nat) : SyncWorld :=
  let run := segment w.store
  match cut with
  | some n => { w with
      store := (run.seen.take n).getLast?.getD w.store
      running := Function.update w.running uuid none }
  | none => match run.result with
    | .ok (.waits next) => { w with
        store := run.last, running := Function.update w.running uuid (some ⟨revision, next⟩) }
    | .ok (.answered true) => { w with
        store := run.last, running := Function.update w.running uuid none
        answers := (uuid, revision, hash) :: w.answers }
    | _ => { w with store := run.last, running := Function.update w.running uuid none }

/-- `removeAgentAuthSnapshot`: first the record of the hash, then the credentials of the node. -/
def removeAgentAuthSnapshot (owner : String → String) (uuid tokenHash : String) (now : Int)
    (cut : Bool) (s : SyncStore) : SyncStore :=
  let s := if tokenHash = "" then s
    else SyncRules.touch (owner tokenHash) { s with auth := Function.update s.auth tokenHash none }
  if uuid = "" ∨ cut then s
  else SyncRules.touch uuid (SyncRules.removeAgentAuthByUuid uuid now s)

/-- `removeClient` of a request of its own. -/
def removeClientRequest (uuid : String) (keepMetadata : Bool) (now : Int) (cut : Bool)
    (s : SyncStore) : SyncStore :=
  let s := SyncRules.touch uuid (SyncRules.removeAgentAuthByUuid uuid now s)
  if keepMetadata ∨ cut then s else SyncRules.removeAdmin uuid now s

/-- One step.  `owner` only serves the history: it says whose a token hash is. -/
def syncStep (rules : SyncRules) (owner : String → String) (w : SyncWorld) :
    SyncEvent → Option SyncWorld
  | .sync uuid revision change cut =>
    -- a request for another uuid than that of its record, or with revision 0, is invalid
    if (w.running uuid).isSome ∨ revision = 0 ∨ uuid = "" ∨
        (change.any fun client => client.uuid != uuid) = true then none
    else some (w.segment uuid revision (changeHash change)
      (rules.applyClientSynchronization uuid revision change) cut)
  | .resume uuid now fits cut =>
    match w.running uuid with
    | none => none
    | some call => some (w.segment uuid call.revision call.next.hash
        (rules.resume uuid call.revision now fits call.next) cut)
  | .upsert client =>
    if (w.running client.uuid).isSome then none
    else match rules.unversionedVerdict w.store client with
      | .save => some { w with store := rules.saveCredentials client none w.store }
      | _ => some w
  | .removeAuth uuid tokenHash now cut =>
    some { w with store := removeAgentAuthSnapshot owner uuid tokenHash now cut w.store }
  | .removeClient uuid keepMetadata now cut =>
    some { w with store := removeClientRequest uuid keepMetadata now cut w.store }
  | .restart => some { w with running := fun _ => none }

/-- The object as a machine. -/
def syncMachine (rules : SyncRules) (owner : String → String) : Machine SyncWorld SyncEvent :=
  ⟨syncStep rules owner⟩

/-- An object with empty storage. -/
def SyncWorld.start : SyncWorld :=
  ⟨⟨fun _ => none, fun _ => none, fun _ => none, fun _ => none, none, fun _ => none, fun _ => false⟩,
    fun _ => none, []⟩

end CfMonitor.Live
