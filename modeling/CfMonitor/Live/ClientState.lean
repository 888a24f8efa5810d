/-
  The live state of a node, and the administrator's control over its name and visibility
  (`controlledClientState`, `resolveReportClientControl`).
-/
import CfMonitor.Live.AdminSnapshot

namespace CfMonitor.Live

open CfMonitor.Lib

/-- How a report arrived. -/
inductive Transport where
  | http
  | ws
  deriving DecidableEq

/-- What the object holds of a node: its last report, when that was received, and when the node
    counts as offline without another one. -/
structure ClientState where
  uuid : String
  name : String
  hidden : Bool
  lastReportTime : Int
  lastReport : Fields
  expiresAt : Option Int
  transport : Option Transport

/-- `!expiresAt || expiresAt > now`. -/
def unexpired (expiresAt : Option Int) (now : Int) : Bool :=
  match expiresAt with
  | none => true
  | some at_ => at_ == 0 || decide (now < at_)

/-- Whether a node counts as online. -/
def ClientState.isOnline (client : ClientState) (now : Int) : Bool := unexpired client.expiresAt now

/-- `booleanField`: a flag that may be written as a boolean, a number or a text. -/
def booleanField (source : Fields) (key : String) : Bool :=
  match Assoc.get? source key with
  | some (.bool b) => b
  | some (.num (.finite x)) => decide (x ≠ 0)
  | some (.num (.infinite _)) => true
  | some (.str s) => (trim s).toLower == "true" || (trim s).toLower == "1"
  | _ => false

/-- What the object remembers of the management snapshot. -/
structure Controls where
  adminClientsSnapshot : Option AdminClientsSnapshot
  adminClientMetadata : List (String × ClientRow)
  adminClientsUpdatedAt : Option Int

/-- `rememberAdminClientsSnapshot`. -/
def Controls.remember (snapshot : AdminClientsSnapshot) : Controls :=
  ⟨some snapshot, Rules.byUuid snapshot.clients, some snapshot.updatedAt⟩

/-- What `readAdminClientsSnapshot` leaves behind when nothing is stored. -/
def Controls.absent : Controls := ⟨none, [], some 0⟩

/-- Remember what a read of the snapshot found. -/
def Controls.ofRead (read : Option AdminClientsSnapshot) : Controls :=
  match Rules.readAdminClientsSnapshot read with
  | none => Controls.absent
  | some snapshot => Controls.remember snapshot

/-- A text field of a control row, or what was there. -/
def ClientRow.nameOr (row : ClientRow) (name : String) : String :=
  (Json.str? (Assoc.get? row.fields "name")).getD name

/-- Whether a snapshot disowns a node: it has a tombstone, or no row in a complete list. -/
def AdminClientsSnapshot.disowns (snapshot : AdminClientsSnapshot) (uuid : String)
    (metadata : Option ClientRow) : Bool :=
  snapshot.removed.contains uuid || (snapshot.complete && metadata.isNone)

/-- `controlledClientState`: the state under its control row; none for a node that was removed. -/
def Controls.controlledClientState (controls : Controls) (client : ClientState) :
    Option ClientState :=
  let metadata := Assoc.get? controls.adminClientMetadata client.uuid
  if controls.adminClientsSnapshot.any fun s => s.disowns client.uuid metadata then none
  else match metadata with
    | some row => some { client with
        name := row.nameOr client.name, hidden := booleanField row.fields "hidden" }
    | none => some client

/-- `resolveReportClientControl`, when it has read `snapshot` and the node is `current`: none when
    it throws. -/
def resolveReportClientControl (snapshot : Option AdminClientsSnapshot)
    (current : Option ClientState) (clientId name : String) (hidden : Bool) :
    Option (String × Bool) :=
  let metadata := snapshot.bind fun s => s.clients.find? fun row => row.uuid == clientId
  if snapshot.any fun s => s.disowns clientId metadata then none
  else match metadata with
    | some row => some (row.nameOr name, booleanField row.fields "hidden")
    | none => some ((current.map fun c => (c.name, c.hidden)).getD (name, hidden))

end CfMonitor.Live
