/-
  What the live-data object sends to viewers (`broadcastToViewers`, `broadcastOfflineClient`,
  `broadcastMetadataChanged`, and the requests that use them).

  1. **Messages** — a `Broadcast` is what a request hands over, a `ViewerMessage` what arrives at one
     audience.  Reports and metadata are projected in between.

  2. **Program** — requests run in segments.  A report awaits its storage, an inferred region awaits a
     lookup, a patch of an agent awaits the database, a synchronisation awaits a body (`ClientSync`):
     what they have captured by then is in a `ViewerTask`, and anything else may run first.  The clock
     is read once in a segment.

  3. **History** — `sent` is not read by the program: every delivery, with the management snapshot that
     was stored at that moment.
-/
import CfMonitor.Live.PublicSnapshot
import CfMonitor.Live.SyncedControls

namespace CfMonitor.Live

open CfMonitor.Lib

/-! ## Metadata -/

def PUBLIC_CLIENT_FIELDS : List String := [
  "uuid", "name", "cpu_name", "virtualization", "arch", "cpu_cores", "os",
  "kernel_version", "gpu_name", "region", "public_remark", "mem_total", "swap_total",
  "disk_total", "version", "price", "billing_cycle", "auto_renewal", "currency",
  "expired_at", "group", "tags", "hidden", "traffic_limit", "traffic_limit_type",
  "traffic_reset_day", "sort_order", "created_at", "updated_at"]

/-- The fields that an agent may describe. -/
def agentClientFields : List String := [
  "cpu_name", "virtualization", "arch", "cpu_cores", "os", "kernel_version",
  "gpu_name", "ipv4", "ipv6", "region", "mem_total", "swap_total", "disk_total", "version"]

/-- `value === null || ['string', 'number', 'boolean'].includes(typeof value)`. -/
def isScalar : Json → Bool
  | .null | .bool _ | .num _ | .str _ => true
  | .arr _ | .obj _ => false

/-- The scalar values of some fields. -/
def pickScalars (fields : List String) (client : Fields) : Fields :=
  fields.filterMap fun field => ((Assoc.get? client field).filter isScalar).map fun value => (field, value)

def projectAgentClientMetadata (client : Fields) : Fields := pickScalars agentClientFields client

/-- `tag.replace(/<\w+>$/, '')`. -/
def withoutColour (tag : String) : String :=
  match tag.toList.reverse with
  | '>' :: rest =>
    match rest.span fun c => c.isAlphanum || c == '_' with
    | (_ :: _, '<' :: before) => String.ofList before.reverse
    | _ => tag
  | _ => tag

def isPublicTag (tag : String) : Bool :=
  !(["ipv4", "ipv6", "ip4", "ip6", "v4", "v6"].contains (trim (withoutColour tag)).toLower)

def sanitizePublicTags (tags : Option Json) : String :=
  match tags with
  | some (.str text) =>
    let parts := (text.toList.splitOnP fun c => c == ';' || c == ',').map fun part => trim (String.ofList part)
    ";".intercalate ((parts.filter fun tag => decide (tag ≠ "")).filter isPublicTag)
  | _ => ""

def projectClientMetadata (rules : Rules) (client : Fields) (administrator : Bool) : Fields :=
  let fields := if administrator then PUBLIC_CLIENT_FIELDS ++ ["ipv4", "ipv6", "remark"]
    else PUBLIC_CLIENT_FIELDS
  let tagged (result : Fields) : Fields :=
    if (Assoc.get? client "tags").isSome then
      Assoc.set result "tags" (.str (sanitizePublicTags (Assoc.get? client "tags")))
    else result
  let flagged (field flag : String) (result : Fields) : Fields :=
    if (Assoc.get? client field).isSome then Assoc.set result flag (.bool (rules.hasAddress field client))
    else match Assoc.get? client flag with
      | some (.bool b) => Assoc.set result flag (.bool b)
      | _ => result
  flagged "ipv6" "has_ipv6" (flagged "ipv4" "has_ipv4" (tagged (pickScalars fields client)))

/-- A row as an object. -/
def ClientRow.object (row : ClientRow) : Fields := ("uuid", .str row.uuid) :: row.fields

/-! ## Regions -/

def isUnknownRegionValue (region : String) : Bool :=
  ["unknown", "未知", "n/a", "null"].contains (trim region).toLower

def isCountryCodeRegion (region : String) : Bool :=
  (trim region).length == 2 && (trim region).toList.all Char.isAlpha

def isDetailedRegion (region : String) : Bool :=
  decide (trim region ≠ "") && !isUnknownRegionValue (trim region) && !isCountryCodeRegion (trim region)

def isUsefulRegion (region : String) : Bool :=
  decide (trim region ≠ "") && !isUnknownRegionValue (trim region)

/-! ## Messages -/

inductive Audience where
  | all
  | publicOnly
  | adminOnly
  deriving DecidableEq

/-- What changed, as a request says it. -/
structure MetadataDetail where
  clients : Option Json
  rest : Fields

/-- What a request hands over.  A metadata message is handed over once for each target. -/
inductive Broadcast where
  | update (client name : String) (report : Fields) (timestamp : Int)
  | remove (client : String) (timestamp : Int)
  | offline (current : ClientState) (timestamp : Int)
  | metadataChanged (administrator : Bool) (detail : MetadataDetail) (timestamp : Int)

/-- The clients of a metadata message. -/
inductive MetadataClients where
  | patch (upsert : Option (List Fields)) (remove : List String)
  | other (value : Json)

/-- What a viewer gets. -/
inductive ViewerMessage where
  | update (client name : String) (data : Fields) (timestamp : Int)
  | remove (client : String) (timestamp : Int)
  | offline (client : String) (timestamp : Int) (lastKnown : Option LiveSnapshotClient)
  | metadataChanged (clients : Option MetadataClients) (rest : Fields) (timestamp : Int)

/-- `Boolean(client.hidden)`. -/
def isMarkedHidden (client : Fields) : Bool := Json.truthy (Assoc.get? client "hidden")

/-- The clients of a metadata message for one target. -/
def projectClients (rules : Rules) (clients : Option Json) (administrator : Bool) :
    Option MetadataClients :=
  match clients with
  | none => none
  | some (.obj patch) =>
    let upserts := Rules.objects ((Json.arr? (Assoc.get? patch "upsert")).getD [])
    let removed := ((Json.arr? (Assoc.get? patch "remove")).getD []).filterMap fun uuid => Json.str? (some uuid)
    let hidden := if administrator then [] else
      (upserts.filter isMarkedHidden).filterMap fun client => Json.str? (Assoc.get? client "uuid")
    let shown := upserts.filter fun client => administrator || !isMarkedHidden client
    some (.patch
      ((Json.arr? (Assoc.get? patch "upsert")).map fun _ =>
        shown.map fun client => projectClientMetadata rules client administrator)
      (removed ++ hidden).eraseDups)
  | some value => some (.other value)

/-- What a viewer gets of a broadcast. -/
def Broadcast.payload (rules : Rules) (m : LiveMemory) (includeHidden : Bool) : Broadcast → ViewerMessage
  | .update client name report timestamp =>
    .update client name (m.projectViewerReport client report includeHidden) timestamp
  | .remove client timestamp => .remove client timestamp
  | .offline current timestamp =>
    .offline current.uuid timestamp (m.projectSnapshotClient current true true)
  | .metadataChanged administrator detail timestamp =>
    .metadataChanged (projectClients rules detail.clients administrator) detail.rest timestamp

/-! ## The object -/

/-- A connected socket. -/
structure Session where
  id : String
  viewer : Bool
  isOpen : Bool
  includeHidden : Bool

/-- A delivery to a viewer. -/
structure Sent where
  session : Session
  snapshot : Option AdminClientsSnapshot
  broadcast : Broadcast
  message : ViewerMessage

/-- What a request has captured when it awaits: the storage of a report, the region of an address,
    the database. -/
inductive ViewerTask where
  | settling (next : ClientState) (ws : Bool)
  | inferring (clientId : String) (patch : Fields) (now : Int)
  | writing (clientId : String) (patch : Fields)

structure ViewerWorld where
  object : SyncWorld
  memory : LiveMemory
  sessions : List Session
  tasks : List ViewerTask
  sent : List Sent

/-- What the requests use from elsewhere: the compact form of a retained report. -/
structure ViewerRules extends PolicyRules where
  compactLiveReport : Fields → Fields

namespace ViewerWorld

variable (rules : ViewerRules) (w : ViewerWorld)

/-- The stored management snapshot. -/
def admin : Option AdminClientsSnapshot := w.object.store.admin

/-- `readAdminClientsSnapshot` and `rememberAdminClientsSnapshot`. -/
def remember : ViewerWorld :=
  { w with memory := { w.memory with controls := Controls.ofRead w.object.store.admin } }

/-- `storeAdminClientsSnapshot`. -/
def storeAdmin (snapshot : AdminClientsSnapshot) : ViewerWorld :=
  remember { w with object := { w.object with store := { w.object.store with admin := some snapshot } } }

def setClient (uuid : String) (client : ClientState) : ViewerWorld :=
  { w with memory := { w.memory with clients := Assoc.set w.memory.clients uuid client } }

/-- The last known state of a node, with its report in the compact form. -/
def setLastKnown (uuid : String) (client : ClientState) : ViewerWorld :=
  let retained := { client with lastReport := rules.compactLiveReport client.lastReport }
  { w with memory := { w.memory with
    lastKnownClients := Assoc.set w.memory.lastKnownClients uuid retained } }

def deleteClient (uuid : String) : ViewerWorld :=
  { w with memory := { w.memory with clients := Assoc.erase w.memory.clients uuid } }

def deleteLastKnown (uuid : String) : ViewerWorld :=
  { w with memory := { w.memory with lastKnownClients := Assoc.erase w.memory.lastKnownClients uuid } }

def addTask (task : ViewerTask) : ViewerWorld := { w with tasks := w.tasks ++ [task] }

/-! ## Broadcasts -/

/-- Whether a message for an audience goes to a session. -/
def reaches (audience : Audience) (s : Session) : Bool :=
  s.viewer && s.isOpen && !(audience == .adminOnly && !s.includeHidden) &&
    !(audience == .publicOnly && s.includeHidden)

def broadcastToViewers (b : Broadcast) (audience : Audience) : ViewerWorld :=
  { w with sent := w.sent ++ (w.sessions.filter (reaches audience)).map fun s =>
      ⟨s, w.object.store.admin, b, b.payload rules.toRules w.memory s.includeHidden⟩ }

def broadcastOfflineClient (client : ClientState) (now : Int) : ViewerWorld :=
  match w.memory.controls.controlledClientState client with
  | none => w
  | some current =>
    w.broadcastToViewers rules (.offline current now) (if current.hidden then .adminOnly else .all)

def broadcastMetadataChanged (detail : MetadataDetail) (audience : Audience) (now : Int) : ViewerWorld :=
  let w := if audience = .adminOnly then w
    else w.broadcastToViewers rules (.metadataChanged false detail now) .publicOnly
  if audience = .publicOnly then w
  else w.broadcastToViewers rules (.metadataChanged true detail now) .adminOnly

/-- A message about changed nodes alone. -/
def upsertDetail (clients : List Fields) : MetadataDetail :=
  ⟨some (.obj [("upsert", .arr (clients.map .obj))]), []⟩

/-! ## Reports -/

/-- The state of a node that a report falls back on. -/
def known (uuid : String) : Option ClientState :=
  (Assoc.get? w.memory.clients uuid).or (Assoc.get? w.memory.lastKnownClients uuid)

/-- `resolveReportClientControl`; none when it throws. -/
def resolve (clientId name : String) (hidden : Bool) : Option (String × Bool) :=
  resolveReportClientControl (Rules.readAdminClientsSnapshot w.object.store.admin) (w.known clientId)
    clientId name hidden

/-- A text of a report that is a public address. -/
def publicAddress (report : Fields) (field : String) : Fields :=
  match Json.str? (Assoc.get? report field) with
  | some text => if rules.isPublicIpAddress text then [(field, .str (trim text))] else []
  | none => []

/-- A text of a report that is a useful region. -/
def usefulRegion (report : Fields) : Fields :=
  match Json.str? (Assoc.get? report "region") with
  | some text => if isUsefulRegion text then [("region", .str (trim text))] else []
  | none => []

/-- The patch of `syncNetworkMetadataFromReport`, before a region is inferred. -/
def networkPatch (report : Fields) : Fields :=
  publicAddress rules report "ipv4" ++ publicAddress rules report "ipv6" ++ usefulRegion report

/-- The end of `updateClientReport`: the report is stored under the control of the moment. -/
def finishReport (next : ClientState) (online : Bool) (now : Int) : ViewerWorld :=
  let w := w.setLastKnown rules next.uuid next
  let w := if online then
      (w.setClient next.uuid next).broadcastToViewers rules
        (.update next.uuid next.name next.lastReport next.lastReportTime)
        (if next.hidden then .adminOnly else .all)
    else w.broadcastOfflineClient rules next now
  w.addTask (.inferring next.uuid (networkPatch rules next.lastReport) next.lastReportTime)

/-- One turn of the loop of `updateClientReport`, after the state was stored. -/
def settle (next : ClientState) (ws online : Bool) (now : Int) : ViewerWorld :=
  let w := w.remember
  match w.resolve next.uuid next.name next.hidden with
  | none => w
  | some (name, hidden) =>
    if name = next.name ∧ hidden = next.hidden then w.finishReport rules next (!ws || online) now
    else w.addTask (.settling { next with name, hidden } ws)

/-- The patch with the region that was inferred for its address, if that says more. -/
def withRegion (patch : Fields) (inferred : String) : Fields :=
  let region := stringField patch "region"
  if isDetailedRegion region = false ∧ inferred ≠ "" ∧ (region = "" ∨ isDetailedRegion inferred) then
    Assoc.set patch "region" (.str inferred)
  else patch

/-- A text of a patch written into a report, if it says something new. -/
def patchedReport (field text : String) (report : Fields) : Fields :=
  if text ≠ "" ∧ Json.str? (Assoc.get? report field) ≠ some text then Assoc.set report field (.str text)
  else report

/-- Whether `patchedReport` changes something. -/
def patches (field text : String) (report : Fields) : Bool :=
  decide (text ≠ "" ∧ Json.str? (Assoc.get? report field) ≠ some text)

/-- A public address, or nothing. -/
def patchAddress (patch : Fields) (field : String) : String :=
  let text := stringField patch field
  if rules.isPublicIpAddress text then trim text else ""

def applyInferredNetworkMetadataToLiveReport (clientId : String) (patch : Fields) (now : Int) :
    ViewerWorld :=
  match (Assoc.get? w.memory.clients clientId).bind w.memory.controls.controlledClientState with
  | none => w
  | some current =>
    if (current.expiresAt.any fun at_ => decide (at_ ≤ now)) then w
    else
      let ipv4 := patchAddress rules patch "ipv4"
      let ipv6 := patchAddress rules patch "ipv6"
      let region := if isUsefulRegion (stringField patch "region") then trim (stringField patch "region") else ""
      if !(patches "ipv4" ipv4 current.lastReport || patches "ipv6" ipv6 current.lastReport ||
          patches "region" region current.lastReport) then w
      else
        let report := patchedReport "region" region (patchedReport "ipv6" ipv6
          (patchedReport "ipv4" ipv4 current.lastReport))
        let next := { current with lastReport := report }
        let w := (w.setClient clientId next).setLastKnown rules clientId next
        if (!next.hidden && next.isOnline now) || next.hidden then
          w.broadcastToViewers rules (.update clientId current.name report now)
            (if next.hidden then .adminOnly else .all)
        else w

/-! ## Metadata of agents -/

/-- `upsertAdminClientSnapshot` of an agent, and the message about what it returns. -/
def upsertFromAgent (uuid : String) (patch : Fields) (now : Int) : ViewerWorld :=
  let w := w.remember
  let client := Assoc.merge [("uuid", .str uuid)] patch
  let live := (Assoc.get? w.memory.clients (Rules.payloadUuid client)).map fun c =>
    (⟨c.name, c.hidden⟩ : LiveName)
  let result := rules.upsertAdminClientSnapshot w.object.store.admin client true live now
  let w := match result.2 with
    | some snapshot => w.storeAdmin snapshot
    | none => w
  match result.1 with
  | some row => w.broadcastMetadataChanged rules (upsertDetail [row.object]) .all now
  | none => w

/-- `value === null || value === 0`. -/
def isZeroOrNull : Option Json → Bool
  | some .null => true
  | some (.num (.finite x)) => decide (x = 0)
  | _ => false

/-- The texts and numbers of `basic_info` that `syncBasicInfoFromReport` takes over. -/
def basicInfoPatch (basicInfo : Fields) : Fields :=
  let text (field : String) : Fields := match Json.str? (Assoc.get? basicInfo field) with
    | some value =>
      if trim value = "" then []
      else if (field = "ipv4" ∨ field = "ipv6") ∧ rules.isPublicIpAddress (trim value) = false then []
      else if field = "region" ∧ isUsefulRegion (trim value) = false then []
      else [(field, .str (trim value))]
    | none => []
  let number (field : String) : Fields :=
    if field = "disk_total" ∧ isZeroOrNull (Assoc.get? basicInfo field) then [(field, .int 0)]
    else match rules.toFinite (Assoc.get? basicInfo field) with
      | some x =>
        if (if field = "swap_total" then 0 ≤ x else 0 < x) then [(field, .num (.finite x))] else []
      | none => []
  ["cpu_name", "virtualization", "arch", "os", "kernel_version", "gpu_name", "ipv4", "ipv6", "region",
    "version"].flatMap text ++ ["cpu_cores", "mem_total", "swap_total", "disk_total"].flatMap number

/-- `updateClientMeta` of a request with the authority of an agent. -/
def updateAgentMeta (message : Fields) (now : Int) : ViewerWorld :=
  match Json.str? (Assoc.get? message "uuid") with
  | none => w
  | some uuid =>
    if trim uuid = "" then w
    else
      let client := ((Assoc.get? message "client").bind Json.obj?).getD message
      w.upsertFromAgent rules uuid (projectAgentClientMetadata client) now

/-! ## Synchronisation and removal -/

/-- A retained state under its new control row, shown to those who may see it. -/
def showRetained (uuid : String) (retained : Option ClientState) (online : Bool) (now : Int) :
    ViewerWorld :=
  match retained.bind w.memory.controls.controlledClientState with
  | none => w
  | some next =>
    let w := w.setLastKnown rules uuid next
    let w := if online then w.setClient uuid next else w
    let update := Broadcast.update uuid next.name next.lastReport next.lastReportTime
    if next.hidden then
      let w := w.broadcastToViewers rules (.remove uuid now) .publicOnly
      if online then w.broadcastToViewers rules update .adminOnly
      else w.broadcastOfflineClient rules next now
    else if online then w.broadcastToViewers rules update .all
    else w.broadcastOfflineClient rules next now

/-- `updateClientMeta` of a synchronised record, once the record is stored. -/
def updateClientMeta (uuid : String) (client : Fields) (hidden : Bool) (now : Int) : ViewerWorld :=
  let cached := Assoc.get? w.memory.clients uuid
  let online := cached.any fun c => c.isOnline now
  let retained := w.known uuid
  let w := if cached.isSome && !online then w.deleteClient uuid else w
  (w.showRetained rules uuid retained online now).broadcastMetadataChanged rules
    (upsertDetail [Assoc.set client "hidden" (.bool hidden)]) .all now

/-- `removeClient`, once the storage is changed. -/
def removeClient (uuid : String) (keepMetadata : Bool) (now : Int) : ViewerWorld :=
  let existing := w.known uuid
  let w := (w.deleteClient uuid).deleteLastKnown uuid
  let w := match existing with
    | none => w
    | some client =>
      w.broadcastToViewers rules (.remove uuid now) (if client.hidden then .adminOnly else .all)
  if keepMetadata then w
  else w.broadcastMetadataChanged rules ⟨some (.obj [("remove", .arr [.str uuid])]), []⟩ .all now

/-- What a synchronisation does to the memory, after the segment that `next` began. -/
def afterSegment (uuid : String) (now : Int) (fits : Bool) (next : SyncAwait) : ViewerWorld :=
  match next with
  | .removing client => w.removeClient rules uuid client.isSome now
  | .describing client =>
    if fits then
      w.updateClientMeta rules uuid client.payload (readBoolean (Assoc.get? client.payload "hidden")) now
    else w

/-! ## Expiry and refresh -/

/-- One turn of the loop of `removeExpiredClients`. -/
def expireClient (now : Int) (w : ViewerWorld) (entry : String × ClientState) : ViewerWorld :=
  if entry.2.isOnline now then w
  else (w.deleteClient entry.1).broadcastOfflineClient rules entry.2 now

def removeExpiredClients (now : Int) : ViewerWorld := w.memory.clients.foldl (expireClient rules now) w

/-- `cleanupSession` of an agent. -/
def cleanupSession (clientId : String) (now : Int) : ViewerWorld :=
  match Assoc.get? w.memory.clients clientId with
  | none => w
  | some existing => (w.deleteClient clientId).broadcastOfflineClient rules existing now

/-- `String(client.uuid)`. -/
def uuidText (client : Fields) : String :=
  match Assoc.get? client "uuid" with
  | some (.str uuid) => uuid
  | some value => rules.toText value
  | none => "undefined"

/-- The clients of a refresh, as the management snapshot has them. -/
def refreshedClients (snapshot : AdminClientsSnapshot) (patch : Fields) : Fields :=
  let current := Rules.byUuid snapshot.clients
  let upsert : Fields := match Json.arr? (Assoc.get? patch "upsert") with
    | some items => [("upsert", .arr ((Rules.objects items).filterMap fun client =>
        if snapshot.removed.contains (uuidText rules client) then none
        else (Assoc.get? current (uuidText rules client)).map fun row => .obj row.object))]
    | none => []
  let remove : Fields := match Json.arr? (Assoc.get? patch "remove") with
    | some items => [("remove", .arr (items.filter fun item => match item with
        | .str uuid => (Assoc.get? current uuid).isNone || snapshot.removed.contains uuid
        | _ => false))]
    | none => []
  upsert ++ remove

/-- The request `/metadata-refresh`. -/
def refreshMetadata (detail : MetadataDetail) (audience : Audience) (now : Int) : ViewerWorld :=
  match detail.clients with
  | some (.obj patch) =>
    let w := w.remember
    match Rules.readAdminClientsSnapshot w.object.store.admin with
    | none => w.broadcastMetadataChanged rules detail audience now
    | some snapshot =>
      w.broadcastMetadataChanged rules ⟨some (.obj (refreshedClients rules snapshot patch)), detail.rest⟩
        audience now
  | _ => w.broadcastMetadataChanged rules detail audience now

/-- `writeAdminClientsSnapshot` and `restoreClients`, once the snapshot is known that they store. -/
def writeAdmin (call : AdminCall) (snapshot : AdminClientsSnapshot) : ViewerWorld :=
  let w := w.storeAdmin snapshot
  match call with
  | .restore _ now =>
    { w with memory := { w.memory with clients := [], lastKnownClients := [] } }.broadcastMetadataChanged
      rules ⟨some (.bool true), []⟩ .all now
  | _ => w

end ViewerWorld

/-! ## The object as a machine -/

/-- What happens next.  `persisted`, `inferred` and `written` resume a task; a report that is no
    longer `current` throws.  A snapshot is written whose uuids are distinct; after a restart the
    states come from sockets and storage. -/
inductive ViewerEvent where
  | report (client : ClientState) (ws : Bool)
  | persisted (i : Nat) (current online : Bool) (now : Int)
  | inferred (i : Nat) (region : String)
  | written (i : Nat) (skipped : Bool) (now : Int)
  | basicInfo (clientId : String) (basicInfo : Fields)
  | agentMeta (message : Fields) (now : Int)
  | sync (change : Change)
  | resumeSync (uuid : String) (now : Int) (fits : Bool)
  | removeClient (uuid : String) (keepMetadata : Bool) (now : Int)
  | expire (now : Int)
  | disconnect (clientId : String) (now : Int)
  | refresh (detail : MetadataDetail) (audience : Audience) (now : Int)
  | write (call : AdminCall)
  | connect (sessions : List Session)
  | restart (clients lastKnown : List (String × ClientState))

section Step

variable (rules : ViewerRules) (owner : String → String)

/-- A report is accepted: the control of its node is resolved, and the state goes to the storage. -/
def beginReport (w : ViewerWorld) (client : ClientState) (ws : Bool) : ViewerWorld :=
  let w := w.remember
  match w.resolve client.uuid client.name client.hidden with
  | none => w
  | some (name, hidden) => w.addTask (.settling { client with name, hidden } ws)

/-- Every state stands under its own uuid. -/
def keyedByUuid (entries : List (String × ClientState)) : Bool := entries.all fun p => p.2.uuid == p.1

/-- A task goes on. -/
def resumeTask (w : ViewerWorld) (i : Nat) (f : ViewerWorld → ViewerTask → Option ViewerWorld) :
    Option ViewerWorld := do
  let task ← w.tasks[i]?
  f { w with tasks := w.tasks.eraseIdx i } task

/-- One step. -/
def viewerStep (w : ViewerWorld) : ViewerEvent → Option ViewerWorld
  | .report client ws => some (beginReport w client ws)
  | .persisted i current online now => resumeTask w i fun w task =>
    match task with
    | .settling next ws => some (if current then w.settle rules next ws online now else w)
    | _ => none
  | .inferred i region => resumeTask w i fun w task =>
    match task with
    | .inferring clientId patch now =>
      let patch := ViewerWorld.withRegion patch region
      if patch.isEmpty then some w
      else some ((w.applyInferredNetworkMetadataToLiveReport rules clientId patch now).addTask
        (.writing clientId patch))
    | _ => none
  | .written i skipped now => resumeTask w i fun w task =>
    match task with
    | .writing clientId patch => some (if skipped then w else w.upsertFromAgent rules clientId patch now)
    | _ => none
  | .basicInfo clientId basicInfo =>
    let patch := ViewerWorld.basicInfoPatch rules basicInfo
    if patch.isEmpty then some w else some (w.addTask (.writing clientId patch))
  | .agentMeta message now => some (w.updateAgentMeta rules message now)
  | .sync change => do
    let (key, record) ← change.request
    let object ← syncStep rules.toSyncRules owner w.object (.sync key change.revision record none)
    some { w with object }
  | .resumeSync uuid now fits => do
    let call ← w.object.running uuid
    let object ← syncStep rules.toSyncRules owner w.object (.resume uuid now fits none)
    some ({ w with object }.remember.afterSegment rules uuid now fits call.next)
  | .removeClient uuid keepMetadata now => do
    let object ← syncStep rules.toSyncRules owner w.object (.removeClient uuid keepMetadata now false)
    some ({ w with object }.remember.removeClient rules uuid keepMetadata now)
  | .expire now => some (w.removeExpiredClients rules now)
  | .disconnect clientId now => some (w.cleanupSession rules clientId now)
  | .refresh detail audience now => some (w.refreshMetadata rules detail audience now)
  | .write call =>
    match rules.storeOf w.object.store.admin call with
    | none => some w.remember
    | some snapshot =>
      if (snapshot.clients.map ClientRow.uuid).Nodup then some (w.writeAdmin rules call snapshot) else none
  | .connect sessions => some { w with sessions }
  | .restart clients lastKnown => do
    let object ← syncStep rules.toSyncRules owner w.object .restart
    if keyedByUuid clients && keyedByUuid lastKnown then
      some { w with
        object, tasks := []
        memory := ⟨clients, lastKnown, Controls.ofRead object.store.admin⟩ }
    else none

def viewerMachine : Machine ViewerWorld ViewerEvent := ⟨viewerStep rules owner⟩

end Step

/-- An object with empty storage. -/
def ViewerWorld.start : ViewerWorld := ⟨SyncWorld.start, ⟨[], [], Controls.absent⟩, [], [], []⟩

end CfMonitor.Live
