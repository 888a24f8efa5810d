/-
  The live snapshot for public viewers (`toPublicReport`, `projectSnapshotClient`, `buildSnapshot`).

  1. **Program** — the report is projected to a fixed list of fields, the entry to a snapshot client,
     and the two maps of entries to the snapshot.

  2. **Abstract view** (`PublicView`) — what a viewer may learn about one entry; hidden and removed
     entries have none.

  3. **Result** (`public_snapshot_independent`) — the public snapshot is a function of the views.
-/
import CfMonitor.Live.ClientState

namespace CfMonitor.Live

open CfMonitor.Lib

/-! ## Reports -/

def METRIC_FIELDS : List String := [
  "cpu", "gpu", "ram", "ram_total", "swap", "swap_total", "load", "temp",
  "disk", "disk_total", "disk_source", "disk_sampled_at", "net_in", "net_out", "net_total_up",
  "net_total_down", "process_count", "connections", "connections_udp", "uptime", "version",
  "timestamp"]

def BASIC_FIELDS : List String := [
  "cpu_name", "virtualization", "arch", "cpu_cores", "os", "kernel_version",
  "gpu_name", "mem_total", "swap_total", "disk_total", "version", "region"]

def GPU_FIELDS : List String := [
  "device_index", "device_name", "mem_total", "mem_used", "utilization", "temperature"]

/-- How many UTF-16 code units a character takes. -/
def utf16Size (c : Char) : Nat := if c.val < 0x10000 then 1 else 2

/-- The characters within the first `n` UTF-16 code units.  Half of a surrogate pair is no
    character, so a pair that the limit cuts is left out. -/
def takeUnits : Nat → List Char → List Char
  | _, [] => []
  | n, c :: cs => if utf16Size c ≤ n then c :: takeUnits (n - utf16Size c) cs else []

/-- `item.slice(0, 256)`. -/
def slice256 (item : String) : String := String.ofList (takeUnits 256 item.toList)

/-- What `selectScalars` keeps of a field. -/
def scalar : Option Json → Option Json
  | some .null => some .null
  | some (.bool b) => some (.bool b)
  | some (.num (.finite x)) => some (.num (.finite x))
  | some (.str s) => some (.str (slice256 s))
  | _ => none

/-- `selectScalars` of an object. -/
def selectScalars (record : Fields) (fields : List String) : Fields :=
  fields.filterMap fun field => (scalar (Assoc.get? record field)).map fun item => (field, item)

/-- `selectScalars` of any value. -/
def selectScalarsOf (value : Json) (fields : List String) : Json :=
  .obj (selectScalars (value.obj?.getD []) fields)

/-- The reasons for which a metric can be missing. -/
def isMetricError (reason : String) : Bool :=
  reason == "collection_failed" || reason == "container_scope_unavailable" || reason == "warming_up"

/-- The known reasons of a report. -/
def metricErrors (errors : Fields) : Fields :=
  ["cpu", "ram", "swap", "network"].filterMap fun metric =>
    ((Json.str? (Assoc.get? errors metric)).filter isMetricError).map fun reason =>
      (metric, .str reason)

def selectMetricAvailability (report : Fields) : Fields :=
  let capacity : Fields := match Assoc.get? report "cpu_capacity" with
    | some (.num (.finite x)) => if 0 < x then [("cpu_capacity", .num (.finite x))] else []
    | _ => []
  let errors := metricErrors (((Assoc.get? report "metric_errors").bind Json.obj?).getD [])
  capacity ++ if errors.isEmpty then [] else [("metric_errors", .obj errors)]

def toPublicReport (report : Fields) : Fields :=
  let result := Assoc.merge (selectScalars report METRIC_FIELDS) (selectMetricAvailability report)
  let gpus := ((Json.arr? (Assoc.get? report "gpus")).getD []).take 16
  let result := Assoc.set result "gpus" (.arr (gpus.map fun gpu => selectScalarsOf gpu GPU_FIELDS))
  match Assoc.get? report "basic_info" with
  | some (.obj info) => Assoc.set result "basic_info" (selectScalarsOf (.obj info) BASIC_FIELDS)
  | some (.arr items) => Assoc.set result "basic_info" (selectScalarsOf (.arr items) BASIC_FIELDS)
  | _ => result

/-! ## The snapshot -/

/-- What the object holds in memory of its nodes. -/
structure LiveMemory where
  clients : List (String × ClientState)
  lastKnownClients : List (String × ClientState)
  controls : Controls

/-- An entry of the snapshot: a projected report under the identity of its node. -/
structure LiveSnapshotClient where
  uuid : String
  name : String
  lastReportTime : Int
  fields : Fields

structure LiveSnapshot where
  online : List String
  clients : List LiveSnapshotClient
  data : List (String × LiveSnapshotClient)
  lastKnown : List (String × LiveSnapshotClient)
  count : Nat
  timestamp : Int
  metadataVersion : Option String

namespace LiveMemory

variable (m : LiveMemory)

/-- The administrator's order of a node, if it is a finite number. -/
def sortOrder (uuid : String) : Option ℚ :=
  match (Assoc.get? m.controls.adminClientMetadata uuid).bind fun row =>
      Assoc.get? row.fields "sort_order" with
  | some (.num (.finite x)) => some x
  | _ => none

/-- Put the order of the administrator in the place of the agent's. -/
def withOrder (order : Option ℚ) (report : Fields) : Fields :=
  let projected := Assoc.erase report "sort_order"
  match order with
  | some x => Assoc.set projected "sort_order" (.num (.finite x))
  | none => projected

def projectViewerReport (uuid : String) (report : Fields) (includeHidden : Bool) : Fields :=
  withOrder (m.sortOrder uuid) (if includeHidden then report else toPublicReport report)

/-- The fields that a snapshot entry writes over those of the report. -/
def withoutIdentity (report : Fields) : Fields :=
  Assoc.erase (Assoc.erase (Assoc.erase report "uuid") "name") "lastReportTime"

def projectSnapshotClient (client : ClientState) (includeHidden retained : Bool) :
    Option LiveSnapshotClient :=
  match m.controls.controlledClientState client with
  | none => none
  | some current =>
    if !includeHidden && current.hidden then none
    else some ⟨current.uuid, current.name, current.lastReportTime,
      withoutIdentity (m.projectViewerReport current.uuid current.lastReport (!retained && includeHidden))⟩

/-- `buildSnapshot`; it reads the clock at its start and at its end. -/
def buildSnapshot (includeHidden : Bool) (now timestamp : Int) : LiveSnapshot :=
  let onlineClients := ((m.clients.map Prod.snd).filter fun c => c.isOnline now).filterMap fun c =>
    m.projectSnapshotClient c includeHidden false
  let onlineIds := onlineClients.map LiveSnapshotClient.uuid
  { online := onlineIds
    clients := onlineClients
    data := onlineClients.foldl (fun acc client => Assoc.set acc client.uuid client) []
    lastKnown := (m.lastKnownClients.map Prod.snd).foldl (fun acc client =>
      if onlineIds.contains client.uuid then acc
      else match m.projectSnapshotClient client includeHidden true with
        | some projected => Assoc.set acc client.uuid projected
        | none => acc) []
    count := onlineClients.length
    timestamp := timestamp
    metadataVersion := m.controls.adminClientsUpdatedAt.map toString }

end LiveMemory

/-! ## What a viewer may learn -/

/-- What a viewer may learn about an entry. -/
structure PublicView where
  uuid : String
  name : String
  lastReportTime : Int
  expiresAt : Option Int
  order : Option ℚ
  report : Fields

/-- The view of an entry under its control row; none when it is hidden or removed. -/
def LiveMemory.view (m : LiveMemory) (client : ClientState) : Option PublicView :=
  match m.controls.controlledClientState client with
  | none => none
  | some current =>
    if current.hidden then none
    else some ⟨current.uuid, current.name, current.lastReportTime, current.expiresAt,
      m.sortOrder current.uuid, toPublicReport current.lastReport⟩

/-- The views of the visible entries of a map, in its order. -/
def LiveMemory.views (m : LiveMemory) (entries : List (String × ClientState)) : List PublicView :=
  (entries.map Prod.snd).filterMap m.view

namespace PublicView

/-- Whether the entry counts as online. -/
def isOnline (v : PublicView) (now : Int) : Bool := unexpired v.expiresAt now

/-- The snapshot entry of a view. -/
def entry (v : PublicView) : LiveSnapshotClient :=
  ⟨v.uuid, v.name, v.lastReportTime, LiveMemory.withoutIdentity (LiveMemory.withOrder v.order v.report)⟩

end PublicView

/-- The public snapshot of the views of both maps. -/
def snapshotOfViews (clients lastKnown : List PublicView) (version : Option Int)
    (now timestamp : Int) : LiveSnapshot :=
  let onlineClients := (clients.filter fun v => v.isOnline now).map PublicView.entry
  let onlineIds := onlineClients.map LiveSnapshotClient.uuid
  { online := onlineIds
    clients := onlineClients
    data := onlineClients.foldl (fun acc client => Assoc.set acc client.uuid client) []
    lastKnown := lastKnown.foldl (fun acc v =>
      if onlineIds.contains v.uuid then acc else Assoc.set acc v.uuid v.entry) []
    count := onlineClients.length
    timestamp := timestamp
    metadataVersion := version.map toString }

section Views

variable {m : LiveMemory} {client : ClientState}

theorem controlledClientState_keeps {controls : Controls} {current : ClientState}
    (h : controls.controlledClientState client = some current) :
    current.uuid = client.uuid ∧ current.expiresAt = client.expiresAt := by
  simp only [Controls.controlledClientState] at h
  split_ifs at h
  cases hrow : Assoc.get? controls.adminClientMetadata client.uuid with
  | none =>
    rw [hrow] at h
    cases h
    exact ⟨rfl, rfl⟩
  | some row =>
    rw [hrow] at h
    cases h
    exact ⟨rfl, rfl⟩

theorem view_keeps {v : PublicView} (h : m.view client = some v) :
    v.uuid = client.uuid ∧ ∀ now, v.isOnline now = client.isOnline now := by
  rw [LiveMemory.view] at h
  cases hc : m.controls.controlledClientState client with
  | none =>
    rw [hc] at h
    cases h
  | some current =>
    rw [hc] at h
    simp only at h
    split_ifs at h
    cases h
    obtain ⟨huuid, hexpires⟩ := controlledClientState_keeps hc
    refine ⟨huuid, fun now => ?_⟩
    rw [PublicView.isOnline, ClientState.isOnline, hexpires]

theorem projectSnapshotClient_public (retained : Bool) :
    m.projectSnapshotClient client false retained = (m.view client).map PublicView.entry := by
  rw [LiveMemory.projectSnapshotClient, LiveMemory.view]
  cases m.controls.controlledClientState client with
  | none => rfl
  | some current =>
    cases hhidden : current.hidden with
    | true => simp [hhidden]
    | false => simp [hhidden, PublicView.entry, LiveMemory.projectViewerReport]

theorem online_public (now : Int) (entries : List ClientState) :
    ((entries.filter fun c => c.isOnline now).filterMap fun c =>
        m.projectSnapshotClient c false false)
      = ((entries.filterMap m.view).filter fun v => v.isOnline now).map PublicView.entry := by
  induction entries with
  | nil => rfl
  | cons c rest ih =>
    cases hv : m.view c with
    | none =>
      -- hidden or removed: neither side has it
      rw [List.filterMap_cons_none hv, ← ih]
      cases hon : c.isOnline now with
      | true =>
        rw [List.filter_cons_of_pos (p := fun c : ClientState => c.isOnline now) hon,
          List.filterMap_cons_none]
        rw [projectSnapshotClient_public, hv]
        rfl
      | false => rw [List.filter_cons_of_neg (by simp [hon])]
    | some v =>
      rw [List.filterMap_cons_some hv]
      have hsame := (view_keeps hv).2 now
      cases hon : c.isOnline now with
      | true =>
        rw [List.filter_cons_of_pos (p := fun c : ClientState => c.isOnline now) hon,
          List.filter_cons_of_pos (p := fun v : PublicView => v.isOnline now) (hsame.trans hon),
          List.map_cons, ← ih]
        refine List.filterMap_cons_some ?_
        rw [projectSnapshotClient_public, hv]
        rfl
      | false =>
        rw [List.filter_cons_of_neg (by simp [hon]), List.filter_cons_of_neg (by simp [hsame, hon])]
        exact ih

theorem lastKnown_public (onlineIds : List String) (entries : List ClientState)
    (acc : List (String × LiveSnapshotClient)) :
    entries.foldl (fun acc client =>
        if onlineIds.contains client.uuid then acc
        else match m.projectSnapshotClient client false true with
          | some projected => Assoc.set acc client.uuid projected
          | none => acc) acc
      = (entries.filterMap m.view).foldl (fun acc v =>
          if onlineIds.contains v.uuid then acc else Assoc.set acc v.uuid v.entry) acc := by
  induction entries generalizing acc with
  | nil => rfl
  | cons c rest ih =>
    rw [List.foldl_cons, projectSnapshotClient_public]
    cases hv : m.view c with
    | none =>
      rw [List.filterMap_cons_none hv, ← ih]
      simp only [Option.map_none, ite_self]
    | some v =>
      rw [List.filterMap_cons_some hv, List.foldl_cons, ← ih, (view_keeps hv).1]
      rfl

/-- **The public snapshot is a function of the views.** -/
theorem buildSnapshot_public (m : LiveMemory) (now timestamp : Int) : m.buildSnapshot false now timestamp
      = snapshotOfViews (m.views m.clients) (m.views m.lastKnownClients)
          m.controls.adminClientsUpdatedAt now timestamp := by
  simp only [LiveMemory.buildSnapshot, snapshotOfViews, LiveMemory.views, online_public, lastKnown_public]
  rfl

end Views

/-! ## Reports outside the list of public fields -/

/-- The fields of a report that `toPublicReport` reads. -/
def publicFields : List String := METRIC_FIELDS ++ ["cpu_capacity", "metric_errors", "gpus", "basic_info"]

theorem selectScalars_congr {r r' : Fields} {fields : List String}
    (h : ∀ f ∈ fields, Assoc.get? r f = Assoc.get? r' f) :
    selectScalars r fields = selectScalars r' fields := by
  refine List.filterMap_congr fun f hf => ?_
  rw [h f hf]

theorem toPublicReport_congr {r r' : Fields} (h : ∀ f ∈ publicFields, Assoc.get? r f = Assoc.get? r' f) :
    toPublicReport r = toPublicReport r' := by
  have hmetric : selectScalars r METRIC_FIELDS = selectScalars r' METRIC_FIELDS :=
    selectScalars_congr fun f hf => h f (List.mem_append_left _ hf)
  have hcapacity := h "cpu_capacity" (by decide)
  have herrors := h "metric_errors" (by decide)
  have hgpus := h "gpus" (by decide)
  have hinfo := h "basic_info" (by decide)
  rw [toPublicReport, toPublicReport, selectMetricAvailability, selectMetricAvailability, hmetric,
    hcapacity, herrors, hgpus, hinfo]

/-- **A public viewer learns nothing about hidden nodes or private fields.**  Two memories with the
    same version whose visible entries look the same give the same public snapshot; and what a
    report holds outside the public fields does not change how it looks. -/
theorem public_snapshot_independent (m m' : LiveMemory) (now timestamp : Int)
    (hversion : m.controls.adminClientsUpdatedAt = m'.controls.adminClientsUpdatedAt)
    (hclients : m.views m.clients = m'.views m'.clients)
    (hlastKnown : m.views m.lastKnownClients = m'.views m'.lastKnownClients) :
    m.buildSnapshot false now timestamp = m'.buildSnapshot false now timestamp ∧
    ∀ r r' : Fields, (∀ f ∈ publicFields, Assoc.get? r f = Assoc.get? r' f) →
      toPublicReport r = toPublicReport r' := by
  refine ⟨?_, fun r r' => toPublicReport_congr⟩
  rw [buildSnapshot_public, buildSnapshot_public, hversion, hclients, hlastKnown]

/-- A memory with a visible node `a` and a hidden node `b`; `secret` is what the agents add. -/
def memoryWith (secret : String) : LiveMemory :=
  let client := fun uuid => (⟨uuid, uuid, false, 5, [("cpu", Json.int 7), ("ipv4", .str secret)],
    none, some .http⟩ : ClientState)
  { clients := [("a", client "a"), ("b", ⟨"b", secret, false, 5, [], none, some .http⟩)]
    lastKnownClients := [("b", client "b"), ("a", client "a")]
    controls := Controls.remember ⟨[⟨"a", [("sort_order", Json.int 1)]⟩,
      ⟨"b", [("hidden", .bool true), ("remark", .str secret)]⟩], 3, [], true⟩ }

/-- The hypotheses are satisfiable by memories that differ in a hidden node and in a private
    field. -/
theorem public_snapshot_hides_secret :
    (memoryWith "x").buildSnapshot false 9 9 = (memoryWith "y").buildSnapshot false 9 9 :=
  (public_snapshot_independent (memoryWith "x") (memoryWith "y") 9 9 rfl rfl rfl).1

end CfMonitor.Live
