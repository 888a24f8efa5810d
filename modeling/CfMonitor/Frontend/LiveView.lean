/-
  The live view of a browser (`LiveDataContext.tsx`, `liveDataResponse.ts`, `diskMeasurement.ts`).

  1. **Data** — the nodes that are online with an entry and a record each, and the last known state of others.

  2. **Reading** — `normalizeLiveDataResponse` reads a full snapshot.

  3. **Patches** — `applyLiveUpdate` and `applyLiveRemove` take in a message about one node.
-/
import CfMonitor.Live.PublicSnapshot
import Mathlib.Data.Rat.Floor

namespace CfMonitor.Frontend

open CfMonitor.Lib

/-! ## Data -/

/-- An entry of `clients`: the fields besides `uuid`, `name` and `lastReportTime`. -/
structure LiveClient where
  uuid : String
  name : String
  lastReportTime : ℚ
  fields : Fields

structure LastKnownRecord where
  uuid : String
  name : String
  lastReportTime : ℚ
  fields : Fields

structure LiveDataResponse where
  online : List String
  clients : List LiveClient
  data : List (String × Fields)
  last_known : List (String × LastKnownRecord)
  count : Int
  timestamp : ℚ
  metadata_version : Option String

structure LiveDataUpdateMessage where
  client : String
  name : Option String
  data : Fields
  timestamp : ℚ

/-- `offline` is `reason === 'offline'`. -/
structure LiveDataRemoveMessage where
  client : String
  timestamp : ℚ
  offline : Bool
  last_known : Option Json

/-- What is there before a snapshot. -/
def LiveDataResponse.empty : LiveDataResponse := ⟨[], [], [], [], 0, 0, none⟩

/-! ## Reading -/

def asRecord (value : Option Json) : Option Fields := value.bind Json.obj?

def asFiniteNumber : Option Json → Option ℚ
  | some (.num (.finite x)) => some x
  | _ => none

def number (x : ℚ) : Json := .num (.finite x)

def lastKnownMetrics : List String := [
  "cpu", "gpu", "ram", "ram_total", "swap", "swap_total", "disk", "disk_total", "net_in", "net_out",
  "net_total_up", "net_total_down", "load", "temp", "uptime", "process_count", "connections", "connections_udp"]

def nullableMetrics : List String := [
  "cpu", "ram", "ram_total", "swap", "swap_total", "net_in", "net_out", "net_total_up", "net_total_down", "disk",
  "disk_total", "load", "temp", "uptime"]

/-- The loop over the reasons is the one of the server. -/
def selectMetricAvailability (record : Fields) : Fields :=
  let errors := Live.metricErrors ((asRecord (Assoc.get? record "metric_errors")).getD [])
  let capacity : Fields := match asFiniteNumber (Assoc.get? record "cpu_capacity") with
    | some x => if 0 < x then [("cpu_capacity", number x)] else []
    | none => []
  (if errors.isEmpty then [] else [("metric_errors", .obj errors)]) ++ capacity

def normalizeLiveMetricMetadata (record : Fields) : Fields :=
  Assoc.merge (Assoc.erase (Assoc.erase record "cpu_capacity") "metric_errors") (selectMetricAvailability record)

/-- When the disk was sampled, if `diskMeasurementMetadata` finds the pair valid. -/
def diskSampledAt (record : Fields) : Option Int :=
  match Json.str? (Assoc.get? record "disk_source"), asFiniteNumber (Assoc.get? record "disk"),
      safeInteger? (Assoc.get? record "disk_sampled_at") with
  | some source, some disk, some at_ =>
    if source = "directory" ∧ 0 ≤ disk ∧ disk ≤ 1000000000000000 ∧ 0 < at_ ∧ at_ ≤ 8640000000000000 then some at_
    else none
  | _, _, _ => none

/-- The fields of `normalizeLastKnownRecord`. -/
def lastKnownFields (record : Fields) : Fields :=
  let metrics := lastKnownMetrics.filterMap fun key =>
    match Assoc.get? record key with
    | some .null => if nullableMetrics.contains key then some (key, .null) else none
    | value => (asFiniteNumber value).map fun x => (key, number x)
  let result := Assoc.merge metrics (selectMetricAvailability record)
  let result := match diskSampledAt record with
    | some at_ => Assoc.set (Assoc.set result "disk_source" (.str "directory")) "disk_sampled_at" (Json.int at_)
    | none =>
      if (Assoc.get? record "disk_source").isSome || (Assoc.get? record "disk_sampled_at").isSome then
        Assoc.set result "disk" .null
      else result
  let result := match Json.str? (Assoc.get? record "message") with
    | some message => Assoc.set result "message" (.str message)
    | none => result
  match asFiniteNumber (Assoc.get? record "sort_order") with
  | some order => Assoc.set result "sort_order" (number order)
  | none => result

def normalizeLastKnownRecord (payload : Option Json) (uuid : String) : Option LastKnownRecord := do
  let record ← asRecord payload
  let name ← Json.str? (Assoc.get? record "name")
  let lastReportTime ← asFiniteNumber (Assoc.get? record "lastReportTime")
  if Json.str? (Assoc.get? record "uuid") = some uuid ∧ trim uuid ≠ "" ∧ 0 ≤ lastReportTime then
    some ⟨uuid, name, lastReportTime, lastKnownFields record⟩
  else none

/-- The fields of an entry besides those that identify it. -/
def withoutIdentity (record : Fields) : Fields :=
  Assoc.erase (Assoc.erase (Assoc.erase record "uuid") "name") "lastReportTime"

def normalizeLiveClient (client : Json) : Option LiveClient := do
  let entry ← asRecord (some client)
  let uuid ← Json.str? (Assoc.get? entry "uuid")
  let name ← Json.str? (Assoc.get? entry "name")
  let lastReportTime ← asFiniteNumber (Assoc.get? entry "lastReportTime")
  some ⟨uuid, name, lastReportTime, withoutIdentity (normalizeLiveMetricMetadata entry)⟩

/-- `normalizeLiveDataResponse` at a time of the clock. -/
def normalizeLiveDataResponse (payload : Option Json) (now : ℚ) : Option LiveDataResponse := do
  let record ← asRecord payload
  let items ← Json.arr? (Assoc.get? record "online")
  let online ← items.mapM fun item => Json.str? (some item)
  let count ← (asFiniteNumber (Assoc.get? record "count")).filter fun count => decide (0 ≤ count)
  let data := (asRecord (Assoc.get? record "data")).getD []
  let lastKnown := (asRecord (Assoc.get? record "last_known")).getD []
  some {
    online := online
    clients := ((Json.arr? (Assoc.get? record "clients")).getD []).filterMap normalizeLiveClient
    data := data.filterMap fun entry =>
      (asRecord (some entry.2)).map fun fields => (entry.1, normalizeLiveMetricMetadata fields)
    last_known := lastKnown.filterMap fun entry =>
      (normalizeLastKnownRecord (some entry.2) entry.1).bind fun item =>
        if online.contains entry.1 then none else some (entry.1, item)
    count := count.floor
    timestamp := (asFiniteNumber (Assoc.get? record "timestamp")).getD now
    metadata_version := (Json.str? (Assoc.get? record "metadata_version")).filter fun version =>
      decide (trim version ≠ "") }

/-! ## Patches -/

/-- The metrics and the fields that bring a new measurement of each. -/
def metricFields : List (String × List String) := [
  ("cpu", ["cpu"]), ("ram", ["ram", "ram_total"]), ("swap", ["swap", "swap_total"]),
  ("network", ["net_in", "net_out", "net_total_up", "net_total_down"])]

/-- The reasons in a record. -/
def errorsOf (record : Fields) : Fields := (asRecord (Assoc.get? record "metric_errors")).getD []

/-- The reasons after an update: a metric that is measured again loses its old one. -/
def nextMetricErrors (previous data incoming : Fields) : Fields :=
  metricFields.foldl (fun errors metric =>
    if metric.2.any (fun field => (Assoc.get? data field).isSome) && (Assoc.get? (errorsOf incoming) metric.1).isNone
    then Assoc.erase errors metric.1 else errors)
    (Assoc.merge (errorsOf previous) (errorsOf incoming))

/-- `nextRecord.cpu_capacity = incomingAvailability.cpu_capacity`, for an update with `cpu`. -/
def withCapacity (data incoming record : Fields) : Fields :=
  if (Assoc.get? data "cpu").isSome then
    match Assoc.get? incoming "cpu_capacity" with
    | some capacity => Assoc.set record "cpu_capacity" capacity
    | none => Assoc.erase record "cpu_capacity"
  else record

/-- The record of a node after an update. -/
def nextRecord (previous : Fields) (message : LiveDataUpdateMessage) : Fields :=
  let incoming := selectMetricAvailability message.data
  let record := Assoc.set (Assoc.merge previous message.data) "lastReportTime" (number message.timestamp)
  let record := withCapacity message.data incoming record
  let errors := nextMetricErrors previous message.data incoming
  let availability := selectMetricAvailability (Assoc.set record "metric_errors" (.obj errors))
  Assoc.merge (Assoc.erase (Assoc.erase record "cpu_capacity") "metric_errors") availability

def LiveDataResponse.client? (view : LiveDataResponse) (uuid : String) : Option LiveClient :=
  view.clients.find? fun client => decide (client.uuid = uuid)

/-- `message.name || previousClient?.name || uuid`. -/
def nextName (message : LiveDataUpdateMessage) (previous : Option LiveClient) : String :=
  if message.name.getD "" ≠ "" then message.name.getD ""
  else if (previous.map LiveClient.name).getD "" ≠ "" then (previous.map LiveClient.name).getD ""
  else message.client

def applyLiveUpdate (current : Option LiveDataResponse) (message : LiveDataUpdateMessage) : LiveDataResponse :=
  let base := current.getD .empty
  let uuid := message.client
  let previousClient := base.client? uuid
  let record := nextRecord ((Assoc.get? base.data uuid).getD []) message
  let previousInfo := Assoc.erase (Assoc.erase ((previousClient.map LiveClient.fields).getD []) "cpu_capacity")
    "metric_errors"
  let online := if base.online.contains uuid then base.online else base.online ++ [uuid]
  { base with
    online := online
    clients := (base.clients.filter fun client => decide (client.uuid ≠ uuid)) ++
      [⟨uuid, nextName message previousClient, message.timestamp, withoutIdentity (Assoc.merge previousInfo record)⟩]
    data := Assoc.set base.data uuid record
    last_known := Assoc.erase base.last_known uuid
    count := online.length
    timestamp := message.timestamp }

/-- The payload that `applyLiveRemove` makes of what it has of a node. -/
def previousPayload (client : Option LiveClient) (removed : Option Fields) (uuid : String) : Fields :=
  let fields := Assoc.merge ((client.map LiveClient.fields).getD []) (removed.getD [])
  let fields := Assoc.set fields "uuid" (.str uuid)
  let fields := match client with
    | some c => Assoc.set fields "name" (.str c.name)
    | none => Assoc.erase fields "name"
  match client with
  | some c => Assoc.set fields "lastReportTime" (number c.lastReportTime)
  | none => match removed.bind fun record => Assoc.get? record "lastReportTime" with
    | some time => Assoc.set fields "lastReportTime" time
    | none => Assoc.erase fields "lastReportTime"

/-- The last known state that a node goes offline with. -/
def nextLastKnown (base : LiveDataResponse) (message : LiveDataRemoveMessage) (explicitLast : Option LastKnownRecord) :
    Option LastKnownRecord :=
  let previous := (normalizeLastKnownRecord (some (.obj (previousPayload (base.client? message.client)
    (Assoc.get? base.data message.client) message.client))) message.client).or
      (Assoc.get? base.last_known message.client)
  match explicitLast, previous with
  | some last, some old => if old.lastReportTime ≤ last.lastReportTime then some last else some old
  | some last, none => some last
  | none, previous => previous

/-- `last_known` after a removal. -/
def lastKnownAfter (base : LiveDataResponse) (message : LiveDataRemoveMessage)
    (explicitLast : Option LastKnownRecord) : List (String × LastKnownRecord) :=
  match (if message.offline then nextLastKnown base message explicitLast else none) with
  | some last => Assoc.set (Assoc.erase base.last_known message.client) message.client last
  | none => Assoc.erase base.last_known message.client

def applyLiveRemove (current : Option LiveDataResponse) (message : LiveDataRemoveMessage) : Option LiveDataResponse :=
  let explicitLast := if message.offline then normalizeLastKnownRecord message.last_known message.client else none
  if current.isNone && explicitLast.isNone then current
  else
    let base := current.getD .empty
    let online := base.online.filter fun uuid => decide (uuid ≠ message.client)
    some { base with
      online := online
      clients := base.clients.filter fun client => decide (client.uuid ≠ message.client)
      data := Assoc.erase base.data message.client
      last_known := lastKnownAfter base message explicitLast
      count := online.length
      timestamp := message.timestamp }

end CfMonitor.Frontend
