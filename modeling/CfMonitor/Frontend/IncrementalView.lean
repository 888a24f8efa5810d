/-
  The incremental view and the server's snapshot (`applyLiveUpdate`, `updateClientReport`, `removeExpiredClients`,
  `cleanupSession`, `removeClient`).

  1. **Program** — the live map of the server, one public viewer, and an event for each way in which the map changes.

  2. **One update** — a record is merged over the one before it.  The fields about missing metrics go when a report does
     not have them; every other field that a report can lack stays.

  3. **Result** — in runs that keep their fields the view is the server's snapshot.
-/
import CfMonitor.Frontend.ServerView
import CfMonitor.Live.ViewerRuns
import CfMonitor.Lib.Machine

namespace CfMonitor.Frontend

open CfMonitor.Lib CfMonitor.Live
open Option (bind_some map_eq_some_iff or_none some)
open Assoc (get? get?_erase get?_merge get?_set keys_filter_nodup mem_of_get?)

/-! ## Program -/

/-- A report as it comes in.  `current` is false when its socket is no longer the one of the node. -/
structure IncomingReport where
  uuid : String
  name : String
  hidden : Bool
  input : Option Json
  network : Option ReportRules.ReportNetworkMetadata
  receivedAt : Int
  expiresAt : Option Int
  transport : Option Transport
  current : Bool

/-- The server and a public viewer.  `expired` are the nodes that had expired when the viewer read its snapshot, and
    have not been taken offline or reported since. -/
structure LiveLink where
  memory : LiveMemory
  view : LiveDataResponse
  expired : List String

inductive LinkEvent where
  | report (report : IncomingReport)
  | offline (uuid : String) (now : Int)
  | remove (uuid : String) (now : Int)

/-- What the browser does with a message. -/
def applyMessage (view : LiveDataResponse) : ViewerMessage → LiveDataResponse
  | .update client name data timestamp => applyLiveUpdate (some view) ⟨client, some name, data, timestamp⟩
  | .remove client timestamp => (applyLiveRemove (some view) ⟨client, timestamp, false, none⟩).getD view
  | .offline client timestamp lastKnown =>
    (applyLiveRemove (some view) ⟨client, timestamp, true, lastKnown.map snapshotClientJson⟩).getD view
  | .metadataChanged _ _ _ => view

namespace LiveLink

variable (rules : ReportRules) (s : LiveLink)

/-- A message for everyone; none when the node is hidden. -/
def broadcast (hidden : Bool) (message : ViewerMessage) : LiveLink :=
  if hidden then s else { s with view := applyMessage s.view message }

def broadcastOfflineClient (client : ClientState) (now : Int) : LiveLink :=
  match s.memory.controls.controlledClientState client with
  | none => s
  | some current =>
    s.broadcast current.hidden (.offline current.uuid now (s.memory.projectSnapshotClient current true true))

/-- The state of a node that a report falls back on. -/
def known (uuid : String) : Option ClientState :=
  (Assoc.get? s.memory.clients uuid).or (Assoc.get? s.memory.lastKnownClients uuid)

/-- The state that a report makes; none when it is not accepted. -/
def accepted (r : IncomingReport) : Option ClientState :=
  (resolveReportClientControl s.memory.controls.adminClientsSnapshot (s.known r.uuid) r.uuid r.name r.hidden).map
    fun control => ⟨r.uuid, control.1, control.2, r.receivedAt,
      rules.sanitizeReport (rules.normalizeMonitorReport r.input) r.network, r.expiresAt, r.transport⟩

def setClient (client : ClientState) : LiveLink :=
  { s with memory := { s.memory with clients := Assoc.set s.memory.clients client.uuid client },
           expired := s.expired.filter fun uuid => decide (uuid ≠ client.uuid) }

def setLastKnown (client : ClientState) : LiveLink :=
  { s with memory := { s.memory with lastKnownClients := Assoc.set s.memory.lastKnownClients client.uuid client } }

def deleteClient (uuid : String) : LiveLink :=
  { s with memory := { s.memory with clients := Assoc.erase s.memory.clients uuid } }

def deleteLastKnown (uuid : String) : LiveLink :=
  { s with memory := { s.memory with lastKnownClients := Assoc.erase s.memory.lastKnownClients uuid } }

/-- The end of `updateClientReport`. -/
def updateClientReport (r : IncomingReport) : Option LiveLink :=
  (s.accepted rules r).map fun next =>
    let s := s.setLastKnown { next with lastReport := rules.compactLiveReport next.lastReport }
    if r.current then
      (s.setClient next).broadcast next.hidden (.update next.uuid next.name
        (s.memory.projectViewerReport next.uuid next.lastReport false) next.lastReportTime)
    else s.broadcastOfflineClient next r.receivedAt

/-- A node that expired (`removeExpiredClients`), or whose socket closed (`cleanupSession`). -/
def takeOffline (uuid : String) (now : Int) : LiveLink :=
  match Assoc.get? s.memory.clients uuid with
  | none => s
  | some client => (s.deleteClient uuid).broadcastOfflineClient client now

def removeClient (uuid : String) (now : Int) : LiveLink :=
  match s.known uuid with
  | none => s
  | some existing => ((s.deleteClient uuid).deleteLastKnown uuid).broadcast existing.hidden (.remove uuid now)

end LiveLink

def linkMachine (rules : ReportRules) : Machine LiveLink LinkEvent :=
  ⟨fun s event => match event with
    | .report r => s.updateClientReport rules r
    | .offline uuid now => some (s.takeOffline uuid now)
    | .remove uuid now => some (s.removeClient uuid now)⟩

/-! ## One update -/

/-- Fields that bring a new measurement of each metric that can be missing. -/
def Measures (data : Fields) : Prop :=
  ∀ metric ∈ metricFields, (metric.2.any fun field => (Assoc.get? data field).isSome) = true

theorem keys_metricErrors_nodup (errors : Fields) : (Assoc.keys (metricErrors errors)).Nodup := by
  have hmap : metricErrors errors = ["cpu", "ram", "swap", "network"].filterMap fun metric =>
      (((Json.str? (get? errors metric)).filter isMetricError).map Json.str).map fun item => (metric, item) :=
    List.filterMap_congr fun metric _ => by rw [Option.map_map]; rfl
  rw [hmap]
  exact keys_filterMap_nodup (by decide) _

theorem errorsPart_congr {value other : Option Json}
    (h : metricErrors ((value.bind Json.obj?).getD []) = metricErrors ((other.bind Json.obj?).getD [])) :
    errorsPart value = errorsPart other := by
  rw [errorsPart, errorsPart, h]

theorem capacityPart_selected (record : Fields) :
    capacityPart (get? (selectMetricAvailability record) "cpu_capacity") =
      capacityPart (get? record "cpu_capacity") := by
  have herrors : get? (errorsPart (get? record "metric_errors")) "cpu_capacity" = none := by
    rcases errorsPart_cases (get? record "metric_errors") with he | ⟨errors, -, -, he⟩ <;> rw [he] <;> rfl
  rw [selectMetricAvailability_parts, Assoc.get?_append, herrors, Option.none_or]
  rcases capacityPart_cases (get? record "cpu_capacity") with hc | ⟨x, hx, hc⟩
  · rw [hc]
    rfl
  · rw [hc]
    exact if_pos hx

theorem errorsOf_selected (record : Fields) :
    errorsOf (selectMetricAvailability record) = metricErrors (errorsOf record) := by
  have hget : get? (selectMetricAvailability record) "metric_errors" =
      get? (errorsPart (get? record "metric_errors")) "metric_errors" := by
    rw [selectMetricAvailability_parts, Assoc.get?_append]
    rcases capacityPart_cases (get? record "cpu_capacity") with hc | ⟨x, -, hc⟩
    · rw [hc]
      exact or_none
    · rw [hc]
      exact or_none
  rw [errorsOf, hget, errorsPart]
  split_ifs with hempty
  · exact (List.isEmpty_iff.mp hempty).symm
  · rfl

variable {data : Fields}

/-- A turn of the loop that drops the old reasons. -/
theorem get?_dropErrors (metrics : List (String × List String)) {incoming : Fields}
    (hmeasures : ∀ metric ∈ metrics, (metric.2.any fun field => (get? data field).isSome) = true)
    (errors : Fields) (key : String) :
    get? (metrics.foldl (fun errors metric =>
      if metric.2.any (fun field => (get? data field).isSome) && (get? (errorsOf incoming) metric.1).isNone
      then Assoc.erase errors metric.1 else errors) errors) key =
      if key ∈ metrics.map Prod.fst ∧ get? (errorsOf incoming) key = none then none
      else get? errors key := by
  induction metrics generalizing errors with
  | nil => simp
  | cons first rest ih =>
    have hrest := ih fun metric hmem => hmeasures metric (List.mem_cons_of_mem _ hmem)
    rw [List.foldl_cons, hrest, hmeasures first List.mem_cons_self, Bool.true_and, List.map_cons]
    by_cases hkey : key = first.1
    · subst hkey
      cases hincoming : get? (errorsOf incoming) first.1 with
      | none => simp [get?_erase]
      | some reason => simp
    · have hsame : get? (if (get? (errorsOf incoming) first.1).isNone = true then
          Assoc.erase errors first.1 else errors) key = get? errors key := by
        split_ifs
        · rw [get?_erase, if_neg hkey]
        · rfl
      rw [hsame]
      exact if_congr (by rw [List.mem_cons, or_iff_right hkey]) rfl rfl

theorem metricErrors_congr {errors other : Fields}
    (h : ∀ metric ∈ ["cpu", "ram", "swap", "network"], get? errors metric = get? other metric) :
    metricErrors errors = metricErrors other := by
  refine List.filterMap_congr fun metric hmetric => ?_
  rw [h metric hmetric]

theorem metricErrors_next (previous : Fields) (h : Measures data) :
    metricErrors (nextMetricErrors previous data (selectMetricAvailability data)) = metricErrors (errorsOf data) := by
  rw [← metricErrors_metricErrors (errorsOf data)]
  refine metricErrors_congr fun metric hmetric => ?_
  rw [nextMetricErrors, get?_dropErrors metricFields h, errorsOf_selected,
    get?_merge (keys_metricErrors_nodup _)]
  have hin : metric ∈ metricFields.map Prod.fst := by
    revert hmetric
    revert metric
    decide
  cases hreason : get? (metricErrors (errorsOf data)) metric with
  | none => rw [if_pos ⟨hin, rfl⟩]
  | some reason =>
    rw [if_neg fun hnone => absurd hnone.2 (by simp)]
    rfl

/-- After an update with all metrics, the fields about missing metrics are those of the update. -/
theorem nextRecord_availability (previous : Fields) {message : LiveDataUpdateMessage} (h : Measures message.data)
    {key : String} (hkey : key ∈ availabilityFields) :
    get? (nextRecord previous message) key = get? (selectMetricAvailability message.data) key := by
  obtain ⟨record, hrecord⟩ : ∃ record, withCapacity message.data (selectMetricAvailability message.data)
    (Assoc.set (Assoc.merge previous message.data) "lastReportTime" (number message.timestamp)) = record := ⟨_, rfl⟩
  have hnext : get? (nextRecord previous message) key = get? (selectMetricAvailability (Assoc.set record
      "metric_errors" (.obj (nextMetricErrors previous message.data (selectMetricAvailability message.data))))) key := by
    rw [nextRecord, get?_merge (keys_selectMetricAvailability_nodup _), hrecord, get?_erase, get?_erase]
    simp only [availabilityFields, List.mem_cons, List.not_mem_nil, or_false] at hkey
    rcases hkey with rfl | rfl
    · exact or_none
    · exact or_none
  have hcapacity : get? record "cpu_capacity" =
      get? (selectMetricAvailability message.data) "cpu_capacity" := by
    have hcpu : (get? message.data "cpu").isSome = true := by
      simpa using h ("cpu", ["cpu"]) (by decide)
    rw [← hrecord, withCapacity, if_pos hcpu]
    cases get? (selectMetricAvailability message.data) "cpu_capacity" with
    | none => exact (get?_erase _ _ _).trans (if_pos rfl)
    | some capacity => exact (get?_set _ _ _ _).trans (if_pos rfl)
  have herrors : errorsPart (some (.obj (nextMetricErrors previous message.data
      (selectMetricAvailability message.data)))) = errorsPart (get? message.data "metric_errors") :=
    errorsPart_congr (metricErrors_next previous h)
  rw [hnext, selectMetricAvailability_parts, get?_set, if_pos rfl, get?_set, if_neg (by decide), herrors,
    hcapacity, capacityPart_selected, ← selectMetricAvailability_parts]

/-- What a node shows under a public view. -/
structure Replaces (nodes : String → Option PublicView) (v : PublicView) : Prop where
  named : v.name ≠ ""
  isPublic : IsPublic v
  measures : Measures (LiveMemory.withOrder v.order v.report)
  /-- Every other field that the node shows is there again. -/
  keeps : ∀ old, nodes v.uuid = some old → ∀ key ∉ availabilityFields,
    Assoc.get? v.entry.fields key = none → Assoc.get? old.entry.fields key = none

/-- The message about a view. -/
def updateOf (v : PublicView) : LiveDataUpdateMessage :=
  ⟨v.uuid, some v.name, LiveMemory.withOrder v.order v.report, v.lastReportTime⟩

section Update

variable {view : LiveDataResponse} {nodes : String → Option PublicView} {v : PublicView}

theorem LiveDataResponse.Shows.parts (h : view.Shows nodes) {uuid : String} {old : PublicView}
    (hold : nodes uuid = some old) : ∃ client record, view.client? uuid = some client ∧
      get? view.data uuid = some record ∧ get? client.fields = get? old.entry.fields ∧
      recordField record = (publicNode old).record := by
  have hnode := h.node uuid old hold
  rw [LiveDataResponse.node?] at hnode
  obtain ⟨client, hclient, hmap⟩ := Option.bind_eq_some_iff.mp hnode
  obtain ⟨record, hrecord, heq⟩ := map_eq_some_iff.mp hmap
  exact ⟨client, record, hclient, hrecord, congrArg LiveNode.entry heq, congrArg LiveNode.record heq⟩

/-- The record of a node after an update. -/
theorem get?_nextRecord_shown (h : view.Shows nodes) (hnew : Replaces nodes v) {key : String}
    (hkey : key ≠ "uuid" ∧ key ≠ "name") :
    get? (nextRecord ((get? view.data v.uuid).getD []) (updateOf v)) key =
      if key = "lastReportTime" then some (number v.lastReportTime) else get? v.entry.fields key := by
  obtain ⟨report, hreport⟩ := hnew.isPublic
  have hdata : (Assoc.keys (updateOf v).data).Nodup :=
    keys_withOrder_nodup v.order (hreport ▸ keys_toPublicReport_nodup report)
  by_cases havailable : key ∈ availabilityFields
  · -- the update alone says what is missing
    have hother : ∀ key ∈ availabilityFields, key ∉ identityFields ∧ key ≠ "lastReportTime" ∧ key ≠ "sort_order" := by
      decide
    obtain ⟨hidentity, htime, horder⟩ := hother key havailable
    have hselected : Selected (updateOf v).data := (selected_public report).congr fun key hkey => by
      show get? (LiveMemory.withOrder v.order v.report) key = _
      rw [get?_withOrder, if_neg (hother key hkey).2.2, hreport]
    rw [nextRecord_availability _ hnew.measures havailable, hselected key havailable, if_neg htime, get?_entry,
      if_neg hidentity]
    rfl
  · have hfields := havailable
    simp only [availabilityFields, List.mem_cons, List.not_mem_nil, or_false, not_or] at hfields
    rw [get?_nextRecord _ _ hfields.1 hfields.2]
    by_cases htime : key = "lastReportTime"
    · rw [if_pos htime, if_pos htime]
      rfl
    · have hidentity : key ∉ identityFields := by
        simp only [identityFields, List.mem_cons, List.not_mem_nil, or_false, not_or]
        exact ⟨hkey.1, hkey.2, htime⟩
      have hentry : get? v.entry.fields key = get? (updateOf v).data key := by
        rw [get?_entry, if_neg hidentity]
        rfl
      rw [if_neg htime, if_neg htime, get?_merge hdata, hentry]
      cases hvalue : get? (updateOf v).data key with
      | some value => rfl
      | none =>
        -- the record before the update does not have the field either
        rw [Option.none_or]
        cases hold : nodes v.uuid with
        | none =>
          rw [(h.gone v.uuid hold).2]
          rfl
        | some old =>
          obtain ⟨client, record, -, hrecord, -, hsame⟩ := h.parts hold
          have hgone := hnew.keeps old hold key havailable (hentry.trans hvalue)
          have hfield := congrFun hsame key
          rw [recordField, if_neg (by simp [hkey]), publicNode] at hfield
          rw [hrecord, Option.getD_some, hfield]
          exact (if_neg htime).trans hgone

theorem keys_nextRecord_nodup {previous : Fields} (hprevious : (Assoc.keys previous).Nodup)
    (message : LiveDataUpdateMessage) : (Assoc.keys (nextRecord previous message)).Nodup := by
  have hrecord : (Assoc.keys (Assoc.set (Assoc.merge previous message.data) "lastReportTime"
      (number message.timestamp))).Nodup := Assoc.keys_set_nodup (Assoc.keys_merge_nodup hprevious)
  have hcapacity : (Assoc.keys (withCapacity message.data (selectMetricAvailability message.data)
      (Assoc.set (Assoc.merge previous message.data) "lastReportTime" (number message.timestamp)))).Nodup := by
    rw [withCapacity]
    split_ifs
    · cases get? (selectMetricAvailability message.data) "cpu_capacity" with
      | none => exact keys_filter_nodup _ hrecord
      | some capacity => exact Assoc.keys_set_nodup hrecord
    · exact hrecord
  exact Assoc.keys_merge_nodup (keys_filter_nodup _ (keys_filter_nodup _ hcapacity))

theorem LiveDataResponse.Shows.keys_nodup (h : view.Shows nodes) (uuid : String) :
    (Assoc.keys ((get? view.data uuid).getD [])).Nodup := by
  cases hrecord : get? view.data uuid with
  | none => exact List.nodup_nil
  | some record => exact h.records uuid record hrecord

/-- The entry of a node after an update. -/
theorem get?_nextEntry_shown (h : view.Shows nodes) (hnew : Replaces nodes v) (key : String) :
    get? (withoutIdentity (Assoc.merge (Assoc.erase (Assoc.erase
      (((view.client? v.uuid).map LiveClient.fields).getD []) "cpu_capacity") "metric_errors")
      (nextRecord ((get? view.data v.uuid).getD []) (updateOf v)))) key = get? v.entry.fields key := by
  rw [get?_withoutIdentity]
  by_cases hidentity : key ∈ identityFields
  · rw [if_pos hidentity, get?_entry, if_pos hidentity]
  · have hfields := hidentity
    simp only [identityFields, List.mem_cons, List.not_mem_nil, or_false, not_or] at hfields
    obtain ⟨huuid, hname, htime⟩ := hfields
    rw [if_neg hidentity, get?_merge (keys_nextRecord_nodup (h.keys_nodup v.uuid) _),
      get?_nextRecord_shown h hnew ⟨huuid, hname⟩, if_neg htime, get?_erase, get?_erase]
    cases hvalue : get? v.entry.fields key with
    | some value => rfl
    | none =>
      rw [Option.none_or]
      split_ifs with herrors hcapacity
      · rfl
      · rfl
      · cases hold : nodes v.uuid with
        | none =>
          rw [(h.gone v.uuid hold).1]
          rfl
        | some old =>
          obtain ⟨client, record, hclient, -, hsame, -⟩ := h.parts hold
          rw [hclient, Option.map_some, Option.getD_some, hsame]
          exact hnew.keeps old hold key (by simp [availabilityFields, herrors, hcapacity]) hvalue

theorem LiveDataResponse.Shows.update (h : view.Shows nodes) (hnew : Replaces nodes v) :
    (applyLiveUpdate (some view) (updateOf v)).Shows fun uuid => if uuid = v.uuid then some v else nodes uuid := by
  have hdata : ∀ uuid, get? (applyLiveUpdate (some view) (updateOf v)).data uuid =
      if uuid = v.uuid then some (nextRecord ((get? view.data v.uuid).getD []) (updateOf v))
      else get? view.data uuid := fun uuid => get?_set _ _ _ _
  have hname : nextName (updateOf v) (view.client? v.uuid) = v.name := if_pos hnew.named
  constructor
  · intro uuid
    rw [mem_online_update, h.online]
    show uuid = v.uuid ∨ _ ↔ _
    split_ifs with heq <;> simp [heq]
  · intro uuid w hw
    rw [LiveDataResponse.node?, client?_update, hdata]
    split_ifs at hw with heq
    · cases hw
      have hsame : uuid = (updateOf v).client := heq
      rw [if_pos hsame, if_pos heq, bind_some, Option.map_some]
      refine congrArg some ?_
      rw [publicNode, LiveNode.mk.injEq]
      refine ⟨hname, rfl, funext (get?_nextEntry_shown h hnew), funext fun key => ?_⟩
      rw [recordField]
      split_ifs with hidentity htime htime
      · rcases hidentity with rfl | rfl <;> exact absurd htime (by decide)
      · rw [get?_entry, if_pos]
        rcases hidentity with rfl | rfl <;> decide
      · exact (get?_nextRecord_shown h hnew (not_or.mp hidentity)).trans (if_pos htime)
      · exact (get?_nextRecord_shown h hnew (not_or.mp hidentity)).trans (if_neg htime)
    · have hother : uuid ≠ (updateOf v).client := heq
      rw [if_neg hother, if_neg heq]
      exact h.node uuid w hw
  · intro uuid hnone
    split_ifs at hnone with heq
    have hother : uuid ≠ (updateOf v).client := heq
    rw [client?_update, hdata, if_neg hother, if_neg heq]
    exact h.gone uuid hnone
  · intro uuid record hrecord
    rw [hdata] at hrecord
    split_ifs at hrecord with heq
    · cases hrecord
      exact keys_nextRecord_nodup (h.keys_nodup v.uuid) _
    · exact h.records uuid record hrecord

theorem LiveDataResponse.Shows.remove (h : view.Shows nodes) (message : LiveDataRemoveMessage) :
    ((applyLiveRemove (some view) message).getD view).Shows fun uuid =>
      if uuid = message.client then none else nodes uuid := by
  obtain ⟨last, hlast⟩ := remove_some view message
  have hclient : ∀ uuid, uuid ≠ message.client → (view.clients.filter fun client =>
      decide (client.uuid ≠ message.client)).find? (fun client => decide (client.uuid = uuid)) = view.client? uuid :=
    fun uuid hne => find_filter_ne hne
  rw [hlast, Option.getD_some]
  constructor
  · intro uuid
    rw [List.mem_filter, h.online]
    split_ifs with heq <;> simp [heq]
  · intro uuid w hw
    split_ifs at hw with heq
    have hnode := h.node uuid w hw
    rw [LiveDataResponse.node?] at hnode ⊢
    rw [LiveDataResponse.client?]
    rw [hclient uuid heq, get?_erase, if_neg heq]
    exact hnode
  · intro uuid hnone
    rw [LiveDataResponse.client?, get?_erase]
    split_ifs at hnone ⊢ with heq
    · subst heq
      exact ⟨find_filter_self view.clients message.client, rfl⟩
    · rw [hclient uuid heq]
      exact h.gone uuid hnone
  · intro uuid record hrecord
    rw [get?_erase] at hrecord
    split_ifs at hrecord
    exact h.records uuid record hrecord

end Update

/-! ## Runs -/

/-- The public fields that a report can lack, besides those about missing metrics. -/
def optionalFields : List String := ["disk_source", "disk_sampled_at", "timestamp", "basic_info"]

/-- The nodes that the server shows the public. -/
def LiveLink.nodes (s : LiveLink) (uuid : String) : Option PublicView :=
  if uuid ∈ s.expired then none else shown s.memory uuid

/-- A report of a node has each field that a report can lack and that the last one had, and the node has a name.  A
    report over an old socket does not come while the node is online, and a node whose state was stored as hidden is
    not removed while it is shown. -/
def KeepsFields (rules : ReportRules) (s : LiveLink) : LinkEvent → LiveLink → Prop
  | .report r, _ => ∀ next, s.accepted rules r = some next → next.hidden = false →
    if r.current then next.name ≠ "" ∧ ∀ old, s.nodes r.uuid = some old → ∀ key ∈ optionalFields,
      (Assoc.get? old.report key).isSome → (Assoc.get? (toPublicReport next.lastReport) key).isSome
    else s.nodes r.uuid = none
  | .offline _ _, _ => True
  | .remove uuid _, _ => ∀ existing, s.known uuid = some existing → existing.hidden = true → s.nodes uuid = none

/-- What the server remembers of its controls is what is stored, and the view shows what the server has. -/
structure LinkInv (stored : Option AdminClientsSnapshot) (s : LiveLink) : Prop where
  controls : s.memory.controls = Controls.ofRead stored
  keyed : KeyedByUuid s.memory.clients
  shows : s.view.Shows s.nodes

variable {clients : List (String × ClientState)}

theorem KeyedByUuid.set (h : KeyedByUuid clients) (client : ClientState) :
    KeyedByUuid (Assoc.set clients client.uuid client) := by
  refine ⟨Assoc.keys_set_nodup h.nodup, fun p hp => ?_⟩
  rcases Assoc.mem_set hp with rfl | hold
  · rfl
  · exact h.keyed p hold

theorem KeyedByUuid.erase (h : KeyedByUuid clients) (uuid : String) :
    KeyedByUuid (Assoc.erase clients uuid) :=
  ⟨keys_filter_nodup _ h.nodup, fun p hp => h.keyed p (List.mem_filter.mp hp).1⟩

section Step

variable {stored : Option AdminClientsSnapshot} {rules : ReportRules} {s : LiveLink}

/-- The name and the visibility that an entry of the management snapshot gives, or those of before. -/
def controlOf (entry : Option ClientRow) (current : Option ClientState) (name : String) (hidden : Bool) :
    String × Bool :=
  match entry with
  | some row => (row.nameOr name, Live.booleanField row.fields "hidden")
  | none => (current.map fun c => (c.name, c.hidden)).getD (name, hidden)

theorem resolve_eq (hrows : ((rowsOf stored).map ClientRow.uuid).Nodup) (current : Option ClientState)
    (uuid name : String) (hidden : Bool) :
    resolveReportClientControl (Controls.ofRead stored).adminClientsSnapshot current uuid name hidden =
      if (Controls.ofRead stored).adminClientsSnapshot.any fun s => s.disowns uuid (entryOf stored uuid) then none
      else some (controlOf (entryOf stored uuid) current name hidden) := by
  have hentry : ((Controls.ofRead stored).adminClientsSnapshot.bind fun s => s.clients.find? fun row =>
      row.uuid == uuid) = entryOf stored uuid := by
    rw [← find?_eq_entryOf hrows uuid]
    cases stored <;> rfl
  rw [resolveReportClientControl, hentry]
  cases entryOf stored uuid <;> rfl

variable {r : IncomingReport}

theorem accepted_controlled (hrows : ((rowsOf stored).map ClientRow.uuid).Nodup)
    (hcontrols : s.memory.controls = Controls.ofRead stored) {next : ClientState}
    (h : s.accepted rules r = some next) : s.memory.controls.controlledClientState next = some next := by
  obtain ⟨⟨name, hidden⟩, hresolve, rfl⟩ := map_eq_some_iff.mp h
  rw [hcontrols] at hresolve ⊢
  rw [resolve_eq hrows] at hresolve
  simp only [Controls.controlledClientState, ofRead_metadata]
  rw [← entryOf]
  split_ifs at hresolve ⊢ with hdisowned
  cases hrow : entryOf stored r.uuid with
  | none => rfl
  | some row =>
    rw [hrow] at hresolve
    cases hresolve
    simp only [← nameOr_nameOr]

theorem view_accepted (hrows : ((rowsOf stored).map ClientRow.uuid).Nodup)
    (hcontrols : s.memory.controls = Controls.ofRead stored) {next : ClientState}
    (h : s.accepted rules r = some next) : s.memory.view next = if next.hidden then none else
      some ⟨next.uuid, next.name, next.lastReportTime, next.expiresAt, s.memory.sortOrder next.uuid,
        toPublicReport next.lastReport⟩ := by
  rw [LiveMemory.view, accepted_controlled hrows hcontrols h]

/-- A node is under the same control before and after a report. -/
theorem hidden_stays (hrows : ((rowsOf stored).map ClientRow.uuid).Nodup)
    (hinv : LinkInv stored s) {next : ClientState}
    (h : s.accepted rules r = some next) (hhidden : next.hidden = true) : s.nodes r.uuid = none := by
  obtain ⟨⟨name, hidden⟩, hresolve, rfl⟩ := map_eq_some_iff.mp h
  rw [LiveLink.nodes, shown]
  split_ifs
  · rfl
  · cases hclient : get? s.memory.clients r.uuid with
    | none => rfl
    | some client =>
      have huuid : client.uuid = r.uuid := hinv.keyed.keyed (r.uuid, client) (mem_of_get? hclient)
      have hknown : s.known r.uuid = some client := by
        rw [LiveLink.known, hclient]
        rfl
      rw [hknown, hinv.controls, resolve_eq hrows] at hresolve
      rw [bind_some, LiveMemory.view, hinv.controls]
      simp only [Controls.controlledClientState, ofRead_metadata, huuid]
      rw [← entryOf]
      split_ifs at hresolve ⊢ with hdisowned
      cases hrow : entryOf stored r.uuid with
      | none =>
        rw [hrow] at hresolve
        obtain ⟨-, rfl⟩ := Prod.mk.inj (some.inj hresolve)
        exact if_pos hhidden
      | some row =>
        rw [hrow] at hresolve
        obtain ⟨-, rfl⟩ := Prod.mk.inj (some.inj hresolve)
        exact if_pos hhidden

theorem public_measured {report : Fields} (h : Normalised report) : ∀ key ∈ publicFields,
    key ∉ optionalFields → key ∉ availabilityFields → (get? (toPublicReport report) key).isSome := by
  have hmetric : ∀ {key : String}, key ∈ METRIC_FIELDS → ∀ {value : Json}, get? report key = some value →
      scalar (some value) = some value → (get? (toPublicReport report) key).isSome := by
    intro key hkey value hvalue hscalar
    rw [get?_public_metric hkey, hvalue, hscalar]
    rfl
  have hsplit : ∀ key ∈ publicFields, key ∉ optionalFields → key ∉ availabilityFields →
      key ∈ nullableFields.map Prod.fst ∨ key = "gpu" ∨ key ∈ countFields ∨ key = "temp" ∨ key = "version" ∨
        key = "gpus" := by decide
  intro key hkey hoptional havailable
  rcases hsplit key hkey hoptional havailable with hnullable | rfl | hcount | rfl | rfl | rfl
  · have hpublic : ∀ p ∈ nullableFields, p.1 ∈ METRIC_FIELDS := by decide
    obtain ⟨p, hp, rfl⟩ := List.mem_map.mp hnullable
    rcases h.nullable p hp with hnull | ⟨x, hx, -⟩
    · exact hmetric (hpublic p hp) hnull rfl
    · exact hmetric (hpublic p hp) hx rfl
  · obtain ⟨x, hx, -⟩ := h.gpu
    exact hmetric (by decide) hx rfl
  · have hpublic : ∀ key ∈ countFields, key ∈ METRIC_FIELDS := by decide
    obtain ⟨n, hn, -⟩ := h.counts key hcount
    exact hmetric (hpublic key hcount) hn rfl
  · rcases h.temp with hnull | ⟨x, hx, -⟩
    · exact hmetric (by decide) hnull rfl
    · exact hmetric (by decide) hx rfl
  · obtain ⟨version, hversion, hfits⟩ := h.version
    refine hmetric (by decide) hversion (congrArg (fun text => some (Json.str text)) ?_)
    exact sliceUnits_mono (by decide) hfits
  · rw [get?_toPublicReport, if_neg (by decide), if_pos rfl]
    rfl

variable {uuid : String}

theorem nodes_public (hinv : LinkInv stored s) {v : PublicView} (h : s.nodes uuid = some v) :
    IsPublic v ∧ v.order = s.memory.sortOrder uuid := by
  rw [LiveLink.nodes] at h
  split_ifs at h
  obtain ⟨client, hclient, hview⟩ := Option.bind_eq_some_iff.mp h
  have huuid : v.uuid = uuid :=
    (view_keeps hview).1.trans (hinv.keyed.keyed (uuid, client) (mem_of_get? hclient))
  refine ⟨isPublic_of_view hview, ?_⟩
  rw [← huuid]
  rw [LiveMemory.view] at hview
  cases hcontrolled : s.memory.controls.controlledClientState client with
  | none =>
    rw [hcontrolled] at hview
    cases hview
  | some current =>
    rw [hcontrolled] at hview
    simp only at hview
    split_ifs at hview
    cases hview
    rfl

theorem accepted_report {next : ClientState} (h : s.accepted rules r = some next) :
    next.uuid = r.uuid ∧ Normalised next.lastReport := by
  have hnormal : Normalised (rules.sanitizeReport (rules.normalizeMonitorReport r.input) r.network) :=
    (normalizeMonitorReport_normalised rules r.input).congr fun f hf => sanitizeReport_public rules _ r.network hf
  obtain ⟨control, -, rfl⟩ := map_eq_some_iff.mp h
  exact ⟨rfl, hnormal⟩

theorem replaces_accepted (hinv : LinkInv stored s) {next : ClientState}
    (h : s.accepted rules r = some next) (hname : next.name ≠ "")
    (hkeeps : ∀ old, s.nodes r.uuid = some old → ∀ key ∈ optionalFields,
      (get? old.report key).isSome → (get? (toPublicReport next.lastReport) key).isSome) :
    Replaces s.nodes ⟨next.uuid, next.name, next.lastReportTime, next.expiresAt, s.memory.sortOrder next.uuid,
      toPublicReport next.lastReport⟩ := by
  obtain ⟨huuid, hnormal⟩ := accepted_report h
  constructor
  · exact hname
  · exact ⟨_, rfl⟩
  · intro metric hmem
    have hfields : ∀ metric ∈ metricFields, ∃ field ∈ metric.2, field ∈ publicFields ∧ field ∉ optionalFields ∧
      field ∉ availabilityFields ∧ field ≠ "sort_order" := by decide
    obtain ⟨field, hfield, hpublic, hoptional, havailable, horder⟩ := hfields metric hmem
    rw [List.any_eq_true]
    refine ⟨field, hfield, ?_⟩
    rw [get?_withOrder, if_neg horder]
    exact public_measured hnormal field hpublic hoptional havailable
  · intro old hold key hkey hnone
    rw [huuid] at hold
    obtain ⟨⟨report, hreport⟩, horder⟩ := nodes_public hinv hold
    rw [get?_entry] at hnone ⊢
    split_ifs at hnone ⊢ with hidentity
    · rfl
    · rw [get?_withOrder] at hnone ⊢
      rw [horder, ← huuid]
      split_ifs at hnone ⊢ with hsort
      · exact hnone
      · by_cases hoptional : key ∈ optionalFields
        · by_contra hsome
          have hstays := hkeeps old hold key hoptional (Option.isSome_iff_ne_none.mpr hsome)
          rw [hnone] at hstays
          cases hstays
        · by_cases hpublic : key ∈ publicFields
          · have hthere := public_measured hnormal key hpublic hoptional hkey
            rw [hnone] at hthere
            cases hthere
          · rw [hreport]
            exact get?_public_other hpublic

/-! ### Steps -/

theorem nodes_setClient (s : LiveLink) (next : ClientState) : (s.setClient next).nodes = fun uuid =>
    if uuid = next.uuid then s.memory.view next else s.nodes uuid := by
  funext uuid
  show (if uuid ∈ s.expired.filter fun uuid => decide (uuid ≠ next.uuid) then none
    else (get? (Assoc.set s.memory.clients next.uuid next) uuid).bind s.memory.view) = _
  rw [get?_set]
  by_cases heq : uuid = next.uuid
  · simp [heq]
  · simp [heq, LiveLink.nodes, shown]

theorem nodes_deleteClient (s : LiveLink) (uuid : String) : (s.deleteClient uuid).nodes = fun other =>
    if other = uuid then none else s.nodes other := by
  funext other
  show (if other ∈ s.expired then none
    else (get? (Assoc.erase s.memory.clients uuid) other).bind s.memory.view) = _
  rw [get?_erase]
  by_cases heq : other = uuid
  · simp [heq]
  · simp [heq, LiveLink.nodes, shown]

/-- A message changes the view alone. -/
theorem broadcast_frame (s : LiveLink) (hidden : Bool) (message : ViewerMessage) :
    (s.broadcast hidden message).memory = s.memory ∧ (s.broadcast hidden message).nodes = s.nodes := by
  rw [LiveLink.broadcast]
  split_ifs <;> exact ⟨rfl, rfl⟩

theorem broadcastOffline_frame (s : LiveLink) (client : ClientState) (now : Int) :
    (s.broadcastOfflineClient client now).memory = s.memory ∧
      (s.broadcastOfflineClient client now).nodes = s.nodes := by
  rw [LiveLink.broadcastOfflineClient]
  cases s.memory.controls.controlledClientState client with
  | none => exact ⟨rfl, rfl⟩
  | some current => exact broadcast_frame s current.hidden _

variable {nodes : String → Option PublicView}

/-- A node that is not shown can be left out. -/
theorem without_gone (h : nodes uuid = none) :
    (fun other => if other = uuid then none else nodes other) = nodes := by
  funext other
  by_cases heq : other = uuid
  · rw [heq, if_pos rfl, h]
  · rw [if_neg heq]

theorem broadcastOffline_shows (h : s.view.Shows nodes) (client : ClientState)
    (now : Int) (hgone : s.memory.view client = none → nodes client.uuid = none) :
    (s.broadcastOfflineClient client now).view.Shows fun uuid => if uuid = client.uuid then none else nodes uuid := by
  rw [LiveMemory.view] at hgone
  rw [LiveLink.broadcastOfflineClient]
  cases hcontrolled : s.memory.controls.controlledClientState client with
  | none =>
    rw [hcontrolled] at hgone
    rw [without_gone (hgone rfl)]
    exact h
  | some current =>
    rw [hcontrolled] at hgone
    show (s.broadcast current.hidden _).view.Shows _
    rw [LiveLink.broadcast]
    split_ifs with hhidden
    · rw [without_gone (hgone (if_pos hhidden))]
      exact h
    · rw [← (controlledClientState_keeps hcontrolled).1]
      exact h.remove ⟨current.uuid, now, true, _⟩

theorem LinkInv.report (hrows : ((rowsOf stored).map ClientRow.uuid).Nodup) (hinv : LinkInv stored s)
    {r : IncomingReport} {s' : LiveLink} (hkeeps : KeepsFields rules s (.report r) s')
    (hstep : s.updateClientReport rules r = some s') : LinkInv stored s' := by
  obtain ⟨next, hnext, rfl⟩ := map_eq_some_iff.mp hstep
  have hview := view_accepted hrows hinv.controls hnext
  obtain ⟨huuid, -⟩ := accepted_report hnext
  have hhides : next.hidden = true → s.nodes next.uuid = none := by
    intro hhidden
    rw [huuid]
    exact hidden_stays hrows hinv hnext hhidden
  obtain ⟨kept, hkept⟩ : ∃ kept, s.setLastKnown { next with lastReport := rules.compactLiveReport next.lastReport } = kept :=
    ⟨_, rfl⟩
  have hframe : kept.memory.controls = s.memory.controls ∧ kept.memory.clients = s.memory.clients ∧
      kept.nodes = s.nodes ∧ kept.view = s.view ∧ kept.memory.view = s.memory.view ∧
      kept.memory.sortOrder = s.memory.sortOrder := by
    subst hkept
    exact ⟨rfl, rfl, rfl, rfl, rfl, rfl⟩
  obtain ⟨hcontrols, hclients, hnodes, hsame, hviews, horder⟩ := hframe
  dsimp only
  rw [hkept]
  split_ifs with hcurrent
  · refine ⟨?_, ?_, ?_⟩
    · rw [(broadcast_frame _ _ _).1]
      exact hcontrols.trans hinv.controls
    · rw [(broadcast_frame _ _ _).1]
      show KeyedByUuid (Assoc.set kept.memory.clients next.uuid next)
      rw [hclients]
      exact hinv.keyed.set next
    · rw [(broadcast_frame _ _ _).2, nodes_setClient, hnodes, hviews, hview, LiveLink.broadcast]
      split_ifs with hhidden
      · rw [without_gone (hhides hhidden)]
        exact hsame ▸ hinv.shows
      · have hstays := hkeeps next hnext (by simpa using hhidden)
        rw [if_pos hcurrent] at hstays
        have hshows := hinv.shows.update (replaces_accepted hinv hnext hstays.1 hstays.2)
        show (applyLiveUpdate (some kept.view) ⟨next.uuid, some next.name, LiveMemory.withOrder
          (kept.memory.sortOrder next.uuid) (toPublicReport next.lastReport), next.lastReportTime⟩).Shows _
        rw [hsame, horder]
        exact hshows
  · have hgone : s.nodes next.uuid = none := by
      cases hhidden : next.hidden with
      | true => exact hhides hhidden
      | false =>
        have hstays := hkeeps next hnext hhidden
        rw [if_neg hcurrent] at hstays
        rw [huuid]
        exact hstays
    refine ⟨?_, ?_, ?_⟩
    · rw [(broadcastOffline_frame _ _ _).1]
      exact hcontrols.trans hinv.controls
    · rw [(broadcastOffline_frame _ _ _).1, hclients]
      exact hinv.keyed
    · have hshows := broadcastOffline_shows (s := kept) (hsame.symm ▸ hinv.shows) next r.receivedAt fun _ => hgone
      rw [without_gone hgone] at hshows
      rw [(broadcastOffline_frame _ _ _).2, hnodes]
      exact hshows

theorem LinkInv.takeOffline (hinv : LinkInv stored s) (uuid : String) (now : Int) :
    LinkInv stored (s.takeOffline uuid now) := by
  rw [LiveLink.takeOffline]
  cases hclient : get? s.memory.clients uuid with
  | none => exact hinv
  | some client =>
    have huuid : client.uuid = uuid := hinv.keyed.keyed (uuid, client) (mem_of_get? hclient)
    have hgone : s.memory.view client = none → s.nodes client.uuid = none := by
      intro hnone
      rw [LiveLink.nodes, shown, huuid, hclient, bind_some, hnone]
      exact ite_self none
    have hshows := broadcastOffline_shows (s := s.deleteClient uuid) hinv.shows client now hgone
    refine ⟨?_, ?_, ?_⟩
    · rw [(broadcastOffline_frame _ _ _).1]
      exact hinv.controls
    · rw [(broadcastOffline_frame _ _ _).1]
      exact hinv.keyed.erase uuid
    · rw [(broadcastOffline_frame _ _ _).2, nodes_deleteClient, ← huuid]
      rw [huuid] at hshows ⊢
      exact hshows

theorem LinkInv.removeClient (hinv : LinkInv stored s) {now : Int} {s' : LiveLink}
    (hkeeps : KeepsFields rules s (.remove uuid now) s') : LinkInv stored (s.removeClient uuid now) := by
  rw [LiveLink.removeClient]
  cases hknown : s.known uuid with
  | none => exact hinv
  | some existing =>
    refine ⟨?_, ?_, ?_⟩
    · rw [(broadcast_frame _ _ _).1]
      exact hinv.controls
    · rw [(broadcast_frame _ _ _).1]
      exact hinv.keyed.erase uuid
    · have hnodes : ((s.deleteClient uuid).deleteLastKnown uuid).nodes = _ := nodes_deleteClient s uuid
      rw [(broadcast_frame _ _ _).2, hnodes]
      show (((s.deleteClient uuid).deleteLastKnown uuid).broadcast existing.hidden (.remove uuid now)).view.Shows _
      rw [LiveLink.broadcast]
      split_ifs with hhidden
      · rw [without_gone (hkeeps existing hknown hhidden)]
        exact hinv.shows
      · exact hinv.shows.remove ⟨uuid, now, false, none⟩

theorem LinkInv.step (hrows : ((rowsOf stored).map ClientRow.uuid).Nodup) (hinv : LinkInv stored s)
    {event : LinkEvent} {s' : LiveLink} (hkeeps : KeepsFields rules s event s')
    (hstep : (linkMachine rules).step s event = some s') : LinkInv stored s' := by
  cases event with
  | report r => exact hinv.report hrows hkeeps hstep
  | offline uuid now =>
    cases hstep
    exact hinv.takeOffline uuid now
  | remove uuid now =>
    cases hstep
    exact hinv.removeClient hkeeps

end Step

/-! ### The result -/

/-- Two views show the same nodes, and every node with the same name, time and fields. -/
def SameNodes (view other : LiveDataResponse) : Prop :=
  (∀ uuid, uuid ∈ view.online ↔ uuid ∈ other.online) ∧
    ∀ uuid ∈ view.online, ∃ node, view.node? uuid = some node ∧ other.node? uuid = some node

/-- The viewer connects: its view is the server's snapshot. -/
def LiveLink.start (m : LiveMemory) (view : LiveDataResponse) (now : Int) : LiveLink :=
  ⟨m, view, (m.clients.filter fun p => !p.2.isOnline now).map Prod.fst⟩

/-- At this time the nodes that have expired are those whose offline event is still to come since the start. -/
def LiveLink.Settled (s : LiveLink) (now : Int) : Prop :=
  ∀ p ∈ s.memory.clients, p.2.isOnline now = true ↔ p.1 ∉ s.expired

theorem nodes_settled {s : LiveLink} {now : Int} (h : s.Settled now) :
    s.nodes = fun uuid => (shown s.memory uuid).filter fun v => v.isOnline now := by
  funext uuid
  rw [LiveLink.nodes, shown]
  cases hclient : get? s.memory.clients uuid with
  | none => simp
  | some client =>
    have hsettled := h (uuid, client) (mem_of_get? hclient)
    rw [bind_some]
    cases hview : s.memory.view client with
    | none => simp
    | some v =>
      have honline : v.isOnline now = client.isOnline now := (view_keeps hview).2 now
      by_cases hexpired : uuid ∈ s.expired
      · have hoff : client.isOnline now = false := by
          rw [← Bool.not_eq_true]
          exact fun hon => (hsettled.mp hon) hexpired
        simp [hexpired, Option.filter_some, honline, hoff]
      · have hon : client.isOnline now = true := hsettled.mpr hexpired
        simp [hexpired, Option.filter_some, honline, hon]

theorem settled_start {m : LiveMemory} (hkeyed : KeyedByUuid m.clients) (view : LiveDataResponse) (now : Int) :
    (LiveLink.start m view now).Settled now := by
  intro p hp
  show p.2.isOnline now = true ↔ p.1 ∉ (m.clients.filter fun p => !p.2.isOnline now).map Prod.fst
  constructor
  · intro hon hmem
    obtain ⟨q, hq, heq⟩ := List.mem_map.mp hmem
    obtain ⟨hin, hoff⟩ := List.mem_filter.mp hq
    have hsame : get? m.clients p.1 = some p.2 := Assoc.get?_of_mem hkeyed.nodup hp
    have hother : get? m.clients q.1 = some q.2 := Assoc.get?_of_mem hkeyed.nodup hin
    rw [heq, hsame] at hother
    rw [← some.inj hother, hon] at hoff
    cases hoff
  · intro hout
    by_contra hoff
    exact hout (List.mem_map_of_mem (List.mem_filter.mpr ⟨hp, by simpa using hoff⟩))

theorem sameNodes_of_shows {view other : LiveDataResponse} {nodes : String → Option PublicView}
    (h : view.Shows nodes) (hother : other.Shows nodes) : SameNodes view other := by
  refine ⟨fun uuid => (h.online uuid).trans (hother.online uuid).symm, fun uuid hin => ?_⟩
  obtain ⟨v, hv⟩ := Option.isSome_iff_exists.mp ((h.online uuid).mp hin)
  exact ⟨publicNode v, h.node uuid v hv, hother.node uuid v hv⟩

/-- No addresses, no regions and no numbers in texts. -/
def plainRules : ReportRules := ⟨fun _ => none, fun _ => "", fun _ => false, fun _ => false⟩

def nothingYet : LiveMemory := ⟨[], [], Controls.absent⟩

/-- A report of the node `a`. -/
def reportOf (input : Fields) (receivedAt : Int) : LinkEvent :=
  .report ⟨"a", "a", false, some (.obj input), none, receivedAt, none, none, true⟩

/-- The disk of the first report was measured before. -/
def cachedDisk : List LinkEvent :=
  [reportOf [("disk", Json.int 5), ("disk_source", .str "directory"), ("disk_sampled_at", Json.int 1)] 1,
    reportOf [("disk", Json.int 5)] 2]

/-- The server and the viewer after some events. -/
def linkAfter (events : List LinkEvent) : Option LiveLink :=
  (normalizeLiveDataResponse (some (snapshotJson (nothingYet.buildSnapshot false 0 0))) 0).bind fun view =>
    (linkMachine plainRules).run (.start nothingYet view 0) events

/-- A field of the entry of the node `a`. -/
def entryField (view : Option LiveDataResponse) (key : String) : Option String :=
  Json.str? (((view.bind fun view => view.node? "a").bind fun node => node.entry key))

end CfMonitor.Frontend
