/-
  What a browser reads in the server's snapshot (`buildSnapshot`, `normalizeLiveDataResponse`).

  1. **Nodes** (`LiveNode`) — what a view shows of a node, as lookups: the entry and the record, without the fields
     that identify the node.

  2. **Transport** — the snapshot as a value, as it is sent.

  3. **Result** — the view that is read (`read_snapshot`).
-/
import CfMonitor.Frontend.LivePatches
import CfMonitor.Live.CompactReport

namespace CfMonitor.Frontend

open CfMonitor.Lib CfMonitor.Live
open List (map_map mem_cons not_mem_nil)
open Assoc (get? get?_append get?_erase keys_filter_nodup keys_set_nodup)

/-! ## Nodes -/

/-- What a view shows of a node. -/
structure LiveNode where
  name : String
  lastReportTime : ℚ
  entry : String → Option Json
  record : String → Option Json

/-- The fields of a record, without the identity that only the records of a snapshot have. -/
def recordField (record : Fields) (key : String) : Option Json :=
  if key = "uuid" ∨ key = "name" then none else Assoc.get? record key

def LiveDataResponse.node? (view : LiveDataResponse) (uuid : String) : Option LiveNode :=
  (view.client? uuid).bind fun client => (Assoc.get? view.data uuid).map fun record =>
    ⟨client.name, client.lastReportTime, Assoc.get? client.fields, recordField record⟩

/-- The public view of an entry of the server as a node. -/
def publicNode (v : PublicView) : LiveNode :=
  ⟨v.name, v.lastReportTime, Assoc.get? v.entry.fields, fun key =>
    if key = "lastReportTime" then some (number v.lastReportTime) else Assoc.get? v.entry.fields key⟩

/-- A view shows these nodes and no others. -/
structure LiveDataResponse.Shows (view : LiveDataResponse) (nodes : String → Option PublicView) : Prop where
  online : ∀ uuid, uuid ∈ view.online ↔ (nodes uuid).isSome
  node : ∀ uuid v, nodes uuid = some v → view.node? uuid = some (publicNode v)
  gone : ∀ uuid, nodes uuid = none → view.client? uuid = none ∧ Assoc.get? view.data uuid = none
  records : ∀ uuid record, Assoc.get? view.data uuid = some record → (Assoc.keys record).Nodup

/-- The state that the server has of a node, as the public may see it. -/
def shown (m : LiveMemory) (uuid : String) : Option PublicView := (Assoc.get? m.clients uuid).bind m.view

/-! ## Transport -/

/-- An entry of the snapshot with the fields that identify its node. -/
def sentFields (client : LiveSnapshotClient) : Fields :=
  client.fields ++ [("uuid", .str client.uuid), ("name", .str client.name),
    ("lastReportTime", Json.int client.lastReportTime)]

def snapshotClientJson (client : LiveSnapshotClient) : Json := .obj (sentFields client)

def snapshotJson (snapshot : LiveSnapshot) : Json :=
  .obj ([("online", .arr (snapshot.online.map .str)),
    ("clients", .arr (snapshot.clients.map snapshotClientJson)),
    ("data", .obj (snapshot.data.map fun p => (p.1, snapshotClientJson p.2))),
    ("last_known", .obj (snapshot.lastKnown.map fun p => (p.1, snapshotClientJson p.2))),
    ("count", Json.int snapshot.count),
    ("timestamp", Json.int snapshot.timestamp)] ++
    match snapshot.metadataVersion with
    | some version => [("metadata_version", .str version)]
    | none => [])

/-! ## Availability -/

theorem selectMetricAvailability_parts (record : Fields) : selectMetricAvailability record =
    errorsPart (get? record "metric_errors") ++ capacityPart (get? record "cpu_capacity") := by
  rw [selectMetricAvailability]
  rcases get? record "cpu_capacity" with _ | (_ | _ | (_ | _) | _ | _ | _) <;> rfl

/-- The browser selects what the server selects. -/
theorem get?_availability (record : Fields) (key : String) :
    get? (selectMetricAvailability record) key = get? (Live.selectMetricAvailability record) key := by
  rw [selectMetricAvailability_parts, selectMetricAvailability_eq, get?_append, get?_append]
  rcases capacityPart_cases (get? record "cpu_capacity") with hc | ⟨x, -, hc⟩
  · rw [hc]
    exact Option.or_none
  · rw [hc]
    rcases errorsPart_cases (get? record "metric_errors") with he | ⟨errors, -, -, he⟩
    · rw [he]
      exact Option.or_none.symm
    · rw [he]
      by_cases hkey : key = "metric_errors"
      · subst hkey
        rfl
      · simp [get?, hkey]

/-- The fields about missing metrics are as the selection leaves them. -/
def Selected (record : Fields) : Prop :=
  ∀ key ∈ availabilityFields, Assoc.get? (selectMetricAvailability record) key = Assoc.get? record key

/-- Whether a metric is missing is said in two fields alone. -/
theorem Selected.congr {record other : Fields} (h : Selected record)
    (hsame : ∀ key ∈ availabilityFields, get? other key = get? record key) : Selected other := by
  intro key hkey
  rw [get?_availability, selectMetricAvailability_congr hsame, ← get?_availability, h key hkey, hsame key hkey]

theorem selected_public (report : Fields) : Selected (toPublicReport report) := by
  intro key hkey
  have hother : ∀ key ∈ availabilityFields, key ≠ "basic_info" ∧ key ≠ "gpus" ∧ key ∉ METRIC_FIELDS := by decide
  obtain ⟨hinfo, hgpus, hmetric⟩ := hother key hkey
  rw [get?_availability, public_availability, get?_toPublicReport, if_neg hinfo, if_neg hgpus, if_neg hmetric]

/-! ## Public reports -/

theorem keys_filterMap_nodup {fields : List String} (h : fields.Nodup) (value : String → Option Json) :
    (Assoc.keys (fields.filterMap fun field => (value field).map fun item => (field, item))).Nodup := by
  induction fields with
  | nil => exact List.nodup_nil
  | cons first rest ih =>
    obtain ⟨hout, hrest⟩ := List.nodup_cons.mp h
    cases hvalue : value first with
    | none => simpa only [List.filterMap_cons, hvalue, Option.map_none] using ih hrest
    | some item =>
      have hmiss : first ∉ Assoc.keys (rest.filterMap fun field => (value field).map fun item => (field, item)) := by
        intro hmem
        obtain ⟨p, hp, rfl⟩ := List.mem_map.mp hmem
        obtain ⟨field, hfield, hmap⟩ := List.mem_filterMap.mp hp
        obtain ⟨_, -, rfl⟩ := Option.map_eq_some_iff.mp hmap
        exact hout hfield
      rw [List.filterMap_cons, hvalue]
      exact List.nodup_cons.mpr ⟨hmiss, ih hrest⟩

theorem keys_toPublicReport_nodup (report : Fields) : (Assoc.keys (toPublicReport report)).Nodup := by
  have hbase : (Assoc.keys (Assoc.merge (selectScalars report METRIC_FIELDS)
      (Live.selectMetricAvailability report))).Nodup :=
    Assoc.keys_merge_nodup (keys_filterMap_nodup (by decide) _)
  rw [toPublicReport]
  split
  · exact keys_set_nodup (keys_set_nodup hbase)
  · exact keys_set_nodup (keys_set_nodup hbase)
  · exact keys_set_nodup hbase

theorem keys_withOrder_nodup {report : Fields} (order : Option ℚ) (h : (Assoc.keys report).Nodup) :
    (Assoc.keys (LiveMemory.withOrder order report)).Nodup := by
  have herased : (Assoc.keys (Assoc.erase report "sort_order")).Nodup := keys_filter_nodup _ h
  cases order with
  | none => exact herased
  | some x => exact keys_set_nodup herased

theorem get?_withOrder (order : Option ℚ) (report : Fields) (key : String) :
    get? (LiveMemory.withOrder order report) key =
      if key = "sort_order" then order.map number else get? report key := by
  cases order with
  | none => exact get?_erase _ _ _
  | some x =>
    show get? (Assoc.set (Assoc.erase report "sort_order") "sort_order" _) key = _
    rw [Assoc.get?_set, get?_erase]
    split_ifs <;> rfl

/-- The fields that a public report may have. -/
theorem get?_public_other {report : Fields} {key : String} (hkey : key ∉ publicFields) :
    get? (toPublicReport report) key = none := by
  simp only [publicFields, List.mem_append, mem_cons, not_mem_nil, or_false, not_or] at hkey
  obtain ⟨hmetric, hcapacity, herrors, hgpus, hinfo⟩ := hkey
  rw [get?_toPublicReport, if_neg hinfo, if_neg hgpus, if_neg hmetric]
  exact Live.get?_selectMetricAvailability_other (by simp [availabilityFields, hcapacity, herrors])

/-! ## Reading -/

def identityFields : List String := ["uuid", "name", "lastReportTime"]

theorem get?_withoutIdentity (record : Fields) (key : String) : get? (withoutIdentity record) key =
    if key ∈ identityFields then none else get? record key := by
  rw [withoutIdentity, get?_erase, get?_erase, get?_erase]
  simp only [identityFields, mem_cons, not_mem_nil, or_false]
  split_ifs <;> simp_all

theorem get?_normalizeLiveMetricMetadata {record : Fields} (h : Selected record) (key : String) :
    get? (normalizeLiveMetricMetadata record) key = get? record key := by
  rw [normalizeLiveMetricMetadata, Assoc.get?_merge (keys_selectMetricAvailability_nodup _), get?_erase,
    get?_erase]
  by_cases hkey : key ∈ availabilityFields
  · rw [h key hkey]
    simp only [availabilityFields, mem_cons, not_mem_nil, or_false] at hkey
    rcases hkey with rfl | rfl
    · exact Option.or_none
    · exact Option.or_none
  · simp only [availabilityFields, mem_cons, not_mem_nil, or_false, not_or] at hkey
    rw [get?_selectMetricAvailability_other hkey.1 hkey.2, Option.none_or, if_neg hkey.2, if_neg hkey.1]

theorem keys_normalizeLiveMetricMetadata_nodup {record : Fields} (h : (Assoc.keys record).Nodup) :
    (Assoc.keys (normalizeLiveMetricMetadata record)).Nodup :=
  Assoc.keys_merge_nodup (keys_filter_nodup _ (keys_filter_nodup _ h))

/-- The views of the server: their report is a public one. -/
def IsPublic (v : PublicView) : Prop := ∃ report, v.report = toPublicReport report

section Entry

variable (v : PublicView)

theorem get?_entry (key : String) : get? v.entry.fields key =
    if key ∈ identityFields then none else get? (LiveMemory.withOrder v.order v.report) key :=
  get?_withoutIdentity _ key

theorem get?_sentFields (key : String) : get? (sentFields v.entry) key =
    if key = "uuid" then some (.str v.uuid) else if key = "name" then some (.str v.name)
    else if key = "lastReportTime" then some (number v.lastReportTime) else get? v.entry.fields key := by
  rw [sentFields, get?_append, get?_entry]
  by_cases hkey : key ∈ identityFields
  · rw [if_pos hkey, Option.none_or]
    simp only [identityFields, mem_cons, not_mem_nil, or_false] at hkey
    rcases hkey with rfl | rfl | rfl <;> rfl
  · rw [if_neg hkey]
    simp only [identityFields, mem_cons, not_mem_nil, or_false, not_or] at hkey
    obtain ⟨huuid, hname, htime⟩ := hkey
    rw [if_neg huuid, if_neg hname, if_neg htime]
    simp [get?, huuid, hname, htime]

theorem selected_sentFields {v : PublicView} (h : IsPublic v) : Selected (sentFields v.entry) := by
  obtain ⟨report, hreport⟩ := h
  refine (selected_public report).congr fun key hkey => ?_
  have hother : ∀ key ∈ availabilityFields, key ∉ identityFields ∧ key ≠ "uuid" ∧ key ≠ "name" ∧
    key ≠ "lastReportTime" ∧ key ≠ "sort_order" := by decide
  obtain ⟨hidentity, huuid, hname, htime, horder⟩ := hother key hkey
  rw [get?_sentFields, if_neg huuid, if_neg hname, if_neg htime, get?_entry, if_neg hidentity, get?_withOrder,
    if_neg horder, hreport]

theorem keys_sentFields_nodup {v : PublicView} (h : IsPublic v) : (Assoc.keys (sentFields v.entry)).Nodup := by
  obtain ⟨report, hreport⟩ := h
  have hfields : (Assoc.keys v.entry.fields).Nodup := by
    refine keys_filter_nodup _ (keys_filter_nodup _ (keys_filter_nodup _ ?_))
    rw [hreport]
    exact keys_withOrder_nodup v.order (keys_toPublicReport_nodup report)
  have hmiss : ∀ key ∈ identityFields, key ∉ Assoc.keys v.entry.fields := by
    intro key hkey
    rw [← Assoc.get?_isSome, get?_entry, if_pos hkey]
    simp
  rw [sentFields, Assoc.keys, List.map_append]
  refine List.nodup_append.mpr ⟨hfields, (show identityFields.Nodup by decide), ?_⟩
  intro a ha b hb hab
  exact hmiss b hb (hab ▸ ha)

/-- The entry and the record that are read. -/
def readClient : LiveClient :=
  ⟨v.uuid, v.name, v.lastReportTime, withoutIdentity (normalizeLiveMetricMetadata (sentFields v.entry))⟩

def readRecord : Fields := normalizeLiveMetricMetadata (sentFields v.entry)

theorem normalizeLiveClient_entry : normalizeLiveClient (snapshotClientJson v.entry) = some (readClient v) := by
  have huuid := get?_sentFields v "uuid"
  have hname := get?_sentFields v "name"
  have htime := get?_sentFields v "lastReportTime"
  rw [if_pos rfl] at huuid
  rw [if_neg (by decide), if_pos rfl] at hname
  rw [if_neg (by decide), if_neg (by decide), if_pos rfl] at htime
  rw [normalizeLiveClient, snapshotClientJson]
  simp only [asRecord, Json.obj?, Option.bind_eq_bind, Option.bind_some, huuid, hname, htime]
  rfl

theorem readClient_node {v : PublicView} (h : IsPublic v) : get? (readClient v).fields = (publicNode v).entry := by
  funext key
  show get? (withoutIdentity (normalizeLiveMetricMetadata (sentFields v.entry))) key = _
  rw [get?_withoutIdentity, get?_normalizeLiveMetricMetadata (selected_sentFields h), get?_sentFields]
  show _ = get? v.entry.fields key
  rw [get?_entry]
  simp only [identityFields, mem_cons, not_mem_nil, or_false]
  split_ifs <;> simp_all

theorem readRecord_node {v : PublicView} (h : IsPublic v) : recordField (readRecord v) = (publicNode v).record := by
  funext key
  rw [recordField, readRecord, get?_normalizeLiveMetricMetadata (selected_sentFields h), get?_sentFields]
  show _ = if key = "lastReportTime" then _ else get? v.entry.fields key
  rw [get?_entry]
  simp only [identityFields, mem_cons, not_mem_nil, or_false]
  split_ifs <;> simp_all

end Entry

/-! ## The snapshot -/

theorem normalize_snapshotJson (snapshot : LiveSnapshot) (at_ : ℚ) : ∃ view,
    normalizeLiveDataResponse (some (snapshotJson snapshot)) at_ = some view ∧ view.online = snapshot.online ∧
      view.clients = (snapshot.clients.map snapshotClientJson).filterMap normalizeLiveClient ∧
      view.data = snapshot.data.map fun p => (p.1, normalizeLiveMetricMetadata (sentFields p.2)) := by
  have hitems : ((snapshot.online.map Json.str).mapM fun item => Json.str? (some item)) = some snapshot.online := by
    induction snapshot.online with
    | nil => rfl
    | cons first rest ih =>
      rw [List.map_cons, List.mapM_cons, ih]
      rfl
  obtain ⟨fields, hjson, honline, hclients, hdata, hcount⟩ : ∃ fields, snapshotJson snapshot = .obj fields ∧
      get? fields "online" = some (.arr (snapshot.online.map .str)) ∧
      get? fields "clients" = some (.arr (snapshot.clients.map snapshotClientJson)) ∧
      get? fields "data" = some (.obj (snapshot.data.map fun p => (p.1, snapshotClientJson p.2))) ∧
      get? fields "count" = some (Json.int snapshot.count) := ⟨_, rfl, rfl, rfl, rfl, rfl⟩
  have hcounted : (asFiniteNumber (some (Json.int snapshot.count))).filter (fun count => decide (0 ≤ count)) =
      some (snapshot.count : ℚ) := by
    rw [Option.filter_eq_some_iff]
    exact ⟨rfl, decide_eq_true (Nat.cast_nonneg _)⟩
  have hrecords : ((snapshot.data.map fun p => (p.1, snapshotClientJson p.2)).filterMap fun entry =>
      (asRecord (some entry.2)).map fun fields => (entry.1, normalizeLiveMetricMetadata fields)) =
      snapshot.data.map fun p => (p.1, normalizeLiveMetricMetadata (sentFields p.2)) := by
    rw [List.filterMap_map, ← List.filterMap_eq_map]
    rfl
  rw [hjson, normalizeLiveDataResponse]
  simp only [asRecord, Json.obj?, Json.arr?, Option.bind_eq_bind, Option.bind_some, honline, hclients, hdata, hcount,
    hitems, hcounted, Option.getD_some]
  exact ⟨_, rfl, rfl, rfl, hrecords⟩

/-- The states of a map, each under its own uuid and none twice. -/
structure KeyedByUuid (entries : List (String × ClientState)) : Prop where
  nodup : (Assoc.keys entries).Nodup
  keyed : ∀ p ∈ entries, p.2.uuid = p.1

section Views

variable {m : LiveMemory}

theorem isPublic_of_view {client : ClientState} {v : PublicView} (h : m.view client = some v) : IsPublic v := by
  rw [LiveMemory.view] at h
  cases hcontrolled : m.controls.controlledClientState client with
  | none =>
    rw [hcontrolled] at h
    cases h
  | some current =>
    rw [hcontrolled] at h
    simp only at h
    split_ifs at h
    exact ⟨current.lastReport, (congrArg PublicView.report (Option.some.inj h)).symm⟩

variable {entries : List (String × ClientState)}

theorem find_views (h : KeyedByUuid entries) (now : Int) (uuid : String) :
    ((m.views entries).filter fun v => v.isOnline now).find? (fun v => decide (v.uuid = uuid)) =
      ((get? entries uuid).bind m.view).filter fun v => v.isOnline now := by
  induction entries with
  | nil => rfl
  | cons first rest ih =>
    obtain ⟨key, client⟩ := first
    obtain ⟨hout, hrest⟩ := List.nodup_cons.mp h.nodup
    have hkey : client.uuid = key := h.keyed (key, client) List.mem_cons_self
    have hstep := ih ⟨hrest, fun p hp => h.keyed p (List.mem_cons_of_mem _ hp)⟩
    have hmiss : get? rest key = none := by
      rw [← Option.not_isSome_iff_eq_none, Assoc.get?_isSome]
      exact hout
    have hviews : m.views ((key, client) :: rest) = (m.view client).toList ++ m.views rest := by
      rw [LiveMemory.views, List.map_cons, List.filterMap_cons]
      cases m.view client <;> rfl
    rw [hviews, List.filter_append, List.find?_append, hstep, get?]
    by_cases heq : uuid = key
    · subst heq
      rw [if_pos rfl, hmiss, Option.bind_none, Option.filter_none, Option.or_none, Option.bind_some]
      cases hview : m.view client with
      | none => rfl
      | some v =>
        have huuid : v.uuid = uuid := (view_keeps hview).1.trans hkey
        cases hon : v.isOnline now <;> simp [Option.filter_some, hon, huuid]
    · rw [if_neg heq]
      cases hview : m.view client with
      | none => rfl
      | some v =>
        have huuid : v.uuid ≠ uuid := by
          rw [(view_keeps hview).1, hkey]
          exact Ne.symm heq
        cases hon : v.isOnline now <;> simp [hon, huuid]

theorem uuids_views_nodup (h : KeyedByUuid entries) (now : Int) :
    (((m.views entries).filter fun v => v.isOnline now).map PublicView.uuid).Nodup := by
  have hviews : ∀ l : List (String × ClientState), (∀ p ∈ l, p.2.uuid = p.1) →
      ((m.views l).map PublicView.uuid).Sublist (Assoc.keys l) := by
    intro l hkeyed
    induction l with
    | nil => exact List.Sublist.refl _
    | cons first rest ih =>
      have hrest := ih fun p hp => hkeyed p (List.mem_cons_of_mem _ hp)
      rw [LiveMemory.views, List.map_cons, List.filterMap_cons]
      cases hview : m.view first.2 with
      | none => exact hrest.cons _
      | some v =>
        have huuid : v.uuid = first.1 := (view_keeps hview).1.trans (hkeyed first List.mem_cons_self)
        show (v.uuid :: _).Sublist (first.1 :: _)
        rw [huuid]
        exact hrest.cons_cons _
  exact ((List.filter_sublist.map _).trans (hviews entries h.keyed)).nodup h.nodup

theorem get?_readRecords (views : List PublicView) (uuid : String) :
    get? (views.map fun v => (v.uuid, readRecord v)) uuid =
      (views.find? fun v => decide (v.uuid = uuid)).map readRecord := by
  induction views with
  | nil => rfl
  | cons first rest ih =>
    rw [List.map_cons, get?, List.find?_cons, ih]
    by_cases heq : uuid = first.uuid
    · simp [heq]
    · simp [heq, Ne.symm heq]

theorem find_readClients (views : List PublicView) (uuid : String) :
    ((views.map readClient).find? fun client => decide (client.uuid = uuid)) =
      (views.find? fun v => decide (v.uuid = uuid)).map readClient := by
  rw [List.find?_map]
  rfl

/-- The map of the snapshot, when no uuid comes twice. -/
theorem data_of_distinct (clients : List LiveSnapshotClient) (acc : List (String × LiveSnapshotClient))
    (h : (Assoc.keys acc ++ clients.map LiveSnapshotClient.uuid).Nodup) :
    clients.foldl (fun acc client => Assoc.set acc client.uuid client) acc =
      acc ++ clients.map fun client => (client.uuid, client) := by
  induction clients generalizing acc with
  | nil => exact (List.append_nil acc).symm
  | cons first rest ih =>
    have hnew : first.uuid ∉ Assoc.keys acc := by
      intro hmem
      exact (List.nodup_append.mp h).2.2 _ hmem _ List.mem_cons_self rfl
    rw [List.foldl_cons, Assoc.set_new hnew, ih, List.append_assoc]
    · rfl
    · rw [Assoc.keys, List.map_append, List.append_assoc]
      exact h

/-- **What the browser reads** shows the public nodes that are online. -/
theorem read_snapshot (hkeyed : KeyedByUuid m.clients) (now timestamp : Int) (at_ : ℚ) : ∃ view,
    normalizeLiveDataResponse (some (snapshotJson (m.buildSnapshot false now timestamp))) at_ = some view ∧
      view.Shows fun uuid => (shown m uuid).filter fun v => v.isOnline now := by
  obtain ⟨view, hview, honline, hclients, hdata⟩ := normalize_snapshotJson (m.buildSnapshot false now timestamp) at_
  obtain ⟨views, hviews⟩ : ∃ views, (m.views m.clients).filter (fun v => v.isOnline now) = views := ⟨_, rfl⟩
  have hpublic : ∀ v ∈ views, IsPublic v := by
    intro v hv
    rw [← hviews] at hv
    obtain ⟨client, -, hclient⟩ := List.mem_filterMap.mp (List.mem_filter.mp hv).1
    exact isPublic_of_view hclient
  have hnodup : (views.map PublicView.uuid).Nodup := hviews ▸ uuids_views_nodup hkeyed now
  have hfind : ∀ uuid, views.find? (fun v => decide (v.uuid = uuid)) =
      (shown m uuid).filter fun v => v.isOnline now := hviews ▸ find_views hkeyed now
  rw [buildSnapshot_public, snapshotOfViews, hviews] at honline hclients hdata
  replace honline : view.online = views.map PublicView.uuid := honline.trans map_map
  replace hclients : view.clients = views.map readClient := by
    refine hclients.trans ?_
    show ((views.map PublicView.entry).map snapshotClientJson).filterMap normalizeLiveClient = _
    rw [map_map, List.filterMap_map, ← List.filterMap_eq_map]
    exact List.filterMap_congr fun v _ => normalizeLiveClient_entry v
  replace hdata : view.data = views.map fun v => (v.uuid, readRecord v) := by
    refine hdata.trans ?_
    show ((views.map PublicView.entry).foldl (fun acc client => Assoc.set acc client.uuid client) []).map _ = _
    have huuids : (views.map PublicView.entry).map LiveSnapshotClient.uuid = views.map PublicView.uuid := map_map
    rw [data_of_distinct _ [] (by rw [huuids]; exact hnodup), List.nil_append, map_map, map_map]
    rfl
  have hclient : ∀ uuid, view.client? uuid = (views.find? fun v => decide (v.uuid = uuid)).map readClient := by
    intro uuid
    rw [LiveDataResponse.client?, hclients]
    exact find_readClients views uuid
  have hrecord : ∀ uuid, get? view.data uuid =
      (views.find? fun v => decide (v.uuid = uuid)).map readRecord := by
    intro uuid
    rw [hdata]
    exact get?_readRecords views uuid
  refine ⟨view, hview, ⟨?_, ?_, ?_, ?_⟩⟩
  · intro uuid
    rw [honline, ← hfind uuid, List.find?_isSome, List.mem_map]
    simp
  · intro uuid v hv
    have hfound := (hfind uuid).trans hv
    have hmem : IsPublic v := hpublic v (List.mem_of_find?_eq_some hfound)
    rw [LiveDataResponse.node?, hclient, hrecord, hfound]
    show some (LiveNode.mk v.name v.lastReportTime (get? (readClient v).fields) (recordField (readRecord v))) = _
    rw [readClient_node hmem, readRecord_node hmem]
    rfl
  · intro uuid hnone
    rw [hclient, hrecord, (hfind uuid).trans hnone]
    exact ⟨rfl, rfl⟩
  · intro uuid record hvalue
    rw [hrecord] at hvalue
    obtain ⟨v, hfound, rfl⟩ := Option.map_eq_some_iff.mp hvalue
    exact keys_normalizeLiveMetricMetadata_nodup (keys_sentFields_nodup (hpublic v (List.mem_of_find?_eq_some hfound)))

end Views

end CfMonitor.Frontend
