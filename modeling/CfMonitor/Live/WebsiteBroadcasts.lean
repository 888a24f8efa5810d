/-
  What visitors get of a website monitor that an administrator wrote
  (`invalidateWebsiteMonitorPublicState`, `publicWebsiteMetadataDetail`, `cfm_public_websites`).

  1. **Record** — the row of a monitor as the database returns it, with every column.

  2. **Two projections** — the public list names the columns that it shows (`publicWebsite`).  The
     broadcast starts from the whole record: it leaves out a hidden one, and blanks a hidden address.

  3. **Results** — what the messages show beyond the list (`website_broadcasts_hold`).
-/
import CfMonitor.Live.ViewerRuns
import CfMonitor.Website.Monitor

namespace CfMonitor.Live

open CfMonitor.Lib CfMonitor.Website

/-! ## Records -/

/-- A record of `website_monitors`, of a configuration that the table admits. -/
structure WebsiteMonitor where
  id : Int
  sortOrder : Int
  createdAt : Int
  updatedAt : Int
  row : MonitorRow
  admitted : row.config.admitted = true

/-- How the database writes a timestamp and a revision. -/
structure WebsiteTexts where
  timestamp : Int → String
  revision : Nat → String

namespace WebsiteTexts

variable (texts : WebsiteTexts)

def time (at_ : Option Int) : Json := (at_.map fun t => Json.str (texts.timestamp t)).getD .null

def number (x : Option Int) : Json := (x.map Json.int).getD .null

def text (s : Option String) : Json := (s.map Json.str).getD .null

def probeMode : AgentProbeMode → String
  | .off => "off"
  | .selected => "selected"
  | .countryAuto => "country_auto"

def status : MonitorStatus → String
  | .pending => "pending"
  | .up => "up"
  | .down => "down"
  | .paused => "paused"

/-- The record as JSON (`to_jsonb`, `normalizeWebsiteMonitor`), its fields as the table orders them. -/
def json (m : WebsiteMonitor) : Fields :=
  let c := m.row.config
  let h := m.row.health
  [ ("id", .int m.id), ("config_revision", .str (texts.revision m.row.configRevision)),
    ("name", .str m.row.name), ("url", .str c.url), ("method", .str c.method),
    ("expected_status_min", .int c.expectedStatusMin), ("expected_status_max", .int c.expectedStatusMax),
    ("interval_sec", .int c.intervalSec), ("timeout_sec", .int c.timeoutSec),
    ("grace_period_sec", .int c.gracePeriodSec), ("enabled", .bool c.enabled),
    ("hidden", .bool m.row.hidden), ("hide_url", .bool m.row.hideUrl),
    ("agent_probe_mode", .str (probeMode c.agentProbeMode)),
    ("agent_probe_clients", .arr (c.agentProbeClients.map .str)),
    ("agent_probe_limit", .int c.agentProbeLimit),
    ("agent_probe_status_enabled", .bool c.agentProbeStatusEnabled),
    ("sort_order", .int m.sortOrder), ("status", .str (status h.status)),
    ("last_checked_at", texts.time h.lastCheckedAt), ("last_success_at", texts.time h.lastSuccessAt),
    ("last_failure_at", texts.time h.lastFailureAt), ("last_status_code", number h.lastStatusCode),
    ("last_raw_status_code", number h.lastRawStatusCode), ("last_latency_ms", number h.lastLatencyMs),
    ("last_effective_reason", text h.lastEffectiveReason), ("last_error", text h.lastError),
    ("down_since", texts.time h.downSince), ("last_notified_at", texts.time h.lastNotifiedAt),
    ("created_at", .str (texts.timestamp m.createdAt)), ("updated_at", .str (texts.timestamp m.updatedAt)) ]

end WebsiteTexts

/-- Two records agree in what the public list shows of them. -/
structure WebsiteMonitor.VisitorsAgree (m m' : WebsiteMonitor) : Prop where
  hidden : m.row.hidden = m'.row.hidden
  hideUrl : m.row.hideUrl = m'.row.hideUrl
  id : m.id = m'.id
  name : m.row.name = m'.row.name
  url : m.row.hideUrl = false → m.row.config.url = m'.row.config.url
  method : m.row.config.method = m'.row.config.method
  intervalSec : m.row.config.intervalSec = m'.row.config.intervalSec
  status : m.row.health.status = m'.row.health.status
  lastCheckedAt : m.row.health.lastCheckedAt = m'.row.health.lastCheckedAt
  lastStatusCode : m.row.health.lastStatusCode = m'.row.health.lastStatusCode
  lastRawStatusCode : m.row.health.lastRawStatusCode = m'.row.health.lastRawStatusCode
  lastLatencyMs : m.row.health.lastLatencyMs = m'.row.health.lastLatencyMs
  lastEffectiveReason : m.row.health.lastEffectiveReason = m'.row.health.lastEffectiveReason
  sortOrder : m.sortOrder = m'.sortOrder

/-! ## Broadcasts -/

/-- What changed: everything, or these records. -/
inductive WebsiteMonitorMetadataDetail where
  | everything
  | patch (upsert : Option (List Fields)) (remove reorder : Option (List Int))

namespace WebsiteMonitorMetadataDetail

/-- `item[field] === true`. -/
def isTrue (item : Fields) (field : String) : Bool :=
  match Assoc.get? item field with
  | some (.bool b) => b
  | _ => false

def publicWebsiteMetadataDetail : WebsiteMonitorMetadataDetail → WebsiteMonitorMetadataDetail
  | .everything => .everything
  | .patch none remove reorder => .patch none remove reorder
  | .patch (some upsert) remove reorder =>
    .patch (some ((upsert.filter fun item => !isTrue item "hidden").map fun item =>
      if isTrue item "hide_url" then Assoc.set item "url" .null else item)) remove reorder

/-- The detail in the body of a request. -/
def json : WebsiteMonitorMetadataDetail → Json
  | .everything => .bool true
  | .patch upsert remove reorder =>
    let list (field : String) (items : Option (List Json)) : Fields :=
      (items.map fun items => (field, Json.arr items)).toList
    .obj (list "upsert" (upsert.map fun items => items.map .obj) ++
      list "remove" (remove.map fun ids => ids.map .int) ++
      list "reorder" (reorder.map fun ids => ids.map .int))

end WebsiteMonitorMetadataDetail

/-- The routes that hand a record over. -/
inductive RecordWrite where
  | added
  | edited
  | enabled
  | checked
  | visibility (id : Int) (hidden : Bool)

/-- What a route says of the record that it read. -/
def RecordWrite.detail (item : Fields) : RecordWrite → WebsiteMonitorMetadataDetail
  | .added | .edited | .enabled | .checked => .patch (some [item]) none none
  | .visibility id hidden => .patch (some [item]) (if hidden then some [id] else none) none

namespace ViewerWorld

variable (rules : ViewerRules) (w : ViewerWorld)

/-- `invalidateWebsiteMonitorPublicState`, as the live-data object handles its two requests. -/
def invalidateWebsiteMonitorPublicState (websites : WebsiteMonitorMetadataDetail) (now now' : Int) :
    ViewerWorld :=
  (w.refreshMetadata rules ⟨none, [("websites", websites.json)]⟩ .adminOnly now).refreshMetadata rules
    ⟨none, [("websites", websites.publicWebsiteMetadataDetail.json)]⟩ .publicOnly now'

/-- What the sockets of visitors got. -/
def visitorMessages : List ViewerMessage :=
  (w.sent.filter fun d => !d.session.includeHidden).map Sent.message

/-- The sockets of visitors that are open. -/
def visitors : List Session := w.sessions.filter (reaches .publicOnly)

variable {rules : ViewerRules} {w : ViewerWorld}

theorem visitorMessages_invalidate {websites : WebsiteMonitorMetadataDetail} {now now' : Int} :
    (w.invalidateWebsiteMonitorPublicState rules websites now now').visitorMessages =
      w.visitorMessages ++ w.visitors.map fun _ =>
        .metadataChanged none [("websites", websites.publicWebsiteMetadataDetail.json)] now' := by
  have hadmin : (w.sessions.filter (reaches .adminOnly)).filter (fun s => !s.includeHidden) = [] := by
    rw [List.filter_eq_nil_iff]
    intro s hs
    have hreach := (List.mem_filter.mp hs).2
    simp [reaches] at hreach ⊢
    exact hreach.2
  have hpublic : w.visitors.filter (fun s => !s.includeHidden) = w.visitors := by
    rw [List.filter_eq_self]
    intro s hs
    have hreach := (List.mem_filter.mp hs).2
    simp [reaches] at hreach
    simp [hreach.2]
  have hmessages (v : ViewerWorld) (b : Broadcast) (audience : Audience) :
      (v.broadcastToViewers rules b audience).visitorMessages = v.visitorMessages ++
        ((v.sessions.filter (reaches audience)).filter fun s => !s.includeHidden).map fun s =>
          b.payload rules.toRules v.memory s.includeHidden := by
    simp only [visitorMessages, broadcastToViewers, List.filter_append, List.map_append, List.filter_map,
      List.map_map]
    rfl
  show (((w.broadcastToViewers rules (.metadataChanged true ⟨none, [("websites", websites.json)]⟩ now)
    .adminOnly).broadcastToViewers rules _ .publicOnly).visitorMessages) = _
  rw [hmessages, hmessages, hadmin, List.map_nil, List.append_nil]
  show _ ++ (w.visitors.filter _).map _ = _
  rw [hpublic]
  rfl

end ViewerWorld

/-! ## What a record shows -/

section Shown

open WebsiteMonitorMetadataDetail

variable {texts : WebsiteTexts} {m m' : WebsiteMonitor}

/-- The ids that a write names beside its record. -/
def RecordWrite.removed : RecordWrite → Option (List Int)
  | .visibility id true => some [id]
  | _ => none

theorem RecordWrite.detail_eq (item : Fields) (write : RecordWrite) :
    write.detail item = .patch (some [item]) write.removed none := by
  cases write with
  | visibility id hidden => cases hidden <;> rfl
  | _ => rfl

theorem publicDetail_hidden (write : RecordWrite) (h : m.row.hidden = true) :
    (write.detail (texts.json m)).publicWebsiteMetadataDetail = .patch (some []) write.removed none := by
  have hitem : isTrue (texts.json m) "hidden" = true := h
  simp [RecordWrite.detail_eq, publicWebsiteMetadataDetail, hitem]

/-- The record in a public message, without a hidden address. -/
def publicItem (texts : WebsiteTexts) (m : WebsiteMonitor) : Fields :=
  if m.row.hideUrl then Assoc.set (texts.json m) "url" .null else texts.json m

theorem publicDetail_shown (write : RecordWrite) (h : m.row.hidden = false) :
    (write.detail (texts.json m)).publicWebsiteMetadataDetail =
      .patch (some [publicItem texts m]) write.removed none := by
  have hitem : isTrue (texts.json m) "hidden" = false := h
  have hurl : isTrue (texts.json m) "hide_url" = m.row.hideUrl := rfl
  simp [RecordWrite.detail_eq, publicWebsiteMetadataDetail, hitem, hurl, publicItem]

/-- Every column apart from the address stays in the public message. -/
theorem get?_publicItem {field : String} (h : field ≠ "url") :
    Assoc.get? (publicItem texts m) field = Assoc.get? (texts.json m) field := by
  rw [publicItem]
  split
  · rw [Assoc.get?_set, if_neg h]
  · rfl

/-- The record with another limit of probing nodes. -/
def WebsiteMonitor.withLimit (m : WebsiteMonitor) (limit : Int) (h : 1 ≤ limit ∧ limit ≤ 10) : WebsiteMonitor where
  id := m.id
  sortOrder := m.sortOrder
  createdAt := m.createdAt
  updatedAt := m.updatedAt
  row := { m.row with config := { m.row.config with agentProbeLimit := limit } }
  admitted := by
    have hadmitted := m.admitted
    simp only [MonitorConfig.admitted, Bool.and_eq_true] at hadmitted ⊢
    exact ⟨⟨hadmitted.1.1, decide_eq_true h.1⟩, decide_eq_true h.2⟩

theorem WebsiteMonitor.visitorsAgree_withLimit {limit : Int} (h : 1 ≤ limit ∧ limit ≤ 10) :
    m.VisitorsAgree (m.withLimit limit h) := by
  constructor <;> intros <;> rfl

theorem limit_of_messages {write : RecordWrite} {now : Int} (h : m.row.hidden = false)
    (h' : m'.row.hidden = false)
    (heq : ViewerMessage.metadataChanged none
        [("websites", (write.detail (texts.json m)).publicWebsiteMetadataDetail.json)] now =
      .metadataChanged none
        [("websites", (write.detail (texts.json m')).publicWebsiteMetadataDetail.json)] now) :
    m.row.config.agentProbeLimit = m'.row.config.agentProbeLimit := by
  rw [publicDetail_shown write h, publicDetail_shown write h'] at heq
  have hitems : publicItem texts m = publicItem texts m' := by
    simpa [WebsiteMonitorMetadataDetail.json] using heq
  have hlimit : Assoc.get? (texts.json m) "agent_probe_limit" =
      Assoc.get? (texts.json m') "agent_probe_limit" := by
    rw [← get?_publicItem (by decide), ← get?_publicItem (by decide), hitems]
  have hnumber : some (Json.int m.row.config.agentProbeLimit) =
      some (Json.int m'.row.config.agentProbeLimit) := hlimit
  simpa [Json.int] using hnumber

end Shown

/-- **What visitors get of a record** follows from the columns of the public list, exactly when the
    record is hidden or nobody is there to get it. -/
theorem website_broadcasts_hold (texts : WebsiteTexts) (rules : ViewerRules) (w : ViewerWorld)
    (write : RecordWrite) (m : WebsiteMonitor) (now now' : Int) :
    (∀ m' : WebsiteMonitor, m.VisitorsAgree m' →
      (w.invalidateWebsiteMonitorPublicState rules (write.detail (texts.json m)) now now').visitorMessages =
      (w.invalidateWebsiteMonitorPublicState rules (write.detail (texts.json m')) now now').visitorMessages) ↔
    m.row.hidden = true ∨ w.visitors = [] := by
  constructor
  · intro h
    by_contra hcond
    obtain ⟨hhidden, hvisitors⟩ := not_or.mp hcond
    have hshown : m.row.hidden = false := Bool.eq_false_of_not_eq_true hhidden
    -- Any other limit of probing nodes will do.
    have hother : ∃ limit : Int, (1 ≤ limit ∧ limit ≤ 10) ∧ limit ≠ m.row.config.agentProbeLimit := by
      by_cases hone : m.row.config.agentProbeLimit = 1
      · exact ⟨2, by omega, by omega⟩
      · exact ⟨1, by omega, by omega⟩
    obtain ⟨limit, hbounds, hlimit⟩ := hother
    have hmessages := h (m.withLimit limit hbounds) (m.visitorsAgree_withLimit hbounds)
    rw [ViewerWorld.visitorMessages_invalidate, ViewerWorld.visitorMessages_invalidate,
      List.append_cancel_left_eq] at hmessages
    obtain ⟨s, rest, hcons⟩ := List.exists_cons_of_ne_nil hvisitors
    rw [hcons, List.map_cons, List.map_cons] at hmessages
    have hsame : m.row.config.agentProbeLimit = (m.withLimit limit hbounds).row.config.agentProbeLimit :=
      limit_of_messages hshown hshown (List.cons.inj hmessages).1
    exact hlimit hsame.symm
  · intro hcond m' hagree
    rw [ViewerWorld.visitorMessages_invalidate, ViewerWorld.visitorMessages_invalidate]
    rcases hcond with hhidden | hvisitors
    · rw [publicDetail_hidden write hhidden, publicDetail_hidden write (hagree.hidden ▸ hhidden)]
    · rw [hvisitors, List.map_nil, List.map_nil]

/-- A site that nodes of the administrator probe. -/
def probedSite (nodes : List String) : WebsiteMonitor where
  id := 1
  sortOrder := 1
  createdAt := 0
  updatedAt := 0
  row := ⟨0, "site", false, true,
    ⟨"https://example.org", "GET", 200, 399, 120, 10, 180, true, .selected, nodes, 3, true⟩,
    MonitorHealth.fresh true⟩
  admitted := by
    show MonitorConfig.admitted ⟨_, _, _, _, _, _, _, _, _, nodes, _, _⟩ = true
    simp [MonitorConfig.admitted]

/-- The probing nodes of a site reach every visitor. -/
theorem probing_nodes_broadcast : ¬ ∀ (texts : WebsiteTexts) (rules : ViewerRules) (w : ViewerWorld)
    (write : RecordWrite) (m m' : WebsiteMonitor) (now now' : Int), m.VisitorsAgree m' →
      (w.invalidateWebsiteMonitorPublicState rules (write.detail (texts.json m)) now now').visitorMessages =
      (w.invalidateWebsiteMonitorPublicState rules (write.detail (texts.json m')) now now').visitorMessages := by
  intro h
  have hmessages := h ⟨fun _ => "", fun _ => ""⟩ plainViewerRules
    { ViewerWorld.start with sessions := [⟨"v", true, true, false⟩] } .edited
    (probedSite ["a"]) (probedSite ["b"]) 0 0 (by constructor <;> intros <;> rfl)
  rw [ViewerWorld.visitorMessages_invalidate, ViewerWorld.visitorMessages_invalidate,
    List.append_cancel_left_eq] at hmessages
  have hmessage := (List.cons.inj hmessages).1
  rw [publicDetail_shown _ rfl, publicDetail_shown _ rfl] at hmessage
  simp [WebsiteMonitorMetadataDetail.json, publicItem, probedSite, WebsiteTexts.json, Assoc.set] at hmessage

end CfMonitor.Live
