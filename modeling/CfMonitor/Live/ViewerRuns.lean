/-
  No live message about a hidden node reaches a public viewer.

  1. **Public form** — `Broadcast.publicForm` is a function of the public report and of the public
     metadata of a node alone.

  2. **Permitted** — a message for a public viewer has that form, and the management snapshot of the
     moment has no hidden entry for a node it says more about than that it is gone.

  3. **Invariant** (`ViewerWorld.Inv`) — what the object remembers is the snapshot that is stored, and
     its uuids are distinct: so it does not matter which of the two a path looks at.  A path may have
     captured what it likes before it awaits; it asks again afterwards.

  4. **Result** (`live_messages_public`) — in every run, every message to a public viewer is permitted.
-/
import Mathlib
import CfMonitor.Live.ViewerMessages

namespace CfMonitor.Live

open CfMonitor.Lib SyncRules
open Option (bind_eq_some_iff some)
open Assoc (get? get?_set mem_of_get?)

/-! ## Public form -/

/-- The entry of a node in what is stored. -/
def entryOf (stored : Option AdminClientsSnapshot) (uuid : String) : Option ClientRow :=
  Assoc.get? (Rules.byUuid (rowsOf stored)) uuid

/-- The public metadata of a node. -/
def publicMetadata (rules : Rules) (stored : Option AdminClientsSnapshot) (uuid : String) : Option Fields :=
  (entryOf stored uuid).map fun row => projectClientMetadata rules row.object false

/-- The order of a node in its public metadata. -/
def publicOrder (rules : Rules) (stored : Option AdminClientsSnapshot) (uuid : String) : Option ℚ :=
  match (publicMetadata rules stored uuid).bind fun fields => Assoc.get? fields "sort_order" with
  | some (.num (.finite x)) => some x
  | _ => none

/-- A report as a public viewer gets it. -/
def publicData (rules : Rules) (stored : Option AdminClientsSnapshot) (uuid : String) (report : Fields) :
    Fields :=
  LiveMemory.withOrder (publicOrder rules stored uuid) (toPublicReport report)

/-- What a public viewer may get of a broadcast. -/
def Broadcast.publicForm (rules : Rules) (stored : Option AdminClientsSnapshot) : Broadcast → ViewerMessage
  | .update client name report timestamp =>
    .update client name (publicData rules stored client report) timestamp
  | .remove client timestamp => .remove client timestamp
  | .offline current timestamp =>
    .offline current.uuid timestamp (some ⟨current.uuid, current.name, current.lastReportTime,
      LiveMemory.withoutIdentity (publicData rules stored current.uuid current.lastReport)⟩)
  | .metadataChanged _ detail timestamp =>
    .metadataChanged (projectClients rules detail.clients false) detail.rest timestamp

/-- The nodes that a message says more about than that they are gone. -/
def ViewerMessage.mentions : ViewerMessage → List String
  | .update client _ _ _ => [client]
  | .remove _ _ => []
  | .offline client _ _ => [client]
  | .metadataChanged (some (.patch (some upsert) _)) _ _ =>
    upsert.filterMap fun client => Json.str? (Assoc.get? client "uuid")
  | .metadataChanged _ _ _ => []

/-- The names that a message gives to nodes. -/
def ViewerMessage.names : ViewerMessage → List (String × String)
  | .update client name _ _ => [(client, name)]
  | .offline client _ (some entry) => [(client, entry.name)]
  | _ => []

/-- A message for a public viewer is permitted: no node it is about has a hidden entry, the message
    has the public form, and a node has the name of its public metadata. -/
structure Broadcast.Permitted (rules : Rules) (stored : Option AdminClientsSnapshot) (b : Broadcast)
    (message : ViewerMessage) : Prop where
  visible : ∀ uuid ∈ message.mentions, ∀ row, entryOf stored uuid = some row →
    booleanField row.fields "hidden" = false
  form : message = b.publicForm rules stored
  named : ∀ p ∈ message.names, ∀ fields, publicMetadata rules stored p.1 = some fields →
    ∀ text, Assoc.get? fields "name" = some (.str text) → p.2 = text

/-! ## Projections -/

theorem get?_pickScalars (fields : List String) (client : Fields) (field : String) :
    get? (pickScalars fields client) field =
      if field ∈ fields then (get? client field).filter isScalar else none := by
  induction fields with
  | nil => rfl
  | cons first rest ih =>
    rw [pickScalars] at ih ⊢
    rw [List.filterMap_cons]
    cases hvalue : (get? client first).filter isScalar with
    | none =>
      rw [Option.map_none]
      dsimp only
      rw [ih]
      by_cases hfirst : field = first
      · subst hfirst
        rw [hvalue]
        simp
      · simp [hfirst]
    | some value =>
      rw [Option.map_some]
      dsimp only
      rw [get?, ih]
      by_cases hfirst : field = first
      · subst hfirst
        rw [if_pos rfl, if_pos List.mem_cons_self, hvalue]
      · simp [hfirst]

variable {field : String}

variable {rules : Rules}

/-- A public field that is not computed. -/
theorem get?_projectClientMetadata {client : Fields}
    (hfield : field ∈ PUBLIC_CLIENT_FIELDS) (hplain : field ∉ ["tags", "has_ipv4", "has_ipv6"]) :
    get? (projectClientMetadata rules client false) field = (get? client field).filter isScalar := by
  simp only [List.mem_cons, List.not_mem_nil, or_false, not_or] at hplain
  obtain ⟨htags, hipv4, hipv6⟩ := hplain
  have hpicked : get? (pickScalars PUBLIC_CLIENT_FIELDS client) field
      = (get? client field).filter isScalar := by
    rw [get?_pickScalars, if_pos hfield]
  have hset : ∀ (key : String) (value : Json) (fields : Fields), field ≠ key →
      get? (Assoc.set fields key value) field = get? fields field := by
    intro key value fields hne
    rw [get?_set, if_neg hne]
  rw [projectClientMetadata]
  dsimp only
  rw [if_neg (by simp : ¬ (false = true))]
  split_ifs <;> repeat' split
  all_goals simp only [hset _ _ _ htags, hset _ _ _ hipv4, hset _ _ _ hipv6, hpicked]

theorem projected_text {client : Fields} {text : String} (hfield : field = "uuid" ∨ field = "name") :
    get? (projectClientMetadata rules client false) field = some (.str text) ↔
      get? client field = some (.str text) := by
  have hpublic : field ∈ PUBLIC_CLIENT_FIELDS ∧ field ∉ ["tags", "has_ipv4", "has_ipv6"] := by
    rcases hfield with rfl | rfl <;> decide
  rw [get?_projectClientMetadata hpublic.1 hpublic.2, Option.filter_eq_some_iff]
  exact ⟨fun h => h.1, fun h => ⟨h, rfl⟩⟩

theorem row_object_get? (row : ClientRow) (hfield : field ≠ "uuid") :
    get? row.object field = get? row.fields field := if_neg hfield

/-- What is not marked is not hidden. -/
theorem booleanField_of_unmarked {client : Fields} (h : isMarkedHidden client = false) :
    booleanField client "hidden" = false := by
  rw [isMarkedHidden] at h
  rw [booleanField]
  rcases hvalue : get? client "hidden" with _ | (_ | b | (x | _) | s | _ | _)
  · rfl
  · rfl
  · rw [hvalue] at h
    exact h
  · rw [hvalue] at h
    exact h
  · rw [hvalue] at h
    simp [Json.truthy] at h
  · rw [hvalue] at h
    have hempty : s = "" := by simpa [Json.truthy] using h
    subst hempty
    decide +kernel
  · rfl
  · rfl

/-! ## Controls -/

section Controls

variable {stored : Option AdminClientsSnapshot} {uuid name : String} {hidden : Bool}

/-- The name and the visibility are those of the entry, if there is one. -/
def Controlled (stored : Option AdminClientsSnapshot) (uuid name : String) (hidden : Bool) : Prop :=
  ∀ row, entryOf stored uuid = some row → hidden = booleanField row.fields "hidden" ∧ name = row.nameOr name

theorem ofRead_metadata (stored : Option AdminClientsSnapshot) :
    (Controls.ofRead stored).adminClientMetadata = Rules.byUuid (rowsOf stored) := by
  cases stored <;> rfl

theorem nameOr_nameOr (row : ClientRow) (name : String) : row.nameOr name = row.nameOr (row.nameOr name) := by
  rw [ClientRow.nameOr, ClientRow.nameOr]
  cases Json.str? (get? row.fields "name") <;> rfl

/-- `controlledClientState` goes by the entry. -/
theorem controlled_of_state {client current : ClientState}
    (h : (Controls.ofRead stored).controlledClientState client = some current) :
    current.uuid = client.uuid ∧ Controlled stored client.uuid current.name current.hidden ∧
      (Controls.ofRead stored).controlledClientState current = some current := by
  simp only [Controls.controlledClientState, ofRead_metadata] at h ⊢
  split_ifs at h with hdisowned
  cases hrow : get? (Rules.byUuid (rowsOf stored)) client.uuid with
  | none =>
    rw [hrow] at h hdisowned
    cases h
    refine ⟨rfl, ?_, ?_⟩
    · intro row hentry
      cases hrow.symm.trans hentry
    · rw [hrow, if_neg hdisowned]
  | some row =>
    rw [hrow] at h hdisowned
    cases h
    refine ⟨rfl, ?_, ?_⟩
    · intro row' hentry
      obtain rfl := some.inj (hrow.symm.trans hentry)
      exact ⟨rfl, nameOr_nameOr row client.name⟩
    · dsimp only
      rw [hrow, if_neg hdisowned]
      exact congrArg some (by rw [← nameOr_nameOr])

/-- Among distinct uuids, the first row of a node is the one in the map. -/
theorem find?_eq_entryOf (hrows : ((rowsOf stored).map ClientRow.uuid).Nodup) (uuid : String) :
    ((rowsOf stored).find? fun row => row.uuid == uuid) = entryOf stored uuid := by
  cases hfind : (rowsOf stored).find? fun row => row.uuid == uuid with
  | none =>
    have hnone : ¬ (entryOf stored uuid).isSome := by
      rw [entryOf, Assoc.get?_isSome, Rules.mem_keys_byUuid, List.mem_map]
      rintro ⟨row, hmem, huuid⟩
      have hmiss := List.find?_eq_none.mp hfind row hmem
      exact hmiss (by simpa using huuid)
    exact (Option.not_isSome_iff_eq_none.mp hnone).symm
  | some row =>
    have huuid : row.uuid = uuid := by simpa using List.find?_some hfind
    rw [entryOf, ← huuid, get?_byUuid hrows (List.mem_of_find?_eq_some hfind)]

/-- `resolveReportClientControl` goes by the entry. -/
theorem controlled_of_resolve {current : Option ClientState} {name' : String} {hidden' : Bool}
    (hrows : ((rowsOf stored).map ClientRow.uuid).Nodup)
    (h : resolveReportClientControl (Rules.readAdminClientsSnapshot stored) current uuid name hidden
      = some (name', hidden')) : Controlled stored uuid name' hidden' := by
  intro row hentry
  have hfound : ((Rules.readAdminClientsSnapshot stored).bind fun s =>
      s.clients.find? fun row => row.uuid == uuid) = some row := by
    rw [← hentry, ← find?_eq_entryOf hrows uuid]
    cases stored <;> rfl
  simp only [resolveReportClientControl, hfound] at h
  split_ifs at h
  cases h
  exact ⟨rfl, nameOr_nameOr row name⟩

end Controls

/-! ## Permitted broadcasts -/

section Permitted

variable {rules : Rules} {stored : Option AdminClientsSnapshot} {m : LiveMemory}

theorem sortOrder_eq (hcontrols : m.controls = Controls.ofRead stored) (uuid : String) :
    m.sortOrder uuid = publicOrder rules stored uuid := by
  rw [LiveMemory.sortOrder, publicOrder, publicMetadata, entryOf, hcontrols, ofRead_metadata]
  cases get? (Rules.byUuid (rowsOf stored)) uuid with
  | none => rfl
  | some row =>
    rw [Option.map_some, Option.bind_some, Option.bind_some,
      get?_projectClientMetadata (by decide) (by decide), row_object_get? row (by decide)]
    rcases get? row.fields "sort_order" with _ | (_ | _ | (_ | _) | _ | _ | _) <;> rfl

variable {uuid name : String}

theorem Controlled.publicName {hidden : Bool} (h : Controlled stored uuid name hidden) {fields : Fields}
    (hfields : publicMetadata rules stored uuid = some fields) {text : String}
    (htext : get? fields "name" = some (.str text)) : name = text := by
  obtain ⟨row, hentry, rfl⟩ := Option.map_eq_some_iff.mp hfields
  rw [projected_text (.inr rfl), row_object_get? row (by decide)] at htext
  have hname := (h row hentry).2
  rw [ClientRow.nameOr, htext] at hname
  exact hname

theorem permitted_update (hcontrols : m.controls = Controls.ofRead stored) {client : String}
    (h : Controlled stored client name false) (report : Fields) (timestamp : Int) :
    (Broadcast.update client name report timestamp).Permitted rules stored
      ((Broadcast.update client name report timestamp).payload rules m false) where
  visible := by
    intro uuid hmem row hentry
    obtain rfl := List.mem_singleton.mp hmem
    exact (h row hentry).1.symm
  form := by
    show ViewerMessage.update client name (m.projectViewerReport client report false) timestamp = _
    rw [LiveMemory.projectViewerReport, sortOrder_eq hcontrols]
    rfl
  named := by
    intro p hmem fields hfields text htext
    obtain rfl := List.mem_singleton.mp hmem
    exact h.publicName hfields htext

theorem permitted_remove (client : String) (timestamp : Int) :
    (Broadcast.remove client timestamp).Permitted rules stored
      ((Broadcast.remove client timestamp).payload rules m false) :=
  ⟨nofun, rfl, nofun⟩

theorem permitted_offline (hcontrols : m.controls = Controls.ofRead stored) {current : ClientState}
    (hself : (Controls.ofRead stored).controlledClientState current = some current)
    (hhidden : current.hidden = false) (timestamp : Int) :
    (Broadcast.offline current timestamp).Permitted rules stored
      ((Broadcast.offline current timestamp).payload rules m false) := by
  obtain ⟨-, hcontrol, -⟩ := controlled_of_state hself
  have hform : (Broadcast.offline current timestamp).payload rules m false
      = (Broadcast.offline current timestamp).publicForm rules stored := by
    show ViewerMessage.offline current.uuid timestamp (m.projectSnapshotClient current true true) = _
    rw [LiveMemory.projectSnapshotClient, hcontrols, hself]
    show ViewerMessage.offline current.uuid timestamp (some ⟨current.uuid, current.name,
      current.lastReportTime, LiveMemory.withoutIdentity
        (m.projectViewerReport current.uuid current.lastReport false)⟩) = _
    rw [LiveMemory.projectViewerReport, sortOrder_eq hcontrols]
    rfl
  rw [hform]
  refine ⟨?_, rfl, ?_⟩
  · intro uuid hmem row hentry
    obtain rfl := List.mem_singleton.mp hmem
    rw [← (hcontrol row hentry).1, hhidden]
  · intro p hmem fields hfields text htext
    obtain rfl := List.mem_singleton.mp hmem
    exact hcontrol.publicName hfields htext

/-- The objects that a detail names as changed. -/
def MetadataDetail.upserts (detail : MetadataDetail) : List Fields :=
  match detail.clients with
  | some (.obj patch) => Rules.objects ((Json.arr? (Assoc.get? patch "upsert")).getD [])
  | _ => []

variable {detail : MetadataDetail}

theorem mentions_metadataChanged {timestamp : Int}
    (h : uuid ∈ ((Broadcast.metadataChanged false detail timestamp).payload rules m false).mentions) :
    ∃ client ∈ detail.upserts, isMarkedHidden client = false ∧ get? client "uuid" = some (.str uuid) := by
  rw [Broadcast.payload] at h
  rw [MetadataDetail.upserts]
  rcases hclients : detail.clients with _ | (_ | _ | _ | _ | _ | patch)
  case some.obj =>
    simp only [hclients, projectClients] at h
    dsimp only
    cases hupsert : Json.arr? (get? patch "upsert") with
    | none =>
      rw [hupsert] at h
      cases h
    | some items =>
      rw [hupsert] at h
      obtain ⟨fields, hfields, huuid⟩ := List.mem_filterMap.mp h
      obtain ⟨client, hshown, rfl⟩ := List.mem_map.mp hfields
      obtain ⟨hmem, hunmarked⟩ := List.mem_filter.mp hshown
      refine ⟨client, hmem, by simpa using hunmarked, ?_⟩
      have htext : get? (projectClientMetadata rules client false) "uuid" = some (.str uuid) := by
        rcases hvalue : get? (projectClientMetadata rules client false) "uuid" with
          _ | (_ | _ | _ | _ | _ | _) <;> rw [hvalue] at huuid <;> simp [Json.str?] at huuid
        rw [huuid]
      exact (projected_text (.inl rfl)).mp htext
  all_goals
    rw [hclients] at h
    cases h

theorem permitted_metadataChanged (h : ∀ client ∈ detail.upserts, isMarkedHidden client = false → ∀ uuid,
      get? client "uuid" = some (.str uuid) → ∀ row, entryOf stored uuid = some row →
      booleanField row.fields "hidden" = false) (timestamp : Int) :
    (Broadcast.metadataChanged false detail timestamp).Permitted rules stored
      ((Broadcast.metadataChanged false detail timestamp).payload rules m false) where
  visible := by
    intro uuid hmem row hentry
    obtain ⟨client, hclient, hunmarked, huuid⟩ := mentions_metadataChanged hmem
    exact h client hclient hunmarked uuid huuid row hentry
  form := rfl
  named := nofun

end Permitted

/-! ## Invariant -/

/-- A normalised record of a node. -/
def AgentAuthSnapshot.Normal (key : String) (client : AgentAuthSnapshot) : Prop :=
  key ≠ "" ∧ trim key = key ∧ ∃ value hash, client.payload = agentAuthFields value key hash

/-- What a synchronisation has captured. -/
def SyncAwait.Normal (key : String) : SyncAwait → Prop
  | .removing client => ∀ c ∈ client, c.Normal key
  | .describing client => client.Normal key

structure ViewerWorld.Inv (rules : ViewerRules) (w : ViewerWorld) : Prop where
  controls : w.memory.controls = Controls.ofRead w.object.store.admin
  rows : ((rowsOf w.object.store.admin).map ClientRow.uuid).Nodup
  clients : ∀ p ∈ w.memory.clients, p.2.uuid = p.1
  lastKnown : ∀ p ∈ w.memory.lastKnownClients, p.2.uuid = p.1
  running : ∀ key call, w.object.running key = some call → call.next.Normal key
  sent : ∀ s ∈ w.sent, s.session.includeHidden = false →
    s.broadcast.Permitted rules.toRules s.snapshot s.message

namespace ViewerWorld

section Parts

variable {rules : ViewerRules} {w : ViewerWorld}

section

variable (hI : w.Inv rules)

include hI

theorem Inv.remember : w.remember.Inv rules :=
  ⟨rfl, hI.rows, hI.clients, hI.lastKnown, hI.running, hI.sent⟩

theorem Inv.addTask (task : ViewerTask) : (w.addTask task).Inv rules :=
  ⟨hI.controls, hI.rows, hI.clients, hI.lastKnown, hI.running, hI.sent⟩

theorem Inv.setTasks (tasks : List ViewerTask) : { w with tasks }.Inv rules :=
  ⟨hI.controls, hI.rows, hI.clients, hI.lastKnown, hI.running, hI.sent⟩

theorem Inv.storeAdmin {snapshot : AdminClientsSnapshot}
    (hrows : (snapshot.clients.map ClientRow.uuid).Nodup) : (w.storeAdmin snapshot).Inv rules :=
  ⟨rfl, hrows, hI.clients, hI.lastKnown, hI.running, hI.sent⟩

variable {uuid : String}

theorem Inv.setClient {client : ClientState} (h : client.uuid = uuid) :
    (w.setClient uuid client).Inv rules := by
  refine ⟨hI.controls, hI.rows, ?_, hI.lastKnown, hI.running, hI.sent⟩
  intro p hp
  rcases Assoc.mem_set hp with rfl | hold
  · exact h
  · exact hI.clients p hold

theorem Inv.setLastKnown {client : ClientState} (h : client.uuid = uuid) :
    (w.setLastKnown rules uuid client).Inv rules := by
  refine ⟨hI.controls, hI.rows, hI.clients, ?_, hI.running, hI.sent⟩
  intro p hp
  rcases Assoc.mem_set hp with rfl | hold
  · exact h
  · exact hI.lastKnown p hold

theorem Inv.deleteClient (uuid : String) : (w.deleteClient uuid).Inv rules :=
  ⟨hI.controls, hI.rows, fun p hp => hI.clients p (List.mem_of_mem_filter hp), hI.lastKnown, hI.running,
    hI.sent⟩

theorem Inv.deleteLastKnown (uuid : String) : (w.deleteLastKnown uuid).Inv rules :=
  ⟨hI.controls, hI.rows, hI.clients, fun p hp => hI.lastKnown p (List.mem_of_mem_filter hp), hI.running,
    hI.sent⟩

variable {audience : Audience}

/-- **A broadcast** keeps the invariant if it is permitted wherever public viewers are reached. -/
theorem Inv.broadcast {b : Broadcast} (h : audience ≠ .adminOnly →
      b.Permitted rules.toRules w.object.store.admin (b.payload rules.toRules w.memory false)) :
    (w.broadcastToViewers rules b audience).Inv rules := by
  refine ⟨hI.controls, hI.rows, hI.clients, hI.lastKnown, hI.running, ?_⟩
  intro s hs hpublic
  rcases List.mem_append.mp hs with hold | hnew
  · exact hI.sent s hold hpublic
  · obtain ⟨session, hsession, rfl⟩ := List.mem_map.mp hnew
    have hreaches := (List.mem_filter.mp hsession).2
    dsimp only at hpublic ⊢
    rw [hpublic]
    apply h
    rintro rfl
    rw [reaches, hpublic] at hreaches
    simp at hreaches

theorem Inv.offline (client : ClientState) (now : Int) :
    (w.broadcastOfflineClient rules client now).Inv rules := by
  rw [broadcastOfflineClient]
  cases hcurrent : w.memory.controls.controlledClientState client with
  | none => exact hI
  | some current =>
    rw [hI.controls] at hcurrent
    apply hI.broadcast
    intro haudience
    apply permitted_offline hI.controls (controlled_of_state hcurrent).2.2
    cases hhidden : current.hidden with
    | false => rfl
    | true => exact absurd (by rw [hhidden]; rfl) haudience

theorem Inv.metadataChanged {detail : MetadataDetail} {now : Int}
    (h : ∀ client ∈ detail.upserts, isMarkedHidden client = false → ∀ uuid,
      get? client "uuid" = some (.str uuid) → ∀ row, entryOf w.object.store.admin uuid = some row →
      booleanField row.fields "hidden" = false) :
    (w.broadcastMetadataChanged rules detail audience now).Inv rules := by
  have hpublic : (w.broadcastToViewers rules (.metadataChanged false detail now) .publicOnly).Inv rules :=
    hI.broadcast fun _ => permitted_metadataChanged h now
  have hadmin : ∀ {w : ViewerWorld}, w.Inv rules →
      (w.broadcastToViewers rules (.metadataChanged true detail now) .adminOnly).Inv rules :=
    fun hI => hI.broadcast fun haudience => absurd rfl haudience
  cases audience with
  | all => exact hadmin hpublic
  | publicOnly => exact hpublic
  | adminOnly => exact hadmin hI

theorem Inv.update {client name : String} {hidden : Bool} {report : Fields}
    {timestamp : Int} (hcontrol : Controlled w.object.store.admin client name hidden) :
    (w.broadcastToViewers rules (.update client name report timestamp)
      (if hidden then .adminOnly else .all)).Inv rules := by
  apply hI.broadcast
  intro haudience
  cases hidden with
  | false => exact permitted_update hI.controls hcontrol report timestamp
  | true => exact absurd rfl haudience

end

end Parts

/-! ## Reports -/

section Reports

variable {rules : ViewerRules} {w : ViewerWorld}

theorem Inv.finishReport (hI : w.Inv rules) {next : ClientState} (online : Bool) (now : Int)
    (hcontrol : Controlled w.object.store.admin next.uuid next.name next.hidden) :
    (w.finishReport rules next online now).Inv rules := by
  have hknown : (w.setLastKnown rules next.uuid next).Inv rules := hI.setLastKnown rfl
  rw [ViewerWorld.finishReport]
  cases online with
  | true => exact ((hknown.setClient rfl).update hcontrol).addTask _
  | false => exact (hknown.offline next now).addTask _

/-- A report asks for the control of its node after every write, and goes on when it is still the
    one that was written. -/
theorem Inv.settle (hI : w.Inv rules) (next : ClientState) (ws online : Bool) (now : Int) :
    (w.settle rules next ws online now).Inv rules := by
  rw [ViewerWorld.settle]
  cases hcontrol : w.remember.resolve next.uuid next.name next.hidden with
  | none => exact hI.remember
  | some control =>
    obtain ⟨name, hidden⟩ := control
    dsimp only
    split_ifs with hsame
    · obtain ⟨rfl, rfl⟩ := hsame
      exact hI.remember.finishReport _ now (controlled_of_resolve hI.rows hcontrol)
    · exact hI.remember.addTask _

theorem Inv.beginReport (hI : w.Inv rules) (client : ClientState) (ws : Bool) :
    (beginReport w client ws).Inv rules := by
  rw [Live.beginReport]
  cases w.remember.resolve client.uuid client.name client.hidden with
  | none => exact hI.remember
  | some control => exact hI.remember.addTask _

/-- A delayed patch goes by the control row of the moment. -/
theorem Inv.applyInferred (hI : w.Inv rules) (clientId : String) (patch : Fields) (now : Int) :
    (w.applyInferredNetworkMetadataToLiveReport rules clientId patch now).Inv rules := by
  rw [applyInferredNetworkMetadataToLiveReport]
  cases hstate : (get? w.memory.clients clientId).bind
      w.memory.controls.controlledClientState with
  | none => exact hI
  | some current =>
    obtain ⟨source, hsource, hcurrent⟩ := bind_eq_some_iff.mp hstate
    rw [hI.controls] at hcurrent
    obtain ⟨huuid, hcontrol, -⟩ := controlled_of_state hcurrent
    have hkey : source.uuid = clientId := hI.clients _ (mem_of_get? hsource)
    rw [hkey] at huuid hcontrol
    by_cases hexpired : (current.expiresAt.any fun at_ => decide (at_ ≤ now)) = true
    · dsimp only
      rw [if_pos hexpired]
      exact hI
    · dsimp only
      rw [if_neg hexpired]
      generalize (if isUsefulRegion (stringField patch "region") then trim (stringField patch "region")
        else "") = region
      generalize patchedReport "region" region _ = report
      have hset : (w.setClient clientId { current with lastReport := report }).Inv rules := by
        apply hI.setClient
        exact huuid
      have hkept : ((w.setClient clientId { current with lastReport := report }).setLastKnown rules clientId
          { current with lastReport := report }).Inv rules := by
        apply hset.setLastKnown
        exact huuid
      split
      · exact hI
      · split
        · exact hkept.update hcontrol
        · exact hkept

end Reports

/-! ## Metadata -/

section Metadata

variable {rules : ViewerRules} {w : ViewerWorld}

variable {stored : Option AdminClientsSnapshot} {live : Option LiveName} {now : Int}

theorem upsert_entry {rules : Rules} {client : Fields} {fromAgent : Bool} {snapshot : AdminClientsSnapshot}
    (h : (rules.upsertAdminClientSnapshot stored client fromAgent live now).2 = some snapshot) :
    (snapshot.clients.map ClientRow.uuid).Nodup ∧
      ∀ row, (rules.upsertAdminClientSnapshot stored client fromAgent live now).1 = some row →
        entryOf (some snapshot) row.uuid = some row := by
  rw [Rules.upsertAdminClientSnapshot] at h ⊢
  cases hsafe : rules.sanitizeAdminClientSnapshotItem client with
  | none =>
    rw [hsafe] at h
    cases h
  | some safe =>
    rw [hsafe] at h
    cases hstored : Rules.readAdminClientsSnapshot stored with
    | none =>
      rw [hstored] at h
      dsimp only at h ⊢
      split_ifs at h ⊢
      cases h
      have hrows : ([safe].map ClientRow.uuid).Nodup := by simp
      refine ⟨hrows, ?_⟩
      intro row hrow
      cases hrow
      exact get?_byUuid hrows List.mem_cons_self
    | some p =>
      rw [hstored] at h
      dsimp only at h ⊢
      split_ifs at h ⊢
      cases h
      have hrows := upsert_rows_nodup p.clients
        (Rules.mergeRow (get? (Rules.byUuid p.clients) safe.uuid) safe)
      refine ⟨hrows, ?_⟩
      intro row hrow
      cases hrow
      have hset := get?_set (Rules.byUuid p.clients) safe.uuid safe.uuid
        (Rules.mergeRow (get? (Rules.byUuid p.clients) safe.uuid) safe)
      rw [if_pos rfl] at hset
      exact get?_byUuid hrows (List.mem_map.mpr ⟨_, mem_of_get? hset, rfl⟩)

variable {row : ClientRow}

theorem upsert_unstored {rules : Rules} {client : Fields}
        (h : (rules.upsertAdminClientSnapshot stored client true live now).2 = none)
    (hrow : (rules.upsertAdminClientSnapshot stored client true live now).1 = some row) :
    stored = none := by
  rw [Rules.upsertAdminClientSnapshot] at h hrow
  cases hsafe : rules.sanitizeAdminClientSnapshotItem client with
  | none =>
    rw [hsafe] at hrow
    cases hrow
  | some safe =>
    rw [hsafe] at h hrow
    cases stored with
    | none => rfl
    | some p =>
      dsimp only [Rules.readAdminClientsSnapshot, Option.map_some] at h hrow
      split_ifs at h hrow

theorem upserts_upsertDetail (clients : List Fields) : (upsertDetail clients).upserts = clients := by
  show (clients.map Json.obj).filterMap Json.obj? = clients
  rw [List.filterMap_map]
  exact List.filterMap_some

theorem Inv.entryChanged (hI : w.Inv rules)
    (h : ∀ found, entryOf w.object.store.admin row.uuid = some found → found = row) :
    (w.broadcastMetadataChanged rules (upsertDetail [row.object]) .all now).Inv rules := by
  apply hI.metadataChanged
  intro client hclient hunmarked uuid huuid found hfound
  rw [upserts_upsertDetail, List.mem_singleton] at hclient
  subst hclient
  have hrow : row.uuid = uuid := Json.str.inj (some.inj huuid)
  rw [← hrow] at hfound
  obtain rfl := h found hfound
  rw [isMarkedHidden, row_object_get? _ (by decide)] at hunmarked
  exact booleanField_of_unmarked hunmarked

theorem Inv.upsertFromAgent (hI : w.Inv rules) (uuid : String) (patch : Fields) (now : Int) :
    (w.upsertFromAgent rules uuid patch now).Inv rules := by
  rw [ViewerWorld.upsertFromAgent]
  generalize hresult : rules.upsertAdminClientSnapshot w.remember.object.store.admin
    (Assoc.merge [("uuid", .str uuid)] patch) true _ now = result
  obtain ⟨answer, written⟩ := result
  cases written with
  | none =>
    cases answer with
    | none => exact hI.remember
    | some row =>
      have hnone : w.remember.object.store.admin = none :=
        upsert_unstored (congrArg Prod.snd hresult) (congrArg Prod.fst hresult)
      apply hI.remember.entryChanged
      intro found hfound
      rw [hnone] at hfound
      simp [entryOf, rowsOf, Rules.byUuid, Assoc.merge, get?] at hfound
  | some snapshot =>
    obtain ⟨hrows, hentry⟩ := upsert_entry (congrArg Prod.snd hresult)
    cases answer with
    | none => exact hI.remember.storeAdmin hrows
    | some row =>
      apply (hI.remember.storeAdmin hrows).entryChanged
      intro found hfound
      exact some.inj (hfound.symm.trans (hentry row (congrArg Prod.fst hresult)))

theorem Inv.agentMeta (hI : w.Inv rules) (message : Fields) (now : Int) :
    (w.updateAgentMeta rules message now).Inv rules := by
  rw [updateAgentMeta]
  cases Json.str? (get? message "uuid") with
  | none => exact hI
  | some uuid =>
    dsimp only
    split_ifs
    · exact hI
    · exact hI.upsertFromAgent uuid _ now

end Metadata

/-! ## Synchronisation -/

section Synchronisation

variable {rules : ViewerRules} {w : ViewerWorld}

theorem broadcastOfflineClient_object (client : ClientState) (now : Int) :
    (w.broadcastOfflineClient rules client now).object = w.object := by
  rw [broadcastOfflineClient]
  cases w.memory.controls.controlledClientState client <;> rfl

variable {uuid : String}

theorem Inv.known_uuid (hI : w.Inv rules) {client : ClientState}
    (h : w.known uuid = some client) : client.uuid = uuid := by
  rw [known] at h
  cases hclient : get? w.memory.clients uuid with
  | none =>
    rw [hclient, Option.none_or] at h
    exact hI.lastKnown _ (mem_of_get? h)
  | some current =>
    rw [hclient, Option.some_or] at h
    cases h
    exact hI.clients _ (mem_of_get? hclient)

theorem Inv.showRetained (hI : w.Inv rules) {retained : Option ClientState}
    (hkey : ∀ c, retained = some c → c.uuid = uuid) (online : Bool) (now : Int) :
    (w.showRetained rules uuid retained online now).Inv rules ∧
      (w.showRetained rules uuid retained online now).object = w.object := by
  rw [ViewerWorld.showRetained]
  cases hstate : retained.bind w.memory.controls.controlledClientState with
  | none => exact ⟨hI, rfl⟩
  | some next =>
    obtain ⟨source, hsource, hnext⟩ := bind_eq_some_iff.mp hstate
    rw [hI.controls] at hnext
    obtain ⟨huuid, hcontrol, -⟩ := controlled_of_state hnext
    rw [hkey source hsource] at huuid hcontrol
    have hknown : (w.setLastKnown rules uuid next).Inv rules := hI.setLastKnown huuid
    dsimp only
    cases hhidden : next.hidden with
    | true =>
      rw [if_pos rfl]
      cases online with
      | true =>
        refine ⟨?_, rfl⟩
        apply Inv.broadcast
        · apply (hknown.setClient huuid).broadcast
          exact fun _ => permitted_remove uuid now
        · exact fun haudience => absurd rfl haudience
      | false =>
        refine ⟨?_, broadcastOfflineClient_object next now⟩
        apply Inv.offline
        apply hknown.broadcast
        exact fun _ => permitted_remove uuid now
    | false =>
      rw [if_neg (by simp)]
      rw [hhidden] at hcontrol
      cases online with
      | true => exact ⟨(hknown.setClient huuid).update hcontrol, rfl⟩
      | false => exact ⟨hknown.offline next now, broadcastOfflineClient_object next now⟩

/-- The message after a synchronisation says about visibility what the entry says. -/
theorem Inv.updateClientMeta (hI : w.Inv rules) {client : Fields} {hidden : Bool} {now : Int}
    (h : hidden = false → ∀ key, get? client "uuid" = some (.str key) → ∀ row,
      entryOf w.object.store.admin key = some row → booleanField row.fields "hidden" = false) :
    (w.updateClientMeta rules uuid client hidden now).Inv rules := by
  rw [ViewerWorld.updateClientMeta]
  generalize (get? w.memory.clients uuid).any (fun c => c.isOnline now) = online
  have hpruned : ∀ deleted : Bool, (if deleted then w.deleteClient uuid else w).Inv rules ∧
      (if deleted then w.deleteClient uuid else w).object = w.object := by
    intro deleted
    cases deleted with
    | true => exact ⟨hI.deleteClient uuid, rfl⟩
    | false => exact ⟨hI, rfl⟩
  obtain ⟨hpruned, hobject⟩ := hpruned ((get? w.memory.clients uuid).isSome && !online)
  obtain ⟨hshown, hobject'⟩ := hpruned.showRetained (fun c hc => hI.known_uuid hc) online now
  apply hshown.metadataChanged
  intro changed hchanged hunmarked key hkey row hrow
  rw [upserts_upsertDetail, List.mem_singleton] at hchanged
  subst hchanged
  rw [isMarkedHidden, get?_set, if_pos rfl] at hunmarked
  rw [get?_set, if_neg (by decide)] at hkey
  rw [hobject', hobject] at hrow
  exact h hunmarked key hkey row hrow

theorem Inv.removeClient (hI : w.Inv rules) (uuid : String) (keepMetadata : Bool) (now : Int) :
    (w.removeClient rules uuid keepMetadata now).Inv rules := by
  have hdeleted := (hI.deleteClient uuid).deleteLastKnown uuid
  have hmessage : ∀ {v : ViewerWorld}, v.Inv rules → (if keepMetadata then v
      else v.broadcastMetadataChanged rules ⟨some (.obj [("remove", .arr [.str uuid])]), []⟩ .all now).Inv
        rules := by
    intro v hv
    split_ifs
    · exact hv
    · apply hv.metadataChanged
      intro client hclient
      cases hclient
  rw [ViewerWorld.removeClient]
  cases w.known uuid with
  | none => exact hmessage hdeleted
  | some client => exact hmessage (hdeleted.broadcast fun _ => permitted_remove uuid now)

end Synchronisation

/-! ## Expiry and refresh -/

section Refresh

variable {rules : ViewerRules} {w : ViewerWorld}

theorem Inv.expire (hI : w.Inv rules) (now : Int) : (w.removeExpiredClients rules now).Inv rules := by
  have hall : ∀ (entries : List (String × ClientState)) (w : ViewerWorld), w.Inv rules →
      (entries.foldl (expireClient rules now) w).Inv rules := by
    intro entries
    induction entries with
    | nil => exact fun _ hI => hI
    | cons entry rest ih =>
      intro w hI
      apply ih
      rw [expireClient]
      split_ifs
      · exact hI
      · exact (hI.deleteClient entry.1).offline entry.2 now
  exact hall w.memory.clients w hI

theorem Inv.disconnect (hI : w.Inv rules) (clientId : String) (now : Int) :
    (w.cleanupSession rules clientId now).Inv rules := by
  rw [cleanupSession]
  cases get? w.memory.clients clientId with
  | none => exact hI
  | some existing => exact (hI.deleteClient clientId).offline existing now

theorem refreshed_upserts {snapshot : AdminClientsSnapshot} {patch rest client : Fields}
    (h : client ∈ (MetadataDetail.mk (some (.obj (refreshedClients rules snapshot patch))) rest).upserts) :
    ∃ row, get? (Rules.byUuid snapshot.clients) row.uuid = some row ∧ client = row.object := by
  simp only [MetadataDetail.upserts, refreshedClients] at h
  cases hitems : Json.arr? (get? patch "upsert") with
  | none =>
    rw [hitems] at h
    cases hremove : Json.arr? (get? patch "remove") with
    | none =>
      rw [hremove] at h
      cases h
    | some removed =>
      rw [hremove] at h
      cases h
  | some items =>
    rw [hitems] at h
    obtain ⟨value, hvalue, hobj⟩ := List.mem_filterMap.mp h
    obtain ⟨named, -, hnamed⟩ := List.mem_filterMap.mp hvalue
    split_ifs at hnamed
    obtain ⟨row, hrow, rfl⟩ := Option.map_eq_some_iff.mp hnamed
    have huuid := Rules.mem_byUuid (mem_of_get? hrow)
    rw [← huuid] at hrow
    exact ⟨row, hrow, (some.inj hobj).symm⟩

theorem Inv.refresh (hI : w.Inv rules) (detail : MetadataDetail) (audience : Audience) (now : Int) :
    (w.refreshMetadata rules detail audience now).Inv rules := by
  rw [refreshMetadata]
  split
  · rename_i patch hclients
    dsimp only
    cases hread : Rules.readAdminClientsSnapshot w.remember.object.store.admin with
    | none =>
      apply hI.remember.metadataChanged
      intro client _ _ uuid _ row hrow
      have hrows := rowsOf_read w.remember.object.store.admin
      rw [hread] at hrows
      rw [entryOf, ← hrows] at hrow
      simp [Rules.byUuid, Assoc.merge, get?] at hrow
    | some snapshot =>
      apply hI.remember.metadataChanged
      intro client hclient hunmarked uuid huuid row hrow
      obtain ⟨found, hfound, rfl⟩ := refreshed_upserts hclient
      have hrows := rowsOf_read w.remember.object.store.admin
      rw [hread] at hrows
      have hsame : found.uuid = uuid := Json.str.inj (some.inj huuid)
      rw [entryOf, ← hrows, ← hsame] at hrow
      obtain rfl := some.inj (hfound.symm.trans hrow)
      rw [isMarkedHidden, row_object_get? _ (by decide)] at hunmarked
      exact booleanField_of_unmarked hunmarked
  · rename_i hother
    apply hI.metadataChanged
    intro client hclient
    rw [MetadataDetail.upserts] at hclient
    split at hclient
    · rename_i patch hclients
      exact absurd hclients (hother patch)
    · cases hclient

theorem Inv.writeAdmin (hI : w.Inv rules) (call : AdminCall) {snapshot : AdminClientsSnapshot}
    (hrows : (snapshot.clients.map ClientRow.uuid).Nodup) : (w.writeAdmin rules call snapshot).Inv rules := by
  have hstored := hI.storeAdmin hrows
  cases call with
  | restore body now =>
    rw [ViewerWorld.writeAdmin]
    apply Inv.metadataChanged
    · exact ⟨hstored.controls, hstored.rows, nofun, nofun, hstored.running, hstored.sent⟩
    · intro client hclient
      cases hclient
  | put _ _ => exact hstored
  | upsert _ _ _ _ => exact hstored
  | remove _ _ => exact hstored

end Refresh

end ViewerWorld

/-! ## Segments of a synchronisation -/

section Segments

theorem storeVersioned_admin (rules : SyncRules) (key : String) (revision : Nat)
    (client : AgentAuthSnapshot) (s : SyncStore) :
    (rules.storeVersioned key revision client s).last.admin = s.admin := by
  rw [storeVersioned]
  cases versionedVerdict s client revision <;> rfl

/-- The first segment leaves the management snapshot alone. -/
theorem applyClientSynchronization_admin (rules : SyncRules) (key : String) (revision : Nat)
    (change : Option AgentAuthSnapshot) (s : SyncStore) :
    (rules.applyClientSynchronization key revision change s).last.admin = s.admin := by
  rw [applyClientSynchronization]
  split_ifs
  · rfl
  · show (rules.applyChange key revision change (putRevision key revision false s)).last.admin = s.admin
    cases change with
    | none => rfl
    | some client =>
      rw [applyChange]
      split_ifs
      · rfl
      · exact storeVersioned_admin rules key revision client _

/-- The management snapshot after a later segment. -/
theorem resume_admin (rules : SyncRules) (key : String) (revision : Nat) (now : Int) (fits : Bool)
    (next : SyncAwait) (s : SyncStore) :
    (rules.resume key revision now fits next s).last.admin = match next with
      | .removing none => some (Rules.removeAdminClientSnapshot s.admin key now)
      | .removing (some _) => s.admin
      | .describing client => if fits then (rules.upsertAdmin client now s).admin else s.admin := by
  rcases next with (_ | client) | client
  · rfl
  · exact storeVersioned_admin rules key revision client (removeAgentAuthByUuid key now s)
  · dsimp only
    rw [resume, (SyncEnv.modify_finish key revision _ s).1, putRevision_admin]
    cases fits <;> rfl

theorem segment_whole (w : SyncWorld) (key : String) (revision : Nat) (hash : Option String)
    (p : Prog SyncStore Refusal SyncOutcome) :
    (w.segment key revision hash p none).store = (p w.store).last ∧
      ∀ k call, (w.segment key revision hash p none).running k = some call → w.running k = some call ∨
        (k = key ∧ (p w.store).result = .ok (.waits call.next)) := by
  rw [SyncWorld.segment]
  generalize p w.store = run
  obtain ⟨seen, last, result⟩ := run
  -- the slot of `key` is filled by the result, every other slot is as before
  have hslot : ∀ {value : Option SyncCall} {k : String} {call : SyncCall},
      Function.update w.running key value k = some call →
      w.running k = some call ∨ (k = key ∧ value = some call) := by
    intro value k call h
    rw [Function.update_apply] at h
    split_ifs at h with hk
    · exact .inr ⟨hk, h⟩
    · exact .inl h
  have hfreed : ∀ {k : String} {call : SyncCall}, Function.update w.running key none k = some call →
      w.running k = some call := by
    intro k call h
    rcases hslot h with hold | ⟨-, hnone⟩
    · exact hold
    · cases hnone
  rcases result with refusal | (next | (_ | _))
  · exact ⟨rfl, fun k call h => .inl (hfreed h)⟩
  · refine ⟨rfl, fun k call h => ?_⟩
    rcases hslot h with hold | ⟨hk, hcall⟩
    · exact .inl hold
    · cases hcall
      exact .inr ⟨hk, rfl⟩
  · exact ⟨rfl, fun k call h => .inl (hfreed h)⟩
  · exact ⟨rfl, fun k call h => .inl (hfreed h)⟩

end Segments

variable {now : Int}

theorem removed_rows_nodup {stored : Option AdminClientsSnapshot} {key : String}
    (h : ((rowsOf stored).map ClientRow.uuid).Nodup) :
    ((rowsOf (some (Rules.removeAdminClientSnapshot stored key now))).map ClientRow.uuid).Nodup := by
  have hrows : rowsOf (some (Rules.removeAdminClientSnapshot stored key now))
      = (rowsOf stored).filter fun client => decide (client.uuid ≠ key) := by
    rw [← rowsOf_read stored]
    rfl
  rw [hrows]
  exact h.sublist (List.filter_sublist.map ClientRow.uuid)

variable {s : SyncStore}

theorem upserted_rows_nodup {rules : SyncRules} {client : AgentAuthSnapshot}
    (h : ((rowsOf s.admin).map ClientRow.uuid).Nodup) :
    ((rowsOf (rules.upsertAdmin client now s).admin).map ClientRow.uuid).Nodup := by
  rw [upsertAdmin]
  cases hsnapshot : (rules.upsertAdminClientSnapshot s.admin client.payload false none now).2 with
  | none => exact h
  | some snapshot => exact (ViewerWorld.upsert_entry hsnapshot).1

/-- The entry of a synchronised node is hidden iff its record is. -/
theorem upserted_visible {rules : SyncRules} {key uuid : String} {client : AgentAuthSnapshot}
    {row : ClientRow} (hnormal : client.Normal key)
    (hhidden : readBoolean (get? client.payload "hidden") = false)
    (huuid : get? client.payload "uuid" = some (.str uuid))
    (hrow : entryOf (rules.upsertAdmin client now s).admin uuid = some row) :
    booleanField row.fields "hidden" = false := by
  obtain ⟨hkey, htrim, value, hash, hpayload⟩ := hnormal
  obtain ⟨safe, hsafe, hsafe_uuid⟩ := sanitize_record rules.toRules value hash hkey htrim
  have hnodup := agentAuthFields_nodup value key hash
  rw [← hpayload] at hsafe hnodup
  obtain ⟨snapshot, entry, hadmin, -, hrows, hmem, hentry, hfields⟩ := upsertAdmin_row now s hsafe hnodup
  have hsame : uuid = entry.uuid := by
    rw [hpayload] at huuid
    have hfirst : get? (agentAuthFields value key hash) "uuid" = some (.str key) := rfl
    rw [hentry, hsafe_uuid]
    exact (Json.str.inj (some.inj (hfirst.symm.trans huuid))).symm
  have hfound : entryOf (some snapshot) entry.uuid = some entry := get?_byUuid hrows hmem
  rw [hadmin, hsame, hfound] at hrow
  cases hrow
  have hflag : get? client.payload "hidden" = some (.bool (readBoolean (get? value "hidden"))) := by
    rw [hpayload]
    rfl
  rw [hflag] at hhidden
  rw [booleanField, hfields, get?_sanitized hsafe (by decide) (fun hin => absurd hin (by decide)), hflag,
    Option.some_or]
  exact hhidden

/-! ## Runs -/

namespace ViewerWorld

section Runs

variable {rules : ViewerRules} {owner : String → String} {w w' : ViewerWorld}

variable {s : SyncStore}

theorem sync_normal {change : Change} {key : String} {record : Option AgentAuthSnapshot}
    {next : SyncAwait} (hrequest : change.request = some (key, record))
    (h : (rules.applyClientSynchronization key change.revision record s).result = .ok (.waits next)) :
    next.Normal key := by
  cases record with
  | none =>
    rw [applyClientSynchronization] at h
    split_ifs at h
    · exact absurd h (by intro h'; cases h')
    · obtain rfl := SyncOutcome.waits.inj (Except.ok.inj h)
      rintro _ ⟨⟩
  | some client =>
    have hnormal : client.Normal key := by
      cases hraw : change.client with
      | none =>
        rw [Change.request, hraw] at hrequest
        split_ifs at hrequest
        exact absurd (Prod.mk.inj (some.inj hrequest)).2 (by simp)
      | some raw =>
        obtain ⟨hkey, htrim, hash, hpayload⟩ := request_record hraw hrequest
        exact ⟨hkey, htrim, raw, hash, hpayload⟩
    rcases applyClientSynchronization_next h with rfl | rfl
    · intro c hc
      cases hc
      exact hnormal
    · exact hnormal

variable {now : Int}

/-- A later segment goes on with the same record. -/
theorem resumed_normal {key : String} {revision : Nat} {fits : Bool} {next next' : SyncAwait}
    (hnormal : next.Normal key)
    (h : (rules.resume key revision now fits next s).result = .ok (.waits next')) : next'.Normal key := by
  rcases next with (_ | client) | client
  · exact absurd h (by intro h'; cases h')
  · have hstored : (rules.storeVersioned key revision client (removeAgentAuthByUuid key now s)).result
        = .ok (.waits next') := h
    rw [storeVersioned_next hstored]
    exact hnormal client rfl
  · rw [resume, (SyncEnv.modify_finish key revision _ s).2] at h
    exact absurd h (by intro h'; cases h')

theorem Inv.object (hI : w.Inv rules) {object : SyncWorld}
    (hrows : ((rowsOf object.store.admin).map ClientRow.uuid).Nodup)
    (hrunning : ∀ key call, object.running key = some call → call.next.Normal key) :
    ({ w with object }.remember).Inv rules :=
  ⟨rfl, hrows, hI.clients, hI.lastKnown, hrunning, hI.sent⟩

theorem Inv.sync (hI : w.Inv rules) {change : Change}
    (h : viewerStep rules owner w (.sync change) = some w') : w'.Inv rules := by
  simp only [viewerStep, Option.bind_eq_bind, bind_eq_some_iff, some.injEq] at h
  obtain ⟨⟨key, record⟩, hrequest, object, hobject, rfl⟩ := h
  rw [syncStep] at hobject
  split_ifs at hobject
  cases hobject
  obtain ⟨hstore, hrunning⟩ := segment_whole w.object key change.revision (changeHash record)
    (rules.applyClientSynchronization key change.revision record)
  have hadmin : (w.object.segment key change.revision (changeHash record)
      (rules.applyClientSynchronization key change.revision record) none).store.admin
      = w.object.store.admin := by
    rw [hstore]
    exact applyClientSynchronization_admin rules.toSyncRules key change.revision record _
  refine ⟨?_, ?_, hI.clients, hI.lastKnown, ?_, hI.sent⟩
  · dsimp only
    rw [hadmin]
    exact hI.controls
  · dsimp only
    rw [hadmin]
    exact hI.rows
  · intro k call hcall
    rcases hrunning k call hcall with hold | ⟨rfl, hresult⟩
    · exact hI.running k call hold
    · exact sync_normal hrequest hresult

variable {uuid : String}

/-- A later segment of a synchronisation: the record was captured before, but what is sent is what the
    segment has just stored. -/
theorem Inv.resumeSync (hI : w.Inv rules) {fits : Bool}
    (h : viewerStep rules owner w (.resumeSync uuid now fits) = some w') : w'.Inv rules := by
  simp only [viewerStep, Option.bind_eq_bind, bind_eq_some_iff, some.injEq] at h
  obtain ⟨call, hcall, object, hobject, rfl⟩ := h
  rw [syncStep, hcall] at hobject
  cases hobject
  obtain ⟨hstore, hrunning⟩ := segment_whole w.object uuid call.revision call.next.hash
    (rules.resume uuid call.revision now fits call.next)
  have hadmin := resume_admin rules.toSyncRules uuid call.revision now fits call.next w.object.store
  rw [← hstore] at hadmin
  have hnormal := hI.running uuid call hcall
  have hrows : ((rowsOf (w.object.segment uuid call.revision call.next.hash
      (rules.resume uuid call.revision now fits call.next) none).store.admin).map ClientRow.uuid).Nodup := by
    rw [hadmin]
    rcases call.next with (_ | client) | client
    · exact removed_rows_nodup hI.rows
    · exact hI.rows
    · dsimp only
      split_ifs
      · exact upserted_rows_nodup hI.rows
      · exact hI.rows
  have hremembered := hI.object hrows (fun k call' hcall' => by
    rcases hrunning k call' hcall' with hold | ⟨rfl, hresult⟩
    · exact hI.running k call' hold
    · exact resumed_normal hnormal hresult)
  rw [afterSegment.eq_def]
  split
  · rename_i client hnext
    exact hremembered.removeClient uuid client.isSome now
  · rename_i client hnext
    split_ifs with hfits
    · apply hremembered.updateClientMeta
      intro hhidden key hkey row hrow
      have hdescribed : (w.object.segment uuid call.revision call.next.hash
          (rules.resume uuid call.revision now fits call.next) none).store.admin
          = (rules.upsertAdmin client now w.object.store).admin := by
        rw [hadmin, hnext]
        exact if_pos hfits
      have hrow' : entryOf (rules.upsertAdmin client now w.object.store).admin key = some row := by
        rw [← hdescribed]
        exact hrow
      rw [hnext] at hnormal
      exact upserted_visible hnormal hhidden hkey hrow'
    · exact hremembered

theorem Inv.removeRequest (hI : w.Inv rules) {keepMetadata : Bool}
    (h : viewerStep rules owner w (.removeClient uuid keepMetadata now) = some w') : w'.Inv rules := by
  simp only [viewerStep, Option.bind_eq_bind, bind_eq_some_iff, some.injEq] at h
  obtain ⟨object, hobject, rfl⟩ := h
  rw [syncStep] at hobject
  cases hobject
  apply Inv.removeClient
  apply hI.object
  · rw [removeClientRequest]
    cases keepMetadata with
    | true => exact hI.rows
    | false => exact removed_rows_nodup hI.rows
  · exact hI.running

theorem Inv.initial (rules : ViewerRules) : ViewerWorld.start.Inv rules :=
  ⟨rfl, List.nodup_nil, fun _ hp => absurd hp List.not_mem_nil, fun _ hp => absurd hp List.not_mem_nil,
    fun _ _ hcall => absurd hcall (by simp [start, SyncWorld.start]),
    fun _ hs => absurd hs List.not_mem_nil⟩

theorem Inv.resumeTask (hI : w.Inv rules) {i : Nat} {f : ViewerWorld → ViewerTask → Option ViewerWorld}
    (hf : ∀ (w : ViewerWorld) task w', w.Inv rules → f w task = some w' → w'.Inv rules)
    (h : resumeTask w i f = some w') : w'.Inv rules := by
  obtain ⟨task, -, hresumed⟩ := bind_eq_some_iff.mp h
  exact hf _ task w' (hI.setTasks _) hresumed

theorem keyedByUuid_iff {entries : List (String × ClientState)} (h : keyedByUuid entries = true) :
    ∀ p ∈ entries, p.2.uuid = p.1 := by
  intro p hp
  have hall := List.all_eq_true.mp h p hp
  simpa using hall

/-- **One step** keeps the invariant. -/
theorem Inv.step {e : ViewerEvent} (hI : w.Inv rules) (h : viewerStep rules owner w e = some w') :
    w'.Inv rules := by
  cases e with
  | report client ws =>
    cases h
    exact hI.beginReport client ws
  | persisted i current online now =>
    rw [viewerStep] at h
    refine hI.resumeTask ?_ h
    intro w task w' hI hresumed
    cases task with
    | settling next ws =>
      cases hresumed
      split_ifs
      · exact hI.settle next ws online now
      · exact hI
    | _ => cases hresumed
  | inferred i region =>
    rw [viewerStep] at h
    refine hI.resumeTask ?_ h
    intro w task w' hI hresumed
    cases task with
    | inferring clientId patch now =>
      dsimp only at hresumed
      split_ifs at hresumed
      · cases hresumed
        exact hI
      · cases hresumed
        exact (hI.applyInferred clientId _ now).addTask _
    | _ => cases hresumed
  | written i skipped now =>
    rw [viewerStep] at h
    refine hI.resumeTask ?_ h
    intro w task w' hI hresumed
    cases task with
    | writing clientId patch =>
      cases hresumed
      split_ifs
      · exact hI
      · exact hI.upsertFromAgent clientId patch now
    | _ => cases hresumed
  | basicInfo clientId basicInfo =>
    rw [viewerStep] at h
    split_ifs at h
    · cases h
      exact hI
    · cases h
      exact hI.addTask _
  | agentMeta message now =>
    cases h
    exact hI.agentMeta message now
  | sync change => exact hI.sync h
  | resumeSync uuid now fits => exact hI.resumeSync h
  | removeClient uuid keepMetadata now => exact hI.removeRequest h
  | expire now =>
    cases h
    exact hI.expire now
  | disconnect clientId now =>
    cases h
    exact hI.disconnect clientId now
  | refresh detail audience now =>
    cases h
    exact hI.refresh detail audience now
  | write call =>
    rw [viewerStep] at h
    split at h
    · cases h
      exact hI.remember
    · split_ifs at h with hrows
      cases h
      exact hI.writeAdmin call hrows
  | connect sessions =>
    cases h
    exact ⟨hI.controls, hI.rows, hI.clients, hI.lastKnown, hI.running, hI.sent⟩
  | restart clients lastKnown =>
    rw [viewerStep] at h
    obtain ⟨object, hobject, hrestarted⟩ := bind_eq_some_iff.mp h
    cases hobject
    split_ifs at hrestarted with hkeyed
    cases hrestarted
    obtain ⟨hclients, hlast⟩ := Bool.and_eq_true_iff.mp hkeyed
    exact ⟨rfl, hI.rows, keyedByUuid_iff hclients, keyedByUuid_iff hlast, nofun, hI.sent⟩

end Runs

end ViewerWorld

/-- **No live message about a hidden node reaches a public viewer**, and what reaches one depends on
    reports and metadata through their public forms alone. -/
theorem live_messages_public (rules : ViewerRules) (owner : String → String) (es : List ViewerEvent)
    (w : ViewerWorld) (hrun : (viewerMachine rules owner).run ViewerWorld.start es = some w) :
    ∀ s ∈ w.sent, s.session.includeHidden = false →
      s.broadcast.Permitted rules.toRules s.snapshot s.message :=
  ((viewerMachine rules owner).run_inv (fun _ _ _ hI h => hI.step h) (ViewerWorld.Inv.initial rules) hrun).sent

/-- Rules for fixed inputs. -/
def plainViewerRules : ViewerRules := ⟨⟨outboxRules, fun _ => none⟩, fun report => report⟩

/-- A public viewer watches while a node is synchronised and reports. -/
def watchedNode : List ViewerEvent :=
  [.connect [⟨"v", true, true, false⟩],
   .sync ⟨"a", 1, some (clientObject outboxProjection (nodeRow "a" "h"))⟩, .resumeSync "a" 5 true,
   .report ⟨"a", "x", true, 6, [("cpu", .int 1)], none, some .http⟩ false, .persisted 0 true true 7]

/-- The report claims to be hidden and to be called otherwise; the entry decides. -/
theorem live_messages_public_watched :
    ∃ w s, (viewerMachine plainViewerRules id).run ViewerWorld.start watchedNode = some w ∧
      w.sent.getLast? = some s ∧ s.session.includeHidden = false ∧ s.message.names = [("a", "a")] ∧
      s.broadcast.Permitted plainViewerRules.toRules s.snapshot s.message := by
  have hall : ∀ w s, (viewerMachine plainViewerRules id).run ViewerWorld.start watchedNode = some w →
      w.sent.getLast? = some s → s.session.includeHidden = false →
      s.broadcast.Permitted plainViewerRules.toRules s.snapshot s.message := by
    intro w s hrun hlast hpublic
    exact live_messages_public plainViewerRules id watchedNode w hrun s (List.mem_of_getLast? hlast) hpublic
  exact ⟨_, _, rfl, rfl, rfl, rfl, hall _ _ rfl rfl rfl⟩

end CfMonitor.Live
