/-
  The rules that name nodes, while nodes are removed (`cfm_delete_clients`,
  `cfm_prune_client_references`, `cfm_cleanup_orphan_client_data`,
  `prune_website_client_references`, `prune_deleted_website_agents`).

  1. **Rows** — the lists of ping tasks, load notifications and website monitors, as
     `jsonb_array_elements_text` reads them.  A condition on a text is not true of NULL.

  2. **Order** — the reduction of a website list says `order by agent.position`.  The others aggregate
     without an order, so that the database may put what is left in any one (`RowOrder`).

  3. **Addressed** — an empty list means nobody to a ping task and everybody to a load notification; a
     website list counts in the mode `selected`.

  4. **Results** — rules only narrow, and when their lists keep their order (`pruned_lists_hold`).
-/
import CfMonitor.Lib.Machine
import CfMonitor.Website.Monitor
import Mathlib.Data.List.Nodup
import Mathlib.Data.Set.Basic

namespace CfMonitor.Clients

open CfMonitor.Lib CfMonitor.Website

/-! ## Lists of nodes -/

/-- The texts of a JSON array; `none` is NULL. -/
abbrev Elements := List (Option String)

/-- The elements whose text meets a condition. -/
def selected (p : String → Bool) (l : Elements) : Elements := l.filter fun c => c.any p

/-- A text of the list meets a condition. -/
def names (p : String → Bool) (l : Elements) : Bool := l.any fun c => c.any p

/-- The order in which the database aggregates rows where the query gives none. -/
structure RowOrder where
  arrange : Int → Elements → Elements
  perm : ∀ id l, (arrange id l).Perm l

/-- `trim` of SQL. -/
def btrim (s : String) : String :=
  String.ofList (((s.toList.dropWhile (· == ' ')).reverse.dropWhile (· == ' ')).reverse)

/-! ## Rows -/

/-- A row of `ping_tasks`; every function writes 0 or 1 into `all_clients`. -/
structure PingTaskRow where
  id : Int
  clients : Elements
  allClients : Bool

structure LoadNotificationRow where
  id : Int
  clients : Elements

structure WebsiteRow where
  id : Int
  enabled : Bool
  agentProbeMode : AgentProbeMode
  agentProbeClients : Elements
  agentProbeStatusEnabled : Bool

/-- The tables; ids are primary keys. -/
structure ClientDb where
  clients : List String
  offlineNotifications : List String
  expiryNotifications : List String
  pingTasks : List PingTaskRow
  loadNotifications : List LoadNotificationRow
  websiteMonitors : List WebsiteRow
  pingIds : (pingTasks.map PingTaskRow.id).Nodup
  loadIds : (loadNotifications.map LoadNotificationRow.id).Nodup

/-- The first update of `cfm_prune_client_references`. -/
def PingTaskRow.prune (remove : List String) (order : RowOrder) (t : PingTaskRow) : PingTaskRow :=
  let next := order.arrange t.id (selected (fun u => !remove.contains u) t.clients)
  if t.allClients = false ∧ names remove.contains t.clients = true ∧ t.clients ≠ next then
    { t with clients := next }
  else t

/-- The first update of `cfm_cleanup_orphan_client_data`. -/
def PingTaskRow.cleanup (existing : List String) (order : RowOrder) (t : PingTaskRow) : PingTaskRow :=
  let next := order.arrange t.id (selected existing.contains t.clients)
  if t.allClients = false ∧ next.length ≠ t.clients.length then { t with clients := next } else t

/-- The deletion and the update of `cfm_prune_client_references`. -/
def LoadNotificationRow.prune (remove : List String) (order : RowOrder) (l : LoadNotificationRow) :
    Option LoadNotificationRow :=
  let next := order.arrange l.id (selected (fun u => !remove.contains u) l.clients)
  if names remove.contains l.clients = true then
    if next.length = 0 then none
    else if l.clients ≠ next then some { l with clients := next }
    else some l
  else some l

/-- The deletion and the update of `cfm_cleanup_orphan_client_data`. -/
def LoadNotificationRow.cleanup (existing : List String) (order : RowOrder) (l : LoadNotificationRow) :
    Option LoadNotificationRow :=
  let next := order.arrange l.id (selected existing.contains l.clients)
  if next.length ≠ l.clients.length then
    if next.length = 0 then none else some { l with clients := next }
  else some l

/-- `prune_website_client_references` of a row, which keeps the texts that meet a condition. -/
def WebsiteRow.prune (keep : String → Bool) (w : WebsiteRow) : WebsiteRow :=
  let next := selected keep w.agentProbeClients
  let emptied := w.agentProbeMode = .selected ∧ next = []
  if w.agentProbeClients ≠ next then
    { w with
      agentProbeClients := next
      enabled := if emptied then false else w.enabled
      agentProbeMode := if emptied then .off else w.agentProbeMode
      agentProbeStatusEnabled := if emptied then false else w.agentProbeStatusEnabled }
  else w

/-! ## Functions -/

/-- The texts of an argument that are not blank. -/
def nonBlank (uuids : Elements) : List String := uuids.filterMap fun c => c.filter fun u => decide (btrim u ≠ "")

/-- An order for either table whose lists are aggregated without one. -/
structure ReductionOrder where
  ping : RowOrder
  load : RowOrder

theorem PingTaskRow.prune_id (remove : List String) (order : RowOrder) (t : PingTaskRow) :
    (t.prune remove order).id = t.id := by
  simp only [PingTaskRow.prune]
  split_ifs <;> rfl

theorem PingTaskRow.cleanup_id (existing : List String) (order : RowOrder) (t : PingTaskRow) :
    (t.cleanup existing order).id = t.id := by
  simp only [PingTaskRow.cleanup]
  split_ifs <;> rfl

variable {order : RowOrder} {l l' : LoadNotificationRow}

theorem LoadNotificationRow.prune_id {remove : List String}
    (h : l.prune remove order = some l') : l'.id = l.id := by
  simp only [LoadNotificationRow.prune] at h
  split_ifs at h <;> cases h <;> rfl

theorem LoadNotificationRow.cleanup_id {existing : List String}
    (h : l.cleanup existing order = some l') : l'.id = l.id := by
  simp only [LoadNotificationRow.cleanup] at h
  split_ifs at h <;> cases h <;> rfl

namespace ClientDb

variable (db : ClientDb)

/-- Update the ping tasks. -/
def updatePing (f : PingTaskRow → PingTaskRow) (h : ∀ t, (f t).id = t.id) : ClientDb :=
  { db with
    pingTasks := db.pingTasks.map f
    pingIds := by
      rw [List.map_map, show PingTaskRow.id ∘ f = PingTaskRow.id from funext h]
      exact db.pingIds }

theorem ids_filterMap (f : LoadNotificationRow → Option LoadNotificationRow)
    (h : ∀ l l', f l = some l' → l'.id = l.id) (rows : List LoadNotificationRow) :
    ((rows.filterMap f).map LoadNotificationRow.id).Sublist (rows.map LoadNotificationRow.id) := by
  induction rows with
  | nil => exact List.Sublist.slnil
  | cons l rest ih =>
    rw [List.filterMap_cons, List.map_cons]
    cases hl : f l with
    | none => exact ih.cons _
    | some l' =>
      rw [List.map_cons, h l l' hl]
      exact ih.cons_cons _

/-- Update or delete load notifications. -/
def updateLoad (f : LoadNotificationRow → Option LoadNotificationRow)
    (h : ∀ l l', f l = some l' → l'.id = l.id) : ClientDb :=
  { db with
    loadNotifications := db.loadNotifications.filterMap f
    loadIds := db.loadIds.sublist (ids_filterMap f h db.loadNotifications) }

/-- `prune_website_client_references`. -/
def pruneWebsiteClientReferences (keep : String → Bool) : ClientDb :=
  { db with websiteMonitors := db.websiteMonitors.map (WebsiteRow.prune keep) }

/-- `cfm_delete_clients`, with the cascade to the notifications and the trigger for the websites. -/
def deleteClients (uuids : Elements) : ClientDb :=
  let ids := nonBlank uuids
  let deleted := db.clients.filter ids.contains
  let left : ClientDb := { db with
    clients := db.clients.filter fun u => !ids.contains u
    offlineNotifications := db.offlineNotifications.filter fun u => !deleted.contains u
    expiryNotifications := db.expiryNotifications.filter fun u => !deleted.contains u }
  if deleted = [] then left else left.pruneWebsiteClientReferences fun u => !deleted.contains u

/-- The statements of `cfm_prune_client_references`. -/
def pruneRemoved (remove : List String) (order : ReductionOrder) : ClientDb :=
  let pruned := (db.updatePing (PingTaskRow.prune remove order.ping)
    (PingTaskRow.prune_id remove order.ping)).updateLoad (LoadNotificationRow.prune remove order.load)
      fun _ _ => LoadNotificationRow.prune_id
  { pruned with
    expiryNotifications := db.expiryNotifications.filter fun u => !remove.contains u
    }.pruneWebsiteClientReferences fun u => !remove.contains u

/-- `cfm_prune_client_references`. -/
def pruneClientReferences (uuids : Elements) (order : ReductionOrder) : ClientDb :=
  let remove := (nonBlank uuids).map btrim
  if remove = [] then db else db.pruneRemoved remove order

/-- `cfm_cleanup_orphan_client_data`. -/
def cleanupOrphanClientData (order : ReductionOrder) : ClientDb :=
  let cleaned := (db.updatePing (PingTaskRow.cleanup db.clients order.ping)
    (PingTaskRow.cleanup_id db.clients order.ping)).updateLoad
      (LoadNotificationRow.cleanup db.clients order.load) fun _ _ => LoadNotificationRow.cleanup_id
  { cleaned with
    offlineNotifications := db.offlineNotifications.filter db.clients.contains
    expiryNotifications := db.expiryNotifications.filter db.clients.contains
    }.pruneWebsiteClientReferences db.clients.contains

end ClientDb

/-- A call, with the orders in which the database aggregates. -/
inductive RemovalCall where
  | deleteClients (uuids : Elements)
  | pruneReferences (uuids : Elements) (order : ReductionOrder)
  | cleanupOrphans (order : ReductionOrder)

def RemovalCall.apply (db : ClientDb) : RemovalCall → ClientDb
  | .deleteClients uuids => db.deleteClients uuids
  | .pruneReferences uuids order => db.pruneClientReferences uuids order
  | .cleanupOrphans order => db.cleanupOrphanClientData order

def removalMachine : Machine ClientDb RemovalCall := ⟨fun db call => some (call.apply db)⟩

/-! ## What the rules address -/

/-- The nodes that a list names. -/
def listed (l : Elements) : Set String := fun u => some u ∈ l

def PingTaskRow.addressed (existing : Set String) (t : PingTaskRow) : Set String :=
  if t.allClients then existing else listed t.clients

def LoadNotificationRow.addressed (existing : Set String) (l : LoadNotificationRow) : Set String :=
  if l.clients = [] then existing else listed l.clients

def WebsiteRow.addressed (w : WebsiteRow) : Set String :=
  if w.agentProbeMode = .selected then listed w.agentProbeClients else ∅

namespace ClientDb

/-- The nodes with a row. -/
def existing (db : ClientDb) : Set String := fun u => u ∈ db.clients

/-- Every rule that is there afterwards was there before, and addresses no other nodes. -/
structure Narrowed (db db' : ClientDb) : Prop where
  clients : db'.existing ⊆ db.existing
  ping : ∀ t' ∈ db'.pingTasks, ∃ t ∈ db.pingTasks, t.id = t'.id ∧
    t'.addressed db'.existing ⊆ t.addressed db.existing
  load : ∀ l' ∈ db'.loadNotifications, ∃ l ∈ db.loadNotifications, l.id = l'.id ∧
    l'.addressed db'.existing ⊆ l.addressed db.existing
  website : ∀ w' ∈ db'.websiteMonitors, ∃ w ∈ db.websiteMonitors, w.id = w'.id ∧ w'.addressed ⊆ w.addressed

/-- What is left of every list is in its order. -/
structure Ordered (db db' : ClientDb) : Prop where
  ping : ∀ t' ∈ db'.pingTasks, ∃ t ∈ db.pingTasks, t.id = t'.id ∧ t'.clients.Sublist t.clients
  load : ∀ l' ∈ db'.loadNotifications, ∃ l ∈ db.loadNotifications, l.id = l'.id ∧ l'.clients.Sublist l.clients
  website : ∀ w' ∈ db'.websiteMonitors, ∃ w ∈ db.websiteMonitors, w.id = w'.id ∧
    w'.agentProbeClients.Sublist w.agentProbeClients

/-- No list of a rule names a node without a row. -/
structure Clean (db : ClientDb) : Prop where
  ping : ∀ t ∈ db.pingTasks, t.allClients = false → listed t.clients ⊆ db.existing
  load : ∀ l ∈ db.loadNotifications, listed l.clients ⊆ db.existing
  website : ∀ w ∈ db.websiteMonitors, listed w.agentProbeClients ⊆ db.existing

end ClientDb

/-- What a call promises. -/
def RemovalCall.Holds (db : ClientDb) (call : RemovalCall) (db' : ClientDb) : Prop :=
  db.Narrowed db' ∧ db.Ordered db' ∧
    match call with
    | .cleanupOrphans _ => db'.Clean
    | _ => True

/-- The database aggregates what is left of each list that a call reduces in the order of the list. -/
def RemovalCall.InOrder (db : ClientDb) : RemovalCall → Prop
  | .deleteClients _ => True
  | .pruneReferences uuids order =>
    let remove := (nonBlank uuids).map btrim
    let kept := selected fun u => !remove.contains u
    (∀ t ∈ db.pingTasks, t.allClients = false → names remove.contains t.clients = true →
      order.ping.arrange t.id (kept t.clients) = kept t.clients) ∧
    ∀ l ∈ db.loadNotifications, names remove.contains l.clients = true →
      order.load.arrange l.id (kept l.clients) = kept l.clients
  | .cleanupOrphans order =>
    let kept := selected db.clients.contains
    (∀ t ∈ db.pingTasks, t.allClients = false → (kept t.clients).length ≠ t.clients.length →
      order.ping.arrange t.id (kept t.clients) = kept t.clients) ∧
    ∀ l ∈ db.loadNotifications, (kept l.clients).length ≠ l.clients.length →
      order.load.arrange l.id (kept l.clients) = kept l.clients

/-! ## Reduced lists -/

section Lists

variable {p : String → Bool} {l : Elements} {order : RowOrder} {id : Int}

theorem listed_selected {u : String} (h : u ∈ listed (selected p l)) : p u = true ∧ u ∈ listed l := by
  obtain ⟨hmem, hp⟩ := List.mem_filter.mp h
  exact ⟨hp, hmem⟩

theorem listed_arranged {u : String} (h : u ∈ listed (order.arrange id (selected p l))) :
    p u = true ∧ u ∈ listed l :=
  listed_selected ((order.perm id _).mem_iff.mp h)

theorem length_arranged : (order.arrange id (selected p l)).length = (selected p l).length :=
  (order.perm id _).length_eq

/-- A list from which nothing is left out. -/
theorem selected_eq_self (h : (selected p l).length = l.length) : selected p l = l :=
  List.filter_sublist.eq_of_length h

/-- **What is left is in the order of the list** exactly when it is the list without the others. -/
theorem arranged_sublist_iff :
    (order.arrange id (selected p l)).Sublist l ↔ order.arrange id (selected p l) = selected p l := by
  constructor
  · intro h
    have hself : (order.arrange id (selected p l)).filter (fun c => c.any p) = order.arrange id (selected p l) := by
      refine List.filter_eq_self.mpr fun c hc => ?_
      exact (List.mem_filter.mp ((order.perm id _).mem_iff.mp hc)).2
    have hsub := h.filter fun c => c.any p
    rw [hself] at hsub
    exact hsub.eq_of_length length_arranged
  · intro h
    rw [h]
    exact List.filter_sublist

end Lists

/-! ## Rows after a call -/

section Rows

variable {remove existing : List String} {order : RowOrder}

theorem PingTaskRow.prune_cases (t : PingTaskRow) :
    (t.allClients = false ∧ names remove.contains t.clients = true ∧ t.prune remove order =
      { t with clients := order.arrange t.id (selected (fun u => !remove.contains u) t.clients) }) ∨
    (¬ (t.allClients = false ∧ names remove.contains t.clients = true) ∧ t.prune remove order = t) := by
  simp only [PingTaskRow.prune]
  by_cases htouched : t.allClients = false ∧ names remove.contains t.clients = true
  · refine .inl ⟨htouched.1, htouched.2, ?_⟩
    split_ifs with hif
    · rfl
    · have hsame : t.clients = order.arrange t.id (selected (fun u => !remove.contains u) t.clients) := by
        by_contra hne
        exact hif ⟨htouched.1, htouched.2, hne⟩
      exact congrArg (fun clients => { t with clients }) hsame
  · refine .inr ⟨htouched, if_neg fun hif => htouched ⟨hif.1, hif.2.1⟩⟩

theorem PingTaskRow.cleanup_cases (t : PingTaskRow) :
    (t.allClients = false ∧ (selected existing.contains t.clients).length ≠ t.clients.length ∧
      t.cleanup existing order =
        { t with clients := order.arrange t.id (selected existing.contains t.clients) }) ∨
    (¬ (t.allClients = false ∧ (selected existing.contains t.clients).length ≠ t.clients.length) ∧
      t.cleanup existing order = t) := by
  simp only [PingTaskRow.cleanup, length_arranged]
  split_ifs with hif
  · exact .inl ⟨hif.1, hif.2, rfl⟩
  · exact .inr ⟨hif, rfl⟩

variable {l : LoadNotificationRow}

variable {l' : LoadNotificationRow}

theorem LoadNotificationRow.prune_cases (h : l.prune remove order = some l') :
    (names remove.contains l.clients = true ∧ l'.clients ≠ [] ∧ l' =
      { l with clients := order.arrange l.id (selected (fun u => !remove.contains u) l.clients) }) ∨
    (names remove.contains l.clients = false ∧ l' = l) := by
  simp only [LoadNotificationRow.prune] at h
  split_ifs at h with htouched hempty hdistinct
  · cases h
    exact .inl ⟨htouched, fun hnil => hempty (List.length_eq_zero_iff.mpr hnil), rfl⟩
  · cases h
    have hsame : l.clients = order.arrange l.id (selected (fun u => !remove.contains u) l.clients) :=
      not_not.mp hdistinct
    refine .inl ⟨htouched, fun hnil => hempty ?_, congrArg (fun clients => { l with clients }) hsame⟩
    rw [← hsame, hnil, List.length_nil]
  · cases h
    exact .inr ⟨Bool.eq_false_of_not_eq_true htouched, rfl⟩

theorem LoadNotificationRow.cleanup_cases (h : l.cleanup existing order = some l') :
    ((selected existing.contains l.clients).length ≠ l.clients.length ∧ l'.clients ≠ [] ∧ l' =
      { l with clients := order.arrange l.id (selected existing.contains l.clients) }) ∨
    ((selected existing.contains l.clients).length = l.clients.length ∧ l' = l) := by
  simp only [LoadNotificationRow.cleanup, length_arranged] at h
  split_ifs at h with htouched hempty
  · cases h
    exact .inl ⟨htouched, fun hnil => hempty (length_arranged.symm.trans (congrArg List.length hnil)), rfl⟩
  · cases h
    exact .inr ⟨not_not.mp htouched, rfl⟩

/-- A website monitor keeps its list, or gets the shorter one and stops being selective when that is
    empty. -/
theorem WebsiteRow.prune_spec (keep : String → Bool) (w : WebsiteRow) :
    (w.prune keep).id = w.id ∧ (w.prune keep).agentProbeClients = selected keep w.agentProbeClients ∧
      (w.prune keep).addressed ⊆ w.addressed := by
  simp only [WebsiteRow.prune]
  split_ifs with hchanged hemptied
  · refine ⟨rfl, rfl, ?_⟩
    show (if AgentProbeMode.off = .selected then _ else (∅ : Set String)) ⊆ _
    rw [if_neg (by decide)]
    exact Set.empty_subset _
  · refine ⟨rfl, rfl, ?_⟩
    rw [WebsiteRow.addressed, WebsiteRow.addressed]
    split_ifs
    · exact fun u hu => (listed_selected hu).2
    · exact Set.Subset.refl _
  · exact ⟨rfl, not_not.mp hchanged, Set.Subset.refl _⟩

variable {E E' : Set String}

variable {p : String → Bool}

theorem PingTaskRow.addressed_arranged {t : PingTaskRow} (hall : t.allClients = false) :
    ({ t with clients := order.arrange t.id (selected p t.clients) } : PingTaskRow).addressed E' ⊆
      t.addressed E := by
  simp only [PingTaskRow.addressed, hall, Bool.false_eq_true, if_false]
  exact fun u hu => (listed_arranged hu).2

theorem PingTaskRow.addressed_mono (hE : E' ⊆ E) (t : PingTaskRow) : t.addressed E' ⊆ t.addressed E := by
  simp only [PingTaskRow.addressed]
  split_ifs
  · exact hE
  · exact Set.Subset.refl _

theorem LoadNotificationRow.addressed_arranged (hleft : order.arrange l.id (selected p l.clients) ≠ []) :
    ({ l with clients := order.arrange l.id (selected p l.clients) } : LoadNotificationRow).addressed E' ⊆
      l.addressed E := by
  have hlist : l.clients ≠ [] := by
    intro hnil
    refine hleft (List.length_eq_zero_iff.mp ?_)
    rw [length_arranged, hnil]
    rfl
  simp only [LoadNotificationRow.addressed, hleft, hlist, if_false]
  exact fun u hu => (listed_arranged hu).2

theorem LoadNotificationRow.addressed_mono (hE : E' ⊆ E) (l : LoadNotificationRow) :
    l.addressed E' ⊆ l.addressed E := by
  simp only [LoadNotificationRow.addressed]
  split_ifs
  · exact hE
  · exact Set.Subset.refl _

end Rows

open LoadNotificationRow (addressed addressed_arranged cleanup cleanup_cases cleanup_id prune
  prune_cases prune_id)

/-! ## Calls -/

namespace ClientDb

variable {db : ClientDb}

theorem narrowed_websites (keep : String → Bool) :
    ∀ w' ∈ db.websiteMonitors.map (WebsiteRow.prune keep), ∃ w ∈ db.websiteMonitors, w.id = w'.id ∧
      w'.addressed ⊆ w.addressed ∧ w'.agentProbeClients.Sublist w.agentProbeClients := by
  intro w' hw'
  obtain ⟨w, hw, rfl⟩ := List.mem_map.mp hw'
  obtain ⟨hid, hlist, haddressed⟩ := w.prune_spec keep
  refine ⟨w, hw, hid.symm, haddressed, ?_⟩
  rw [hlist]
  exact List.filter_sublist

theorem unchanged_websites : ∀ w' ∈ db.websiteMonitors, ∃ w ∈ db.websiteMonitors, w.id = w'.id ∧
      w'.addressed ⊆ w.addressed ∧ w'.agentProbeClients.Sublist w.agentProbeClients :=
  fun w hw => ⟨w, hw, rfl, Set.Subset.refl _, List.Sublist.refl _⟩

/-- The tables after `cfm_delete_clients`: the websites alone lose entries. -/
theorem deleteClients_spec (uuids : Elements) : (db.deleteClients uuids).existing ⊆ db.existing ∧
    (db.deleteClients uuids).pingTasks = db.pingTasks ∧
    (db.deleteClients uuids).loadNotifications = db.loadNotifications ∧
    ∀ w' ∈ (db.deleteClients uuids).websiteMonitors, ∃ w ∈ db.websiteMonitors, w.id = w'.id ∧
      w'.addressed ⊆ w.addressed ∧ w'.agentProbeClients.Sublist w.agentProbeClients := by
  have hclients : (db.clients.filter fun u => !(nonBlank uuids).contains u) ⊆ db.clients :=
    List.filter_subset_self _
  rw [deleteClients]
  split_ifs
  · exact ⟨fun u hu => hclients hu, rfl, rfl, unchanged_websites⟩
  · exact ⟨fun u hu => hclients hu, rfl, rfl, narrowed_websites _⟩

/-- **No call widens a rule**, in whatever order the database aggregates. -/
theorem narrowed_apply (db : ClientDb) (call : RemovalCall) : db.Narrowed (call.apply db) := by
  cases call with
  | deleteClients uuids =>
    obtain ⟨hclients, hping, hload, hwebsite⟩ := db.deleteClients_spec uuids
    refine ⟨hclients, ?_, ?_, ?_⟩
    · intro t ht
      exact ⟨t, hping ▸ ht, rfl, t.addressed_mono hclients⟩
    · intro l hl
      exact ⟨l, hload ▸ hl, rfl, l.addressed_mono hclients⟩
    · intro w' hw'
      obtain ⟨w, hw, hid, haddressed, -⟩ := hwebsite w' hw'
      exact ⟨w, hw, hid, haddressed⟩
  | pruneReferences uuids order =>
    show db.Narrowed (db.pruneClientReferences uuids order)
    rw [pruneClientReferences]
    split_ifs
    · exact ⟨Set.Subset.refl _, fun t ht => ⟨t, ht, rfl, Set.Subset.refl _⟩,
        fun l hl => ⟨l, hl, rfl, Set.Subset.refl _⟩, fun w hw => ⟨w, hw, rfl, Set.Subset.refl _⟩⟩
    · refine ⟨Set.Subset.refl _, ?_, ?_, ?_⟩
      · intro t' ht'
        obtain ⟨t, ht, rfl⟩ := List.mem_map.mp ht'
        refine ⟨t, ht, (t.prune_id _ _).symm, ?_⟩
        rcases t.prune_cases with ⟨hall, -, heq⟩ | ⟨-, heq⟩
        · rw [heq]
          exact PingTaskRow.addressed_arranged hall
        · rw [heq]
          exact Set.Subset.refl _
      · intro l' hl'
        obtain ⟨l, hl, heq⟩ := List.mem_filterMap.mp hl'
        refine ⟨l, hl, (prune_id heq).symm, ?_⟩
        rcases prune_cases heq with ⟨-, hleft, rfl⟩ | ⟨-, rfl⟩
        · exact addressed_arranged hleft
        · exact Set.Subset.refl _
      · intro w' hw'
        obtain ⟨w, hw, hid, haddressed, -⟩ := narrowed_websites _ w' hw'
        exact ⟨w, hw, hid, haddressed⟩
  | cleanupOrphans order =>
    refine ⟨Set.Subset.refl _, ?_, ?_, ?_⟩
    · intro t' ht'
      obtain ⟨t, ht, rfl⟩ := List.mem_map.mp ht'
      refine ⟨t, ht, (t.cleanup_id _ _).symm, ?_⟩
      rcases t.cleanup_cases with ⟨hall, -, heq⟩ | ⟨-, heq⟩
      · rw [heq]
        exact PingTaskRow.addressed_arranged hall
      · rw [heq]
        exact Set.Subset.refl _
    · intro l' hl'
      obtain ⟨l, hl, heq⟩ := List.mem_filterMap.mp hl'
      refine ⟨l, hl, (cleanup_id heq).symm, ?_⟩
      rcases cleanup_cases heq with ⟨-, hleft, rfl⟩ | ⟨-, rfl⟩
      · exact addressed_arranged hleft
      · exact Set.Subset.refl _
    · intro w' hw'
      obtain ⟨w, hw, hid, haddressed, -⟩ := narrowed_websites _ w' hw'
      exact ⟨w, hw, hid, haddressed⟩

/-- **After a cleanup** no list of a rule names a node without a row. -/
theorem clean_cleanup (db : ClientDb) (order : ReductionOrder) : (db.cleanupOrphanClientData order).Clean := by
  have hexisting {u : String} (h : db.clients.contains u = true) : u ∈ db.existing :=
    List.contains_iff_mem.mp h
  refine ⟨?_, ?_, ?_⟩
  · intro t' ht' hall u hu
    obtain ⟨t, ht, rfl⟩ := List.mem_map.mp ht'
    rcases t.cleanup_cases with ⟨-, -, heq⟩ | ⟨huntouched, heq⟩
    · rw [heq] at hu
      exact hexisting (listed_arranged hu).1
    · rw [heq] at hu hall
      have hself : selected db.clients.contains t.clients = t.clients :=
        selected_eq_self (not_not.mp fun h => huntouched ⟨hall, h⟩)
      rw [← hself] at hu
      exact hexisting (listed_selected hu).1
  · intro l' hl' u hu
    obtain ⟨l, hl, heq⟩ := List.mem_filterMap.mp hl'
    rcases cleanup_cases heq with ⟨-, -, rfl⟩ | ⟨hlength, rfl⟩
    · exact hexisting (listed_arranged hu).1
    · rw [← selected_eq_self hlength] at hu
      exact hexisting (listed_selected hu).1
  · intro w' hw' u hu
    obtain ⟨w, hw, rfl⟩ := List.mem_map.mp hw'
    rw [(w.prune_spec _).2.1] at hu
    exact hexisting (listed_selected hu).1

/-! ## Orders -/

/-- Ids are unique, so that a row is compared with itself. -/
theorem ordered_ping {f : PingTaskRow → PingTaskRow} (hf : ∀ t, (f t).id = t.id) :
    (∀ t' ∈ db.pingTasks.map f, ∃ t ∈ db.pingTasks, t.id = t'.id ∧ t'.clients.Sublist t.clients) ↔
      ∀ t ∈ db.pingTasks, (f t).clients.Sublist t.clients := by
  constructor
  · intro h t ht
    obtain ⟨u, hu, hid, hsub⟩ := h (f t) (List.mem_map_of_mem ht)
    obtain rfl := List.inj_on_of_nodup_map db.pingIds hu ht (hid.trans (hf t))
    exact hsub
  · intro h t' ht'
    obtain ⟨t, ht, rfl⟩ := List.mem_map.mp ht'
    exact ⟨t, ht, (hf t).symm, h t ht⟩

variable {f : LoadNotificationRow → Option LoadNotificationRow}

theorem ordered_load (hf : ∀ l l', f l = some l' → l'.id = l.id) :
    (∀ l' ∈ db.loadNotifications.filterMap f, ∃ l ∈ db.loadNotifications, l.id = l'.id ∧
        l'.clients.Sublist l.clients) ↔
      ∀ l ∈ db.loadNotifications, ∀ l', f l = some l' → l'.clients.Sublist l.clients := by
  constructor
  · intro h l hl l' heq
    obtain ⟨u, hu, hid, hsub⟩ := h l' (List.mem_filterMap.mpr ⟨l, hl, heq⟩)
    obtain rfl := List.inj_on_of_nodup_map db.loadIds hu hl (hid.trans (hf l l' heq))
    exact hsub
  · intro h l' hl'
    obtain ⟨l, hl, heq⟩ := List.mem_filterMap.mp hl'
    exact ⟨l, hl, (hf l l' heq).symm, h l hl l' heq⟩

theorem ordered_reduced {order : RowOrder} {p : String → Bool} {l : LoadNotificationRow}
    (hf : order.arrange l.id (selected p l.clients) ≠ [] →
      f l = some { l with clients := order.arrange l.id (selected p l.clients) })
    (h : ∀ l', f l = some l' → l'.clients.Sublist l.clients) :
    order.arrange l.id (selected p l.clients) = selected p l.clients := by
  by_cases hleft : order.arrange l.id (selected p l.clients) = []
  · have hlength : (selected p l.clients).length = 0 := by
      rw [← length_arranged, hleft]
      rfl
    rw [hleft, List.length_eq_zero_iff.mp hlength]
  · exact arranged_sublist_iff.mp (h _ (hf hleft))

theorem ordered_pruneRemoved_iff (db : ClientDb) (remove : List String) (order : ReductionOrder) :
    db.Ordered (db.pruneRemoved remove order) ↔
      (∀ t ∈ db.pingTasks, t.allClients = false → names remove.contains t.clients = true →
        order.ping.arrange t.id (selected (fun u => !remove.contains u) t.clients) =
          selected (fun u => !remove.contains u) t.clients) ∧
      ∀ l ∈ db.loadNotifications, names remove.contains l.clients = true →
        order.load.arrange l.id (selected (fun u => !remove.contains u) l.clients) =
          selected (fun u => !remove.contains u) l.clients := by
  constructor
  · intro h
    refine ⟨fun t ht hall htouched => ?_, fun l hl htouched => ?_⟩
    · have hsub := (ordered_ping (PingTaskRow.prune_id remove order.ping)).mp h.ping t ht
      rcases t.prune_cases with ⟨-, -, heq⟩ | ⟨huntouched, -⟩
      · rw [heq] at hsub
        exact arranged_sublist_iff.mp hsub
      · exact absurd ⟨hall, htouched⟩ huntouched
    · refine ordered_reduced (fun hleft => ?_)
        ((ordered_load fun _ _ => prune_id).mp h.load l hl)
      simp only [prune, htouched, if_true, if_neg (mt List.length_eq_zero_iff.mp hleft)]
      split_ifs with hdistinct
      · rfl
      · exact congrArg (fun clients => some { l with clients }) (not_not.mp hdistinct)
  · intro h
    refine ⟨(ordered_ping (PingTaskRow.prune_id remove order.ping)).mpr fun t ht => ?_,
      (ordered_load fun _ _ => prune_id).mpr fun l hl l' heq => ?_, ?_⟩
    · rcases t.prune_cases with ⟨hall, htouched, heq⟩ | ⟨-, heq⟩
      · rw [heq]
        exact arranged_sublist_iff.mpr (h.1 t ht hall htouched)
      · rw [heq]
    · rcases prune_cases heq with ⟨htouched, -, rfl⟩ | ⟨-, rfl⟩
      · exact arranged_sublist_iff.mpr (h.2 l hl htouched)
      · exact List.Sublist.refl _
    · intro w' hw'
      obtain ⟨w, hw, hid, -, hsub⟩ := narrowed_websites _ w' hw'
      exact ⟨w, hw, hid, hsub⟩

/-- **What is left is in order** exactly when the database aggregates it so. -/
theorem ordered_apply_iff (db : ClientDb) (call : RemovalCall) :
    db.Ordered (call.apply db) ↔ call.InOrder db := by
  cases call with
  | deleteClients uuids =>
    obtain ⟨-, hping, hload, hwebsite⟩ := db.deleteClients_spec uuids
    refine ⟨fun _ => trivial, fun _ => ⟨?_, ?_, ?_⟩⟩
    · exact fun t ht => ⟨t, hping ▸ ht, rfl, List.Sublist.refl _⟩
    · exact fun l hl => ⟨l, hload ▸ hl, rfl, List.Sublist.refl _⟩
    · intro w' hw'
      obtain ⟨w, hw, hid, -, hsub⟩ := hwebsite w' hw'
      exact ⟨w, hw, hid, hsub⟩
  | pruneReferences uuids order =>
    show db.Ordered (db.pruneClientReferences uuids order) ↔ _
    rw [pruneClientReferences]
    simp only [RemovalCall.InOrder]
    split_ifs with hnone
    · rw [hnone]
      have huntouched (l : Elements) : names [].contains l ≠ true := by
        intro h
        obtain ⟨c, -, hc⟩ := List.any_eq_true.mp h
        cases c <;> simp at hc
      exact ⟨fun _ => ⟨fun t _ _ h => absurd h (huntouched _), fun l _ h => absurd h (huntouched _)⟩,
        fun _ => ⟨fun t ht => ⟨t, ht, rfl, List.Sublist.refl _⟩,
          fun l hl => ⟨l, hl, rfl, List.Sublist.refl _⟩, fun w hw => ⟨w, hw, rfl, List.Sublist.refl _⟩⟩⟩
    · exact db.ordered_pruneRemoved_iff _ order
  | cleanupOrphans order =>
    show db.Ordered (db.cleanupOrphanClientData order) ↔ _
    constructor
    · intro h
      refine ⟨fun t ht hall htouched => ?_, fun l hl htouched => ?_⟩
      · have hsub := (ordered_ping (PingTaskRow.cleanup_id db.clients order.ping)).mp h.ping t ht
        rcases t.cleanup_cases with ⟨-, -, heq⟩ | ⟨huntouched, -⟩
        · rw [heq] at hsub
          exact arranged_sublist_iff.mp hsub
        · exact absurd ⟨hall, htouched⟩ huntouched
      · refine ordered_reduced (fun hleft => ?_)
          ((ordered_load fun _ _ => cleanup_id).mp h.load l hl)
        have hlength : (order.load.arrange l.id (selected db.clients.contains l.clients)).length ≠
            l.clients.length := length_arranged.symm ▸ htouched
        simp only [cleanup, if_pos hlength, if_neg (mt List.length_eq_zero_iff.mp hleft)]
    · intro h
      refine ⟨(ordered_ping (PingTaskRow.cleanup_id db.clients order.ping)).mpr fun t ht => ?_,
        (ordered_load fun _ _ => cleanup_id).mpr fun l hl l' heq => ?_, ?_⟩
      · rcases t.cleanup_cases with ⟨hall, htouched, heq⟩ | ⟨-, heq⟩
        · rw [heq]
          exact arranged_sublist_iff.mpr (h.1 t ht hall htouched)
        · rw [heq]
      · rcases cleanup_cases heq with ⟨htouched, -, rfl⟩ | ⟨-, rfl⟩
        · exact arranged_sublist_iff.mpr (h.2 l hl htouched)
        · exact List.Sublist.refl _
      · intro w' hw'
        obtain ⟨w, hw, hid, -, hsub⟩ := narrowed_websites _ w' hw'
        exact ⟨w, hw, hid, hsub⟩

end ClientDb

/-! ## Runs -/

theorem RemovalCall.holds_iff (db : ClientDb) (call : RemovalCall) :
    call.Holds db (call.apply db) ↔ call.InOrder db := by
  rw [← db.ordered_apply_iff call]
  refine ⟨fun h => h.2.1, fun h => ⟨db.narrowed_apply call, h, ?_⟩⟩
  cases call with
  | cleanupOrphans order => exact db.clean_cleanup order
  | deleteClients uuids => trivial
  | pruneReferences uuids order => trivial

/-- **Over every run**, no call widens a rule, a cleanup leaves no list with a node without a row, and what
    is left of every list is in its order, if and only if the database aggregates every reduced list of a
    ping task or load notification in its order. -/
theorem pruned_lists_hold (db : ClientDb) (calls : List RemovalCall) :
    removalMachine.Along (fun db call db' => call.Holds db db') db calls ↔
      removalMachine.Along (fun db call _ => call.InOrder db) db calls := by
  constructor
  · exact removalMachine.along_imp (I := fun _ => True)
      (fun db call _ _ h hstep => ⟨trivial, (call.holds_iff db).mp (Option.some.inj hstep ▸ h)⟩)
      calls db trivial
  · exact removalMachine.along_imp (I := fun _ => True)
      (fun db call _ _ h hstep => ⟨trivial, Option.some.inj hstep ▸ (call.holds_iff db).mpr h⟩)
      calls db trivial

/-- A database that aggregates the rows of a list from its end. -/
def fromTheEnd : RowOrder := ⟨fun _ l => l.reverse, fun _ l => l.reverse_perm⟩

/-- A ping task of two nodes and one that is gone. -/
def orphanedTask : ClientDb where
  clients := ["a", "b"]
  offlineNotifications := []
  expiryNotifications := []
  pingTasks := [⟨1, [some "b", some "a", some "gone"], false⟩]
  loadNotifications := []
  websiteMonitors := []
  pingIds := by decide
  loadIds := by decide

/-- The cleanup may turn the list of a ping task around. -/
theorem cleanup_reorders : ¬ ∀ (db db' : ClientDb) (calls : List RemovalCall),
    removalMachine.run db calls = some db' →
      removalMachine.Along (fun db call db' => call.Holds db db') db calls := by
  intro h
  have hholds : (RemovalCall.cleanupOrphans ⟨fromTheEnd, fromTheEnd⟩).Holds orphanedTask
      (orphanedTask.cleanupOrphanClientData ⟨fromTheEnd, fromTheEnd⟩) :=
    (h orphanedTask _ [.cleanupOrphans ⟨fromTheEnd, fromTheEnd⟩] rfl).1
  obtain ⟨hping, -⟩ := (RemovalCall.holds_iff orphanedTask _).mp hholds
  have hsame : [some "a", some "b"] = [some "b", some "a"] :=
    hping ⟨1, [some "b", some "a", some "gone"], false⟩ List.mem_cons_self rfl (by decide)
  exact absurd hsame (by decide)

end CfMonitor.Clients
