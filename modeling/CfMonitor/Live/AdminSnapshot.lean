/-
  The management snapshot of the live-data object (`readAdminClientsSnapshot`,
  `writeAdminClientsSnapshot`, `upsertAdminClientSnapshot`, `removeAdminClientSnapshot`,
  `restoreClients`).

  Every writer reads the stored snapshot and writes the next one with storage calls alone in
  between, so the input gate of the object makes each of them one step.

  1. **Program** — `Rules.storeOf`: the snapshot that a call stores, or none when it is refused.

  2. **Results** — no write is lost to an older one (`admin_snapshot_versions`).
-/
import CfMonitor.Lib.Json
import CfMonitor.Lib.Machine
import Mathlib.Data.List.Forall2

namespace CfMonitor.Live

open CfMonitor.Lib
open Assoc (get?)

/-! ## Data -/

/-- A row of the snapshot: the uuid of a node and its other fields. -/
structure ClientRow where
  uuid : String
  fields : Fields

/-- What is stored under `admin-clients:snapshot`. -/
structure AdminClientsSnapshot where
  clients : List ClientRow
  updatedAt : Int
  removed : List String
  complete : Bool

/-- A refused request. -/
structure Refusal where
  status : Nat
  error : String

/-- The name and visibility of a node that is live now. -/
structure LiveName where
  name : String
  hidden : Bool

/-- What the writers use from elsewhere: the test for public addresses, `String(value)`, and whether
    a restored list fits into one storage value. -/
structure Rules where
  isPublicIpAddress : String → Bool
  toText : Json → String
  fits : List ClientRow → Bool

namespace Rules

variable (rules : Rules)

/-! ## Rows -/

/-- The uuid of a payload, without the blanks around it. -/
def payloadUuid (client : Fields) : String := trim ((Json.str? (Assoc.get? client "uuid")).getD "")

/-- Forget an address that is not a public one. -/
def hideAddress (field : String) (safe : Fields) : Fields :=
  match Assoc.get? safe field with
  | some (.str value) =>
    if trim value ≠ "" ∧ rules.isPublicIpAddress value = false then
      Assoc.set safe field (.str "")
    else safe
  | _ => safe

/-- Whether a field holds a public address: `isPublicIpAddress(String(value || ''))`. -/
def hasAddress (field : String) (safe : Fields) : Bool :=
  rules.isPublicIpAddress
    (if Json.truthy (Assoc.get? safe field) then
      ((Assoc.get? safe field).map rules.toText).getD ""
    else "")

/-- Drop the credentials of a payload. -/
def withoutToken (client : Fields) : Fields := Assoc.erase (Assoc.erase client "token") "token_hash"

def sanitizeAdminClientSnapshotItem (client : Fields) : Option ClientRow :=
  let uuid := payloadUuid client
  if uuid = "" then none
  else
    let safe := rules.hideAddress "ipv6" (rules.hideAddress "ipv4" (withoutToken client))
    let safe := Assoc.set safe "has_ipv4" (.bool (rules.hasAddress "ipv4" safe))
    let safe := Assoc.set safe "has_ipv6" (.bool (rules.hasAddress "ipv6" safe))
    some ⟨uuid, Assoc.erase safe "uuid"⟩

def restoredClientMetadata (client : Fields) : ClientRow :=
  let safe := rules.hideAddress "ipv4" (withoutToken client)
  let safe := Assoc.set safe "has_ipv4" (.bool (rules.hasAddress "ipv4" safe))
  let safe := rules.hideAddress "ipv6" safe
  let safe := Assoc.set safe "has_ipv6" (.bool (rules.hasAddress "ipv6" safe))
  ⟨payloadUuid client, Assoc.erase safe "uuid"⟩

/-! ## Reading and writing -/

/-- `readAdminClientsSnapshot`: the stored snapshot without blank tombstones. -/
def readAdminClientsSnapshot (stored : Option AdminClientsSnapshot) : Option AdminClientsSnapshot :=
  stored.map fun s => { s with removed := s.removed.filter fun uuid => decide (trim uuid ≠ "") }

/-- The next version: the clock, or one more than the last version. -/
def nextVersion (previous : Option AdminClientsSnapshot) (now : Int) : Int :=
  max now ((previous.map AdminClientsSnapshot.updatedAt).getD 0 + 1)

/-- The objects of a list of values. -/
def objects (items : List Json) : List Fields := items.filterMap Json.obj?

/-- `expected_version === (previous?.updatedAt ?? null)`. -/
def sameVersion (expected : Option Json) (previous : Option AdminClientsSnapshot) : Bool :=
  match expected, previous with
  | some .null, none => true
  | some (.num (.finite x)), some s => decide (x = s.updatedAt)
  | _, _ => false

/-- The rows of a request body. -/
def bodyRows (body : Fields) : List ClientRow :=
  (objects ((Json.arr? (Assoc.get? body "clients")).getD [])).filterMap rules.sanitizeAdminClientSnapshotItem

/-- `parsed.body.mode === 'reorder'`. -/
def isReorder (body : Fields) : Bool :=
  match Json.str? (Assoc.get? body "mode") with
  | some mode => mode == "reorder"
  | none => false

/-- The tombstones that a normal write confirms. -/
def confirmedRemoved (body : Fields) : List String :=
  ((Json.arr? (Assoc.get? body "confirmed_removed")).getD []).filterMap fun item =>
    Json.str? (some item)

/-- A row with the order that a reordering request gives it, if that is a positive integer. -/
def reorderRow (orders : List (String × Option Json)) (client : ClientRow) : ClientRow :=
  match safeInteger? ((Assoc.get? orders client.uuid).getD none) with
  | none => client
  | some order =>
    if 0 < order then
      { client with fields := Assoc.set client.fields "sort_order" (Json.int order) }
    else client

/-- `new Map(clients.map(client => [String(client.uuid), client.sort_order]))`. -/
def ordersOf (clients : List ClientRow) : List (String × Option Json) :=
  Assoc.merge [] (clients.map fun c => (c.uuid, Assoc.get? c.fields "sort_order"))

/-- Whether a write is refused: it does not name the version that is current. -/
def refusesWrite (previous : Option AdminClientsSnapshot) (body : Fields) : Bool :=
  !isReorder body && (previous.isSome || (Assoc.get? body "expected_version").isSome) &&
    !sameVersion (Assoc.get? body "expected_version") previous

/-- What an accepted write stores. -/
def writtenSnapshot (previous : Option AdminClientsSnapshot) (body : Fields) (now : Int) :
    AdminClientsSnapshot :=
  let clients := rules.bodyRows body
  let confirmed := if isReorder body then [] else confirmedRemoved body
  let tombstones := (previous.map AdminClientsSnapshot.removed).getD []
  let removed := tombstones.filter fun uuid => !confirmed.contains uuid
  match (if isReorder body then previous else none) with
  | some p =>
    ⟨p.clients.map (reorderRow (ordersOf clients)), nextVersion previous now, removed, p.complete⟩
  | none =>
    ⟨clients.filter fun client => !tombstones.contains client.uuid, nextVersion previous now,
      removed, true⟩

/-- `writeAdminClientsSnapshot` of a parsed body: the snapshot it stores, or the refusal. -/
def writeAdminClientsSnapshot (stored : Option AdminClientsSnapshot) (body : Fields) (now : Int) :
    Except Refusal AdminClientsSnapshot :=
  let previous := readAdminClientsSnapshot stored
  if refusesWrite previous body then
    .error ⟨409, "Client metadata changed while the database was being read"⟩
  else .ok (rules.writtenSnapshot previous body now)

/-- A row written over the last row of the same node. -/
def mergeRow (previous : Option ClientRow) (safe : ClientRow) : ClientRow :=
  ⟨safe.uuid, Assoc.merge ((previous.map ClientRow.fields).getD []) safe.fields⟩

/-- `new Map(clients.map(item => [String(item.uuid || ''), item]))`. -/
def byUuid (clients : List ClientRow) : List (String × ClientRow) :=
  Assoc.merge [] (clients.map fun c => (c.uuid, c))

/-- `upsertAdminClientSnapshot`: what it returns and what it stores.  `current` is the live entry of
    the node. -/
def upsertAdminClientSnapshot (stored : Option AdminClientsSnapshot) (client : Fields)
    (fromAgent : Bool) (current : Option LiveName) (now : Int) :
    Option ClientRow × Option AdminClientsSnapshot :=
  match rules.sanitizeAdminClientSnapshotItem client with
  | none => (none, none)
  | some safe =>
    match readAdminClientsSnapshot stored with
    | none =>
      if fromAgent then
        (current.map fun live => { safe with
          fields := Assoc.set (Assoc.set safe.fields "name" (.str live.name)) "hidden"
            (.bool live.hidden) }, none)
      else (some safe, some ⟨[safe], nextVersion none now, [], false⟩)
    | some snapshot =>
      let rows := byUuid snapshot.clients
      let previous := Assoc.get? rows safe.uuid
      if fromAgent && (previous.isNone || snapshot.removed.contains safe.uuid) then (none, none)
      else
        let merged := mergeRow previous safe
        (some merged, some ⟨(Assoc.set rows safe.uuid merged).map Prod.snd, nextVersion (some snapshot) now,
            snapshot.removed.filter fun uuid => decide (uuid ≠ safe.uuid), snapshot.complete⟩)

/-- `removeAdminClientSnapshot`. -/
def removeAdminClientSnapshot (stored : Option AdminClientsSnapshot) (uuid : String) (now : Int) :
    AdminClientsSnapshot :=
  let snapshot := readAdminClientsSnapshot stored
  { clients := ((snapshot.map AdminClientsSnapshot.clients).getD []).filter fun client =>
      decide (client.uuid ≠ uuid)
    updatedAt := nextVersion snapshot now
    removed := (uuid :: ((snapshot.map AdminClientsSnapshot.removed).getD []).filter fun item =>
      decide (item ≠ uuid)).take 200
    complete := (snapshot.map AdminClientsSnapshot.complete).getD false }

/-- The version and the rows of a restore request, before the stored snapshot is looked at. -/
def restoreRequest (body : Fields) : Except Refusal (Int × List ClientRow) :=
  match safeInteger? (Assoc.get? body "expected_version") with
  | none => .error ⟨400, "A restored snapshot requires its pre-read version"⟩
  | some expected =>
    if expected < 0 then .error ⟨400, "A restored snapshot requires its pre-read version"⟩
    else match Json.arr? (Assoc.get? body "clients") with
      | none => .error ⟨400, "Invalid restored client list"⟩
      | some items =>
        if 1000 < items.length ∨ (objects items).length ≠ items.length then
          .error ⟨400, "Invalid restored client list"⟩
        else
          let clients := (objects items).map rules.restoredClientMetadata
          if (clients.any fun c => c.uuid == "") || !decide (clients.map ClientRow.uuid).Nodup then
            .error ⟨400, "Invalid or duplicate restored client UUID"⟩
          else if !rules.fits clients then
            .error ⟨413, "Restored client snapshot exceeds the safe storage size"⟩
          else .ok (expected, clients)

/-- `restoreClients` of a parsed body, its part on the snapshot. -/
def restoreClients (stored : Option AdminClientsSnapshot) (body : Fields) (now : Int) :
    Except Refusal AdminClientsSnapshot :=
  match rules.restoreRequest body with
  | .error refusal => .error refusal
  | .ok (expected, clients) =>
    let previous := readAdminClientsSnapshot stored
    if (previous.map AdminClientsSnapshot.updatedAt).getD 0 = expected then
      .ok ⟨clients, nextVersion previous now, [], true⟩
    else .error ⟨409, "Client state changed while the snapshot was read"⟩

end Rules

/-! ## The object as a machine -/

/-- The stored snapshot, and (not read by the program) how often one was stored. -/
structure AdminStore where
  snapshot : Option AdminClientsSnapshot
  stores : Nat

/-- A call of one of the writers, with the clock it reads. -/
inductive AdminCall where
  | put (body : Fields) (now : Int)
  | upsert (client : Fields) (fromAgent : Bool) (current : Option LiveName) (now : Int)
  | remove (uuid : String) (now : Int)
  | restore (body : Fields) (now : Int)

/-- The snapshot that a call stores; none when it stores nothing. -/
def Rules.storeOf (rules : Rules) (stored : Option AdminClientsSnapshot) :
    AdminCall → Option AdminClientsSnapshot
  | .put body now => (rules.writeAdminClientsSnapshot stored body now).toOption
  | .upsert client fromAgent current now =>
    (rules.upsertAdminClientSnapshot stored client fromAgent current now).2
  | .remove uuid now => some (Rules.removeAdminClientSnapshot stored uuid now)
  | .restore body now => (rules.restoreClients stored body now).toOption

/-- One call. -/
def adminStep (rules : Rules) (s : AdminStore) (call : AdminCall) : AdminStore :=
  match rules.storeOf s.snapshot call with
  | none => s
  | some snapshot => ⟨some snapshot, s.stores + 1⟩

/-- The calls in any order. -/
def adminMachine (rules : Rules) : Machine AdminStore AdminCall :=
  ⟨fun s call => some (adminStep rules s call)⟩

namespace AdminStore

/-- The version of the stored snapshot; 0 when there is none. -/
def version (s : AdminStore) : Int := (s.snapshot.map AdminClientsSnapshot.updatedAt).getD 0

/-- The nodes that have a row. -/
def uuids (s : AdminStore) : List String :=
  (s.snapshot.map fun snapshot => snapshot.clients.map ClientRow.uuid).getD []

/-- The nodes that have a tombstone. -/
def removed (s : AdminStore) : List String :=
  ((Rules.readAdminClientsSnapshot s.snapshot).map AdminClientsSnapshot.removed).getD []

end AdminStore

/-! ## Versions -/

namespace Rules

variable {rules : Rules} {stored : Option AdminClientsSnapshot} {snapshot : AdminClientsSnapshot}

theorem read_updatedAt (stored : Option AdminClientsSnapshot) :
    (readAdminClientsSnapshot stored).map AdminClientsSnapshot.updatedAt
      = stored.map AdminClientsSnapshot.updatedAt := by
  cases stored <;> rfl

theorem nextVersion_read (stored : Option AdminClientsSnapshot) (now : Int) :
    nextVersion (readAdminClientsSnapshot stored) now = nextVersion stored now := by
  show max now (((readAdminClientsSnapshot stored).map _).getD 0 + 1) = _
  rw [read_updatedAt]
  rfl

theorem sameVersion_read (j : Option Json) (stored : Option AdminClientsSnapshot) :
    sameVersion j (readAdminClientsSnapshot stored) = sameVersion j stored := by
  cases stored with
  | none => rfl
  | some s => rcases j with _ | (_ | _ | (_ | _) | _ | _ | _) <;> rfl

theorem read_isSome (stored : Option AdminClientsSnapshot) :
    (readAdminClientsSnapshot stored).isSome = stored.isSome := by cases stored <;> rfl

variable {body : Fields} {now : Int}

theorem write_version (h : rules.writeAdminClientsSnapshot stored body now = .ok snapshot)
    (hnormal : isReorder body = false)
    (hnamed : stored.isSome ∨ (get? body "expected_version").isSome) :
    sameVersion (get? body "expected_version") stored = true := by
  by_contra hmiss
  have hrefused : refusesWrite (readAdminClientsSnapshot stored) body = true := by
    rw [refusesWrite, hnormal, read_isSome, sameVersion_read,
      show sameVersion (get? body "expected_version") stored = false by simpa using hmiss]
    rcases hnamed with hnamed | hnamed <;> simp [hnamed]
  rw [writeAdminClientsSnapshot, hrefused, if_pos rfl] at h
  cases h

theorem write_ok (h : rules.writeAdminClientsSnapshot stored body now = .ok snapshot) :
    snapshot = rules.writtenSnapshot (readAdminClientsSnapshot stored) body now := by
  rw [writeAdminClientsSnapshot] at h
  split_ifs at h
  exact (Except.ok.inj h).symm

theorem written_updatedAt (previous : Option AdminClientsSnapshot) (body : Fields) (now : Int) :
    (rules.writtenSnapshot previous body now).updatedAt = nextVersion previous now := by
  rw [writtenSnapshot]
  cases (if isReorder body then previous else none) <;> rfl

theorem written_reorder (rules : Rules) (p : AdminClientsSnapshot) (now : Int) (hre : isReorder body = true) :
    (rules.writtenSnapshot (some p) body now).clients
        = p.clients.map (reorderRow (ordersOf (rules.bodyRows body))) ∧
      (rules.writtenSnapshot (some p) body now).removed = p.removed ∧
      (rules.writtenSnapshot (some p) body now).complete = p.complete := by
  rw [writtenSnapshot, hre, if_pos rfl]
  refine ⟨rfl, ?_, rfl⟩
  show p.removed.filter _ = p.removed
  exact List.filter_eq_self.mpr (fun uuid _ => by simp)

theorem written_not_removed {previous : Option AdminClientsSnapshot} (hnormal : isReorder body = false) :
    ∀ c ∈ (rules.writtenSnapshot previous body now).clients,
      c.uuid ∉ (previous.map AdminClientsSnapshot.removed).getD [] := by
  rw [writtenSnapshot, hnormal, if_neg (by simp)]
  intro c hc
  simpa using (List.mem_filter.mp hc).2

theorem reorderRow_uuid (orders : List (String × Option Json)) (c : ClientRow) :
    (reorderRow orders c).uuid = c.uuid := by
  rw [reorderRow]
  cases safeInteger? ((get? orders c.uuid).getD none) with
  | none => rfl
  | some order =>
    show (if 0 < order then _ else c : ClientRow).uuid = c.uuid
    split_ifs <;> rfl

/-- Reordering a row changes its `sort_order` at most. -/
theorem reorderRow_fields (orders : List (String × Option Json)) (c : ClientRow) {field : String}
    (hfield : field ≠ "sort_order") :
    get? (reorderRow orders c).fields field = get? c.fields field := by
  rw [reorderRow]
  cases safeInteger? ((get? orders c.uuid).getD none) with
  | none => rfl
  | some order =>
    show get? (if 0 < order then _ else c : ClientRow).fields field = _
    split_ifs
    · exact (Assoc.get?_set c.fields "sort_order" field _).trans (if_neg hfield)
    · rfl

theorem upsert_stored {client : Fields} {fromAgent : Bool} {current : Option LiveName}
    (h : (rules.upsertAdminClientSnapshot stored client fromAgent current now).2 = some snapshot) :
    ∃ safe, rules.sanitizeAdminClientSnapshotItem client = some safe ∧
      ((stored = none ∧ fromAgent = false ∧ snapshot = ⟨[safe], nextVersion none now, [], false⟩) ∨
        ∃ p, readAdminClientsSnapshot stored = some p ∧
          (fromAgent = true → (get? (byUuid p.clients) safe.uuid).isSome ∧ safe.uuid ∉ p.removed) ∧
          snapshot = ⟨(Assoc.set (byUuid p.clients) safe.uuid
              (mergeRow (get? (byUuid p.clients) safe.uuid) safe)).map Prod.snd,
            nextVersion (some p) now, p.removed.filter fun uuid => decide (uuid ≠ safe.uuid),
            p.complete⟩) := by
  rw [upsertAdminClientSnapshot] at h
  cases hsafe : rules.sanitizeAdminClientSnapshotItem client with
  | none => rw [hsafe] at h; cases h
  | some safe =>
    rw [hsafe] at h
    refine ⟨safe, rfl, ?_⟩
    cases hp : readAdminClientsSnapshot stored with
    | none =>
      have hnone : stored = none := by
        have hsome := read_isSome stored
        rw [hp] at hsome
        exact Option.isNone_iff_eq_none.mp (by simpa using hsome.symm)
      rw [hp] at h
      cases fromAgent with
      | true => cases h
      | false => exact .inl ⟨hnone, rfl, (Option.some.inj h).symm⟩
    | some p =>
      rw [hp] at h
      refine .inr ⟨p, rfl, ?_⟩
      dsimp only at h
      split_ifs at h with hrefused
      refine ⟨?_, (Option.some.inj h).symm⟩
      intro hagent
      rw [hagent] at hrefused
      have hboth : ¬ get? (byUuid p.clients) safe.uuid = none ∧ safe.uuid ∉ p.removed := by
        simpa using hrefused
      exact ⟨Option.isSome_iff_ne_none.mpr hboth.1, hboth.2⟩

theorem restoreRequest_version {expected : Int} {clients : List ClientRow}
    (h : rules.restoreRequest body = .ok (expected, clients)) :
    safeInteger? (get? body "expected_version") = some expected := by
  rw [restoreRequest] at h
  cases hv : safeInteger? (get? body "expected_version") with
  | none => rw [hv] at h; cases h
  | some v =>
    rw [hv] at h
    by_cases hneg : v < 0
    · simp [hneg] at h
    · cases hc : Json.arr? (get? body "clients") with
      | none => simp [hneg, hc] at h
      | some items =>
        simp only [hneg, hc, if_false] at h
        split_ifs at h
        exact congrArg some (Prod.mk.inj (Except.ok.inj h)).1

theorem restore_ok (h : rules.restoreClients stored body now = .ok snapshot) :
    safeInteger? (get? body "expected_version") = some ((stored.map AdminClientsSnapshot.updatedAt).getD 0) ∧
      snapshot.updatedAt = nextVersion stored now := by
  rw [restoreClients] at h
  cases hr : rules.restoreRequest body with
  | error refusal => rw [hr] at h; cases h
  | ok request =>
    obtain ⟨expected, clients⟩ := request
    rw [hr] at h
    dsimp only at h
    split_ifs at h with hversion
    rw [read_updatedAt] at hversion
    refine ⟨hversion ▸ restoreRequest_version hr, ?_⟩
    rw [← Except.ok.inj h]
    exact nextVersion_read stored now

theorem lt_nextVersion (stored : Option AdminClientsSnapshot) (now : Int) :
    (stored.map AdminClientsSnapshot.updatedAt).getD 0 < nextVersion stored now := by
  show _ < max now ((stored.map AdminClientsSnapshot.updatedAt).getD 0 + 1)
  omega

theorem put_accepted (h : rules.storeOf stored (.put body now) = some snapshot) :
    rules.writeAdminClientsSnapshot stored body now = .ok snapshot := by
  rw [storeOf] at h
  cases hw : rules.writeAdminClientsSnapshot stored body now with
  | error _ => rw [hw] at h; simp [Except.toOption] at h
  | ok _ => rw [hw] at h; exact congrArg Except.ok (Option.some.inj h)

theorem restore_accepted (h : rules.storeOf stored (.restore body now) = some snapshot) :
    rules.restoreClients stored body now = .ok snapshot := by
  rw [storeOf] at h
  cases hw : rules.restoreClients stored body now with
  | error _ => rw [hw] at h; simp [Except.toOption] at h
  | ok _ => rw [hw] at h; exact congrArg Except.ok (Option.some.inj h)

theorem version_of_sameVersion {j : Option Json} {s t : AdminStore}
    (hs : sameVersion j s.snapshot = true) (ht : sameVersion j t.snapshot = true) :
    s.version = t.version := by
  rw [AdminStore.version, AdminStore.version]
  cases hs' : s.snapshot with
  | none =>
    rw [hs'] at hs
    cases ht' : t.snapshot with
    | none => rfl
    | some b =>
      rw [ht'] at ht
      rcases j with _ | (_ | _ | (_ | _) | _ | _ | _) <;> simp [sameVersion] at hs ht
  | some a =>
    rw [hs'] at hs
    cases ht' : t.snapshot with
    | none =>
      rw [ht'] at ht
      rcases j with _ | (_ | _ | (_ | _) | _ | _ | _) <;> simp [sameVersion] at hs ht
    | some b =>
      rw [ht'] at ht
      rcases j with _ | (_ | _ | (x | _) | _ | _ | _) <;> simp [sameVersion] at hs ht
      show a.updatedAt = b.updatedAt
      exact Rat.intCast_injective (hs.symm.trans ht)

/-- **Every store has a later version** than what it replaces. -/
theorem storeOf_version {call : AdminCall} (h : rules.storeOf stored call = some snapshot) :
    (stored.map AdminClientsSnapshot.updatedAt).getD 0 < snapshot.updatedAt := by
  cases call with
  | put body now =>
    rw [write_ok (put_accepted h), written_updatedAt, nextVersion_read]
    exact lt_nextVersion stored now
  | upsert client fromAgent current now =>
    obtain ⟨safe, -, ⟨hnone, -, hsnap⟩ | ⟨p, hp, -, hsnap⟩⟩ := upsert_stored h
    · rw [hsnap, hnone]
      exact lt_nextVersion none now
    · rw [hsnap]
      show _ < nextVersion (some p) now
      rw [← hp, nextVersion_read]
      exact lt_nextVersion stored now
  | remove uuid now =>
    rw [← Option.some.inj h]
    show _ < nextVersion (readAdminClientsSnapshot stored) now
    rw [nextVersion_read]
    exact lt_nextVersion stored now
  | restore body now =>
    rw [(restore_ok (restore_accepted h)).2]
    exact lt_nextVersion stored now

end Rules

/-! ## Runs -/

/-- Later in a run: nothing was stored, or the version and the number of stores have grown. -/
def Later (s t : AdminStore) : Prop := s = t ∨ (s.version < t.version ∧ s.stores < t.stores)

variable {s t : AdminStore}

theorem Later.trans {u : AdminStore} (h : Later s t) (h' : Later t u) : Later s u := by
  rcases h with rfl | ⟨hv, hn⟩
  · exact h'
  · rcases h' with rfl | ⟨hv', hn'⟩
    · exact .inr ⟨hv, hn⟩
    · exact .inr ⟨Int.lt_trans hv hv', Nat.lt_trans hn hn'⟩

theorem adminStep_later (rules : Rules) (s : AdminStore) (call : AdminCall) :
    Later s (adminStep rules s call) := by
  rw [adminStep]
  cases h : rules.storeOf s.snapshot call with
  | none => exact .inl rfl
  | some snapshot => exact .inr ⟨Rules.storeOf_version h, Nat.lt_succ_self s.stores⟩

theorem run_later {rules : Rules} {calls : List AdminCall}
    (h : (adminMachine rules).run s calls = some t) : Later s t := by
  refine (adminMachine rules).run_rel (R := Later) (fun s => .inl rfl) Later.trans ?_ h
  intro s call s' hs
  rw [← Option.some.inj hs]
  exact adminStep_later rules s call

theorem eq_of_version (h : Later s t) (hv : s.version = t.version) : s = t := by
  rcases h with rfl | ⟨hlt, -⟩
  · rfl
  · omega

/-! ## Membership -/

namespace Rules

variable {rules : Rules}

variable {clients : List ClientRow}

theorem mem_byUuid {k : String} {c : ClientRow} (h : (k, c) ∈ byUuid clients) : c.uuid = k := by
  have hall : ∀ (rows : List ClientRow) (l : List (String × ClientRow)), (∀ p ∈ l, p.2.uuid = p.1) →
      ∀ p ∈ Assoc.merge l (rows.map fun c => (c.uuid, c)), p.2.uuid = p.1 := by
    intro rows
    induction rows with
    | nil => intro l hl; exact hl
    | cons row rows ih =>
      intro l hl
      refine ih (Assoc.set l row.uuid row) ?_
      intro p hp
      rcases Assoc.mem_set hp with rfl | hp
      · rfl
      · exact hl p hp
  exact hall clients [] (by simp) (k, c) h

theorem mem_keys_byUuid {k : String} : k ∈ Assoc.keys (byUuid clients) ↔ k ∈ clients.map ClientRow.uuid := by
  rw [byUuid, Assoc.mem_keys_merge]
  simp [Assoc.keys]

variable {u : String}

theorem mem_upsert_uuids {safe : ClientRow} (merged : ClientRow) (hmerged : merged.uuid = safe.uuid) :
    u ∈ ((Assoc.set (byUuid clients) safe.uuid merged).map Prod.snd).map ClientRow.uuid →
      u = safe.uuid ∨ u ∈ clients.map ClientRow.uuid := by
  intro hu
  obtain ⟨c, hc, rfl⟩ := List.mem_map.mp hu
  obtain ⟨⟨k, c'⟩, hp, rfl⟩ := List.mem_map.mp hc
  rcases Assoc.mem_set hp with heq | hp
  · cases heq
    exact .inl hmerged
  · have hk : c'.uuid = k := mem_byUuid hp
    refine .inr (mem_keys_byUuid.mp ?_)
    rw [show c'.uuid = k from hk]
    exact List.mem_map_of_mem hp

/-! ## What each call does to rows and tombstones -/

variable {s : AdminStore}

theorem removed_of_snapshot {snapshot : AdminClientsSnapshot} {n : Nat} :
    (AdminStore.mk (some snapshot) n).removed
      = snapshot.removed.filter fun uuid => decide (trim uuid ≠ "") := rfl

variable {p : AdminClientsSnapshot}

theorem mem_removed (hp : readAdminClientsSnapshot s.snapshot = some p) : u ∈ s.removed ↔ u ∈ p.removed := by
  rw [AdminStore.removed, hp]
  rfl

theorem not_blank_of_removed (hu : u ∈ s.removed) : trim u ≠ "" := by
  obtain ⟨snapshot, n⟩ := s
  cases snapshot with
  | none => simp [AdminStore.removed, readAdminClientsSnapshot] at hu
  | some snapshot =>
    rw [removed_of_snapshot] at hu
    simpa using (List.mem_filter.mp hu).2

theorem uuids_of_read (hp : readAdminClientsSnapshot s.snapshot = some p) :
    s.uuids = p.clients.map ClientRow.uuid := by
  obtain ⟨snapshot, n⟩ := s
  cases snapshot with
  | none => simp [readAdminClientsSnapshot] at hp
  | some snapshot =>
    rw [← Option.some.inj hp]
    rfl

/-- **An agent** adds no row and clears no tombstone. -/
theorem agent_upsert (client : Fields) (current : Option LiveName) (now : Int) :
    (∀ u ∈ (adminStep rules s (.upsert client true current now)).uuids, u ∈ s.uuids) ∧
    (∀ u ∈ s.removed, u ∈ (adminStep rules s (.upsert client true current now)).removed) := by
  rw [adminStep]
  cases h : rules.storeOf s.snapshot (.upsert client true current now) with
  | none => exact ⟨fun u hu => hu, fun u hu => hu⟩
  | some snapshot =>
    obtain ⟨safe, -, ⟨-, hagent, -⟩ | ⟨p, hp, hagent, rfl⟩⟩ := upsert_stored h
    · cases hagent
    · obtain ⟨hrow, hnotremoved⟩ := hagent rfl
      refine ⟨fun u hu => ?_, fun u hu => ?_⟩
      · rw [uuids_of_read hp]
        rcases mem_upsert_uuids (mergeRow _ safe) rfl hu with rfl | hu
        · exact mem_keys_byUuid.mp (Assoc.get?_isSome.mp hrow)
        · exact hu
      · have hmem : u ∈ p.removed := (mem_removed hp).mp hu
        have hne : u ≠ safe.uuid := fun h => hnotremoved (h ▸ hmem)
        refine List.mem_filter.mpr ⟨List.mem_filter.mpr ⟨hmem, by simpa using hne⟩, ?_⟩
        simpa using not_blank_of_removed hu

variable {body : Fields}

/-- **Reordering** a snapshot changes `sort_order` alone. -/
theorem reorder_put (hre : isReorder body = true) (now : Int)
    {old : AdminClientsSnapshot} (hold : s.snapshot = some old) :
    ∃ new, (adminStep rules s (.put body now)).snapshot = some new ∧
      List.Forall₂ (fun c c' => c'.uuid = c.uuid ∧ ∀ field, field ≠ "sort_order" →
        get? c'.fields field = get? c.fields field) old.clients new.clients ∧
      (adminStep rules s (.put body now)).removed = s.removed ∧ new.complete = old.complete := by
  have haccepted : rules.storeOf s.snapshot (.put body now)
      = some (rules.writtenSnapshot (readAdminClientsSnapshot s.snapshot) body now) := by
    rw [storeOf, writeAdminClientsSnapshot, refusesWrite, hre]
    rfl
  obtain ⟨p, hp⟩ : ∃ p, readAdminClientsSnapshot s.snapshot = some p :=
    Option.isSome_iff_exists.mp (by rw [read_isSome, hold]; rfl)
  obtain ⟨hclients, hremoved, hcomplete⟩ := written_reorder rules p now hre
  have hpold : p.clients = old.clients ∧ p.complete = old.complete := by
    rw [hold] at hp
    rw [← Option.some.inj hp]
    exact ⟨rfl, rfl⟩
  rw [adminStep, haccepted, hp]
  refine ⟨_, rfl, ?_, ?_, hcomplete.trans hpold.2⟩
  · rw [hclients, hpold.1]
    refine List.forall₂_map_right_iff.mpr (List.forall₂_same.mpr ?_)
    intro c _
    exact ⟨reorderRow_uuid _ c, fun field hfield => reorderRow_fields _ c hfield⟩
  · rw [removed_of_snapshot, hremoved, AdminStore.removed, hp]
    -- the tombstones that were read are not blank
    refine List.filter_eq_self.mpr ?_
    intro u hu
    simpa using not_blank_of_removed ((mem_removed hp).mpr hu)

variable {now : Int}

/-- A write that stores something, and what it leaves behind. -/
theorem put_uuids (hback : u ∈ (adminStep rules s (.put body now)).uuids) : u ∈ s.uuids ∨ u ∉ s.removed := by
  rw [adminStep] at hback
  cases hw : rules.writeAdminClientsSnapshot s.snapshot body now with
  | error refusal =>
    rw [storeOf, hw] at hback
    exact .inl hback
  | ok snapshot =>
    rw [storeOf, hw, write_ok hw] at hback
    cases hp : readAdminClientsSnapshot s.snapshot with
    | none => exact .inr (by rw [AdminStore.removed, hp]; simp)
    | some p =>
      rw [hp] at hback
      cases hre : isReorder body with
      | false =>
        obtain ⟨c, hc, rfl⟩ := List.mem_map.mp hback
        refine .inr fun hu => written_not_removed hre c hc ?_
        exact (mem_removed hp).mp hu
      | true =>
        refine .inl ?_
        obtain ⟨c, hc, rfl⟩ := List.mem_map.mp hback
        rw [(written_reorder rules p now hre).1] at hc
        obtain ⟨c', hc', rfl⟩ := List.mem_map.mp hc
        rw [reorderRow_uuid, uuids_of_read hp]
        exact List.mem_map_of_mem hc'

theorem remove_uuids {uuid : String}
    (hback : u ∈ (adminStep rules s (.remove uuid now)).uuids) : u ∈ s.uuids := by
  obtain ⟨c, hc, rfl⟩ := List.mem_map.mp hback
  have hc' := (List.mem_filter.mp hc).1
  cases hp : readAdminClientsSnapshot s.snapshot with
  | none =>
    rw [hp] at hc'
    cases hc'
  | some p =>
    rw [hp] at hc'
    rw [uuids_of_read hp]
    exact List.mem_map_of_mem hc'

theorem upsert_uuids {client : Fields} {fromAgent : Bool} {current : Option LiveName}
    (hback : u ∈ (adminStep rules s (.upsert client fromAgent current now)).uuids) :
    u ∈ s.uuids ∨ payloadUuid client = u := by
  rw [adminStep] at hback
  cases h : rules.storeOf s.snapshot (.upsert client fromAgent current now) with
  | none => rw [h] at hback; exact .inl hback
  | some snapshot =>
    rw [h] at hback
    obtain ⟨safe, hsafe, hcases⟩ := upsert_stored h
    have huuid : payloadUuid client = safe.uuid := by
      rw [sanitizeAdminClientSnapshotItem] at hsafe
      dsimp only at hsafe
      split_ifs at hsafe
      rw [← Option.some.inj hsafe]
    rcases hcases with ⟨-, -, rfl⟩ | ⟨p, hp, -, rfl⟩
    · exact .inr (huuid.trans (List.mem_singleton.mp hback).symm)
    · rcases mem_upsert_uuids (mergeRow _ safe) rfl hback with rfl | hu
      · exact .inr huuid
      · rw [uuids_of_read hp]
        exact .inl hu

/-- **A removed node** comes back only through an administrator or a restore. -/
theorem removed_returns {call : AdminCall} (hremoved : u ∈ s.removed)
    (hgone : u ∉ s.uuids) (hback : u ∈ (adminStep rules s call).uuids) :
    (∃ client current now, call = .upsert client false current now ∧ payloadUuid client = u) ∨
      ∃ body now, call = .restore body now := by
  cases call with
  | restore body now => exact .inr ⟨body, now, rfl⟩
  | put body now =>
    rcases put_uuids hback with hu | hu
    · exact absurd hu hgone
    · exact absurd hremoved hu
  | remove uuid now => exact absurd (remove_uuids hback) hgone
  | upsert client fromAgent current now =>
    cases fromAgent with
    | true => exact absurd ((agent_upsert client current now).1 u hback) hgone
    | false =>
      rcases upsert_uuids hback with hu | hu
      · exact absurd hu hgone
      · exact .inl ⟨client, current, now, rfl, hu⟩

end Rules

/-- Whether a call stores a snapshot. -/
def accepted (rules : Rules) (s : AdminStore) (call : AdminCall) : Prop :=
  (rules.storeOf s.snapshot call).isSome

/-- **The management snapshot has no lost updates.**  `s₁` and `s` are any two states of a run, in
    this order, and `call` is the next call. -/
theorem admin_snapshot_versions (rules : Rules) (s₁ s : AdminStore) (calls : List AdminCall)
    (h : (adminMachine rules).run s₁ calls = some s) (call : AdminCall) :
    -- the version grows with every store
    (accepted rules s call → s.version < (adminStep rules s call).version) ∧
    -- a write that names the version of `s₁` is accepted only if nothing was stored since
    (∀ body now, call = .put body now → Rules.isReorder body = false → accepted rules s call →
      (s.snapshot.isSome ∨ (Assoc.get? body "expected_version").isSome) →
      Rules.sameVersion (Assoc.get? body "expected_version") s.snapshot = true ∧
      (Rules.sameVersion (Assoc.get? body "expected_version") s₁.snapshot = true → s₁ = s)) ∧
    (∀ body now, call = .restore body now → accepted rules s call →
      safeInteger? (Assoc.get? body "expected_version") = some s.version ∧
      (safeInteger? (Assoc.get? body "expected_version") = some s₁.version → s₁ = s)) ∧
    -- an agent adds no row and clears no tombstone
    (∀ client current now, call = .upsert client true current now →
      (∀ u ∈ (adminStep rules s call).uuids, u ∈ s.uuids) ∧
      ∀ u ∈ s.removed, u ∈ (adminStep rules s call).removed) ∧
    -- reordering a snapshot changes `sort_order` alone
    (∀ body now old, call = .put body now → Rules.isReorder body = true → s.snapshot = some old →
      ∃ new, (adminStep rules s call).snapshot = some new ∧
        List.Forall₂ (fun c c' => c'.uuid = c.uuid ∧ ∀ field, field ≠ "sort_order" →
          Assoc.get? c'.fields field = Assoc.get? c.fields field) old.clients new.clients ∧
        (adminStep rules s call).removed = s.removed ∧ new.complete = old.complete) ∧
    -- a removed node comes back only through an administrator or a restore
    (∀ u, u ∈ s.removed → u ∉ s.uuids → u ∈ (adminStep rules s call).uuids →
      (∃ client current now, call = .upsert client false current now ∧ Rules.payloadUuid client = u) ∨
      ∃ body now, call = .restore body now) := by
  have hlater := run_later h
  refine ⟨?_, ?_, ?_, ?_, ?_, fun u => Rules.removed_returns⟩
  · intro haccepted
    obtain ⟨snapshot, hs⟩ := Option.isSome_iff_exists.mp haccepted
    rw [adminStep, hs]
    exact Rules.storeOf_version hs
  · rintro body now rfl hnormal haccepted hnamed
    obtain ⟨snapshot, hs⟩ := Option.isSome_iff_exists.mp haccepted
    have hok := Rules.put_accepted hs
    have hcurrent := Rules.write_version hok hnormal hnamed
    refine ⟨hcurrent, fun hv => eq_of_version hlater ?_⟩
    exact Rules.version_of_sameVersion hv hcurrent
  · rintro body now rfl haccepted
    obtain ⟨snapshot, hs⟩ := Option.isSome_iff_exists.mp haccepted
    have hcurrent := (Rules.restore_ok (Rules.restore_accepted hs)).1
    refine ⟨hcurrent, fun hv => eq_of_version hlater ?_⟩
    exact Option.some.inj (hv.symm.trans hcurrent)
  · rintro client current now rfl
    exact Rules.agent_upsert client current now
  · rintro body now old rfl hre hold
    exact Rules.reorder_put hre now hold

/-- No address is public, no list too long. -/
def plainRules : Rules := ⟨fun _ => false, fun _ => "", fun _ => true⟩

/-- A request with one node, in the given mode. -/
def oneNode (mode : String) : Fields :=
  [("clients", .arr [.obj [("uuid", .str "a")]]), ("mode", .str mode)]

/-- The hypothesis is satisfiable: after a first write the next call finds its version. -/
theorem admin_snapshot_versions_seeded :
    ∃ s, (adminMachine plainRules).run ⟨none, 0⟩ [.put (oneNode "replace") 5] = some s ∧
      accepted plainRules s (.remove "a" 3) ∧
      s.version < (adminStep plainRules s (.remove "a" 3)).version :=
  ⟨_, rfl, rfl, (admin_snapshot_versions plainRules ⟨none, 0⟩ _ [.put (oneNode "replace") 5] rfl
    (.remove "a" 3)).1 rfl⟩

/-- Reordering does change the membership where there is no snapshot yet: it seeds one. -/
theorem reorder_seeds_snapshot :
    ¬ ∀ (rules : Rules) (s : AdminStore) (body : Fields) (now : Int), Rules.isReorder body = true →
      (adminStep rules s (.put body now)).uuids = s.uuids := by
  intro h
  have hseeded := h plainRules ⟨none, 0⟩ (oneNode "reorder") 5 (by decide +kernel)
  exact absurd hseeded (by decide +kernel)

end CfMonitor.Live
