/-
  The control data of a synchronised node: the entry of the management snapshot, and the day on
  which the policies of its agent reset the traffic (`applyClientSynchronization`,
  `trafficResetDayFor`).

  1. **Object** — `LiveObject`: the storage of `ClientSync`, and what the object remembers of the
     management snapshot: its version, and the reset days with the moment they were collected.

  2. **Program** — `SyncEnv.synchronise`: the segments of a synchronisation one after the other.
     Whenever it awaits a body, the other requests may leave any object behind.

  3. **Specification** — `HasControls`: the entry has the value of every control column, and so has
     every policy that is built while the management snapshot stays as it is.

  4. **Results** — when a synchronised node has its controls (`synchronised_controls_iff`).
-/
import CfMonitor.Live.OutboxRuns
import Mathlib.Data.Rat.Floor

namespace CfMonitor.Live

open CfMonitor.Lib SyncRules
open Option (some)
open Assoc (get? get?_erase get?_set keys_set_nodup)
open Rules (byUuid mergeRow withoutToken)

/-! ## Object -/

/-- What the object remembers of the management snapshot. -/
structure PolicyMemory where
  adminClientsUpdatedAt : Option Int
  trafficResetDays : List (String × Int)
  trafficResetDaysAt : Nat

/-- The memory of an object that has just started. -/
def PolicyMemory.fresh : PolicyMemory := ⟨none, [], 0⟩

/-- The version of what is stored. -/
def versionOf (stored : Option AdminClientsSnapshot) : Int :=
  (stored.map AdminClientsSnapshot.updatedAt).getD 0

/-- The object: every read and every store of the management snapshot remembers its version. -/
structure LiveObject where
  store : SyncStore
  memory : PolicyMemory
  seen : ∀ version ∈ memory.adminClientsUpdatedAt, version = versionOf store.admin

/-- What the policies use from elsewhere: `Number(text)`, where it is finite. -/
structure PolicyRules extends SyncRules where
  numberOf : String → Option ℚ

/-! ## Reset days -/

namespace PolicyRules

variable (rules : PolicyRules)

/-- `Number(value)`, where it is finite. -/
def toFinite : Option Json → Option ℚ
  | none => none
  | some .null => some 0
  | some (.bool b) => some (if b then 1 else 0)
  | some (.num (.finite x)) => some x
  | some (.num (.infinite _)) => none
  | some (.str text) => rules.numberOf text
  | some value => rules.numberOf (rules.toText value)

/-- The reset day of a row, if it has a uuid and the day is one of a month. -/
def resetDay (client : ClientRow) : Option Int :=
  match rules.toFinite (Assoc.get? client.fields "traffic_reset_day") with
  | some day => if client.uuid ≠ "" ∧ 1 ≤ day ∧ day ≤ 31 then some day.floor else none
  | none => none

/-- One turn of the loop that collects the days. -/
def collectDay (next : List (String × Int)) (client : ClientRow) : List (String × Int) :=
  match rules.resetDay client with
  | some day => Assoc.set next client.uuid day
  | none => next

/-- The days of a snapshot. -/
def collectDays (snapshot : Option AdminClientsSnapshot) : List (String × Int) :=
  ((snapshot.map AdminClientsSnapshot.clients).getD []).foldl rules.collectDay []

end PolicyRules

/-- `rememberAdminClientsSnapshot`: the storage is now `s`, and the version of its snapshot is known. -/
def LiveObject.remember (o : LiveObject) (s : SyncStore) : LiveObject where
  store := s
  memory := { o.memory with adminClientsUpdatedAt := some (versionOf s.admin) }
  seen := fun _ h => (Option.some.inj h).symm

theorem LiveObject.remember_store (o : LiveObject) (s : SyncStore) : (o.remember s).store = s := rfl

theorem putRevision_admin (uuid : String) (revision : Nat) (complete : Bool) (s : SyncStore) :
    (putRevision uuid revision complete s).admin = s.admin := rfl

theorem LiveObject.remember_version (o : LiveObject) (s : SyncStore) :
    (o.remember s).memory.adminClientsUpdatedAt = some (versionOf (o.remember s).store.admin) := rfl

/-- `this.trafficResetDaysAt === 0 || snapshotAt > this.trafficResetDaysAt`. -/
def PolicyMemory.stale (memory : PolicyMemory) : Bool :=
  memory.trafficResetDaysAt = 0 || (memory.trafficResetDaysAt : Int) < memory.adminClientsUpdatedAt.getD 0

/-- Collect the days of the stored snapshot. -/
def LiveObject.collect (rules : PolicyRules) (now : Nat) (o : LiveObject) : LiveObject where
  store := o.store
  memory := { (o.remember o.store).memory with
    trafficResetDays := rules.collectDays (Rules.readAdminClientsSnapshot o.store.admin)
    trafficResetDaysAt := (max (o.memory.adminClientsUpdatedAt.getD 0) now).toNat }
  seen := (o.remember o.store).seen

/-- `trafficResetDayFor`: the day that a policy of the node has, and the object afterwards. -/
def trafficResetDayFor (rules : PolicyRules) (clientId : String) (now : Nat) (o : LiveObject) :
    Option Int × LiveObject :=
  if clientId = "" then (none, o)
  else
    let o := if o.memory.stale then o.collect rules now else o
    (Assoc.get? o.memory.trafficResetDays clientId, o)

/-! ## Synchronisation -/

/-- What surrounds a synchronisation: whether a body of `updateClientMeta` is within the limit of a
    request, the clock, and the object that the other requests have made of the storage when a body
    has been read. -/
structure SyncEnv extends PolicyRules where
  bodyFits : AgentAuthSnapshot → Bool
  clock : SyncAwait → Int
  meanwhile : SyncAwait → SyncStore → LiveObject

namespace SyncEnv

variable (env : SyncEnv)

/-- The object after the last segment: `updateClientMeta` reads and stores the snapshot, unless its
    body is refused. -/
def described (uuid : String) (revision : Nat) (client : AgentAuthSnapshot) (o : LiveObject) :
    LiveObject :=
  if env.bodyFits client then
    o.remember (putRevision uuid revision true
      (env.upsertAdmin client (env.clock (.describing client)) o.store))
  else { o with store := putRevision uuid revision true o.store, seen := o.seen }

/-- The last segment, from the body of `updateClientMeta` on: the object before and after it. -/
def describe (uuid : String) (revision : Nat) (client : AgentAuthSnapshot) (s : SyncStore) :
    LiveObject × LiveObject :=
  let before := env.meanwhile (.describing client) s
  (before, env.described uuid revision client before)

/-- A synchronisation after its first segment, from the body it awaits. -/
def goOn (uuid : String) (revision : Nat) (s : SyncStore) : SyncAwait → Option (LiveObject × LiveObject)
  | .describing client => some (env.describe uuid revision client s)
  | .removing client =>
    let run := env.resume uuid revision (env.clock (.removing client)) true (.removing client)
      (env.meanwhile (.removing client) s).store
    match run.result with
    | .ok (.waits (.describing client)) => some (env.describe uuid revision client run.last)
    | _ => none

/-- `applyClientSynchronization` of the row of a node, from the request to its answer: the object
    before and after the last segment, when the answer is `applied: true`. -/
def synchronise (uuid : String) (revision : Nat) (client : AgentAuthSnapshot) (s : SyncStore) :
    Option (LiveObject × LiveObject) :=
  let run := env.applyClientSynchronization uuid revision (some client) s
  match run.result with
  | .ok (.waits next) => env.goOn uuid revision run.last next
  | _ => none

theorem modify_finish (uuid : String) (revision : Nat) (f : SyncStore → SyncStore) (s : SyncStore) :
    ((do Prog.modify f; finish uuid revision : Prog SyncStore Refusal SyncOutcome) s).last
        = putRevision uuid revision true (f s) ∧
      ((do Prog.modify f; finish uuid revision : Prog SyncStore Refusal SyncOutcome) s).result
        = .ok (.answered true) :=
  ⟨rfl, rfl⟩

end SyncEnv

/-! ## Specification -/

/-- What may follow while the management snapshot stays as it is: policies, reads, requests that
    write other keys, a restart. -/
inductive QuietEvent where
  | policy (clientId : String) (now : Nat)
  | read
  | other (store : SyncStore)
  | restart

def quietStep (rules : PolicyRules) (o : LiveObject) : QuietEvent → Option LiveObject
  | .policy clientId now => some (trafficResetDayFor rules clientId now o).2
  | .read => some (o.remember o.store)
  | .other store => some { o with store := { store with admin := o.store.admin }, seen := o.seen }
  | .restart => some ⟨o.store, .fresh, nofun⟩

def quietMachine (rules : PolicyRules) : Machine LiveObject QuietEvent := ⟨quietStep rules⟩

/-- The rows of what is stored. -/
def rowsOf (stored : Option AdminClientsSnapshot) : List ClientRow :=
  (stored.map AdminClientsSnapshot.clients).getD []

/-- The entry of a node in the management snapshot. -/
def LiveObject.entry (o : LiveObject) (uuid : String) : Option ClientRow :=
  Assoc.get? (Rules.byUuid (rowsOf o.store.admin)) uuid

/-- The control columns as the object writes them: flags are booleans, no expiry is the empty text. -/
def ClientControls.values (c : ClientControls) : Fields :=
  [("name", .str c.name), ("hidden", .bool (decide (c.hidden ≠ 0))), ("sort_order", .int c.sortOrder),
   ("remark", .str c.remark), ("public_remark", .str c.publicRemark), ("group", .str c.group),
   ("tags", .str c.tags), ("region", .str c.region), ("price", c.price.toJson),
   ("billing_cycle", .int c.billingCycle), ("auto_renewal", .bool (decide (c.autoRenewal ≠ 0))),
   ("currency", .str c.currency), ("expired_at", .str (c.expiredAt.getD "")),
   ("traffic_limit", .int c.trafficLimit), ("traffic_limit_type", .str c.trafficLimitType),
   ("traffic_reset_day", .int c.trafficResetDay)]

/-- The addresses of a row. -/
def ClientControls.addresses (c : ClientControls) : List (String × String) :=
  [("ipv4", c.ipv4), ("ipv6", c.ipv6)]

open ClientControls (addresses values)

/-- The fields of an entry have the control data of a row. -/
structure Carries (rules : Rules) (c : ClientControls) (fields : Fields) : Prop where
  values : ∀ p ∈ c.values, Assoc.get? fields p.1 = some p.2
  addresses : ∀ p ∈ c.addresses, rules.isPublicIpAddress p.2 = true → Assoc.get? fields p.1 = some (.str p.2)

/-- The object has the control data of a row: in the entry of the node, and in every policy that is
    built for it while the management snapshot stays as it is. -/
structure HasControls (rules : PolicyRules) (uuid : String) (c : ClientControls) (o : LiveObject) :
    Prop where
  entry : ∃ row, o.entry uuid = some row ∧ Carries rules.toRules c row.fields
  policy : ∀ es o', (quietMachine rules).run o es = some o' → ∀ now,
    (trafficResetDayFor rules uuid now o').1 = some c.trafficResetDay

/-! ## Policies -/

section Policies

variable {rules : PolicyRules} {uuid : String} {day : Int} {o o' : LiveObject}

/-- Whenever the days are collected, and also if they are not, a policy has this day. -/
structure Gives (rules : PolicyRules) (uuid : String) (day : Int) (o : LiveObject) : Prop where
  stored : Assoc.get? (rules.collectDays (Rules.readAdminClientsSnapshot o.store.admin)) uuid = some day
  cached : o.memory.stale = true ∨ Assoc.get? o.memory.trafficResetDays uuid = some day

theorem stale_remember (h : o.memory.stale = true) : (o.remember o.store).memory.stale = true := by
  rw [PolicyMemory.stale, Bool.or_eq_true, decide_eq_true_eq, decide_eq_true_eq] at h ⊢
  rcases h with hzero | hlater
  · exact .inl hzero
  · cases hat : o.memory.adminClientsUpdatedAt with
    | none =>
      rw [hat] at hlater
      cases hlater
    | some version =>
      have hversion := o.seen version hat
      rw [hat, Option.getD_some, hversion] at hlater
      exact .inr hlater

theorem Gives.step {e : QuietEvent} (hI : Gives rules uuid day o)
    (h : quietStep rules o e = some o') : Gives rules uuid day o' := by
  cases e with
  | policy clientId now =>
    cases h
    rw [trafficResetDayFor]
    split_ifs with hempty hstale
    · exact hI
    · exact ⟨hI.stored, .inr hI.stored⟩
    · exact hI
  | read =>
    cases h
    refine ⟨hI.stored, ?_⟩
    rcases hI.cached with hstale | hday
    · exact .inl (stale_remember hstale)
    · exact .inr hday
  | other store =>
    cases h
    exact ⟨hI.stored, hI.cached⟩
  | restart =>
    cases h
    exact ⟨hI.stored, .inl rfl⟩

theorem trafficResetDayFor_day (huuid : uuid ≠ "") (now : Nat) (o : LiveObject) :
    (trafficResetDayFor rules uuid now o).1 =
      if o.memory.stale then
        get? (rules.collectDays (Rules.readAdminClientsSnapshot o.store.admin)) uuid
      else get? o.memory.trafficResetDays uuid := by
  rw [trafficResetDayFor, if_neg huuid]
  cases hstale : o.memory.stale <;> rfl

/-- **Policies**: all later ones have the day iff the stored snapshot has it, and the memory has it or
    is collected anew. -/
theorem policies_iff (huuid : uuid ≠ "") : (∀ es o', (quietMachine rules).run o es = some o' → ∀ now,
      (trafficResetDayFor rules uuid now o').1 = some day) ↔ Gives rules uuid day o := by
  constructor
  · intro h
    constructor
    · -- a restart forgets the days, so that the next policy collects them
      have hrestarted := h [.restart] _ rfl 0
      rw [trafficResetDayFor_day huuid] at hrestarted
      exact hrestarted
    · have hnow := h [] o rfl 0
      rw [trafficResetDayFor_day huuid] at hnow
      split_ifs at hnow with hstale
      · exact .inl hstale
      · exact .inr hnow
  · intro hI es o' hrun now
    have hI' : Gives rules uuid day o' :=
      (quietMachine rules).run_inv (fun _ _ _ hI h => hI.step h) hI hrun
    rw [trafficResetDayFor_day huuid]
    split_ifs with hstale
    · exact hI'.stored
    · exact hI'.cached.resolve_left hstale

theorem hasControls_iff {c : ClientControls} (huuid : uuid ≠ "") : HasControls rules uuid c o ↔
      (∃ row, o.entry uuid = some row ∧ Carries rules.toRules c row.fields) ∧
        Gives rules uuid c.trafficResetDay o := by
  rw [← policies_iff huuid]
  exact ⟨fun h => ⟨h.entry, h.policy⟩, fun h => ⟨h.1, h.2⟩⟩

end Policies

/-! ## Sanitised rows -/

section Sanitised

variable {rules : Rules} {client : Fields} {safe : ClientRow}

theorem keys_hideAddress_nodup {fields : Fields} {field : String} (h : (Assoc.keys fields).Nodup) :
    (Assoc.keys (rules.hideAddress field fields)).Nodup := by
  rw [Rules.hideAddress]
  split
  · split_ifs
    · exact keys_set_nodup h
    · exact h
  · exact h

theorem sanitized_nodup (hclient : (Assoc.keys client).Nodup)
    (h : rules.sanitizeAdminClientSnapshotItem client = some safe) : (Assoc.keys safe.fields).Nodup := by
  rw [Rules.sanitizeAdminClientSnapshotItem] at h
  dsimp only at h
  split_ifs at h
  cases h
  apply Assoc.keys_filter_nodup
  apply keys_set_nodup
  apply keys_set_nodup
  apply keys_hideAddress_nodup
  apply keys_hideAddress_nodup
  exact Assoc.keys_filter_nodup _ (Assoc.keys_filter_nodup _ hclient)

theorem get?_hideAddress (field k : String) (fields : Fields)
    (h : k = field → ∀ value, get? fields k = some (.str value) → rules.isPublicIpAddress value = true) :
    get? (rules.hideAddress field fields) k = get? fields k := by
  rw [Rules.hideAddress]
  split
  · rename_i value hvalue
    split_ifs with hhidden
    · rw [get?_set]
      split_ifs with hk
      · subst hk
        have hpublic := h rfl value hvalue
        rw [hhidden.2] at hpublic
        cases hpublic
      · rfl
    · rfl
  · rfl

/-- The fields that sanitising writes or drops. -/
def sanitizedFields : List String := ["uuid", "token", "token_hash", "has_ipv4", "has_ipv6"]

/-- Sanitising keeps the other fields, the addresses if they are public. -/
theorem get?_sanitized {k : String} (h : rules.sanitizeAdminClientSnapshotItem client = some safe)
    (hk : k ∉ sanitizedFields)
    (haddress : k ∈ ["ipv4", "ipv6"] → ∀ value, get? client k = some (.str value) →
      rules.isPublicIpAddress value = true) :
    get? safe.fields k = get? client k := by
  rw [Rules.sanitizeAdminClientSnapshotItem] at h
  dsimp only at h
  split_ifs at h
  cases h
  simp only [sanitizedFields, List.mem_cons, List.not_mem_nil, or_false, not_or] at hk
  obtain ⟨huuid, htoken, hhash, hhas4, hhas6⟩ := hk
  have hkept : get? (withoutToken client) k = get? client k := by
    rw [withoutToken, get?_erase, if_neg hhash, get?_erase, if_neg htoken]
  have hv4 : get? (rules.hideAddress "ipv4" (withoutToken client)) k = get? client k := by
    rw [get?_hideAddress, hkept]
    rintro rfl value hvalue
    exact haddress (by simp) value (hkept ▸ hvalue)
  have hv6 : get? (rules.hideAddress "ipv6" (rules.hideAddress "ipv4" (withoutToken client))) k
      = get? client k := by
    rw [get?_hideAddress, hv4]
    rintro rfl value hvalue
    exact haddress (by simp) value (hv4 ▸ hvalue)
  show get? (Assoc.erase (Assoc.set (Assoc.set _ _ _) _ _) _) k = _
  rw [get?_erase, if_neg huuid, get?_set, if_neg hhas6, get?_set, if_neg hhas4, hv6]

/-- The map by uuid finds every row, if the uuids are distinct. -/
theorem get?_byUuid {rows : List ClientRow} {row : ClientRow} (hnodup : (rows.map ClientRow.uuid).Nodup)
    (h : row ∈ rows) : get? (byUuid rows) row.uuid = some row := by
  have hkeys : (Assoc.keys (rows.map fun c => (c.uuid, c))).Nodup := by
    have hsame : Assoc.keys (rows.map fun c => (c.uuid, c)) = rows.map ClientRow.uuid := by
      rw [Assoc.keys, List.map_map]
      rfl
    rw [hsame]
    exact hnodup
  have hmem : (row.uuid, row) ∈ rows.map fun c => (c.uuid, c) := List.mem_map.mpr ⟨row, h, rfl⟩
  rw [byUuid, Assoc.get?_merge hkeys, Assoc.get?_of_mem hkeys hmem]
  rfl

theorem upsert_rows_nodup (rows : List ClientRow) (merged : ClientRow) :
    (((Assoc.set (byUuid rows) merged.uuid merged).map Prod.snd).map ClientRow.uuid).Nodup := by
  have hsame : ((Assoc.set (byUuid rows) merged.uuid merged).map Prod.snd).map ClientRow.uuid
      = Assoc.keys (Assoc.set (byUuid rows) merged.uuid merged) := by
    rw [Assoc.keys, List.map_map]
    apply List.map_congr_left
    rintro ⟨k, row⟩ hmem
    rcases Assoc.mem_set hmem with heq | hold
    · cases heq
      rfl
    · exact Rules.mem_byUuid hold
  rw [hsame]
  apply keys_set_nodup
  apply Assoc.keys_merge_nodup
  exact List.nodup_nil

end Sanitised

/-! ## The entry of a synchronised node -/

section Entry

variable {rules : SyncRules} {safe : ClientRow}

/-- **The entry**: the sanitised record, written over the entry that was there. -/
theorem upsertAdmin_row {record : AgentAuthSnapshot} (now : Int) (s : SyncStore)
    (hsafe : rules.sanitizeAdminClientSnapshotItem record.payload = some safe)
    (hrecord : (Assoc.keys record.payload).Nodup) :
    ∃ snapshot row, (rules.upsertAdmin record now s).admin = some snapshot ∧
      snapshot.updatedAt = Rules.nextVersion s.admin now ∧
      (snapshot.clients.map ClientRow.uuid).Nodup ∧ row ∈ snapshot.clients ∧ row.uuid = safe.uuid ∧
      ∀ k, get? row.fields k = (get? safe.fields k).or
        ((get? (byUuid (rowsOf s.admin)) safe.uuid).bind fun old => get? old.fields k) := by
  have hfields := sanitized_nodup hrecord hsafe
  rw [upsertAdmin, Rules.upsertAdminClientSnapshot, hsafe]
  cases hadmin : s.admin with
  | none =>
    refine ⟨_, safe, rfl, rfl, by simp, by simp, rfl, ?_⟩
    intro k
    show _ = (get? safe.fields k).or none
    rw [Option.or_none]
  | some p =>
    refine ⟨_, mergeRow (get? (byUuid p.clients) safe.uuid) safe, rfl,
      Rules.nextVersion_read (some p) now, ?_, ?_, rfl, ?_⟩
    · exact upsert_rows_nodup p.clients (mergeRow (get? (byUuid p.clients) safe.uuid) safe)
    · have hset := get?_set (byUuid p.clients) safe.uuid safe.uuid
        (mergeRow (get? (byUuid p.clients) safe.uuid) safe)
      rw [if_pos rfl] at hset
      exact List.mem_map.mpr ⟨_, Assoc.mem_of_get? hset, rfl⟩
    · intro k
      show get? (Assoc.merge _ safe.fields) k = _
      rw [Assoc.get?_merge hfields]
      show _ = (get? safe.fields k).or ((get? (byUuid p.clients) safe.uuid).bind _)
      cases get? (byUuid p.clients) safe.uuid <;> rfl

end Entry

section Days

variable {rules : PolicyRules} {day : Int}

variable {rows : List ClientRow}

theorem foldl_collectDay_of_notMem {uuid : String} {next : List (String × Int)}
    (h : uuid ∉ rows.map ClientRow.uuid) :
    get? (rows.foldl rules.collectDay next) uuid = get? next uuid := by
  induction rows generalizing next with
  | nil => rfl
  | cons row rest ih =>
    rw [List.map_cons, List.mem_cons, not_or] at h
    rw [List.foldl_cons, ih h.2, PolicyRules.collectDay]
    cases rules.resetDay row with
    | none => rfl
    | some day => exact (get?_set next row.uuid uuid day).trans (if_neg h.1)

variable {row : ClientRow}

theorem foldl_collectDay {next : List (String × Int)}
    (hnodup : (rows.map ClientRow.uuid).Nodup) (h : row ∈ rows) (hday : rules.resetDay row = some day) :
    get? (rows.foldl rules.collectDay next) row.uuid = some day := by
  induction rows generalizing next with
  | nil => cases h
  | cons first rest ih =>
    obtain ⟨hnew, hrest⟩ := List.nodup_cons.mp hnodup
    rw [List.foldl_cons]
    rcases List.mem_cons.mp h with rfl | hmem
    · rw [foldl_collectDay_of_notMem hnew, PolicyRules.collectDay, hday]
      exact (get?_set next row.uuid row.uuid day).trans (if_pos rfl)
    · exact ih hrest hmem

theorem resetDay_of_int (huuid : row.uuid ≠ "") (hlow : 1 ≤ day) (hhigh : day ≤ 31)
    (h : get? row.fields "traffic_reset_day" = some (.int day)) : rules.resetDay row = some day := by
  have hrat : (1 : ℚ) ≤ day ∧ (day : ℚ) ≤ 31 := by
    constructor
    · exact_mod_cast hlow
    · exact_mod_cast hhigh
  rw [PolicyRules.resetDay, h]
  show (if row.uuid ≠ "" ∧ (1 : ℚ) ≤ day ∧ (day : ℚ) ≤ 31 then some (day : ℚ).floor else none) = _
  rw [if_pos ⟨huuid, hrat⟩, Rat.floor_intCast]

end Days

/-! ## The record of a row -/

section Record

variable {projection : ProjectionRules} {row : SqlClient} {revision : Nat} {uuid : String}
  {client : AgentAuthSnapshot}

/-- The number that a price becomes. -/
def SqlDouble.orZero : SqlDouble → ℚ
  | .finite x => x
  | _ => 0

/-- The control columns as the record of a row has them.  The reset day is not among them. -/
def recordedValues (projection : ProjectionRules) (uuid : String) (c : ClientControls) : Fields :=
  [("name", .str (orText c.name uuid)), ("hidden", .bool (decide (c.hidden ≠ 0))),
   ("sort_order", .int c.sortOrder), ("remark", .str c.remark), ("public_remark", .str c.publicRemark),
   ("group", .str c.group), ("tags", .str c.tags), ("region", .str c.region),
   ("price", .num (.finite c.price.orZero)), ("billing_cycle", .int c.billingCycle),
   ("auto_renewal", .bool (decide (c.autoRenewal ≠ 0))), ("currency", .str c.currency),
   ("expired_at", .str (c.expiredAt.getD "")),
   ("traffic_limit", .num (.finite (projection.double c.trafficLimit))),
   ("traffic_limit_type", .str (orText c.trafficLimitType "sum"))]

/-- The sanitiser leaves all of them alone. -/
theorem recordedValues_column {c : ClientControls} {p : String × Json}
    (hp : p ∈ recordedValues projection uuid c) :
    p.1 ∉ sanitizedFields ∧ p.1 ∉ ["ipv4", "ipv6"] := by
  have hkeys : p.1 ∈ (recordedValues projection uuid c).map Prod.fst := List.mem_map.mpr ⟨p, hp, rfl⟩
  have hall : ∀ k ∈ ["name", "hidden", "sort_order", "remark", "public_remark", "group", "tags", "region",
      "price", "billing_cycle", "auto_renewal", "currency", "expired_at", "traffic_limit",
      "traffic_limit_type"], k ∉ sanitizedFields ∧ k ∉ ["ipv4", "ipv6"] := by decide
  exact hall p.1 hkeys

theorem readBoolean_int (n : Int) : readBoolean (some (.int n)) = decide (n ≠ 0) := by
  show decide ((n : ℚ) ≠ 0) = decide (n ≠ 0)
  simp

variable {column : String}

/-- What a worker passes on of a watched column. -/
theorem get?_clientObject (h : column ∈ watchedColumns) : get? (clientObject projection row) column =
      if column = "auto_renewal" then some (.bool (decide (row.controls.autoRenewal ≠ 0)))
      else if column = "hidden" then some (.bool (decide (row.controls.hidden ≠ 0)))
      else get? (projection.controlFields row.controls) column := by
  have hhidden : get? (projection.projection row) "hidden" = some (.int row.controls.hidden) :=
    get?_projection projection row (by decide)
  have hrenewal : get? (projection.projection row) "auto_renewal"
      = some (.int row.controls.autoRenewal) := get?_projection projection row (by decide)
  rw [clientObject, normalizeClientBooleans]
  simp only [hhidden, hrenewal, Option.isSome_some, if_true, get?_set, readBoolean_int,
    get?_projection projection row h]

theorem request_record {c : Change} {raw : Fields} (hraw : c.client = some raw)
    (h : c.request = some (uuid, some client)) :
    uuid ≠ "" ∧ trim uuid = uuid ∧ ∃ hash, client.payload = agentAuthFields raw uuid hash := by
  have huuid := Change.request_key h
  rw [Change.request] at h
  split_ifs at h with hinvalid
  rw [hraw] at h
  dsimp only at h
  refine ⟨?_, ?_, ?_⟩
  · rw [← huuid]
    exact fun hempty => hinvalid (.inl hempty)
  · rw [← huuid]
    exact trim_trim c.uuid
  · cases hrecord : normalizeAgentAuthSnapshot raw with
    | none => rw [hrecord] at h; cases h
    | some record =>
      rw [hrecord] at h
      dsimp only at h
      split_ifs at h with hsame
      obtain rfl := some.inj (Prod.mk.inj (some.inj h)).2
      rw [normalizeAgentAuthSnapshot] at hrecord
      split_ifs at hrecord
      obtain rfl := (some.inj hrecord).symm
      rw [← huuid, ← hsame]
      exact ⟨_, rfl⟩

/-- The fields of every record. -/
def recordKeys : List String :=
  ["uuid", "token", "token_hash", "token_last_used_at", "token_last_used_ip", "token_rotated_at",
   "name", "cpu_name", "virtualization", "arch", "cpu_cores", "os", "kernel_version", "gpu_name",
   "ipv4", "ipv6", "region", "remark", "public_remark", "mem_total", "swap_total", "disk_total",
   "version", "price", "billing_cycle", "auto_renewal", "currency", "expired_at", "group", "tags",
   "hidden", "traffic_limit", "traffic_limit_type", "created_at", "updated_at"]

theorem keys_agentAuthFields (value : Fields) (uuid hash : String) :
    (Assoc.keys (agentAuthFields value uuid hash)).Sublist (recordKeys ++ ["sort_order"]) := by
  rw [agentAuthFields, Assoc.keys, List.map_append]
  apply List.Sublist.append (List.Sublist.refl recordKeys)
  split
  · exact List.Sublist.refl ["sort_order"]
  · exact List.nil_sublist _

theorem agentAuthFields_nodup (value : Fields) (uuid hash : String) :
    (Assoc.keys (agentAuthFields value uuid hash)).Nodup := by
  have hall : (recordKeys ++ ["sort_order"]).Nodup := by decide
  exact hall.sublist (keys_agentAuthFields value uuid hash)

theorem get?_record_resetDay (value : Fields) (uuid hash : String) :
    get? (agentAuthFields value uuid hash) "traffic_reset_day" = none := by
  rw [← Option.not_isSome_iff_eq_none, Assoc.get?_isSome]
  intro hmem
  exact absurd ((keys_agentAuthFields value uuid hash).subset hmem) (by decide)

/-- A text column that the worker passes on. -/
theorem stringField_clientObject {text : String} (h : column ∈ watchedColumns)
    (hrenewal : column ≠ "auto_renewal") (hhidden : column ≠ "hidden")
    (hvalue : get? (projection.controlFields row.controls) column = some (.str text)) :
    stringField (clientObject projection row) column = text := by
  rw [stringField, get?_clientObject h, if_neg hrenewal, if_neg hhidden, hvalue]
  rfl

theorem numberField_clientObject {x : ℚ} (h : column ∈ watchedColumns)
    (hrenewal : column ≠ "auto_renewal") (hhidden : column ≠ "hidden")
    (hvalue : get? (projection.controlFields row.controls) column = some (.num (.finite x))) :
    numberField (clientObject projection row) column = x := by
  rw [numberField, get?_clientObject h, if_neg hrenewal, if_neg hhidden, hvalue]

theorem expiredAt_clientObject :
    stringField (clientObject projection row) "expired_at" = row.controls.expiredAt.getD "" := by
  rw [stringField, get?_clientObject (by decide), if_neg (by decide), if_neg (by decide)]
  show (Json.str? (some (textOrNull row.controls.expiredAt))).getD "" = _
  cases row.controls.expiredAt <;> rfl

theorem price_clientObject :
    numberField (clientObject projection row) "price" = row.controls.price.orZero := by
  have hprice : get? (projection.controlFields row.controls) "price" = some row.controls.price.toJson := rfl
  rw [numberField, get?_clientObject (by decide), if_neg (by decide), if_neg (by decide), hprice]
  rcases row.controls.price with x | _ | (_ | _) <;> rfl

theorem sortOrder_clientObject :
    get? (clientObject projection row) "sort_order" = some (.int row.controls.sortOrder) := by
  rw [get?_clientObject (by decide), if_neg (by decide), if_neg (by decide)]
  rfl

/-- **The record** has the control columns of the row, as far as it has them. -/
theorem get?_record (hash : String) : ∀ p ∈ recordedValues projection uuid row.controls,
      get? (agentAuthFields (clientObject projection row) uuid hash) p.1 = some p.2 := by
  have htext : ∀ column text, column ∈ watchedColumns → column ≠ "auto_renewal" → column ≠ "hidden" →
      get? (projection.controlFields row.controls) column = some (.str text) →
      some (Json.str (stringField (clientObject projection row) column)) = some (.str text) := by
    intro column text h hrenewal hhidden hvalue
    rw [stringField_clientObject h hrenewal hhidden hvalue]
  have hnumber : ∀ column x, column ∈ watchedColumns → column ≠ "auto_renewal" → column ≠ "hidden" →
      get? (projection.controlFields row.controls) column = some (.num (.finite x)) →
      some (Json.num (.finite (numberField (clientObject projection row) column))) = some (.num (.finite x)) := by
    intro column x h hrenewal hhidden hvalue
    rw [numberField_clientObject h hrenewal hhidden hvalue]
  intro p hp
  simp only [recordedValues, List.mem_cons, List.not_mem_nil, or_false] at hp
  rcases hp with rfl | rfl | rfl | rfl | rfl | rfl | rfl | rfl | rfl | rfl | rfl | rfl | rfl | rfl |
    rfl
  · show some (Json.str (orText (stringField _ "name") uuid)) = some (.str (orText _ uuid))
    rw [stringField_clientObject (by decide) (by decide) (by decide) rfl]
  · show some (Json.bool (readBoolean (get? _ "hidden"))) = _
    rw [get?_clientObject (by decide), if_neg (by decide), if_pos rfl]
    rfl
  · rw [agentAuthFields, sortOrder_clientObject]
    rfl
  · exact htext "remark" _ (by decide) (by decide) (by decide) rfl
  · exact htext "public_remark" _ (by decide) (by decide) (by decide) rfl
  · exact htext "group" _ (by decide) (by decide) (by decide) rfl
  · exact htext "tags" _ (by decide) (by decide) (by decide) rfl
  · exact htext "region" _ (by decide) (by decide) (by decide) rfl
  · show some (Json.num (.finite (numberField _ "price"))) = _
    rw [price_clientObject]
  · exact hnumber "billing_cycle" _ (by decide) (by decide) (by decide) rfl
  · show some (Json.bool (readBoolean (get? _ "auto_renewal"))) = _
    rw [get?_clientObject (by decide), if_pos rfl]
    rfl
  · exact htext "currency" _ (by decide) (by decide) (by decide) rfl
  · show some (Json.str (stringField _ "expired_at")) = _
    rw [expiredAt_clientObject]
  · exact hnumber "traffic_limit" _ (by decide) (by decide) (by decide) rfl
  · show some (Json.str (orText (stringField _ "traffic_limit_type") "sum")) = some (.str (orText _ "sum"))
    rw [stringField_clientObject (by decide) (by decide) (by decide) rfl]

theorem get?_record_address (hash : String) : ∀ p ∈ row.controls.addresses,
      get? (agentAuthFields (clientObject projection row) uuid hash) p.1 = some (.str p.2) := by
  intro p hp
  simp only [addresses, List.mem_cons, List.not_mem_nil, or_false] at hp
  rcases hp with rfl | rfl
  · show some (Json.str (stringField _ "ipv4")) = some (.str row.controls.ipv4)
    rw [stringField_clientObject (by decide) (by decide) (by decide) rfl]
  · show some (Json.str (stringField _ "ipv6")) = some (.str row.controls.ipv6)
    rw [stringField_clientObject (by decide) (by decide) (by decide) rfl]

end Record

/-! ## The last segment -/

section Segments

variable {env : SyncEnv} {rules : SyncRules} {uuid : String} {revision : Nat} {client : AgentAuthSnapshot} {s : SyncStore}
  {next : SyncAwait}

theorem storeVersioned_next (h : (rules.storeVersioned uuid revision client s).result = .ok (.waits next)) :
    next = .describing client := by
  rw [storeVersioned] at h
  cases hverdict : versionedVerdict s client revision with
  | save =>
    rw [hverdict] at h
    exact (SyncOutcome.waits.inj (Except.ok.inj h)).symm
  | superseded =>
    rw [hverdict] at h
    exact absurd h (by intro h'; cases h')
  | newer =>
    rw [hverdict] at h
    exact absurd h (by intro h'; cases h')

/-- The first segment awaits a body for the record that it was sent. -/
theorem applyClientSynchronization_next
    (h : (rules.applyClientSynchronization uuid revision (some client) s).result = .ok (.waits next)) :
    next = .removing (some client) ∨ next = .describing client := by
  rw [applyClientSynchronization] at h
  split_ifs at h
  · exact absurd h (by intro h'; cases h')
  · have hchange : (rules.applyChange uuid revision (some client)
        (putRevision uuid revision false s)).result = .ok (.waits next) := h
    rw [applyChange] at hchange
    split_ifs at hchange
    · exact .inl (SyncOutcome.waits.inj (Except.ok.inj hchange)).symm
    · exact .inr (storeVersioned_next hchange)

theorem synchronise_last {before after : LiveObject}
    (h : env.synchronise uuid revision client s = some (before, after)) :
    after = env.described uuid revision client before := by
  have hlast : ∀ {s : SyncStore}, env.describe uuid revision client s = (before, after) →
      after = env.described uuid revision client before := by
    intro s hdescribe
    cases hdescribe
    rfl
  rw [SyncEnv.synchronise] at h
  split at h
  · rename_i next hnext
    rcases applyClientSynchronization_next hnext with rfl | rfl
    · rw [SyncEnv.goOn] at h
      split at h
      · rename_i record hrecord
        have hstored : (env.storeVersioned uuid revision client
            (removeAgentAuthByUuid uuid (env.clock (.removing (some client)))
              (env.meanwhile (.removing (some client)) _).store)).result
            = .ok (.waits (.describing record)) := hrecord
        obtain rfl := SyncAwait.describing.inj (storeVersioned_next hstored)
        exact hlast (some.inj h)
      · cases h
    · exact hlast (some.inj h)
  · cases h

end Segments

/-! ## Result -/

/-- When a synchronisation whose body was read leaves the object with the control data of its row: the
    columns that the record has come through as they are; the entry has the reset day already, and
    the days are collected anew or have it. -/
structure KeepsControls (projection : ProjectionRules) (uuid : String) (c : ClientControls) (now : Int)
    (before : LiveObject) : Prop where
  name : c.name ≠ ""
  limitType : c.trafficLimitType ≠ ""
  price : ∃ x, c.price = .finite x
  limit : projection.double c.trafficLimit = c.trafficLimit
  day : ((before.entry uuid).bind fun row => Assoc.get? row.fields "traffic_reset_day")
    = some (.int c.trafficResetDay)
  collected : before.memory.trafficResetDaysAt = 0 ∨
    before.memory.trafficResetDaysAt < Rules.nextVersion before.store.admin now ∨
    Assoc.get? before.memory.trafficResetDays uuid = some c.trafficResetDay

section Results

variable {rules : Rules} {projection : ProjectionRules} {uuid : String} {c : ClientControls}
  {fields : Fields}

theorem orText_eq_iff {text fallback : String} (h : fallback ≠ "") :
    orText text fallback = text ↔ text ≠ "" := by
  rw [orText]
  split_ifs with hempty
  · rw [hempty]
    simp [h]
  · simp [hempty]

theorem price_eq_iff (price : SqlDouble) :
    Json.num (.finite price.orZero) = price.toJson ↔ ∃ x, price = .finite x := by
  rcases price with x | _ | (_ | _) <;> simp [SqlDouble.orZero, SqlDouble.toJson]

/-- An entry that has what was recorded has the control data iff nothing of it was changed on the
    way. -/
theorem carries_iff (huuid : uuid ≠ "")
    (hrecorded : ∀ p ∈ recordedValues projection uuid c, get? fields p.1 = some p.2)
    (haddress : ∀ p ∈ c.addresses, rules.isPublicIpAddress p.2 = true → get? fields p.1 = some (.str p.2)) :
    Carries rules c fields ↔ c.name ≠ "" ∧ c.trafficLimitType ≠ "" ∧ (∃ x, c.price = .finite x) ∧
      projection.double c.trafficLimit = c.trafficLimit ∧
      get? fields "traffic_reset_day" = some (.int c.trafficResetDay) := by
  have hname := hrecorded ("name", .str (orText c.name uuid)) (by simp [recordedValues])
  have htype := hrecorded ("traffic_limit_type", .str (orText c.trafficLimitType "sum"))
    (by simp [recordedValues])
  have hprice := hrecorded ("price", .num (.finite c.price.orZero)) (by simp [recordedValues])
  have hlimit := hrecorded ("traffic_limit", .num (.finite (projection.double c.trafficLimit)))
    (by simp [recordedValues])
  rw [← orText_eq_iff huuid, ← orText_eq_iff (show "sum" ≠ "" by decide), ← price_eq_iff]
  constructor
  · intro h
    refine ⟨?_, ?_, ?_, ?_, ?_⟩
    · have hvalue := h.values ("name", .str c.name) (by simp [values])
      exact Json.str.inj (some.inj (hname.symm.trans hvalue))
    · have hvalue := h.values ("traffic_limit_type", .str c.trafficLimitType) (by simp [values])
      exact Json.str.inj (some.inj (htype.symm.trans hvalue))
    · have hvalue := h.values ("price", c.price.toJson) (by simp [values])
      exact some.inj (hprice.symm.trans hvalue)
    · have hvalue := h.values ("traffic_limit", .int c.trafficLimit) (by simp [values])
      exact Number.finite.inj (Json.num.inj (some.inj (hlimit.symm.trans hvalue)))
    · exact h.values ("traffic_reset_day", .int c.trafficResetDay) (by simp [values])
  · rintro ⟨hname', htype', hprice', hlimit', hday⟩
    refine ⟨?_, haddress⟩
    -- Every other column was recorded as it is.
    have hvalues : c.values
        = recordedValues projection uuid c ++ [("traffic_reset_day", .int c.trafficResetDay)] := by
      rw [values, recordedValues, hname', htype', hprice', hlimit']
      rfl
    intro p hp
    rw [hvalues, List.mem_append, List.mem_singleton] at hp
    rcases hp with hp | rfl
    · exact hrecorded p hp
    · exact hday

theorem sanitize_record (rules : Rules) (value : Fields) (hash : String) (huuid : uuid ≠ "") (htrim : trim uuid = uuid) :
    ∃ safe, rules.sanitizeAdminClientSnapshotItem (agentAuthFields value uuid hash) = some safe ∧
      safe.uuid = uuid := by
  have hpayload : Rules.payloadUuid (agentAuthFields value uuid hash) = uuid := htrim
  rw [Rules.sanitizeAdminClientSnapshotItem]
  dsimp only
  rw [hpayload, if_neg huuid]
  exact ⟨_, rfl, rfl⟩

theorem rowsOf_read (stored : Option AdminClientsSnapshot) :
    ((Rules.readAdminClientsSnapshot stored).map AdminClientsSnapshot.clients).getD [] = rowsOf stored := by
  cases stored <;> rfl

variable {env : SyncEnv} {row : SqlClient} {revision : Nat} {client : AgentAuthSnapshot}
  {before : LiveObject}

/-- **After the last segment** the entry has what was recorded, and the reset day that it had. -/
theorem described_entry (hrequest : (Change.mk row.uuid revision (some (clientObject projection row))).request
      = some (uuid, some client)) (hfits : env.bodyFits client = true) :
    ∃ entry, (env.described uuid revision client before).entry uuid = some entry ∧
      (∀ p ∈ recordedValues projection uuid row.controls, get? entry.fields p.1 = some p.2) ∧
      (∀ p ∈ row.controls.addresses, env.isPublicIpAddress p.2 = true →
        get? entry.fields p.1 = some (.str p.2)) ∧
      get? entry.fields "traffic_reset_day"
        = (before.entry uuid).bind (fun old => get? old.fields "traffic_reset_day") ∧
      (∀ day, env.resetDay entry = some day → get? (env.collectDays (Rules.readAdminClientsSnapshot
          (env.described uuid revision client before).store.admin)) uuid = some day) ∧
      entry.uuid = uuid ∧ (env.described uuid revision client before).memory.adminClientsUpdatedAt
        = some (Rules.nextVersion before.store.admin (env.clock (.describing client))) := by
  obtain ⟨huuid, htrim, hash, hpayload⟩ := request_record rfl hrequest
  obtain ⟨safe, hsafe, hsafe_uuid⟩ := sanitize_record env.toRules (clientObject projection row) hash
    huuid htrim
  have hnodup := agentAuthFields_nodup (clientObject projection row) uuid hash
  rw [← hpayload] at hsafe hnodup
  obtain ⟨snapshot, entry, hadmin, hversion, hrows, hmem, hentry, hfields⟩ :=
    upsertAdmin_row (env.clock (.describing client)) before.store hsafe hnodup
  rw [hsafe_uuid] at hentry
  have hstored : (env.described uuid revision client before).store.admin = some snapshot := by
    rw [SyncEnv.described, if_pos hfits, LiveObject.remember_store, putRevision_admin]
    exact hadmin
  have hlookup : ∀ k, get? entry.fields k = (get? safe.fields k).or
      ((before.entry uuid).bind fun old => get? old.fields k) := by
    intro k
    rw [hfields, hsafe_uuid]
    rfl
  refine ⟨entry, ?_, ?_, ?_, ?_, ?_, hentry, ?_⟩
  · rw [LiveObject.entry, hstored, ← hentry]
    exact get?_byUuid hrows hmem
  · intro p hp
    have hcolumn : p.1 ∉ sanitizedFields ∧ p.1 ∉ ["ipv4", "ipv6"] := recordedValues_column hp
    rw [hlookup, get?_sanitized hsafe hcolumn.1 (fun hin => absurd hin hcolumn.2), hpayload,
      get?_record hash p hp, Option.some_or]
  · intro p hp hpublic
    have hrecord : get? (agentAuthFields (clientObject projection row) uuid hash) p.1
        = some (.str p.2) := get?_record_address hash p hp
    have hcolumn : p.1 ∉ sanitizedFields := by
      simp only [addresses, List.mem_cons, List.not_mem_nil, or_false] at hp
      rcases hp with rfl | rfl <;> simp [sanitizedFields]
    rw [hlookup, get?_sanitized hsafe hcolumn, hpayload, hrecord, Option.some_or]
    rintro - value hvalue
    rw [hpayload, hrecord] at hvalue
    obtain rfl := Json.str.inj (some.inj hvalue)
    exact hpublic
  · rw [hlookup, get?_sanitized hsafe (by decide) (fun hin => absurd hin (by decide)), hpayload,
      get?_record_resetDay, Option.none_or]
  · intro day hday
    rw [PolicyRules.collectDays, rowsOf_read, hstored, ← hentry]
    exact foldl_collectDay hrows hmem hday
  · have hknown : (env.described uuid revision client before).memory.adminClientsUpdatedAt
        = some (versionOf (env.described uuid revision client before).store.admin) := by
      rw [SyncEnv.described, if_pos hfits]
      exact LiveObject.remember_version before _
    rw [hknown, hstored, ← hversion]
    rfl

/-- The days are collected anew after the last segment. -/
theorem stale_described {at_ : Int} (hfits : env.bodyFits client = true)
    (h : (env.described uuid revision client before).memory.adminClientsUpdatedAt = some at_) :
    (env.described uuid revision client before).memory.stale = true ↔
      before.memory.trafficResetDaysAt = 0 ∨ before.memory.trafficResetDaysAt < at_ := by
  rw [PolicyMemory.stale, h, Bool.or_eq_true, decide_eq_true_eq, decide_eq_true_eq, SyncEnv.described,
    if_pos hfits]
  rfl

/-- **A synchronised node has the control data of its row** exactly when the body of its metadata was
    read and nothing of the row was changed or left out on the way, or when it was not read and the
    object had the data before.  The record has no reset day: it is the entry that must have it. -/
theorem synchronised_controls_iff (env : SyncEnv) (projection : ProjectionRules) (row : SqlClient)
    (hday : 1 ≤ row.controls.trafficResetDay ∧ row.controls.trafficResetDay ≤ 31) (revision : Nat)
    (uuid : String) (client : AgentAuthSnapshot)
    (hrequest : (Change.mk row.uuid revision (some (clientObject projection row))).request
      = some (uuid, some client))
    (s : SyncStore) (before after : LiveObject)
    (h : env.synchronise uuid revision client s = some (before, after)) :
    HasControls env.toPolicyRules uuid row.controls after ↔
      if env.bodyFits client then
        KeepsControls projection uuid row.controls (env.clock (.describing client)) before
      else HasControls env.toPolicyRules uuid row.controls before := by
  obtain ⟨huuid, -, -⟩ := request_record rfl hrequest
  obtain rfl := synchronise_last h
  split_ifs with hfits
  · obtain ⟨entry, hentry, hrecorded, haddress, hold, hcollect, hname, hat⟩ :=
      described_entry hrequest hfits
    have hdays : (env.described uuid revision client before).memory.trafficResetDays
        = before.memory.trafficResetDays := by
      rw [SyncEnv.described, if_pos hfits]
      rfl
    rw [hasControls_iff huuid]
    constructor
    · rintro ⟨⟨found, hfound, hcarries⟩, hgives⟩
      obtain rfl := Option.some.inj (hentry.symm.trans hfound)
      obtain ⟨h1, h2, h3, h4, h5⟩ := (carries_iff huuid hrecorded haddress).mp hcarries
      refine ⟨h1, h2, h3, h4, hold ▸ h5, ?_⟩
      rcases hgives.cached with hstale | hcached
      · rcases (stale_described hfits hat).mp hstale with hzero | hlater
        · exact .inl hzero
        · exact .inr (.inl hlater)
      · exact .inr (.inr (hdays ▸ hcached))
    · intro hkeeps
      have hentry_day : Assoc.get? entry.fields "traffic_reset_day"
          = some (.int row.controls.trafficResetDay) := hold.trans hkeeps.day
      refine ⟨⟨entry, hentry, ?_⟩, ?_, ?_⟩
      · exact (carries_iff huuid hrecorded haddress).mpr
          ⟨hkeeps.name, hkeeps.limitType, hkeeps.price, hkeeps.limit, hentry_day⟩
      · exact hcollect _ (resetDay_of_int (hname.symm ▸ huuid) hday.1 hday.2 hentry_day)
      · rcases hkeeps.collected with hzero | hlater | hcached
        · exact .inl ((stale_described hfits hat).mpr (.inl hzero))
        · exact .inl ((stale_described hfits hat).mpr (.inr hlater))
        · exact .inr (hdays.symm ▸ hcached)
  · have hsame : env.described uuid revision client before
        = { before with store := putRevision uuid revision true before.store, seen := before.seen } := by
      rw [SyncEnv.described, if_neg hfits]
    rw [hasControls_iff huuid, hasControls_iff huuid, hsame]
    exact ⟨fun h => ⟨h.1, h.2.stored, h.2.cached⟩, fun h => ⟨h.1, h.2.stored, h.2.cached⟩⟩

end Results

/-- No other request, a small body, the clock at 5. -/
def quietEnv : SyncEnv where
  toPolicyRules := ⟨outboxRules, fun _ => none⟩
  bodyFits := fun _ => true
  clock := fun _ => 5
  meanwhile := fun _ s => ⟨s, .fresh, nofun⟩

/-- A node whose traffic is reset on the given day. -/
def rowOnDay (day : Int) : SqlClient :=
  ⟨"a", { (nodeRow "a" "h").controls with trafficResetDay := day }, []⟩

/-- An object that has the node with the reset day 1. -/
def storeOnFirst : SyncStore :=
  { SyncWorld.start.store with
    admin := some ⟨[⟨"a", [("traffic_reset_day", .int 1)]⟩], 3, [], true⟩ }

theorem synchronised_controls_first : ∃ client before after,
      (Change.mk "a" 1 (some (clientObject outboxProjection (rowOnDay 1)))).request = some ("a", some client) ∧
      quietEnv.synchronise "a" 1 client storeOnFirst = some (before, after) ∧
      HasControls quietEnv.toPolicyRules "a" (rowOnDay 1).controls after := by
  have hall : ∀ client before after,
      (Change.mk "a" 1 (some (clientObject outboxProjection (rowOnDay 1)))).request
        = some ("a", some client) →
      quietEnv.synchronise "a" 1 client storeOnFirst = some (before, after) →
      before.memory.trafficResetDaysAt = 0 →
      ((before.entry "a").bind fun row => Assoc.get? row.fields "traffic_reset_day") = some (.int 1) →
      HasControls quietEnv.toPolicyRules "a" (rowOnDay 1).controls after := by
    intro client before after hrequest hrun hfresh hentry
    have hkeeps : KeepsControls outboxProjection "a" (rowOnDay 1).controls
        (quietEnv.clock (.describing client)) before :=
      ⟨by decide, by decide, ⟨0, rfl⟩, rfl, hentry, .inl hfresh⟩
    exact (synchronised_controls_iff quietEnv outboxProjection (rowOnDay 1) (by decide) 1 "a" client
      hrequest storeOnFirst before after hrun).mpr hkeeps
  exact ⟨_, _, _, rfl, rfl, hall _ _ _ rfl rfl rfl rfl⟩

/-- The row has the day 15, its synchronisation was applied, and the entry and the policies have the
    day 1. -/
theorem reset_day_stays_behind : ∃ client before after,
      (Change.mk "a" 1 (some (clientObject outboxProjection (rowOnDay 15)))).request = some ("a", some client) ∧
      quietEnv.synchronise "a" 1 client storeOnFirst = some (before, after) ∧
      (trafficResetDayFor quietEnv.toPolicyRules "a" 6 after).1 = some 1 ∧
      ¬ HasControls quietEnv.toPolicyRules "a" (rowOnDay 15).controls after := by
  refine ⟨_, _, _, rfl, rfl, rfl, ?_⟩
  intro h
  have hpolicy := h.policy [] _ rfl 6
  cases hpolicy

end CfMonitor.Live
