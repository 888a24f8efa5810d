/-
  The public client list of a browser and its two ways to take in a metadata change (`publicClients.ts`,
  `publicBootstrap.ts`).

  1. **Data** — a client has a `uuid` and a value for each field.  A patch has a value for some of them.

  2. **Live list** — `mergePublicClientPatch` changes the list that is on the page.

  3. **Cached list** — `patchCachedPublicBootstrapClients` composes the changes into one stored patch, which
     `applyClientPatch` puts over a list that comes later.
-/
import CfMonitor.Lib.Index
import CfMonitor.Lib.Json
import Mathlib.Algebra.Order.Ring.Rat

namespace CfMonitor.Frontend

open CfMonitor.Lib

/-! ## Data -/

/-- The fields of a client besides its `uuid`. -/
inductive ClientField where
  | name | cpu_name | cpu_cores | os | arch | has_ipv4 | has_ipv6 | region | mem_total | swap_total | disk_total
  | group | tags | hidden | price | billing_cycle | currency | expired_at | traffic_limit | traffic_limit_type
  | sort_order | gpu_name | version | public_remark | virtualization | kernel_version
  deriving DecidableEq

/-- How `normalizePublicClient` reads a field. -/
inductive FieldKind where
  | name
  | text
  | number
  | flag

namespace ClientField

def all : List ClientField := [
  name, cpu_name, cpu_cores, os, arch, has_ipv4, has_ipv6, region, mem_total, swap_total, disk_total, group, tags,
  hidden, price, billing_cycle, currency, expired_at, traffic_limit, traffic_limit_type, sort_order, gpu_name,
  version, public_remark, virtualization, kernel_version]

def key : ClientField → String
  | name => "name"
  | cpu_name => "cpu_name"
  | cpu_cores => "cpu_cores"
  | os => "os"
  | arch => "arch"
  | has_ipv4 => "has_ipv4"
  | has_ipv6 => "has_ipv6"
  | region => "region"
  | mem_total => "mem_total"
  | swap_total => "swap_total"
  | disk_total => "disk_total"
  | group => "group"
  | tags => "tags"
  | hidden => "hidden"
  | price => "price"
  | billing_cycle => "billing_cycle"
  | currency => "currency"
  | expired_at => "expired_at"
  | traffic_limit => "traffic_limit"
  | traffic_limit_type => "traffic_limit_type"
  | sort_order => "sort_order"
  | gpu_name => "gpu_name"
  | version => "version"
  | public_remark => "public_remark"
  | virtualization => "virtualization"
  | kernel_version => "kernel_version"

def kind : ClientField → FieldKind
  | name => .name
  | has_ipv4 | has_ipv6 | hidden => .flag
  | cpu_cores | mem_total | swap_total | disk_total | price | billing_cycle | traffic_limit | sort_order => .number
  | cpu_name | os | arch | region | group | tags | currency | expired_at | traffic_limit_type | gpu_name | version
  | public_remark | virtualization | kernel_version => .text

end ClientField

structure ClientInfo where
  uuid : String
  field : ClientField → Json

/-- `Partial<ClientInfo> & { uuid: string }`. -/
structure ClientPatch where
  uuid : String
  field : ClientField → Option Json

/-- `detail.clients`.  A list that is missing or no array is empty. -/
structure ClientDelta where
  upsert : List Json
  remove : List String

/-- What `clientPatchFromDetail` returns. -/
structure PatchParts where
  upsert : List ClientPatch
  remove : List String

/-- The patch that is stored. -/
structure StoredPatch where
  saved_at : Int
  upsert : List ClientPatch
  remove : List String

/-- The order of `localeCompare`. -/
structure Collation where
  le : String → String → Bool
  le_trans : ∀ a b c, le a b = true → le b c = true → le a c = true
  le_total : ∀ a b, (le a b || le b a) = true

/-! ## Normalization -/

def stringField (value : Option Json) : String := (Json.str? value).getD ""

def numberField : Option Json → ℚ
  | some (.num (.finite x)) => x
  | _ => 0

def booleanField : Option Json → Bool
  | some (.bool b) => b
  | some (.num (.finite x)) => decide (x ≠ 0)
  | some (.num (.infinite _)) => true
  | some (.str s) =>
    let normalized := String.ofList ((trim s).toList.map Char.toLower)
    decide (normalized = "true" ∨ normalized = "1")
  | _ => false

def FieldKind.normalize (uuid : String) (value : Option Json) : FieldKind → Json
  | .name => .str (if trim (stringField value) = "" then uuid else trim (stringField value))
  | .text => .str (stringField value)
  | .number => .num (.finite (numberField value))
  | .flag => .bool (booleanField value)

/-- The value of a field. -/
def normalizeField (uuid : String) (field : ClientField) (value : Option Json) : Json :=
  field.kind.normalize uuid value

/-- `typeof record?.uuid === 'string' ? record.uuid.trim() : ''`. -/
def recordUuid (record : Fields) : String := trim (stringField (Assoc.get? record "uuid"))

def normalizePublicClient (payload : Json) : Option ClientInfo :=
  match payload.obj? with
  | none => none
  | some record =>
    if recordUuid record = "" then none
    else some ⟨recordUuid record, fun f => normalizeField (recordUuid record) f (Assoc.get? record f.key)⟩

/-! ## Order -/

namespace Collation

variable (c : Collation)

/-- The sign of `localeCompare`. -/
def localeCompare (a b : String) : ℚ := if c.le a b then (if c.le b a then 0 else -1) else 1

def orderOf (a : ClientInfo) : ℚ :=
  match a.field .sort_order with
  | .num (.finite x) => x
  | _ => maxSafeInteger

/-- `a.name || ''`. -/
def nameOf (a : ClientInfo) : String := stringField (some (a.field .name))

def comparePublicClients (a b : ClientInfo) : ℚ :=
  if orderOf a - orderOf b ≠ 0 then orderOf a - orderOf b
  else if c.localeCompare (nameOf a) (nameOf b) ≠ 0 then c.localeCompare (nameOf a) (nameOf b)
  else c.localeCompare a.uuid b.uuid

def sortPublicClients (clients : List ClientInfo) : List ClientInfo :=
  clients.mergeSort fun a b => decide (c.comparePublicClients a b ≤ 0)

end Collation

/-! ## Live list -/

/-- `new Map(clients.map(client => [client.uuid, client]))`. -/
def clientMap (clients : List ClientInfo) : List (String × ClientInfo) := Assoc.index ClientInfo.uuid clients

/-- `{ ...existing }` with the fields that the record has. -/
def overwrite (existing normalized : ClientInfo) (record : Fields) : ClientInfo where
  uuid := normalized.uuid
  field f := if (Assoc.get? record f.key).isSome then normalized.field f else existing.field f

/-- An entry of `upsert`.  The set `remove` that the source updates here is not read again. -/
def upsertClient (includeHidden : Bool) (byUuid : List (String × ClientInfo)) (raw : Json) :
    List (String × ClientInfo) :=
  match raw.obj? with
  | none => byUuid
  | some record =>
    let uuid := recordUuid record
    if uuid = "" then byUuid
    else if !includeHidden && booleanField (Assoc.get? record "hidden") then Assoc.erase byUuid uuid
    else match normalizePublicClient raw with
      | none => byUuid
      | some normalized =>
        if !includeHidden && booleanField (some (normalized.field .hidden)) then byUuid
        else match Assoc.get? byUuid uuid with
          | none => Assoc.set byUuid uuid normalized
          | some existing => Assoc.set byUuid uuid (overwrite existing normalized record)

def mergePublicClientPatch (c : Collation) (includeHidden : Bool) (current : List ClientInfo) :
    Option ClientDelta → List ClientInfo
  | none => current
  | some delta =>
    let byUuid := clientMap (current.filter fun client => !delta.remove.contains client.uuid)
    c.sortPublicClients ((delta.upsert.foldl (upsertClient includeHidden) byUuid).map Prod.snd)

/-! ## Cached list -/

def PUBLIC_BOOTSTRAP_CLIENT_PATCH_MAX_AGE_MS : Int := 600000

def normalizePublicClientPatch (raw : Json) : Option ClientPatch :=
  match raw.obj?, normalizePublicClient raw with
  | some record, some client =>
    some ⟨client.uuid, fun f => if (Assoc.get? record f.key).isSome then some (client.field f) else none⟩
  | _, _ => none

/-- `value === true`. -/
def isTrue : Option Json → Bool
  | some (.bool true) => true
  | _ => false

/-- One turn of the loop of `clientPatchFromDetail`. -/
def recordUpsert (parts : PatchParts) (raw : Json) : PatchParts :=
  let remove := match raw.obj? with
    | none => parts.remove
    | some record =>
      if recordUuid record ≠ "" ∧ isTrue (Assoc.get? record "hidden") = true then parts.remove.insert (recordUuid record)
      else parts.remove
  match normalizePublicClientPatch raw with
  | none => ⟨parts.upsert, remove⟩
  | some patch =>
    if !isTrue (patch.field .hidden) && !remove.contains patch.uuid then ⟨parts.upsert ++ [patch], remove⟩
    else ⟨parts.upsert, remove⟩

def clientPatchFromDetail : Option ClientDelta → Option PatchParts
  | none => none
  | some delta =>
    let parts := delta.upsert.foldl recordUpsert ⟨[], delta.remove.foldl (fun set uuid => set.insert uuid) []⟩
    if parts.upsert = [] ∧ parts.remove = [] then none else some parts

/-- `{ ...existing, ...client }`. -/
def ClientPatch.over (existing : Option ClientPatch) (patch : ClientPatch) : ClientPatch where
  uuid := patch.uuid
  field f := (patch.field f).or (existing.bind fun e => e.field f)

def readClientPatch (stored : Option StoredPatch) (now : Int) : Option StoredPatch :=
  stored.filter fun patch => decide (now - patch.saved_at ≤ PUBLIC_BOOTSTRAP_CLIENT_PATCH_MAX_AGE_MS)

/-- `mergeClientPatch`, over the patch that `readClientPatch` returns. -/
def mergeClientPatch (previous : Option StoredPatch) (next : PatchParts) (now : Int) : StoredPatch :=
  let remove := (previous.map StoredPatch.remove).getD []
  let byUuid := Assoc.index ClientPatch.uuid ((previous.map StoredPatch.upsert).getD [])
  let removed := next.remove.foldl (fun set uuid => set.insert uuid) remove
  let kept := next.remove.foldl (fun map uuid => Assoc.erase map uuid) byUuid
  let both := next.upsert.foldl (fun acc client => (acc.1.filter (fun uuid => decide (uuid ≠ client.uuid)),
      Assoc.set acc.2 client.uuid (client.over (Assoc.get? acc.2 client.uuid))))
    (removed, kept)
  ⟨now, both.2.map Prod.snd, both.1⟩

/-- `patchCachedPublicBootstrapClients`. -/
def patchCachedPublicBootstrapClients (stored : Option StoredPatch) (detail : Option ClientDelta) (now : Int) :
    Option StoredPatch :=
  match clientPatchFromDetail detail with
  | none => stored
  | some next => some (mergeClientPatch (readClientPatch stored now) next now)

/-- A patch as the object that `normalizePublicClient` gets. -/
def ClientPatch.record (patch : ClientPatch) : Fields :=
  ("uuid", .str patch.uuid) :: ClientField.all.filterMap fun f => (patch.field f).map fun value => (f.key, value)

/-- `{ ...existing, ...client }`. -/
def ClientPatch.onto (patch : ClientPatch) (existing : ClientInfo) : ClientInfo where
  uuid := patch.uuid
  field f := (patch.field f).getD (existing.field f)

/-- One turn of the loop of `applyClientPatch`. -/
def placePatch (byUuid : List (String × ClientInfo)) (patch : ClientPatch) : List (String × ClientInfo) :=
  match Assoc.get? byUuid patch.uuid with
  | some existing => Assoc.set byUuid patch.uuid (patch.onto existing)
  | none => match normalizePublicClient (.obj patch.record) with
    | some client => Assoc.set byUuid patch.uuid client
    | none => byUuid

def applyClientPatch (c : Collation) (clients : List ClientInfo) : Option StoredPatch → List ClientInfo
  | none => clients
  | some patch =>
    let byUuid := clientMap (clients.filter fun client => !patch.remove.contains client.uuid)
    c.sortPublicClients ((patch.upsert.foldl placePatch byUuid).map Prod.snd)

end CfMonitor.Frontend
