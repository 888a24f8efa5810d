/-
  Host information in the row of a client (`/uploadBasicInfo`, `syncBasicInfoFromReportBatch` in
  `client.ts`; `syncBasicInfoFromReport` in `live-data.ts`; `cfm_update_client`).

  Two writers leave out what they take for stored.  The route compares with the record that
  `clientAuth` returned, which may be an old content of the row: its cache follows the columns that
  the synchronisation trigger watches, and none of those below is one.  The object remembers the
  signature of the last patch it has written.

  1. **Row** — the columns of the two patches, with the casts of the SQL function.  The addresses and
     the region are written along with them and are not looked at.

  2. **Writers** — the patch of each.

  3. **World** (`infoStep`) — the row of one client, its earlier contents, the remembered signature;
     beside them, not read by the program, the host information that was acknowledged since the last
     write.  Reading the record, the update and the acknowledgement are one step: the updates are
     atomic, and a later one is a later write.
-/
import CfMonitor.Lib.Machine
import CfMonitor.Live.ViewerMessages

namespace CfMonitor.Live

open CfMonitor.Lib

/-! ## The row -/

/-- The columns of `clients` that host information fills, by name. -/
structure HostRow where
  text : String → String
  number : String → Int

/-- The row that `cfm_create_client` inserts: the defaults of the table. -/
def HostRow.created : HostRow := ⟨fun _ => "", fun _ => 0⟩

/-- The value of a text as `::integer`, if PostgreSQL accepts it. -/
def toInteger (x : ℚ) : Option Int :=
  if x.den = 1 ∧ -2 ^ 31 ≤ x.num ∧ x.num < 2 ^ 31 then some x.num else none

/-- The whole number next to a `double precision`; of two, the even one. -/
def roundHalfEven (x : ℚ) : Int :=
  let below := x.floor
  if x - below < 1 / 2 then below
  else if 1 / 2 < x - below then below + 1
  else if below % 2 = 0 then below else below + 1

/-- A `double precision` stored in a `bigint` column. -/
def toBigint (x : ℚ) : Option Int :=
  if -2 ^ 63 ≤ roundHalfEven x ∧ roundHalfEven x < 2 ^ 63 then some (roundHalfEven x) else none

/-- The cast of a number column. -/
def castNumber (field : String) (x : ℚ) : Option Int :=
  if field = "cpu_cores" then toInteger x else toBigint x

/-- A text column after an update. -/
def patchedText (patch : Fields) (field current : String) : String :=
  match Assoc.get? patch field with
  | some (.str text) => text
  | some .null => ""
  | _ => current

/-- A number column after an update, unless the cast fails. -/
def patchedNumber (patch : Fields) (field : String) (current : Int) : Option Int :=
  match Assoc.get? patch field with
  | some (.num (.finite x)) => castNumber field x
  | some .null => some 0
  | _ => some current

def numberColumns : List String := ["cpu_cores", "mem_total", "swap_total", "disk_total"]

/-- `cfm_update_client` on the row of the client, if there is one.  `none` is a failed call. -/
def updateClient (row : Option HostRow) (patch : Fields) : Option (Option HostRow) :=
  match row with
  | none => some none
  | some r =>
    if numberColumns.all fun field => (patchedNumber patch field (r.number field)).isSome then
      some (some ⟨fun field => patchedText patch field (r.text field),
          fun field => (patchedNumber patch field (r.number field)).getD (r.number field)⟩)
    else none

/-! ## The writers -/

def nonEmptyString (value : Option Json) (fallback : String) : String :=
  match Json.str? value with
  | some text => if trim text = "" then fallback else trim text
  | none => fallback

/-- `positiveNumber(value, fallback)`. -/
def positiveNumber (value : Option Json) (fallback : ℚ) : ℚ :=
  match value with
  | some (.num (.finite x)) => if 0 < x then x else fallback
  | _ => fallback

/-- `nonNegativeNumber(value, fallback)`. -/
def nonNegativeNumber (value : Option Json) (fallback : ℚ) : ℚ :=
  match value with
  | some (.num (.finite x)) => if 0 ≤ x then x else fallback
  | _ => fallback

/-- `diskTotalFromReport(value, fallback)`. -/
def diskTotalFromReport (value : Option Json) (fallback : ℚ) : ℚ :=
  match value with
  | none => fallback
  | some value => positiveNumber (some value) 0

/-- `clientFieldChanged(client?.[field], next)` for the columns of the row. -/
def clientFieldChanged (client : HostRow) (field : String) (next : Json) : Bool :=
  match next with
  | .num (.finite x) => decide ((client.number field : ℚ) ≠ x)
  | .str text => decide (client.text field ≠ text)
  | _ => false

/-- `buildChangedClientPatch`; a missing record reads like a new row. -/
def buildChangedClientPatch (client : HostRow) (next : Fields) : Fields :=
  next.filter fun p => clientFieldChanged client p.1 p.2

/-- The values that the route compares with the record, in the order of the source. -/
def nextValues (client : HostRow) (body : Fields) : Fields :=
  let text (field : String) : String × Json :=
    (field, .str (nonEmptyString (Assoc.get? body field) (client.text field)))
  let positive (field : String) : String × Json :=
    (field, .num (.finite (positiveNumber (Assoc.get? body field) (client.number field))))
  [text "cpu_name", text "virtualization", text "arch", positive "cpu_cores", text "os",
    text "kernel_version", text "gpu_name", positive "mem_total",
    ("swap_total", .num (.finite
      (nonNegativeNumber (Assoc.get? body "swap_total") (client.number "swap_total")))),
    ("disk_total", .num (.finite
      (diskTotalFromReport (Assoc.get? body "disk_total") (client.number "disk_total")))),
    text "version"]

/-- The patch of the route. -/
def routePatch (client : HostRow) (body : Fields) : Fields :=
  buildChangedClientPatch client (nextValues client body)

/-- A patch of texts and numbers as its `JSON.stringify` tells it apart from others. -/
abbrev PatchSignature := List (String × Option String × Option ℚ)

/-- The text or the number that a value is. -/
def scalarOf : Json → Option String × Option ℚ
  | .str text => (some text, none)
  | .num (.finite x) => (none, some x)
  | _ => (none, none)

def patchSignature (patch : Fields) : PatchSignature := patch.map fun p => (p.1, scalarOf p.2)

/-! ## The world -/

/-- The row of one client, the contents that it has had, newest first, and the signature that the
    object remembers for it; `standing` is the host information acknowledged since the last write. -/
structure InfoWorld where
  row : Option HostRow
  past : List HostRow
  signature : Option PatchSignature
  standing : List Fields

/-- What happens next.  `age` says which earlier content the record of `clientAuth` shows, if there is
    a record; `current` whether the report may still go on when its update is done. -/
inductive InfoEvent where
  /-- `/uploadBasicInfo`. -/
  | upload (body : Fields) (age : Option Nat)
  /-- The part of an HTTP report before the object hears of it. -/
  | reportBatch (basicInfo : Fields) (age : Option Nat)
  /-- A report in the object, over HTTP or a WebSocket, and its acknowledgement. -/
  | report (basicInfo : Fields) (current : Bool)
  /-- The version of an HTTP report, written in the background. -/
  | version (text : String)
  | deleteClient
  | createClient
  /-- The memory of the object is lost, or a restore clears the signatures. -/
  | forget

namespace InfoWorld

variable (w : InfoWorld)

/-- The record that the route compares with, if the row has had that content. -/
def record : Option Nat → Option HostRow
  | none => some HostRow.created
  | some age => w.past[age]?

/-- `db.updateClient`. -/
def store (patch : Fields) : Option InfoWorld :=
  match updateClient w.row patch with
  | none => none
  | some none => some w
  | some (some row) => some { w with row := some row, past := row :: w.past, standing := [] }

/-- The answer to a request with host information. -/
def acknowledge (info : Fields) : InfoWorld := { w with standing := info :: w.standing }

/-- The update of the route, unless it takes everything for stored. -/
def storeChanged (patch : Fields) : Option InfoWorld := if patch.isEmpty then some w else w.store patch

end InfoWorld

section Step

variable (rules : ViewerRules)

/-- `syncBasicInfoFromReport`, and the acknowledgement of the report. -/
def syncBasicInfoFromReport (w : InfoWorld) (basicInfo : Fields) (current : Bool) : InfoWorld :=
  let patch := ViewerWorld.basicInfoPatch rules basicInfo
  if patch.isEmpty || w.signature == some (patchSignature patch) then
    if current then w.acknowledge basicInfo else w
  else
    match w.store patch with
    | none => w
    | some stored =>
      -- no signature is committed for a report that was overtaken
      if current then { stored with signature := some (patchSignature patch) }.acknowledge basicInfo
      else stored

/-- One step.  A request whose update fails changes nothing and is not acknowledged. -/
def infoStep (w : InfoWorld) : InfoEvent → Option InfoWorld
  | .upload body age => (w.record age).map fun client =>
    match w.storeChanged (routePatch client body) with
    | none => w
    | some stored => stored.acknowledge body
  | .reportBatch basicInfo age => (w.record age).map fun client =>
    (w.storeChanged (routePatch client basicInfo)).getD w
  | .report basicInfo current => some (syncBasicInfoFromReport rules w basicInfo current)
  | .version text => some ((w.store [("version", .str text)]).getD w)
  | .deleteClient => some { w with row := none, standing := [] }
  | .createClient =>
    if w.row.isSome then none
    else some { w with row := some .created, past := .created :: w.past, standing := [] }
  | .forget => some { w with signature := none }

/-- The client as a machine. -/
def infoMachine : Machine InfoWorld InfoEvent := ⟨infoStep rules⟩

end Step

/-- Nothing has happened yet. -/
def InfoWorld.start : InfoWorld := ⟨none, [], none, []⟩

end CfMonitor.Live
