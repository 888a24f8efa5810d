/-
  Pages of history (`cfm_records_range_paged`, `cfm_records_range_cursor`, `cfm_gpu_records_paged`,
  `cfm_gpu_records_cursor`, `cfm_ping_records_paged`, `cfm_ping_records_cursor`) and the cursor that
  leads from one page to the next (`history_cursor_key`, `history_cursor`, `readTimeCursorParam`).

  1. **Data** — rows of the three tables with their primary key.  Times are microseconds.  A line of a
     page is a row, or one device of a row, with the columns it is ordered by; the numbers that a
     page shows beside them stay in the row.

  2. **Cursor** — a text of a time, an id and an ordinal.  How a time is written and read is
     `TimeText`: `to_jsonb`, `::timestamptz` and `Date.parse`.

  3. **Program** — the three pairs of functions differ in their `View`: which lines a table has, by
     what they are ordered and how they compare with a cursor.  `pagedBy` and `cursorBy` are the two
     queries over a view.

  4. **Walk** — a reader sends the cursor of each page with its next request, while the table may
     change between two requests.
-/
import CfMonitor.Lib.Json
import CfMonitor.Lib.Paging
import Mathlib.Algebra.Group.Nat.Defs
import Mathlib.Data.Prod.Lex

namespace CfMonitor.Records

open CfMonitor.Lib CfMonitor.Lib.Paging

/-! ## Tables -/

/-- The largest `bigint`. -/
def maxBigint : Int := 2 ^ 63 - 1

/-- The largest `integer`. -/
def maxInteger : Int := 2 ^ 31 - 1

/-- A row of `records`; `μ` is the type of its metrics. -/
structure MonitorRecord (μ : Type) where
  id : Int
  client : String
  time : Int
  metrics : μ
  id_pos : 1 ≤ id
  id_le : id ≤ maxBigint

/-- A row of `gpu_snapshots`.  A `jsonb` array holds less than 2^28 items. -/
structure GpuSnapshot where
  id : Int
  client : String
  time : Int
  devicesJson : Json
  id_pos : 1 ≤ id
  id_le : id ≤ maxBigint
  devices_lt : ∀ items, devicesJson = .arr items → items.length < 2 ^ 28

/-- A row of `ping_snapshots`. -/
structure PingSnapshot where
  id : Int
  client : String
  time : Int
  valuesJson : Json
  id_pos : 1 ≤ id
  id_le : id ≤ maxBigint

/-- A table with its primary key. -/
structure Table (ρ : Type) (id : ρ → Int) where
  rows : List ρ
  ids_nodup : (rows.map id).Nodup

/-- One device of a row of `gpu_snapshots`. -/
structure GpuLine where
  row : GpuSnapshot
  deviceOrdinal : Int
  device : Json

/-- A row of `ping_snapshots` with its value for a task. -/
structure PingLine where
  row : PingSnapshot
  taskId : Int
  value : Option Json

/-- The bounds of a range, after `::timestamptz`. -/
structure TimeRange where
  start : Option Int
  stop : Option Int

/-! ## The cursor -/

/-- How instants are written and read: `to_jsonb(time) #>> '{}'`, `text::timestamptz` (which may
    fail), `Date.parse` and `new Date(ms).toISOString()`. -/
structure TimeText where
  toJsonb : Int → String
  timestamptz : String → Option Int
  dateParse : String → Option Int
  toISOString : Int → String

/-- `history_cursor_key`. -/
def historyCursorKey (T : TimeText) (time id ordinal : Int) : String :=
  "v1|" ++ T.toJsonb time ++ "|" ++ toString id ++ "|" ++ toString ordinal

/-- The columns of `history_cursor`. -/
structure Boundary where
  cursorTime : Option Int
  cursorId : Option Int
  cursorOrdinal : Option Int

/-- `split_part(text, '|', n)`. -/
def splitPart (text : String) (n : Nat) : String :=
  String.ofList (((text.toList.splitOn '|')[n - 1]?).getD [])

/-- The digits of a number. -/
def readDigits (cs : List Char) : Option Nat :=
  if cs ≠ [] ∧ cs.all Char.isDigit then some (Nat.ofDigitChars 10 cs 0) else none

/-- A text cast to an integer type: blanks around, a sign, digits, within the range of the type. -/
def castInteger (max : Int) (text : String) : Option Int :=
  let isBlank (c : Char) : Bool := c.val == 0x20 || (9 ≤ c.val && c.val ≤ 13)
  let cs := ((text.toList.dropWhile isBlank).reverse.dropWhile isBlank).reverse
  let value : Option Int :=
    match cs with
    | '-' :: ds => (readDigits ds).map fun n => -(n : Int)
    | '+' :: ds => (readDigits ds).map fun n => (n : Int)
    | ds => (readDigits ds).map fun n => (n : Int)
  value.filter fun v => -max - 1 ≤ v && v ≤ max

/-- `history_cursor`.  There is no answer when a cast fails. -/
def historyCursor (T : TimeText) : Option String → Option Boundary
  | none => some ⟨none, none, none⟩
  | some text =>
    if text.toList.take 3 = ['v', '1', '|'] then do
      let time ← T.timestamptz (splitPart text 2)
      let id ← castInteger maxBigint (splitPart text 3)
      let ordinal ← castInteger maxInteger (splitPart text 4)
      pure ⟨some time, some id, some ordinal⟩
    else if text = "" then some ⟨none, none, none⟩
    else do
      let time ← T.timestamptz text
      pure ⟨some time, none, none⟩

/-! ### `readTimeCursorParam` -/

/-- What is left after a text of a given shape, in which `d` stands for a digit. -/
def dropShape : List Char → List Char → Option (List Char)
  | [], cs => some cs
  | 'd' :: shape, c :: cs => if c.isDigit then dropShape shape cs else none
  | s :: shape, c :: cs => if c = s then dropShape shape cs else none
  | _ :: _, [] => none

/-- `(?:Z|[+-]\d{2}:\d{2})` to the end. -/
def isOffset : List Char → Bool
  | ['Z'] => true
  | '+' :: cs => dropShape ['d', 'd', ':', 'd', 'd'] cs == some []
  | '-' :: cs => dropShape ['d', 'd', ':', 'd', 'd'] cs == some []
  | _ => false

/-- `\d{4}-\d{2}-\d{2}T\d{2}:\d{2}:\d{2}(?:\.\d{1,6})?(?:Z|[+-]\d{2}:\d{2})`. -/
def isInstant (cs : List Char) : Bool :=
  match dropShape "dddd-dd-ddTdd:dd:dd".toList cs with
  | some ('.' :: rest) =>
    let digits := rest.takeWhile Char.isDigit
    1 ≤ digits.length && digits.length ≤ 6 && isOffset (rest.dropWhile Char.isDigit)
  | some rest => isOffset rest
  | none => false

/-- `[1-9]\d{0,n}`. -/
def isPositiveDigits (n : Nat) : List Char → Bool
  | c :: cs => c.isDigit && c != '0' && cs.all Char.isDigit && cs.length ≤ n
  | [] => false

/-- `0|[1-9]\d{0,n}`. -/
def isDigits (n : Nat) (cs : List Char) : Bool := cs == ['0'] || isPositiveDigits n cs

/-- The groups of the regular expression for a compound cursor.  No group contains a bar. -/
def cursorGroups (text : String) : Option (String × Nat × Nat) :=
  match text.toList.splitOn '|' with
  | [['v', '1'], time, id, ordinal] =>
    if isInstant time && isPositiveDigits 18 id && isDigits 9 ordinal then
      some (String.ofList time, Nat.ofDigitChars 10 id 0, Nat.ofDigitChars 10 ordinal 0)
    else none
  | _ => none

/-- `readTimeCursorParam`.  A text of more than 128 UTF-16 units in less characters has a character
    that the expression refuses too. -/
def readTimeCursorParam (T : TimeText) (value : Option String) (allowCompound : Bool) :
    Except String (Option String) :=
  let text := trim (value.getD "")
  if text = "" then .ok none
  else if allowCompound ∧ text.toList.take 3 = ['v', '1', '|'] then
    match (cursorGroups text).filter (fun _ => text.length ≤ 128) with
    | some (time, id, ordinal) =>
      if (T.dateParse time).isNone ∨ (id : Int) > maxBigint ∨ (ordinal : Int) > maxInteger then
        .error "cursor 参数无效"
      else .ok (some text)
    | none => .error "cursor 参数无效"
  else
    match T.dateParse text with
    | some time => .ok (some (T.toISOString time))
    | none => .error "cursor 参数无效"

/-! ## The queries -/

/-- What a page function answers. -/
structure Page (line : Type) where
  total : Int
  page : Int
  limit : Int
  hasMore : Bool
  nextCursor : Option Int
  nextCursorKey : Option String
  data : List line

/-- In what the pairs of page functions differ. -/
structure View (ρ line κ : Type) where
  /-- The lines of the rows that match. -/
  lines : List ρ → List line
  /-- `order by`. -/
  key : line → κ
  /-- The arguments of `history_cursor_key`. -/
  time : line → Int
  id : line → Int
  ordinal : line → Int
  /-- The comparison with a cursor that has an id. -/
  before : line → (time id : Int) → (ordinal : Option Int) → Bool
  /-- `coalesce(input_limit, …)`. -/
  defaultLimit : Int

section Queries

variable {ρ line κ : Type} [LinearOrder κ] (T : TimeText) (V : View ρ line κ)

/-- `least(greatest(coalesce(input_limit, …), 1), 500)`. -/
def View.limitValue (limit : Option Int) : Int := min (max (limit.getD V.defaultLimit) 1) 500

/-- `raw_rows`, from all lines that a query selects. -/
def View.rawRows (limit offset : Int) (lines : List line) : List line :=
  ((descending V.key lines).drop offset.toNat).take (limit + 1).toNat

/-- The answer from `raw_rows`. -/
def View.pageOf (page limit : Int) (raw : List line) : Page line :=
  let dataRows := (descending V.key raw).take limit.toNat
  let more := decide ((raw.length : Int) > limit)
  let data := ascending V.key dataRows
  { total := (page - 1) * limit + dataRows.length + if more then 1 else 0
    page
    limit
    hasMore := more
    nextCursor := if more then data.head?.map V.time else none
    nextCursorKey :=
      if more then data.head?.map fun l => historyCursorKey T (V.time l) (V.id l) (V.ordinal l) else none
    data }

/-- The `*_paged` functions.  The offset is an `integer`, and there is no answer when it is none. -/
def pagedBy (rows : List ρ) (inputPage inputLimit : Option Int) : Option (Page line) :=
  let page := max (inputPage.getD 1) 1
  let limit := V.limitValue inputLimit
  let offset := (page - 1) * limit
  if offset ≤ maxInteger then some (V.pageOf T page limit (V.rawRows limit offset (V.lines rows))) else none

/-- The lines that a cursor leaves. -/
def View.beyond (boundary : Boundary) (l : line) : Bool :=
  match boundary.cursorTime, boundary.cursorId with
  | none, _ => true
  | some time, none => decide (V.time l < time)
  | some time, some id => V.before l time id boundary.cursorOrdinal

/-- The `*_cursor` functions. -/
def cursorBy (rows : List ρ) (inputCursor : Option String) (inputLimit : Option Int) :
    Option (Page line) := do
  let boundary ← historyCursor T inputCursor
  let limit := V.limitValue inputLimit
  pure (V.pageOf T 1 limit (V.rawRows limit 0 ((V.lines rows).filter (V.beyond boundary))))

end Queries

/-! ## The three views -/

/-- `(r.time, r.id) < (boundary.cursor_time, boundary.cursor_id)`. -/
def pairBefore (time id cursorTime cursorId : Int) : Bool :=
  decide (toLex (time, id) < toLex (cursorTime, cursorId))

/-- `(r.time, r.id, ordinal) < (cursor_time, cursor_id, cursor_ordinal)`; a null ordinal decides
    nothing, and what is not decided is not selected. -/
def tripleBefore (time id ordinal cursorTime cursorId : Int) : Option Int → Bool
  | some cursorOrdinal =>
    decide (toLex (time, toLex (id, ordinal)) < toLex (cursorTime, toLex (cursorId, cursorOrdinal)))
  | none => decide (toLex (time, id) < toLex (cursorTime, cursorId))

/-- The rows of `cfm_records_range_*`.  A null bound selects no row. -/
def recordsView (μ : Type) (client : String) (range : TimeRange) :
    View (MonitorRecord μ) (MonitorRecord μ) (Int ×ₗ Int) where
  lines rows := rows.filter fun r =>
    r.client = client && range.start.any (· ≤ r.time) && range.stop.any (r.time ≤ ·)
  key r := toLex (r.time, r.id)
  time r := r.time
  id r := r.id
  ordinal _ := 0
  before r time id _ := pairBefore r.time r.id time id
  defaultLimit := 100

/-- `jsonb_array_elements(…) with ordinality`. -/
def gpuLines (r : GpuSnapshot) : List GpuLine :=
  (((Json.arr? (some r.devicesJson)).getD []).zipIdx 1).map fun p =>
    { row := r, deviceOrdinal := p.2, device := p.1 }

/-- The devices of `cfm_gpu_records_*`.  A null bound leaves its end of the range open. -/
def gpuView (client : String) (range : TimeRange) :
    View GpuSnapshot GpuLine (Int ×ₗ Int ×ₗ Int) where
  lines rows := (rows.filter fun r =>
    r.client = client && range.start.all (· ≤ r.time) && range.stop.all (r.time ≤ ·)).flatMap gpuLines
  key l := toLex (l.row.time, toLex (l.row.id, l.deviceOrdinal))
  time l := l.row.time
  id l := l.row.id
  ordinal l := l.deviceOrdinal
  before l time id ordinal := tripleBefore l.row.time l.row.id l.deviceOrdinal time id ordinal
  defaultLimit := 100

/-- `jsonb ? text`. -/
def hasText : Json → String → Bool
  | .obj fields, text => fields.any fun f => f.1 = text
  | .arr items, text => items.any fun
    | .str s => s = text
    | _ => false
  | .str s, text => s = text
  | _, _ => false

/-- `jsonb -> text`. -/
def fieldOf : Json → String → Option Json
  | .obj fields, text => (fields.find? fun f => f.1 = text).map Prod.snd
  | _, _ => none

/-- The rows of `cfm_ping_records_*`. -/
def pingView (client : String) (taskId : Int) : View PingSnapshot PingLine (Int ×ₗ Int) where
  lines rows := (rows.filter fun r =>
    r.client = client && hasText r.valuesJson (toString taskId)).map fun r =>
      { row := r, taskId, value := fieldOf r.valuesJson (toString taskId) }
  key l := toLex (l.row.time, l.row.id)
  time l := l.row.time
  id l := l.row.id
  ordinal _ := 0
  before l time id _ := pairBefore l.row.time l.row.id time id
  defaultLimit := 120

def cfmRecordsRangePaged {μ : Type} (T : TimeText) (rows : List (MonitorRecord μ)) (client : String)
    (range : TimeRange) (page limit : Option Int) : Option (Page (MonitorRecord μ)) :=
  pagedBy T (recordsView μ client range) rows page limit

def cfmRecordsRangeCursor {μ : Type} (T : TimeText) (rows : List (MonitorRecord μ)) (client : String)
    (range : TimeRange) (cursor : Option String) (limit : Option Int) : Option (Page (MonitorRecord μ)) :=
  cursorBy T (recordsView μ client range) rows cursor limit

def cfmGpuRecordsPaged (T : TimeText) (rows : List GpuSnapshot) (client : String) (range : TimeRange)
    (page limit : Option Int) : Option (Page GpuLine) :=
  pagedBy T (gpuView client range) rows page limit

def cfmGpuRecordsCursor (T : TimeText) (rows : List GpuSnapshot) (client : String) (range : TimeRange)
    (cursor : Option String) (limit : Option Int) : Option (Page GpuLine) :=
  cursorBy T (gpuView client range) rows cursor limit

def cfmPingRecordsPaged (T : TimeText) (rows : List PingSnapshot) (client : String) (taskId : Int)
    (page limit : Option Int) : Option (Page PingLine) :=
  pagedBy T (pingView client taskId) rows page limit

def cfmPingRecordsCursor (T : TimeText) (rows : List PingSnapshot) (client : String) (taskId : Int)
    (cursor : Option String) (limit : Option Int) : Option (Page PingLine) :=
  cursorBy T (pingView client taskId) rows cursor limit

/-! ## The walk -/

/-- What a reader gets: a page, an error of the route, an error of the database; nothing once the
    last page was read. -/
inductive Reply (line : Type) where
  | page (page : Page line)
  | refused (error : String)
  | failed
  | done

/-- A request with the cursor that a page gave. -/
def requestAfter {line : Type} (T : TimeText) (paged : Option (Page line))
    (cursor : String → Option (Page line)) (key : Option String) : Reply line :=
  match readTimeCursorParam T key true with
  | .error error => .refused error
  | .ok none => paged.elim .failed .page
  | .ok (some text) => (cursor text).elim .failed .page

/-- The answers to a reader that begins with the first page and sends the cursor of each page with
    its next request, as long as the page says that there is more.  `paged k` and `cursor k` are the
    two functions on the table at request `k`. -/
def answerAt {line : Type} (T : TimeText) (paged : Nat → Option (Page line))
    (cursor : Nat → String → Option (Page line)) : Nat → Reply line
  | 0 => requestAfter T (paged 0) (cursor 0) none
  | k + 1 =>
    match answerAt T paged cursor k with
    | .page p =>
      if p.hasMore then requestAfter T (paged (k + 1)) (cursor (k + 1)) p.nextCursorKey else .done
    | .refused error => .refused error
    | .failed => .failed
    | .done => .done

/-- A reader of a view, over a table that may change between two requests. -/
def View.answers {ρ line κ : Type} [LinearOrder κ] {id : ρ → Int} (T : TimeText) (V : View ρ line κ)
    (tables : Nat → Table ρ id) (limit : Option Int) : Nat → Reply line :=
  answerAt T (fun k => pagedBy T V (tables k).rows (some 1) limit)
    (fun k text => cursorBy T V (tables k).rows (some text) limit)

def recordsAnswers {μ : Type} (T : TimeText) (tables : Nat → Table (MonitorRecord μ) MonitorRecord.id)
    (client : String) (range : TimeRange) (limit : Option Int) : Nat → Reply (MonitorRecord μ) :=
  answerAt T (fun k => cfmRecordsRangePaged T (tables k).rows client range (some 1) limit)
    (fun k text => cfmRecordsRangeCursor T (tables k).rows client range (some text) limit)

def gpuAnswers (T : TimeText) (tables : Nat → Table GpuSnapshot GpuSnapshot.id) (client : String)
    (range : TimeRange) (limit : Option Int) : Nat → Reply GpuLine :=
  answerAt T (fun k => cfmGpuRecordsPaged T (tables k).rows client range (some 1) limit)
    (fun k text => cfmGpuRecordsCursor T (tables k).rows client range (some text) limit)

def pingAnswers (T : TimeText) (tables : Nat → Table PingSnapshot PingSnapshot.id) (client : String)
    (taskId : Int) (limit : Option Int) : Nat → Reply PingLine :=
  answerAt T (fun k => cfmPingRecordsPaged T (tables k).rows client taskId (some 1) limit)
    (fun k text => cfmPingRecordsCursor T (tables k).rows client taskId (some text) limit)

end CfMonitor.Records
