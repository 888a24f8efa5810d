/-
  How the pages of a client collect a range of its ping history (`publicHistory.ts`,
  `fetchPingTaskSeries` in `pingChart.ts`).

  1. **Times** — `preciseHistoryTime` adds to the milliseconds of `Date.parse` the microseconds that it
     reads from the text.

  2. **Collection** — `collectCursorHistory` follows the cursors of a server, at most 32 pages far.

  3. **Series** — a first page for all tasks at once, completed for the tasks where it was full; or, if
     the server has no such page, a collection for each task.

  4. **Server** — any (`PingHistoryServer`), and the one that answers from a table (`tableServer`).
-/
import CfMonitor.Records.CursorPages
import CfMonitor.Lib.Assoc
import CfMonitor.Lib.Truncate

namespace CfMonitor.Records

open CfMonitor.Lib CfMonitor.Lib.Paging

/-! ## Times -/

/-- `(?::?\d{2})?` to the end. -/
def isMinutes : List Char → Bool
  | [] => true
  | [c, d] => c.isDigit && d.isDigit
  | [colon, c, d] => colon == ':' && c.isDigit && d.isDigit
  | _ => false

/-- `(?:Z|[+-]\d{2}(?::?\d{2})?)` to the end, in either case. -/
def isZone : List Char → Bool
  | ['Z'] => true
  | ['z'] => true
  | sign :: a :: b :: rest =>
    (sign == '+' || sign == '-') && a.isDigit && b.isDigit && isMinutes rest
  | _ => false

/-- The first group of `\.(\d+)(?:Z|[+-]\d{2}(?::?\d{2})?)$`, or nothing. -/
def fractionDigits : List Char → List Char
  | [] => []
  | c :: cs =>
    if c = '.' ∧ cs.takeWhile Char.isDigit ≠ [] ∧ isZone (cs.dropWhile Char.isDigit) = true then
      cs.takeWhile Char.isDigit
    else fractionDigits cs

/-- `fraction.padEnd(6, '0').slice(3, 6)`, as a number. -/
def microDigits (fraction : List Char) : Nat :=
  Nat.ofDigitChars 10 (((fraction ++ List.replicate (6 - fraction.length) '0').drop 3).take 3) 0

/-- `preciseHistoryTime`, in microseconds. -/
def preciseHistoryTime (T : TimeText) (value : String) : Option Int :=
  (T.dateParse value).map fun milliseconds =>
    milliseconds * 1000 + microDigits (fractionDigits value.toList)

/-! ## Collection -/

/-- `[1-9]\d*`. -/
def isPositiveInteger (cs : List Char) : Bool := isPositiveDigits cs.length cs

/-- `parseHistoryCursor`. -/
structure CursorPosition where
  time : Int
  id : Option Nat
  ordinal : Option Nat

def parseHistoryCursor (T : TimeText) (value : String) : Option CursorPosition :=
  match value.toList.splitOn '|' with
  | [_] => (preciseHistoryTime T value).map fun time => ⟨time, none, none⟩
  | [version, time, id, ordinal] =>
    if version = ['v', '1'] ∧ isPositiveInteger id = true ∧ ordinal ≠ [] ∧ ordinal.all Char.isDigit then
      (preciseHistoryTime T (String.ofList time)).map fun time =>
        ⟨time, some (Nat.ofDigitChars 10 id 0), some (Nat.ofDigitChars 10 ordinal 0)⟩
    else none
  | _ => none

/-- A ping record as it is sent. -/
structure PingPayload where
  time : String
  id : String
  value : Option Int

/-- A ping record after `normalizePingRecord`. -/
structure PingRecord where
  time : String
  id : Option String
  value : Int
  deriving DecidableEq

def normalizeHistoryRecordId (value : String) : Option String :=
  if isPositiveInteger value.toList then some value else none

def normalizePingRecord (T : TimeText) (payload : PingPayload) : Option PingRecord :=
  if (T.dateParse payload.time).isNone then none
  else payload.value.map fun value => ⟨payload.time, normalizeHistoryRecordId payload.id, value⟩

def normalizePingRecords (T : TimeText) (payload : List PingPayload) : List PingRecord :=
  payload.filterMap (normalizePingRecord T)

/-- `recordIdentity`; ping records have no device. -/
def recordIdentity (T : TimeText) (record : PingRecord) : Option Int × String :=
  (preciseHistoryTime T record.time, record.id.getD "")

/-- What `compareHistoryRecords` compares. -/
def historyKey (T : TimeText) (record : PingRecord) : Int ×ₗ Nat :=
  toLex ((preciseHistoryTime T record.time).getD 0, Nat.ofDigitChars 10 (record.id.getD "0").toList 0)

/-- The records of a map, sorted by `compareHistoryRecords`. -/
def sortedRecords (T : TimeText) (records : List ((Option Int × String) × PingRecord)) : List PingRecord :=
  ascending (historyKey T) (records.map Prod.snd)

def mergeHistoryRecords (T : TimeText) (records : List PingRecord) : List PingRecord :=
  sortedRecords T (records.foldl (fun map record => Assoc.set map (recordIdentity T record) record) [])

def historyCursorFromRecord (record : PingRecord) : String :=
  match record.id with
  | some id => "v1|" ++ record.time ++ "|" ++ id ++ "|" ++ "0"
  | none => record.time

/-- A page as `collectCursorHistory` reads it; its records are normalized. -/
structure HistoryPage where
  records : List PingRecord
  has_more : Bool
  next_cursor_key : Option String
  next_cursor : Option String

/-- The cursor is behind the one before it. -/
def advances (next position : CursorPosition) : Bool :=
  decide (next.time < position.time) || (decide (next.time = position.time) &&
      match next.id, position.id with
      | none, _ => false
      | some _, none => true
      | some id, some id' => decide (id < id') || (decide (id = id') &&
          match next.ordinal, position.ordinal with
          | some ordinal, some ordinal' => decide (ordinal < ordinal')
          | _, _ => false))

/-- What a collection returns, where it does not throw, and how many pages it asked for. -/
structure Collected where
  result : Option (List PingRecord)
  requests : Nat

section Collection

variable (T : TimeText) (fetchPage : Nat → String → Option HistoryPage)

/-- The records of a page within the bounds, in the map. -/
def collectPage (start stop : Int) (records : List ((Option Int × String) × PingRecord))
    (page : List PingRecord) : List ((Option Int × String) × PingRecord) :=
  page.foldl (fun map record =>
    match preciseHistoryTime T record.time with
    | some at_ => if start ≤ at_ ∧ at_ ≤ stop then Assoc.set map (recordIdentity T record) record else map
    | none => map) records

/-- The loop of `collectCursorHistory`, for so many more pages. -/
def collectLoop (start stop : Int) : Nat → Nat → String → CursorPosition →
    List ((Option Int × String) × PingRecord) → Collected
  | 0, page, _, _, _ => ⟨none, page⟩
  | more + 1, page, cursor, position, records =>
    match fetchPage page cursor with
    | none => ⟨none, page + 1⟩
    | some payload =>
      let records := collectPage T start stop records payload.records
      if !payload.has_more then ⟨some (sortedRecords T records), page + 1⟩
      else
        let next := payload.next_cursor_key.getD (payload.next_cursor.getD "")
        match parseHistoryCursor T next with
        | none => ⟨none, page + 1⟩
        | some nextPosition =>
          if !advances nextPosition position then ⟨none, page + 1⟩
          else if nextPosition.time < start then ⟨some (sortedRecords T records), page + 1⟩
          else collectLoop start stop more (page + 1) next nextPosition records

def collectCursorHistory (cursor start : String) (stop : Option String) (maxPages : Option Nat) :
    Collected :=
  let stopText := match stop with
    | some text => if text = "" then cursor else text
    | none => cursor
  match preciseHistoryTime T start, parseHistoryCursor T stopText, parseHistoryCursor T cursor with
  | some startTime, some stopPosition, some position =>
    if stopPosition.time < startTime then ⟨none, 0⟩
    else collectLoop T fetchPage startTime stopPosition.time (min 32 (max 1 (maxPages.getD 32))) 0 cursor
      position []
  | _, _, _ => ⟨none, 0⟩

end Collection

/-! ## Series -/

structure NormalizedPingTask where
  id : Int
  intervalSec : ℚ
  interval_pos : 0 < intervalSec

/-- What answers: the first page for all tasks, by task and limit, which may fail; and the pages of a
    task, by limit and number of the request. -/
structure PingHistoryServer where
  batch : String → Option (Int → Nat → List PingPayload)
  page : Int → Nat → Nat → String → Option HistoryPage

/-- `requestLimitForTask`, with a range. -/
def requestLimitForTask (rangeHours : ℚ) (task : NormalizedPingTask) : Nat :=
  (min 360 (max 8 ((rangeHours * 3600 / task.intervalSec).ceil + 4))).toNat

/-- `limitPingSeriesToRecentRange`, for the records of a task. -/
def limitPingSeriesToRecentRange (T : TimeText) (rangeHours : ℚ) (rangeEnd : Int)
    (records : List PingRecord) : List PingRecord :=
  records.filter fun record =>
    match T.dateParse record.time with
    | some timestamp => decide ((rangeEnd : ℚ) - rangeHours * 3600000 ≤ timestamp) && decide (timestamp ≤ rangeEnd)
    | none => false

section Series

variable (T : TimeText) (server : PingHistoryServer) (rangeHours : ℚ) (cursor rangeStart : String)

/-- `completeBatchRange`, for a task. -/
def completeBatchRange (task : NormalizedPingTask) (records : List PingRecord) : Option (List PingRecord) :=
  if records.length < requestLimitForTask rangeHours task then some records
  else
    match (mergeHistoryRecords T records).head? with
    | none => some records
    | some oldest =>
      -- a comparison with what is no date is false
      if (match T.dateParse oldest.time, T.dateParse rangeStart with
        | some at_, some start => decide (at_ < start)
        | _, _ => false) then some records
      else
        (collectCursorHistory T (server.page task.id (requestLimitForTask rangeHours task))
          (historyCursorFromRecord oldest) rangeStart (some cursor) none).result.map fun older =>
            mergeHistoryRecords T (older ++ records)

/-- The collection of a task from the start. -/
def collectTask (task : NormalizedPingTask) : Option (List PingRecord) :=
  (collectCursorHistory T (server.page task.id (requestLimitForTask rangeHours task)) cursor rangeStart
    (some cursor) none).result

/-- The records of a task, before they are cut. -/
def taskRecords (task : NormalizedPingTask) : Option (List PingRecord) :=
  match server.batch cursor with
  | some byTask => completeBatchRange T server rangeHours cursor rangeStart task
      (normalizePingRecords T (byTask task.id (requestLimitForTask rangeHours task)))
  | none => collectTask T server rangeHours cursor rangeStart task

end Series

/-- `fetchPingTaskSeries`, with a range, for the tasks that were read before. -/
def fetchPingTaskSeries (T : TimeText) (server : PingHistoryServer) (tasks : List NormalizedPingTask)
    (rangeHours : ℚ) (cursor : String) : Option (List (NormalizedPingTask × List PingRecord)) :=
  match T.dateParse cursor with
  | none => none
  | some rangeEnd =>
    let rangeStart := T.toISOString (truncMs ((rangeEnd : ℚ) - rangeHours * 3600000))
    tasks.mapM fun task => (taskRecords T server rangeHours cursor rangeStart task).map fun records =>
      (task, limitPingSeriesToRecentRange T rangeHours rangeEnd records)

/-! ## A server with a table -/

section Server

variable (T : TimeText) (rows : List PingSnapshot) (client : String)

/-- `cfm_ping_records_for_tasks`, for a task. -/
def cfmPingRecordsForTask (taskId : Int) (limit : Nat) (cursorTime : Int) : List PingLine :=
  let V := pingView client taskId
  ascending V.key ((descending V.key ((V.lines rows).filter fun l => decide (l.row.time < cursorTime))).take
    (min (max limit 1) 1000))

/-- `to_jsonb` of a line, with `id::text`; a value that is no integer comes as null. -/
def pingPayload (l : PingLine) : PingPayload where
  time := T.toJsonb l.row.time
  id := toString l.row.id
  value := match l.value with
    | some (.int value) => some value
    | _ => none

def historyPage (page : Page PingLine) : HistoryPage where
  records := normalizePingRecords T (page.data.map (pingPayload T))
  has_more := page.hasMore
  next_cursor_key := page.nextCursorKey
  next_cursor := page.nextCursor.map T.toJsonb

/-- The server that answers from a table; the first page may fail. -/
def tableServer (batchFails : Bool) : PingHistoryServer where
  batch cursor :=
    if batchFails then none
    else (T.timestamptz cursor).map fun cursorTime taskId limit =>
      (cfmPingRecordsForTask rows client taskId limit cursorTime).map (pingPayload T)
  page taskId limit _ cursor :=
    (cfmPingRecordsCursor T rows client taskId (some cursor) (some limit)).map (historyPage T)

end Server

end CfMonitor.Records
