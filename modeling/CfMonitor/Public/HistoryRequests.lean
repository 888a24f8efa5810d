/-
  The parameters of the public history routes (`public.ts`).

  A history route reads its parameters, asks whether the node is visible, and then reads the history of
  the node.  What it does with its parameters depends on the request alone.

  1. **Parameters** — `readIntParam`, `readIntListParam`, `readPingTaskHistorySpecs`,
     `readPublicHistoryPageParams`, `wantsPagedResponse`, `validatePublicTimeRange`.

  2. **Routes** (`historyRoute`) — what each route answers for a node that is not visible, and what it
     reads for one that is.
-/
import CfMonitor.Records.CursorPages

namespace CfMonitor.Public

open CfMonitor.Lib
open CfMonitor.Records (TimeText readTimeCursorParam)

/-! ## Parameters -/

/-- The value of a digit. -/
def digitValue (c : Char) : Option Nat :=
  if c.isDigit then some (c.toNat - '0'.toNat)
  else if 'a' ≤ c ∧ c ≤ 'z' then some (c.toNat - 'a'.toNat + 10)
  else if 'A' ≤ c ∧ c ≤ 'Z' then some (c.toNat - 'A'.toNat + 10)
  else none

/-- The digits at the start of a text, most significant first. -/
def leadingDigits (base : Nat) : List Char → List Nat
  | [] => []
  | c :: rest =>
    match (digitValue c).filter (· < base) with
    | none => []
    | some d => d :: leadingDigits base rest

/-- `Number.parseInt(text, radix)` where it is finite. -/
def parseInt (radix : Option Nat) (text : String) : Option Int :=
  let (negative, unsigned) := match text.toList.dropWhile isTrimmed with
    | '-' :: rest => (true, rest)
    | '+' :: rest => (false, rest)
    | rest => (false, rest)
  let (base, numeral) := match radix, unsigned with
    | none, '0' :: 'x' :: rest | none, '0' :: 'X' :: rest => (16, rest)
    | _, rest => (radix.getD 10, rest)
  let digits := leadingDigits base numeral
  let value := digits.foldl (fun value d => value * base + d) 0
  -- what is no double any more becomes infinite
  if digits = [] ∨ 2 ^ 1024 - 2 ^ 970 ≤ value then none
  else some (if negative then -(value : Int) else value)

/-- The parameters of a request, in the order of its query string. -/
abbrev Query := List (String × String)

def readIntParam (value : Option String) (fallback max : Int) : Int :=
  match parseInt (some 10) (value.getD "") with
  | none => fallback
  | some parsed => if parsed ≤ 0 then fallback else min parsed max

/-- `value.split(',')`. -/
def splitBy (separator : Char) (text : String) : List String :=
  (text.toList.splitOn separator).map String.ofList

def readIntListParam (value : Option String) (maxItems : Nat) : List Int :=
  if value.getD "" = "" then []
  else
    let parsed := (splitBy ',' (value.getD "")).filterMap fun item => parseInt (some 10) (trim item)
    ((parsed.filter fun item => decide (0 < item)).eraseDups).take maxItems

/-- `PingTaskHistoryRequest`. -/
structure PingTaskHistoryRequest where
  taskId : Int
  limit : Int
  intervalSec : Int

/-- The specs in order; a task that was seen, or has no id, is skipped. -/
def pingTaskSpecs : List String → List Int → Nat → List PingTaskHistoryRequest
  | [], _, _ => []
  | _, _, 0 => []
  | rawSpec :: rest, seen, left + 1 =>
    let parts := splitBy ':' rawSpec
    match parseInt (some 10) (parts[0]?.getD "") with
    | none => pingTaskSpecs rest seen (left + 1)
    | some taskId =>
      if taskId ≤ 0 ∨ taskId ∈ seen then pingTaskSpecs rest seen (left + 1)
      else
        ⟨taskId, readIntParam parts[1]? 120 360, readIntParam parts[2]? 60 86400⟩ ::
          pingTaskSpecs rest (taskId :: seen) left

def readPingTaskHistorySpecs (value : Option String) (maxItems : Nat) : List PingTaskHistoryRequest :=
  if value.getD "" = "" then [] else pingTaskSpecs (splitBy ',' (value.getD "")) [] maxItems

def PUBLIC_HISTORY_MAX_PAGE : Int := 1000
def PUBLIC_HISTORY_MAX_OFFSET_ROWS : Int := 5000

/-- Three days and a minute, in milliseconds. -/
def MAX_PUBLIC_RECORD_RANGE_MS : Int := 3 * 24 * 60 * 60 * 1000
def PUBLIC_RECORD_RANGE_SLOP_MS : Int := 60 * 1000

/-- The page and the limit, unless the page is too deep. -/
def readPublicHistoryPageParams (query : Query) (defaultLimit maxLimit : Int) : Except String (Int × Int) :=
  let page := readIntParam (Assoc.get? query "page") 1 PUBLIC_HISTORY_MAX_PAGE
  let limit := readIntParam (Assoc.get? query "limit") defaultLimit maxLimit
  if (page - 1) * limit > PUBLIC_HISTORY_MAX_OFFSET_ROWS then
    .error "公开历史 page 查询过深，请使用 cursor 分页"
  else .ok (page, limit)

def wantsPagedResponse (query : Query) : Bool :=
  decide (Assoc.get? query "paged" = some "true") || (Assoc.get? query "page").isSome ||
    (Assoc.get? query "cursor").isSome

/-- A page of a list. -/
def pageResult (data : List Json) (total page limit : Int) : Json :=
  .obj [("data", .arr data), ("total", .int total), ("page", .int page), ("limit", .int limit),
    ("has_more", .bool false)]

def emptyPagedResult (page limit : Int) : Json := pageResult [] 0 page limit

/-- Why a range is refused. -/
def validatePublicTimeRange (T : TimeText) (start stop : String) : Option String :=
  match T.dateParse start, T.dateParse stop with
  | some startMs, some endMs =>
    if endMs < startMs then some "结束时间不能早于开始时间"
    else if endMs - startMs > MAX_PUBLIC_RECORD_RANGE_MS + PUBLIC_RECORD_RANGE_SLOP_MS then
      some "公开历史查询最多支持 3 天时间范围"
    else none
  | _, _ => some "时间范围格式无效"

/-! ## Routes -/

/-- A read of the history of one node. -/
inductive HistoryCall where
  | recentRecords (client : String) (limit : Int)
  | recordsByTimeRangeLimited (client start stop : String) (limit : Int)
  | recordsByTimeRangePaged (client start stop : String) (page limit : Int)
  | recordsByTimeRangeCursor (client start stop cursor : String) (limit : Int)
  | gpuRecords (client : String) (start stop : Option String) (limit : Int)
  | gpuRecordsPaged (client : String) (start stop : Option String) (page limit : Int)
  | gpuRecordsCursor (client : String) (start stop : Option String) (cursor : String) (limit : Int)
  | pingRecords (client : String) (taskId limit : Int)
  | pingRecordsPaged (client : String) (taskId page limit : Int)
  | pingRecordsCursor (client : String) (taskId : Int) (cursor : String) (limit : Int)
  | pingRecordsForSpecs (client : String) (specs : List PingTaskHistoryRequest) (limit : Int)
      (cursor : Option String)
  | pingRecordsForTasks (client : String) (taskIds : List Int) (limit : Int) (cursor : Option String)

/-- The node whose history is read. -/
def HistoryCall.client : HistoryCall → String
  | .recentRecords client _ | .recordsByTimeRangeLimited client _ _ _
  | .recordsByTimeRangePaged client _ _ _ _ | .recordsByTimeRangeCursor client _ _ _ _
  | .gpuRecords client _ _ _ | .gpuRecordsPaged client _ _ _ _ | .gpuRecordsCursor client _ _ _ _
  | .pingRecords client _ _ | .pingRecordsPaged client _ _ _ | .pingRecordsCursor client _ _ _
  | .pingRecordsForSpecs client _ _ _ | .pingRecordsForTasks client _ _ _ => client

/-- What a route makes of what it reads. -/
inductive HistoryRead where
  | plain (call : HistoryCall)
  /-- The records as the only page. -/
  | asPage (call : HistoryCall)

def HistoryRead.call : HistoryRead → HistoryCall
  | .plain call | .asPage call => call

/-- The value of a read. -/
def HistoryRead.value (records : HistoryCall → Json) : HistoryRead → Json
  | .plain call => records call
  | .asPage call =>
    match records call with
    | .arr rows => pageResult rows rows.length 1 rows.length
    | other => other

/-- The history routes. -/
inductive HistoryRouteName where
  | recent (uuid : String)
  | load
  | gpu
  | ping
  | pingBatch

/-- What a route does with a request that it accepts. -/
structure HistoryRoute where
  bucket : String
  uuid : String
  /-- The answer for a node that is not visible. -/
  invisible : Except String Json
  /-- What is read of a node that is. -/
  visible : Except String HistoryRead

/-- A parameter that is there and not empty. -/
def given (query : Query) (name : String) : Option String :=
  (Assoc.get? query name).filter fun value => decide (value ≠ "")

/-- An empty list, or an empty page of it. -/
def emptyHistory (query : Query) (defaultLimit maxLimit : Int) : Except String Json :=
  if wantsPagedResponse query then
    (readPublicHistoryPageParams query defaultLimit maxLimit).map fun params =>
      emptyPagedResult params.1 params.2
  else .ok (.arr [])

/-- The page that a request asks for: after its cursor, or by its number. -/
def pagedRead (T : TimeText) (query : Query) (defaultLimit maxLimit : Int)
    (afterCursor : String → HistoryCall) (numbered : Int → Int → HistoryCall) : Except String HistoryRead :=
  match readTimeCursorParam T (Assoc.get? query "cursor") true with
  | .error error => .error error
  | .ok (some cursor) => .ok (.plain (afterCursor cursor))
  | .ok none =>
    (readPublicHistoryPageParams query defaultLimit maxLimit).map fun params =>
      .plain (numbered params.1 params.2)

section Routes

variable (T : TimeText)

def recentRoute (uuid : String) (query : Query) : HistoryRoute where
  bucket := "recent"
  uuid := uuid
  invisible := .ok (.arr [])
  visible := .ok (.plain (.recentRecords uuid (readIntParam (Assoc.get? query "limit") 30 150)))

/-- What the load route reads. -/
def loadRead (uuid : String) (query : Query) : Except String HistoryRead :=
  let limitQuery := Assoc.get? query "limit"
  match given query "start", given query "end" with
  | some start, some stop =>
    if wantsPagedResponse query then
      pagedRead T query 100 500
        (fun cursor => .recordsByTimeRangeCursor uuid start stop cursor (readIntParam limitQuery 100 500))
        (fun page limit => .recordsByTimeRangePaged uuid start stop page limit)
    else .ok (.plain (.recordsByTimeRangeLimited uuid start stop (readIntParam limitQuery 500 1000)))
  | _, _ =>
    let call := HistoryCall.recentRecords uuid (readIntParam limitQuery 150 500)
    .ok (if wantsPagedResponse query then .asPage call else .plain call)

/-- A range that is complete must be valid. -/
def rangeError (query : Query) : Option String :=
  match given query "start", given query "end" with
  | some start, some stop => validatePublicTimeRange T start stop
  | _, _ => none

def loadRoute (query : Query) : Except String HistoryRoute :=
  match given query "uuid" with
  | none => .error "缺少 uuid 参数"
  | some uuid =>
    match rangeError T query with
    | some error => .error error
    | none => .ok ⟨"records-load", uuid, emptyHistory query 100 500, loadRead T uuid query⟩

def gpuRoute (query : Query) : Except String HistoryRoute :=
  let limit := readIntParam (Assoc.get? query "limit") 100 500
  match given query "uuid" with
  | none => .error "缺少 uuid 参数"
  | some uuid =>
    match rangeError T query with
    | some error => .error error
    | none =>
      let start := Assoc.get? query "start"
      let stop := Assoc.get? query "end"
      .ok ⟨"records-gpu", uuid, emptyHistory query 100 500,
        if wantsPagedResponse query then
          pagedRead T query 100 500 (fun cursor => .gpuRecordsCursor uuid start stop cursor limit)
            (fun page limit => .gpuRecordsPaged uuid start stop page limit)
        else .ok (.plain (.gpuRecords uuid start stop limit))⟩

def pingRoute (query : Query) : Except String HistoryRoute :=
  -- no radix is given here, so that `0x` counts
  let taskId := parseInt none ((given query "task_id").getD "0")
  let limit := readIntParam (Assoc.get? query "limit") 120 360
  match given query "uuid", taskId.filter fun id => decide (id ≠ 0) with
  | some uuid, some taskId =>
    .ok ⟨"records-ping", uuid, emptyHistory query 120 360,
      if wantsPagedResponse query then
        pagedRead T query 120 360 (fun cursor => .pingRecordsCursor uuid taskId cursor limit)
          (fun page limit => .pingRecordsPaged uuid taskId page limit)
      else .ok (.plain (.pingRecords uuid taskId limit))⟩
  | _, _ => .error "缺少参数"

/-- The read of several tasks: by their specs if there are any. -/
def pingBatchCall (uuid : String) (taskSpecs : List PingTaskHistoryRequest) (taskIds : List Int)
    (limit : Int) (cursor : Option String) : HistoryCall :=
  if taskSpecs.isEmpty then .pingRecordsForTasks uuid taskIds limit cursor
  else .pingRecordsForSpecs uuid taskSpecs limit cursor

def pingBatchRoute (query : Query) : Except String HistoryRoute :=
  let taskSpecs := readPingTaskHistorySpecs (Assoc.get? query "task_specs") 16
  let taskIds := if taskSpecs.isEmpty then readIntListParam (Assoc.get? query "task_ids") 16
    else taskSpecs.map PingTaskHistoryRequest.taskId
  let limit := readIntParam (Assoc.get? query "limit") 120 360
  match readTimeCursorParam T (Assoc.get? query "cursor") false with
  | .error error => .error error
  | .ok cursor =>
    match given query "uuid" with
    | none => .error "缺少参数"
    | some uuid =>
      if taskIds.isEmpty then .error "缺少参数"
      else .ok ⟨"records-ping-batch", uuid, .ok (.obj []),
        .ok (.plain (pingBatchCall uuid taskSpecs taskIds limit cursor))⟩

/-- What a route makes of the parameters, or why it refuses them. -/
def historyRoute (name : HistoryRouteName) (query : Query) : Except String HistoryRoute :=
  match name with
  | .recent uuid => .ok (recentRoute uuid query)
  | .load => loadRoute T query
  | .gpu => gpuRoute T query
  | .ping => pingRoute T query
  | .pingBatch => pingBatchRoute T query

/-- The read stays with the node that the route asks about. -/
def HistoryRoute.Asks (route : HistoryRoute) : Prop :=
  ∀ read, route.visible = .ok read → read.call.client = route.uuid

variable {query : Query}

variable {uuid : String} {read : HistoryRead}

theorem pagedRead_asks {defaultLimit maxLimit : Int}
    {afterCursor : String → HistoryCall} {numbered : Int → Int → HistoryCall}
    (hcursor : ∀ cursor, (afterCursor cursor).client = uuid)
    (hnumbered : ∀ page limit, (numbered page limit).client = uuid)
    (h : pagedRead T query defaultLimit maxLimit afterCursor numbered = .ok read) :
    read.call.client = uuid := by
  rw [pagedRead] at h
  split at h
  · cases h
  · cases h
    exact hcursor _
  · cases hparams : readPublicHistoryPageParams query defaultLimit maxLimit with
    | error error =>
      rw [hparams] at h
      simp [Except.map] at h
    | ok params =>
      rw [hparams] at h
      cases h
      exact hnumbered _ _

theorem loadRead_asks (h : loadRead T uuid query = .ok read) : read.call.client = uuid := by
  rw [loadRead] at h
  dsimp only at h
  split at h
  · split at h
    · exact pagedRead_asks T (fun _ => rfl) (fun _ _ => rfl) h
    · cases h
      rfl
  · cases h
    split <;> rfl

theorem pingBatchCall_client (uuid : String) (taskSpecs : List PingTaskHistoryRequest) (taskIds : List Int)
    (limit : Int) (cursor : Option String) :
    (pingBatchCall uuid taskSpecs taskIds limit cursor).client = uuid := by
  rw [pingBatchCall]
  split <;> rfl

/-- **Every history route reads the history of the node it asks about**, and no other. -/
theorem historyRoute_asks {name : HistoryRouteName} {route : HistoryRoute}
    (h : historyRoute T name query = .ok route) : route.Asks := by
  intro read hread
  cases name with
  | recent uuid =>
    cases h
    cases hread
    rfl
  | load =>
    simp only [historyRoute, loadRoute] at h
    split at h
    · cases h
    · split at h
      · cases h
      · cases h
        exact loadRead_asks T hread
  | gpu =>
    simp only [historyRoute, gpuRoute] at h
    split at h
    · cases h
    · split at h
      · cases h
      · cases h
        dsimp only at hread
        split at hread
        · exact pagedRead_asks T (fun _ => rfl) (fun _ _ => rfl) hread
        · cases hread
          rfl
  | ping =>
    simp only [historyRoute, pingRoute] at h
    split at h
    · cases h
      dsimp only at hread
      split at hread
      · exact pagedRead_asks T (fun _ => rfl) (fun _ _ => rfl) hread
      · cases hread
        rfl
    · cases h
  | pingBatch =>
    simp only [historyRoute, pingBatchRoute] at h
    generalize (if (readPingTaskHistorySpecs (Assoc.get? query "task_specs") 16).isEmpty = true then _ else _)
      = taskIds at h
    split at h
    · cases h
    · split at h
      · cases h
      · split at h
        · cases h
        · cases h
          cases hread
          exact pingBatchCall_client _ _ _ _ _

end Routes

end CfMonitor.Public
