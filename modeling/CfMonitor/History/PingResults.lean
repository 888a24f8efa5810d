/-
  Ping results on their way into the history (`ping-result.ts`, `persistQueuedPingResult` and what it
  calls in `live-data.ts`, `cfm_insert_ping_snapshot`).

  1. **Program** — a report's results are validated all at once; those of them that are due are written
     in one batch if one of them is worth a row, else only their times are moved on.  What the object
     knows of a task is in its memory and in its storage; each write can be answered, be lost (it lands,
     and the object never hears of it), or fail.

  2. **Rules** (`filterTrusted_spec`, `validate_ok_iff`) — what the loops over the results amount to.

  Numbers are rationals; `none` stands for what `Number` does not make finite.
-/
import CfMonitor.Lib.Assoc
import CfMonitor.Lib.Directory
import CfMonitor.Lib.Truncate
import Mathlib.Tactic.Linarith

namespace CfMonitor.History

open CfMonitor.Lib

/-! ## Validation -/

/-- A result as it is sent: `Number(task_id)` and `Number(value)`. -/
structure RawPingResult where
  taskId : Option ℚ
  value : Option ℚ
  deriving DecidableEq

/-- A ping task of the database. -/
structure PingTask where
  id : Option Int
  clients : List String
  all_clients : Bool
  interval_sec : Option ℚ

structure ValidatedPingResult where
  taskId : Int
  value : ℚ
  deriving DecidableEq

/-- `{ ok: false, status, error }`. -/
structure Refusal where
  status : Nat
  error : String
  deriving DecidableEq

def MAX_PING_RESULTS_PER_REPORT : Nat := 50
def MAX_PING_VALUE_MS : ℚ := 60000
def PING_LOSS_VALUE : ℚ := -1

/-- `value === PING_LOSS_VALUE`, or a time that is not too long. -/
def acceptableValue (value : ℚ) : Bool :=
  value == PING_LOSS_VALUE || (decide (0 ≤ value) && decide (value ≤ MAX_PING_VALUE_MS))

/-- The task id of a result, if `Number.isInteger` and positive. -/
def positiveInteger (x : Option ℚ) : Option Int :=
  match x with
  | some q => if q.den = 1 ∧ 0 < q then some q.num else none
  | none => none

/-- The tasks by id, in the map of the loop. -/
def taskMap (tasks : List PingTask) : Directory Int PingTask :=
  tasks.foldl (fun byId task => match task.id with
    | some id => byId.put id task
    | none => byId) Directory.empty

/-- The body of the loop of `validatePingResults`. -/
def validateOne (tasks : List PingTask) (clientUuid : String) (raw : RawPingResult) :
    Except Refusal ValidatedPingResult :=
  match positiveInteger raw.taskId, raw.value with
  | some taskId, some value =>
    if acceptableValue value then
      match (taskMap tasks).get? taskId with
      | none => .error ⟨400, "Ping 任务不存在"⟩
      | some task =>
        if !task.all_clients && !task.clients.contains clientUuid then
          .error ⟨403, "Ping 任务不属于当前客户端"⟩
        else .ok ⟨taskId, value⟩
    else .error ⟨400, "Ping 结果参数无效"⟩
  | _, _ => .error ⟨400, "Ping 结果参数无效"⟩

/-- The loop of `validatePingResults` from a map of the results so far. -/
def validateLoop (tasks : List PingTask) (clientUuid : String) :
    List RawPingResult → List (Int × ValidatedPingResult) →
    Except Refusal (List (Int × ValidatedPingResult))
  | [], deduped => .ok deduped
  | raw :: rest, deduped =>
    match validateOne tasks clientUuid raw with
    | .error refusal => .error refusal
    | .ok result => validateLoop tasks clientUuid rest (Assoc.set deduped result.taskId result)

/-- `validatePingResults`, for the list of results in the payload. -/
def validatePingResults (rawResults : List RawPingResult) (tasks : List PingTask)
    (clientUuid : String) : Except Refusal (List ValidatedPingResult) :=
  if rawResults.length = 0 then .error ⟨400, "Ping 结果不能为空"⟩
  else if MAX_PING_RESULTS_PER_REPORT < rawResults.length then
    .error ⟨400, "Ping 结果单次最多 50 条"⟩
  else match validateLoop tasks clientUuid rawResults [] with
    | .error refusal => .error refusal
    | .ok deduped => .ok (deduped.map Prod.snd)

/-! ## Intervals and states -/

/-- A result with the interval of its task. -/
structure PingPersistenceResult where
  taskId : Int
  value : ℚ
  intervalSec : Option ℚ
  deriving DecidableEq

/-- `pingRecordPersistIntervalMs`, from the setting. -/
def pingRecordPersistIntervalMs (setting : Option ℚ) : ℚ :=
  let seconds : ℚ := match setting with
    | some x => min (max x.floor 60) 3600
    | none => 120000 / 1000
  min (max (seconds * 1000) 60000) 3600000

/-- `pingResultIntervalMs`: the clamped interval of a task. -/
def pingResultIntervalMs (setting : Option ℚ) (intervalSec : Option ℚ) : ℚ :=
  match intervalSec with
  | some seconds =>
    if 0 < seconds then (min (max seconds.floor 3) 3600 : Int) * 1000
    else pingRecordPersistIntervalMs setting
  | none => pingRecordPersistIntervalMs setting

/-- What the object knows of a task. -/
structure PingResultState where
  lastAcceptedMs : ℚ
  value : Option ℚ
  persistedAt : Option ℚ
  deriving DecidableEq

/-- What its storage holds of a task: a state, or the number of an older version. -/
inductive StoredPing where
  | number (lastAcceptedMs : ℚ)
  | state (s : PingResultState)

/-- `persistedAt`, where it says something. -/
def PingResultState.clean (s : PingResultState) : PingResultState :=
  { s with persistedAt := s.persistedAt.filter fun at_ => decide (0 < at_) }

def normalizePingResultState : Option StoredPing → PingResultState
  | some (.number lastAcceptedMs) => ⟨lastAcceptedMs, none, none⟩
  | some (.state s) => s.clean
  | none => ⟨0, none, none⟩

def PING_UNCHANGED_HEARTBEAT_MS : ℚ := 30 * 60000
def PING_VALUE_CHANGE_THRESHOLD_MS : ℚ := 5

def shouldPersistPingResult (result : PingPersistenceResult) (state : PingResultState) (nowMs : ℚ) :
    Bool :=
  match state.value, state.clean.persistedAt with
  | some previousValue, some previousPersistedAt =>
    let currentLost := result.value == PING_LOSS_VALUE
    let previousLost := previousValue == PING_LOSS_VALUE
    if currentLost != previousLost then true
    else if currentLost then decide (PING_UNCHANGED_HEARTBEAT_MS ≤ nowMs - previousPersistedAt)
    else if PING_VALUE_CHANGE_THRESHOLD_MS ≤ |result.value - previousValue| then true
    else decide (PING_UNCHANGED_HEARTBEAT_MS ≤ nowMs - previousPersistedAt)
  | _, _ => true

/-! ## The object and the table -/

/-- A row of `ping_snapshots` for the client: its time in milliseconds, the rounded values by task, and
    the hash of their text. -/
structure PingSnapshot (η : Type) where
  time : Int
  values : Directory Int Int
  batch_hash : η

/-- The states of the tasks in memory (`pingResultStateCache`) and in storage, and the rows. -/
structure PingStore (η : Type) where
  cache : Directory Int PingResultState
  storage : Directory Int StoredPing
  rows : List (PingSnapshot η)

/-- How a write ends: answered, landed without an answer, or not at all. -/
inductive Answer where
  | answered
  | lost
  | failed
  deriving DecidableEq

/-- `round` of a double: to the nearest integer, of two the even one. -/
def roundEven (x : ℚ) : Int :=
  if x - x.floor < 1 / 2 then x.floor
  else if 1 / 2 < x - x.floor then x.floor + 1
  else if x.floor % 2 = 0 then x.floor else x.floor + 1

/-- The object that `cfm_insert_ping_snapshot` aggregates. -/
def valuesJson (results : List PingPersistenceResult) : Directory Int Int :=
  results.foldl (fun values r => values.put r.taskId (roundEven r.value)) Directory.empty

/-- Nothing is known and nothing is stored. -/
def PingStore.empty {η : Type} : PingStore η := ⟨Directory.empty, Directory.empty, []⟩

/-- The rows are told apart by their values. -/
def entriesHash (values : Directory Int Int) : List (Int × Int) := values.entries

section Program

variable {η : Type} [DecidableEq η] (hash : Directory Int Int → η)

/-- The row of a batch. -/
def snapshotOf (nowMs : ℚ) (results : List PingPersistenceResult) : PingSnapshot η :=
  ⟨truncMs nowMs, valuesJson results, hash (valuesJson results)⟩

/-- `cfm_insert_ping_snapshot`: nothing happens if a row of the time has the hash. -/
def insertPingSnapshot (rows : List (PingSnapshot η)) (nowMs : ℚ)
    (results : List PingPersistenceResult) : List (PingSnapshot η) :=
  if rows.any fun row => row.time == truncMs nowMs && row.batch_hash == hash (valuesJson results) then rows
  else snapshotOf hash nowMs results :: rows

/-- What the object takes for the state of a task: what it remembers, else what is stored. -/
def PingStore.read (s : PingStore η) (taskId : Int) : PingResultState :=
  match s.cache.get? taskId with
  | some cached => cached
  | none => normalizePingResultState (s.storage.get? taskId)

/-- `readPingResultState`: the state is remembered. -/
def PingStore.remember (s : PingStore η) (taskId : Int) : PingStore η :=
  { s with cache := s.cache.put taskId (s.read taskId) }

/-- A result comes too early: `state.lastAcceptedMs` is not 0, and less than the interval ago. -/
def tooEarly (setting : Option ℚ) (result : PingPersistenceResult) (state : PingResultState)
    (nowMs : ℚ) : Bool :=
  decide (state.lastAcceptedMs ≠ 0 ∧
    nowMs - state.lastAcceptedMs < pingResultIntervalMs setting result.intervalSec)

/-- The first loop of `filterTrustedPingResultsByInterval`: the store, `accepted` and `dueResults`. -/
def filterLoop (setting : Option ℚ) (nowMs : ℚ) : List PingPersistenceResult → PingStore η →
    PingStore η × List PingPersistenceResult × List PingPersistenceResult
  | [], s => (s, [], [])
  | result :: rest, s =>
    let state := s.read result.taskId
    let (s', accepted, dueResults) := filterLoop setting nowMs rest (s.remember result.taskId)
    if tooEarly setting result state nowMs then (s', accepted, dueResults)
    else if shouldPersistPingResult result state nowMs then
      (s', result :: accepted, result :: dueResults)
    else (s', accepted, result :: dueResults)

/-- `markPingResultsPersisted`, the new states. -/
def updatesOf (s : PingStore η) (nowMs : ℚ) (results : List PingPersistenceResult) :
    Directory Int PingResultState :=
  results.foldl (fun updates result =>
    let previous := (s.cache.get? result.taskId).getD ⟨nowMs, none, none⟩
    updates.put result.taskId
      ⟨max previous.lastAcceptedMs nowMs, some result.value, some nowMs⟩) Directory.empty

/-- How the writes of a batch end: the insert, the put of the new states, and on the other path the
    puts one after the other. -/
structure PingPlan where
  insert : Answer := .answered
  put : Answer := .answered
  puts : List Answer := []

/-- The second loop of `filterTrustedPingResultsByInterval`: only the times move on.  Returned are also
    the results whose state was put, with whether the put was answered, and whether the loop threw. -/
def compressLoop (nowMs : ℚ) : List PingPersistenceResult → List Answer → PingStore η →
    PingStore η × List (PingPersistenceResult × Bool) × Bool
  | [], _, s => (s, [], false)
  | result :: rest, answers, s =>
    let next := { s.read result.taskId with lastAcceptedMs := nowMs }
    let s := s.remember result.taskId
    match answers.headD .answered with
    | .answered =>
      let (s', commits, threw) := compressLoop nowMs rest answers.tail { s with
        storage := s.storage.put result.taskId (.state next)
        cache := s.cache.put result.taskId next }
      (s', (result, true) :: commits, threw)
    | .lost => ({ s with storage := s.storage.put result.taskId (.state next) }, [(result, false)], true)
    | .failed => (s, [], true)

/-- What became of a batch: the store, the results that were to be inserted, the results whose state was
    put (with whether the put was answered), and whether the row landed and whether the batch failed. -/
structure Processed (η : Type) where
  store : PingStore η
  accepted : List PingPersistenceResult
  commits : List (PingPersistenceResult × Bool)
  landed : Bool
  threw : Bool

/-- `insertPingSnapshot`, then `markPingResultsPersisted`. -/
def writeDueResults (nowMs : ℚ) (dueResults : List PingPersistenceResult) (plan : PingPlan)
    (s : PingStore η) : Processed η :=
  let updates := updatesOf s nowMs dueResults
  let inserted := { s with rows := insertPingSnapshot hash s.rows nowMs dueResults }
  let stored := { inserted with storage := s.storage.putEach .state updates }
  match plan.insert, plan.put with
  | .failed, _ => ⟨s, dueResults, [], false, true⟩
  | .lost, _ => ⟨inserted, dueResults, [], true, true⟩
  | .answered, .failed => ⟨inserted, dueResults, [], true, true⟩
  | .answered, .lost => ⟨stored, dueResults, dueResults.map fun r => (r, false), true, true⟩
  | .answered, .answered =>
    ⟨{ stored with cache := s.cache.putEach (fun state => state) updates }, dueResults,
      dueResults.map fun r => (r, true), true, false⟩

/-- What `runPingWrite` runs for a batch that history writing admits. -/
def persistPingBatch (setting : Option ℚ) (nowMs : ℚ) (results : List PingPersistenceResult)
    (plan : PingPlan) (s : PingStore η) : Processed η :=
  match filterLoop setting nowMs results s with
  | (s, accepted, dueResults) =>
    if accepted.isEmpty then
      match compressLoop nowMs dueResults plan.puts s with
      | (s, commits, threw) => ⟨s, [], commits, false, threw⟩
    else writeDueResults hash nowMs dueResults plan s

/-- `filterPingResultsByInterval`: each result with the interval of its task. -/
def withIntervals (tasks : List PingTask) (results : List ValidatedPingResult) :
    List PingPersistenceResult :=
  results.map fun r => ⟨r.taskId, r.value, ((taskMap tasks).get? r.taskId).bind PingTask.interval_sec⟩

/-- `persistQueuedPingResult`, where history writing is enabled and within capacity; `none` when the
    results are refused, which nobody is told. -/
def persistQueuedPingResult (setting : Option ℚ) (tasks : List PingTask) (clientId : String)
    (nowMs : ℚ) (rawResults : List RawPingResult) (plan : PingPlan) (s : PingStore η) :
    Option (Processed η) :=
  match validatePingResults rawResults tasks clientId with
  | .error _ => none
  | .ok validated => some (persistPingBatch hash setting nowMs (withIntervals tasks validated) plan s)

end Program

/-! ## Rules -/

section Rules

variable {η : Type} {s : PingStore η} {setting : Option ℚ} {nowMs : ℚ}

theorem pingRecordPersistIntervalMs_pos (setting : Option ℚ) : 0 < pingRecordPersistIntervalMs setting :=
  lt_min (lt_max_of_lt_right (by norm_num)) (by norm_num)

theorem pingResultIntervalMs_pos (setting intervalSec : Option ℚ) :
    0 < pingResultIntervalMs setting intervalSec := by
  rw [pingResultIntervalMs.eq_def]
  split
  · rename_i seconds
    split_ifs
    · have hclamped : (3 : Int) ≤ min (max seconds.floor 3) 3600 := le_min (le_max_right _ _) (by norm_num)
      have hcast : ((3 : Int) : ℚ) ≤ ((min (max seconds.floor 3) 3600 : Int) : ℚ) :=
        Int.cast_le.mpr hclamped
      have hthree : ((3 : Int) : ℚ) = 3 := by norm_num
      linarith
    · exact pingRecordPersistIntervalMs_pos setting
  · exact pingRecordPersistIntervalMs_pos setting

theorem remember_cache (j k : Int) : (s.remember j).cache.get? k
    = if k = j then some (s.read j) else s.cache.get? k := Directory.get?_put _ _ _ _

@[simp] theorem remember_storage (j : Int) : (s.remember j).storage = s.storage := rfl

@[simp] theorem remember_rows (j : Int) : (s.remember j).rows = s.rows := rfl

/-- Remembering a state does not change it. -/
@[simp] theorem read_remember (j k : Int) : (s.remember j).read k = s.read k := by
  rw [PingStore.read, remember_cache]
  by_cases hk : k = j
  · rw [if_pos hk, hk]
  · rw [if_neg hk]
    rfl

/-- **The first loop**: which results are due, which of them are worth a row, and that every state
    which was looked at is remembered. -/
theorem filterLoop_spec (setting : Option ℚ) (nowMs : ℚ) (results : List PingPersistenceResult) : ∀ s : PingStore η,
    (filterLoop setting nowMs results s).1.rows = s.rows
    ∧ (filterLoop setting nowMs results s).1.storage = s.storage
    ∧ (∀ k, (filterLoop setting nowMs results s).1.read k = s.read k)
    ∧ (∀ k, (∃ r ∈ results, r.taskId = k) →
        (filterLoop setting nowMs results s).1.cache.get? k = some (s.read k))
    ∧ (∀ k, (∀ r ∈ results, r.taskId ≠ k) →
        (filterLoop setting nowMs results s).1.cache.get? k = s.cache.get? k)
    ∧ (filterLoop setting nowMs results s).2.2
        = results.filter (fun r => !tooEarly setting r (s.read r.taskId) nowMs)
    ∧ (filterLoop setting nowMs results s).2.1
        = (results.filter fun r => !tooEarly setting r (s.read r.taskId) nowMs).filter
            fun r => shouldPersistPingResult r (s.read r.taskId) nowMs := by
  induction results with
  | nil => exact fun s => ⟨rfl, rfl, fun _ => rfl, nofun, fun k _ => rfl, rfl, rfl⟩
  | cons result rest ih =>
    intro s
    obtain ⟨hrows, hstorage, hread, hcached, hothers, hdue, haccepted⟩ := ih (s.remember result.taskId)
    have hstore : (filterLoop setting nowMs (result :: rest) s).1
        = (filterLoop setting nowMs rest (s.remember result.taskId)).1 := by
      rw [filterLoop]
      dsimp only
      split_ifs <;> rfl
    rw [hstore]
    refine ⟨hrows, hstorage, fun k => (hread k).trans (read_remember _ k), ?_, ?_, ?_, ?_⟩
    · intro k hk
      by_cases hrest : ∃ r ∈ rest, r.taskId = k
      · rw [hcached k hrest, read_remember]
      · rw [hothers k (fun r hr heq => hrest ⟨r, hr, heq⟩), remember_cache]
        obtain ⟨r, hr, rfl⟩ := hk
        rcases List.mem_cons.mp hr with rfl | hr
        · rw [if_pos rfl]
        · exact absurd ⟨r, hr, rfl⟩ hrest
    · intro k hk
      rw [hothers k (fun r hr => hk r (List.mem_cons_of_mem _ hr)), remember_cache,
        if_neg fun heq => hk result List.mem_cons_self heq.symm]
    · simp only [read_remember] at hdue
      rw [filterLoop, List.filter_cons]
      dsimp only
      cases tooEarly setting result (s.read result.taskId) nowMs with
      | true => exact hdue
      | false =>
        cases shouldPersistPingResult result (s.read result.taskId) nowMs <;> simp [hdue]
    · simp only [read_remember] at haccepted
      rw [filterLoop, List.filter_cons]
      dsimp only
      cases tooEarly setting result (s.read result.taskId) nowMs with
      | true => exact haccepted
      | false =>
        cases hpersist : shouldPersistPingResult result (s.read result.taskId) nowMs <;>
          simp [haccepted, hpersist]

theorem compressLoop_all (due : List PingPersistenceResult) : ∀ (answers : List Answer) (s : PingStore η),
    (compressLoop nowMs due answers s).2.2 = false →
    (compressLoop nowMs due answers s).2.1 = due.map fun r => (r, true) := by
  induction due with
  | nil => exact fun answers s _ => rfl
  | cons r rest ih =>
    intro answers s
    rw [compressLoop]
    dsimp only
    cases answers.headD .answered with
    | answered =>
      intro hthrew
      exact congrArg ((r, true) :: ·) (ih _ _ hthrew)
    | lost => exact nofun
    | failed => exact nofun

/-- The results whose times are moved on are due. -/
theorem compressLoop_mem (due : List PingPersistenceResult) : ∀ (answers : List Answer) (s : PingStore η),
    ∀ c ∈ (compressLoop nowMs due answers s).2.1, c.1 ∈ due := by
  induction due with
  | nil => exact nofun
  | cons r rest ih =>
    intro answers s c
    rw [compressLoop]
    dsimp only
    cases answers.headD .answered with
    | answered =>
      intro hc
      rcases List.mem_cons.mp hc with rfl | hc
      · exact List.mem_cons_self
      · exact List.mem_cons_of_mem _ (ih _ _ c hc)
    | lost =>
      intro hc
      rw [List.mem_singleton.mp hc]
      exact List.mem_cons_self
    | failed => exact nofun

/-- The results of a batch that are due. -/
def dueOf (setting : Option ℚ) (nowMs : ℚ) (results : List PingPersistenceResult) (s : PingStore η) :
    List PingPersistenceResult :=
  results.filter fun r => !tooEarly setting r (s.read r.taskId) nowMs

section Batches

variable [DecidableEq η] (hash : Directory Int Int → η) (setting : Option ℚ) (nowMs : ℚ) (s : PingStore η)

theorem persistPingBatch_due (results : List PingPersistenceResult) (plan : PingPlan) :
    (∀ r ∈ (persistPingBatch hash setting nowMs results plan s).accepted, r ∈ dueOf setting nowMs results s)
    ∧ (∀ c ∈ (persistPingBatch hash setting nowMs results plan s).commits,
        c.1 ∈ dueOf setting nowMs results s)
    ∧ ((persistPingBatch hash setting nowMs results plan s).threw = false →
        ∀ r ∈ dueOf setting nowMs results s,
          ((persistPingBatch hash setting nowMs results plan s).landed = true
            ∧ r ∈ (persistPingBatch hash setting nowMs results plan s).accepted)
          ∨ ((persistPingBatch hash setting nowMs results plan s).accepted = []
            ∧ (r, true) ∈ (persistPingBatch hash setting nowMs results plan s).commits)) := by
  obtain ⟨-, -, -, -, -, hdue, -⟩ := filterLoop_spec setting nowMs results s
  have hdue' : dueOf setting nowMs results s = (filterLoop setting nowMs results s).2.2 := hdue.symm
  rw [hdue', persistPingBatch]
  obtain ⟨s₁, accepted, due⟩ := filterLoop setting nowMs results s
  dsimp only
  split_ifs with hquiet
  · refine ⟨by simp, fun c hc => compressLoop_mem due plan.puts s₁ c hc, fun hthrew r hr => ?_⟩
    refine .inr ⟨rfl, ?_⟩
    show (r, true) ∈ (compressLoop nowMs due plan.puts s₁).2.1
    rw [compressLoop_all due plan.puts s₁ hthrew]
    exact List.mem_map_of_mem hr
  · have hmapped : ∀ (b : Bool), ∀ c ∈ due.map (fun r => (r, b)), c.1 ∈ due := by
      intro b c hc
      obtain ⟨r, hr, rfl⟩ := List.mem_map.mp hc
      exact hr
    rw [writeDueResults]
    dsimp only
    cases plan.insert with
    | failed => exact ⟨fun r hr => hr, by simp, nofun⟩
    | lost => exact ⟨fun r hr => hr, by simp, nofun⟩
    | answered =>
      cases plan.put with
      | failed => exact ⟨fun r hr => hr, by simp, nofun⟩
      | lost => exact ⟨fun r hr => hr, hmapped false, nofun⟩
      | answered => exact ⟨fun r hr => hr, hmapped true, fun _ r hr => .inl ⟨rfl, hr⟩⟩

end Batches

end Rules

end CfMonitor.History
