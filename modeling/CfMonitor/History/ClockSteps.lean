/-
  The history of a client whose clock steps back and forth.

  1. **Program** — `reportTimestamp`, `record-persist.ts`, and what `handleMessage` and
     `updateHttpClientReport` write of a single report: its ping results, then its record.  The settings
     are read again when the ones in memory are too old, by the clock of the report.

  2. **Specification** (`RecordGoesOn`, `PingGoesOn`) — the first report which the server receives an
     interval after the last one that was written is written.

  3. **Result** — when every due report is written (`history_goes_on_iff`).
-/
import Mathlib
import CfMonitor.History.PingAdmission
import CfMonitor.History.PingEffects
import CfMonitor.Lib.Machine

namespace CfMonitor.History

open CfMonitor.Lib

/-! ## Program -/

def RECORD_PERSIST_TOLERANCE_MAX_MS : ℚ := 5000
def RECORD_PERSIST_TOLERANCE_RATIO : ℚ := 5 / 100
def RECORD_SETTING_CACHE_MS : ℚ := 30000

def recordPersistToleranceMs (intervalMs : ℚ) : ℚ :=
  if intervalMs ≤ 0 then 0
  else min RECORD_PERSIST_TOLERANCE_MAX_MS (intervalMs * RECORD_PERSIST_TOLERANCE_RATIO).floor

def recordPersistThresholdMs (intervalMs : ℚ) : ℚ :=
  if intervalMs ≤ 0 then 0 else max 0 (intervalMs - recordPersistToleranceMs intervalMs)

def isRecordPersistDue (elapsedMs intervalMs : ℚ) : Bool :=
  decide (recordPersistThresholdMs intervalMs ≤ elapsedMs)

/-- `Number(...)` of the two settings; before they were read, the defaults are in force. -/
structure HistorySettings where
  record_persist_interval_sec : Option ℚ
  ping_record_persist_interval_sec : Option ℚ

/-- `recordPersistIntervalMs`, from the setting. -/
def recordPersistIntervalMs (setting : Option ℚ) : ℚ :=
  let seconds : ℚ := match setting with
    | some x => min (max x.floor 3) 3600
    | none => 120000 / 1000
  min (max (seconds * 1000) 3000) 3600000

/-- What the object and its storage know for the history of a client. -/
structure HistoryObject (η : Type) where
  settings : HistorySettings
  recordPersistenceCheckedAt : ℚ
  recordLastPersistAt : Option ℚ
  storedPersist : Option ℚ
  ping : PingStore η

/-- A single report: when the server received it and what its clock shows when the timestamp is judged,
    `Number(timestamp)`, `type`, and the ping results. -/
structure ReportMessage where
  receivedAt : ℕ
  clock : ℕ
  timestamp : Option ℚ
  type : Option String
  ping_results : List RawPingResult

def reportTimestamp (timestamp : Option ℚ) (now fallback : ℕ) : ℚ :=
  match timestamp with
  | none => fallback
  | some parsed => if parsed < 0 ∨ (now : ℚ) + 60000 < parsed then fallback else parsed

/-- The time under which the report is written. -/
def ReportMessage.reportTime (m : ReportMessage) : ℚ := reportTimestamp m.timestamp m.clock m.receivedAt

/-- What `persistReservedReport` takes for a report. -/
def ReportMessage.isReport (m : ReportMessage) : Bool :=
  !(m.type == some "ping" || m.type == some "pong" || m.type == some "ping_result")

/-- `isRecordPersistenceEnabled`, which here is always the case: what matters is which settings are in
    force afterwards. -/
def HistoryObject.isRecordPersistenceEnabled {η : Type} (o : HistoryObject η)
    (configured : HistorySettings) (now : ℚ) : HistoryObject η :=
  if now - o.recordPersistenceCheckedAt < RECORD_SETTING_CACHE_MS then o
  else { o with settings := configured, recordPersistenceCheckedAt := now }

/-- The time that `isPersistDue` counts from. -/
def HistoryObject.lastPersist {η : Type} (o : HistoryObject η) : ℚ :=
  match o.recordLastPersistAt with
  | some lastPersist => lastPersist
  | none => o.storedPersist.getD 0

/-- `isPersistDue`: the time is remembered. -/
def HistoryObject.isPersistDue {η : Type} (o : HistoryObject η) (now : ℚ) : HistoryObject η × Bool :=
  ({ o with recordLastPersistAt := some o.lastPersist },
    isRecordPersistDue (now - o.lastPersist) (recordPersistIntervalMs o.settings.record_persist_interval_sec))

def HistoryObject.markPersistSuccess {η : Type} (o : HistoryObject η) (now : ℚ) : HistoryObject η :=
  { o with storedPersist := some now, recordLastPersistAt := some now }

/-- `persistReport`, with the insert answered. -/
def HistoryObject.persistReport {η : Type} (o : HistoryObject η) (configured : HistorySettings)
    (m : ReportMessage) (nowMs : ℚ) : HistoryObject η × Bool :=
  if !m.isReport then (o, false)
  else
    let (o, due) := (o.isRecordPersistenceEnabled configured nowMs).isPersistDue nowMs
    if !due then (o, false) else (o.markPersistSuccess nowMs, true)

section Program

variable {η : Type} [DecidableEq η] (hash : Directory Int Int → η)

/-- `persistPingResultsFromReport`, with all writes answered; returned are also the tasks of the accepted
    results. -/
def HistoryObject.persistPingResults (o : HistoryObject η) (configured : HistorySettings)
    (tasks : List PingTask) (clientId : String) (results : List RawPingResult) (nowMs : ℚ) :
    HistoryObject η × List Int :=
  if results.isEmpty then (o, [])
  else
    let o := o.isRecordPersistenceEnabled configured nowMs
    match persistQueuedPingResult hash o.settings.ping_record_persist_interval_sec tasks clientId nowMs
        results {} o.ping with
    | none => (o, [])
    | some processed => ({ o with ping := processed.store }, processed.commits.map fun c => c.1.taskId)

/-- A single report: its ping results, then its record. -/
def HistoryObject.receive (o : HistoryObject η) (configured : HistorySettings) (tasks : List PingTask)
    (clientId : String) (m : ReportMessage) : HistoryObject η × List Int × Bool :=
  let (o, accepted) := o.persistPingResults hash configured tasks clientId m.ping_results m.reportTime
  let (o, persisted) := o.persistReport configured m m.reportTime
  (o, accepted, persisted)

end Program

/-! ## Runs -/

/-- When something was received, and the time under which it was written. -/
structure Receipt where
  receivedAt : ℕ
  time : ℚ

/-- What happens next: a report of the client; a reading of the settings for another one; or a new object
    on the same storage. -/
inductive ClockEvent where
  | message (m : ReportMessage)
  | settingsRead (now : ℚ)
  | coldStart

/-- The object; and (not read by the program) the last report that was written and when those after it
    were received, and for each task the same of its results. -/
structure ClockWorld (η : Type) where
  object : HistoryObject η
  persisted : Option Receipt
  skipped : List ℕ
  accepted : Int → Option Receipt
  passedOver : Int → List ℕ

/-- The report has a result of the task. -/
def ReportMessage.hasResult (m : ReportMessage) (taskId : Int) : Bool :=
  m.ping_results.any fun raw => positiveInteger raw.taskId == some taskId

section Runs

variable {η : Type} [DecidableEq η] (hash : Directory Int Int → η) (configured : HistorySettings)
  (tasks : List PingTask) (clientId : String)

/-- The world after a report. -/
def ClockWorld.after (w : ClockWorld η) (m : ReportMessage) : ClockWorld η :=
  let received := w.object.receive hash configured tasks clientId m
  let receipt : Receipt := ⟨m.receivedAt, m.reportTime⟩
  { object := received.1
    persisted := if received.2.2 then some receipt else w.persisted
    skipped := if received.2.2 then [] else if m.isReport then m.receivedAt :: w.skipped else w.skipped
    accepted := fun k => if received.2.1.contains k then some receipt else w.accepted k
    passedOver := fun k => if received.2.1.contains k then []
      else if m.hasResult k then m.receivedAt :: w.passedOver k else w.passedOver k }

def clockStep (w : ClockWorld η) : ClockEvent → Option (ClockWorld η)
  | .message m => some (w.after hash configured tasks clientId m)
  | .settingsRead now => some { w with object := w.object.isRecordPersistenceEnabled configured now }
  | .coldStart => some { w with object := { w.object with
      settings := ⟨none, none⟩
      recordPersistenceCheckedAt := 0
      recordLastPersistAt := none
      ping := w.object.ping.coldStart } }

def clockMachine : Machine (ClockWorld η) ClockEvent := ⟨clockStep hash configured tasks clientId⟩

/-- Nothing was received. -/
def ClockWorld.start : ClockWorld η :=
  ⟨⟨⟨none, none⟩, 0, none, none, PingStore.empty⟩, none, [], fun _ => none, fun _ => []⟩

end Runs

/-! ## Specification -/

/-- The first report that is received an interval after the last one which was written. -/
def FirstAfter (last : Receipt) (skipped : List ℕ) (intervalMs : ℚ) (receivedAt : ℕ) : Prop :=
  (∀ s ∈ skipped, (s : ℚ) < last.receivedAt + intervalMs) ∧ last.receivedAt + intervalMs ≤ receivedAt

section Specification

variable {η : Type} [DecidableEq η] (hash : Directory Int Int → η) (configured : HistorySettings)
  (tasks : List PingTask) (clientId : String)

/-- The clamped interval of a task. -/
def taskIntervalMs (settings : HistorySettings) (taskId : Int) : ℚ :=
  pingResultIntervalMs settings.ping_record_persist_interval_sec
    (((taskMap tasks).get? taskId).bind PingTask.interval_sec)

/-- The next report is written if it is the first one after the record interval. -/
def RecordGoesOn (w : ClockWorld η) (m : ReportMessage) : Prop :=
  m.isReport = true → ∀ last, w.persisted = some last →
    FirstAfter last w.skipped (recordPersistIntervalMs configured.record_persist_interval_sec) m.receivedAt →
    (w.object.receive hash configured tasks clientId m).2.2 = true

/-- The next result of a task is accepted if it is the first one after the interval of the task. -/
def PingGoesOn (w : ClockWorld η) (m : ReportMessage) (taskId : Int) : Prop :=
  m.hasResult taskId = true → ∀ last, w.accepted taskId = some last →
    FirstAfter last (w.passedOver taskId) (taskIntervalMs tasks configured taskId) m.receivedAt →
    taskId ∈ (w.object.receive hash configured tasks clientId m).2.1

/-- A step does not stop the history. -/
def GoesOn (w : ClockWorld η) : ClockEvent → Prop
  | .message m => RecordGoesOn hash configured tasks clientId w m ∧
      ∀ taskId, PingGoesOn hash configured tasks clientId w m taskId
  | _ => True

/-- The settings in force for a report. -/
def settingsInForce (w : ClockWorld η) (m : ReportMessage) : HistorySettings :=
  (w.object.isRecordPersistenceEnabled configured m.reportTime).settings

/-- The first report after the record interval comes late enough by its own time and that of the last
    one, under the settings in force. -/
def RecordDue (w : ClockWorld η) (m : ReportMessage) : Prop :=
  m.isReport = true → ∀ last, w.persisted = some last →
    FirstAfter last w.skipped (recordPersistIntervalMs configured.record_persist_interval_sec) m.receivedAt →
    recordPersistThresholdMs
        (recordPersistIntervalMs (settingsInForce configured w m).record_persist_interval_sec)
      ≤ m.reportTime - last.time

/-- The same for the first result of a task after its interval; and the results of its report pass. -/
def PingDue (w : ClockWorld η) (m : ReportMessage) (taskId : Int) : Prop :=
  m.hasResult taskId = true → ∀ last, w.accepted taskId = some last →
    FirstAfter last (w.passedOver taskId) (taskIntervalMs tasks configured taskId) m.receivedAt →
    (∃ results, validatePingResults m.ping_results tasks clientId = .ok results) ∧
      (last.time = 0 ∨ taskIntervalMs tasks (settingsInForce configured w m) taskId ≤ m.reportTime - last.time)

def Due (w : ClockWorld η) : ClockEvent → Prop
  | .message m => RecordDue configured w m ∧ ∀ taskId, PingDue configured tasks clientId w m taskId
  | _ => True

end Specification

/-! ## What a report does -/

section Objects

variable {η : Type} {o : HistoryObject η} {configured : HistorySettings} {now : ℚ}

@[simp] theorem enabled_lastPersist :
    (o.isRecordPersistenceEnabled configured now).lastPersist = o.lastPersist := by
  rw [HistoryObject.isRecordPersistenceEnabled]
  split_ifs <;> rfl

@[simp] theorem enabled_storedPersist :
    (o.isRecordPersistenceEnabled configured now).storedPersist = o.storedPersist := by
  rw [HistoryObject.isRecordPersistenceEnabled]
  split_ifs <;> rfl

@[simp] theorem enabled_ping : (o.isRecordPersistenceEnabled configured now).ping = o.ping := by
  rw [HistoryObject.isRecordPersistenceEnabled]
  split_ifs <;> rfl

theorem enabled_twice : ((o.isRecordPersistenceEnabled configured now).isRecordPersistenceEnabled
    configured now).settings = (o.isRecordPersistenceEnabled configured now).settings := by
  by_cases hcached : now - o.recordPersistenceCheckedAt < RECORD_SETTING_CACHE_MS
  · have hsame : o.isRecordPersistenceEnabled configured now = o := if_pos hcached
    rw [hsame, hsame]
  · have hread : o.isRecordPersistenceEnabled configured now
        = { o with settings := configured, recordPersistenceCheckedAt := now } := if_neg hcached
    rw [hread, HistoryObject.isRecordPersistenceEnabled]
    split_ifs <;> rfl

theorem enabled_settings_ping {ping : PingStore η} :
    ({ o with ping := ping }.isRecordPersistenceEnabled configured now).settings
      = (o.isRecordPersistenceEnabled configured now).settings := by
  rw [HistoryObject.isRecordPersistenceEnabled, HistoryObject.isRecordPersistenceEnabled]
  split_ifs <;> rfl

theorem reportTime_nonneg (m : ReportMessage) : 0 ≤ m.reportTime := by
  rw [ReportMessage.reportTime, reportTimestamp.eq_def]
  split
  · exact Nat.cast_nonneg _
  · split_ifs with hbad
    · exact Nat.cast_nonneg _
    · exact not_lt.mp fun hneg => hbad (.inl hneg)

/-- **What becomes of a record**: it is no report; it is not due; or its time is remembered. -/
theorem persistReport_cases (o : HistoryObject η) (configured : HistorySettings) (m : ReportMessage)
    (nowMs : ℚ) :
    (m.isReport = false ∧ o.persistReport configured m nowMs = (o, false)) ∨
    m.isReport = true ∧ ((¬ recordPersistThresholdMs (recordPersistIntervalMs
            (o.isRecordPersistenceEnabled configured nowMs).settings.record_persist_interval_sec)
          ≤ nowMs - o.lastPersist ∧
        o.persistReport configured m nowMs
          = ({ o.isRecordPersistenceEnabled configured nowMs with recordLastPersistAt := some o.lastPersist },
            false)) ∨
      (recordPersistThresholdMs (recordPersistIntervalMs
            (o.isRecordPersistenceEnabled configured nowMs).settings.record_persist_interval_sec)
          ≤ nowMs - o.lastPersist ∧
        o.persistReport configured m nowMs
          = ({ o.isRecordPersistenceEnabled configured nowMs with
              storedPersist := some nowMs, recordLastPersistAt := some nowMs }, true))) := by
  cases hreport : m.isReport with
  | false => exact .inl ⟨rfl, by rw [HistoryObject.persistReport, if_pos (by rw [hreport]; rfl)]⟩
  | true =>
    refine .inr ⟨rfl, ?_⟩
    have heq : o.persistReport configured m nowMs
        = if !((o.isRecordPersistenceEnabled configured nowMs).isPersistDue nowMs).2
          then (((o.isRecordPersistenceEnabled configured nowMs).isPersistDue nowMs).1, false)
          else (((o.isRecordPersistenceEnabled configured nowMs).isPersistDue nowMs).1.markPersistSuccess nowMs,
            true) := by
      rw [HistoryObject.persistReport, if_neg (by rw [hreport]; simp)]
    rw [HistoryObject.isPersistDue, enabled_lastPersist] at heq
    rw [heq]
    by_cases hdue : recordPersistThresholdMs (recordPersistIntervalMs
        (o.isRecordPersistenceEnabled configured nowMs).settings.record_persist_interval_sec)
        ≤ nowMs - o.lastPersist
    · refine .inr ⟨hdue, if_neg ?_⟩
      simp [isRecordPersistDue, hdue]
    · refine .inl ⟨hdue, if_pos ?_⟩
      simp [isRecordPersistDue, hdue]

theorem tooEarly_timed {tasks : List PingTask} {settings : HistorySettings} {v : ValidatedPingResult}
    {state : PingResultState} {nowMs : ℚ} :
    tooEarly settings.ping_record_persist_interval_sec (timed tasks v) state nowMs = false ↔
      state.lastAcceptedMs = 0 ∨ taskIntervalMs tasks settings v.taskId ≤ nowMs - state.lastAcceptedMs := by
  rw [tooEarly, decide_eq_false_iff_not, not_and_or, not_not, not_lt]
  rfl

end Objects

section Reports

variable {η : Type} [DecidableEq η] (hash : Directory Int Int → η) (configured : HistorySettings)
  (tasks : List PingTask) (clientId : String) (o : HistoryObject η)

/-- The task has a result that passes with its report and is due. -/
def AcceptedTask (results : List RawPingResult) (nowMs : ℚ) (taskId : Int) : Prop :=
  ∃ validated, validatePingResults results tasks clientId = .ok validated ∧
    (∃ v ∈ validated, v.taskId = taskId) ∧
    ((o.ping.read taskId).lastAcceptedMs = 0 ∨
      taskIntervalMs tasks (o.isRecordPersistenceEnabled configured nowMs).settings taskId
        ≤ nowMs - (o.ping.read taskId).lastAcceptedMs)

/-- What the results of a report change. -/
structure PingEffect (nowMs : ℚ) (accepted : List Int) (o' : HistoryObject η) : Prop where
  lastPersist : o'.lastPersist = o.lastPersist
  storedPersist : o'.storedPersist = o.storedPersist
  settings : (o'.isRecordPersistenceEnabled configured nowMs).settings
    = (o.isRecordPersistenceEnabled configured nowMs).settings
  times : ∀ k, if k ∈ accepted
    then (o'.ping.read k).lastAcceptedMs = nowMs ∧ (o'.ping.stored k).lastAcceptedMs = nowMs
    else o'.ping.read k = o.ping.read k ∧ o'.ping.stored k = o.ping.stored k

/-- **What becomes of the ping results.** -/
theorem persistPingResults_spec (results : List RawPingResult) {nowMs : ℚ} (hnow : 0 ≤ nowMs) :
    (∀ k, k ∈ (o.persistPingResults hash configured tasks clientId results nowMs).2 ↔
      AcceptedTask configured tasks clientId o results nowMs k) ∧
    PingEffect configured o nowMs (o.persistPingResults hash configured tasks clientId results nowMs).2
      (o.persistPingResults hash configured tasks clientId results nowMs).1 := by
  rw [HistoryObject.persistPingResults]
  by_cases hempty : results.isEmpty = true
  · rw [if_pos hempty]
    refine ⟨fun k => ⟨by rintro ⟨⟩, ?_⟩, rfl, rfl, rfl, fun k => by simp⟩
    rintro ⟨validated, hvalid, -⟩
    rw [List.isEmpty_iff.mp hempty] at hvalid
    simp [validatePingResults] at hvalid
  · rw [if_neg hempty]
    dsimp only
    rw [persistQueuedPingResult]
    cases hvalid : validatePingResults results tasks clientId with
    | error refusal =>
      refine ⟨fun k => ⟨by rintro ⟨⟩, ?_⟩, enabled_lastPersist, enabled_storedPersist,
        enabled_twice, fun k => by simp⟩
      rintro ⟨validated, hok, -⟩
      cases hvalid.symm.trans hok
    | ok validated =>
      dsimp only
      rw [enabled_ping, persistPingBatch_answered]
      obtain ⟨inForce, hforce⟩ :
        ∃ inForce, (o.isRecordPersistenceEnabled configured nowMs).settings = inForce := ⟨_, rfl⟩
      have hmem : ∀ k, k ∈ ((dueOf inForce.ping_record_persist_interval_sec nowMs
          (withIntervals tasks validated) o.ping).map fun r => (r, true)).map (fun c => c.1.taskId) ↔
          ∃ r ∈ dueOf inForce.ping_record_persist_interval_sec nowMs (withIntervals tasks validated) o.ping,
            r.taskId = k := by
        intro k
        simp
      have htimes := persistPingBatch_times hash o.ping inForce.ping_record_persist_interval_sec hnow
        (withIntervals tasks validated)
      rw [hforce]
      refine ⟨fun k => ?_, ?_, ?_, ?_, fun k => ?_⟩
      · rw [hmem, AcceptedTask, hforce]
        constructor
        · rintro ⟨r, hr, rfl⟩
          obtain ⟨hin, hlate⟩ := List.mem_filter.mp hr
          rw [withIntervals_eq] at hin
          obtain ⟨v, hv, rfl⟩ := List.mem_map.mp hin
          have hdue := tooEarly_timed.mp (by simpa using hlate)
          exact ⟨validated, hvalid, ⟨v, hv, rfl⟩, hdue⟩
        · rintro ⟨other, hother, ⟨v, hv, rfl⟩, hdue⟩
          obtain rfl := Except.ok.inj (hvalid.symm.trans hother)
          refine ⟨timed tasks v, List.mem_filter.mpr ⟨List.mem_map_of_mem hv, ?_⟩, rfl⟩
          have hlate := tooEarly_timed.mpr hdue
          show (!tooEarly _ (timed tasks v) (o.ping.read v.taskId) nowMs) = true
          rw [hlate]
          rfl
      · exact enabled_lastPersist
      · exact enabled_storedPersist
      · rw [← hforce]
        exact enabled_settings_ping.trans enabled_twice
      · by_cases hk : ∃ r ∈ dueOf inForce.ping_record_persist_interval_sec nowMs
            (withIntervals tasks validated) o.ping, r.taskId = k
        · rw [if_pos ((hmem k).mpr hk)]
          exact (htimes k).1 hk
        · rw [if_neg fun h => hk ((hmem k).mp h)]
          exact (htimes k).2 fun r hr hid => hk ⟨r, hr, hid⟩

/-- **What a report does.** -/
theorem receive_spec (m : ReportMessage) : (∀ k, k ∈ (o.receive hash configured tasks clientId m).2.1 ↔
      AcceptedTask configured tasks clientId o m.ping_results m.reportTime k) ∧
    ((o.receive hash configured tasks clientId m).2.2 = true ↔ m.isReport = true ∧
      recordPersistThresholdMs (recordPersistIntervalMs
        (o.isRecordPersistenceEnabled configured m.reportTime).settings.record_persist_interval_sec)
        ≤ m.reportTime - o.lastPersist) ∧
    ((o.receive hash configured tasks clientId m).2.2 = true →
      (o.receive hash configured tasks clientId m).1.lastPersist = m.reportTime ∧
        (o.receive hash configured tasks clientId m).1.storedPersist = some m.reportTime) ∧
    ((o.receive hash configured tasks clientId m).2.2 = false →
      (o.receive hash configured tasks clientId m).1.lastPersist = o.lastPersist ∧
        (o.receive hash configured tasks clientId m).1.storedPersist = o.storedPersist) ∧
    ∀ k, if k ∈ (o.receive hash configured tasks clientId m).2.1
      then ((o.receive hash configured tasks clientId m).1.ping.read k).lastAcceptedMs = m.reportTime ∧
        ((o.receive hash configured tasks clientId m).1.ping.stored k).lastAcceptedMs = m.reportTime
      else (o.receive hash configured tasks clientId m).1.ping.read k = o.ping.read k ∧
        (o.receive hash configured tasks clientId m).1.ping.stored k = o.ping.stored k := by
  obtain ⟨haccepted, hlast, hstored, hsettings, htimes⟩ :=
    persistPingResults_spec hash configured tasks clientId o m.ping_results (reportTime_nonneg m)
  rw [HistoryObject.receive]
  obtain ⟨⟨o', accepted⟩, hping⟩ : ∃ out, o.persistPingResults hash configured tasks clientId m.ping_results
    m.reportTime = out := ⟨_, rfl⟩
  rw [hping] at haccepted hlast hstored hsettings htimes ⊢
  dsimp only at haccepted hlast hstored hsettings htimes ⊢
  rw [← hsettings, ← hlast, ← hstored]
  rcases persistReport_cases o' configured m m.reportTime with
    ⟨hreport, heq⟩ | ⟨hreport, ⟨hearly, heq⟩ | ⟨hdue, heq⟩⟩
  · rw [heq, hreport]
    exact ⟨haccepted, by simp, by simp, by simp, htimes⟩
  · rw [heq, hreport]
    refine ⟨haccepted, ⟨nofun, fun h => absurd h.2 hearly⟩,
      nofun, fun _ => ⟨rfl, enabled_storedPersist⟩, ?_⟩
    · dsimp only
      rw [enabled_ping]
      exact htimes
  · rw [heq, hreport]
    refine ⟨haccepted, ⟨fun _ => ⟨rfl, hdue⟩, fun _ => rfl⟩, fun _ => ⟨rfl, rfl⟩,
      nofun, ?_⟩
    · dsimp only
      rw [enabled_ping]
      exact htimes

end Reports

/-! ## Every run -/

section Runs

variable {η : Type} {configured : HistorySettings} {tasks : List PingTask} {clientId : String}

/-- The time of a receipt, and 0 for none. -/
def timeOf (receipt : Option Receipt) : ℚ := (receipt.map Receipt.time).getD 0

/-- **What is remembered and stored are the times of the reports that were written last.** -/
structure ClockWorld.Remembers (w : ClockWorld η) : Prop where
  record : w.object.lastPersist = timeOf w.persisted ∧ w.object.storedPersist.getD 0 = timeOf w.persisted
  ping : ∀ k, (w.object.ping.read k).lastAcceptedMs = timeOf (w.accepted k) ∧
    (w.object.ping.stored k).lastAcceptedMs = timeOf (w.accepted k)

theorem validateOne_taskId {raw : RawPingResult} {v : ValidatedPingResult}
    (h : validateOne tasks clientId raw = .ok v) : positiveInteger raw.taskId = some v.taskId := by
  rw [validateOne] at h
  split at h
  · rename_i taskId value hid _
    split_ifs at h
    split at h
    · cases h
    · split_ifs at h
      cases h
      exact hid
  · cases h

theorem hasResult_validated {m : ReportMessage} {k : Int} {validated : List ValidatedPingResult}
    (h : m.hasResult k = true) (hvalid : validatePingResults m.ping_results tasks clientId = .ok validated) :
    ∃ v ∈ validated, v.taskId = k := by
  obtain ⟨raw, hraw, hid⟩ := List.any_eq_true.mp h
  obtain ⟨-, -, hpass⟩ := (validate_isOk_iff m.ping_results).mp ⟨validated, hvalid⟩
  obtain ⟨v, hv⟩ := hpass raw hraw
  obtain ⟨w, hw, hsame⟩ := (validate_results hvalid).2.1 raw hraw v hv
  have hv' := (validateOne_taskId hv).symm.trans (beq_iff_eq.mp hid)
  exact ⟨w, hw, hsame.trans (Option.some.inj hv')⟩

theorem start_remembers : (ClockWorld.start : ClockWorld η).Remembers :=
  ⟨⟨rfl, rfl⟩, fun _ => ⟨rfl, rfl⟩⟩

variable [DecidableEq η] {hash : Directory Int Int → η} {w w' : ClockWorld η} {e : ClockEvent}

/-- **One step keeps what is remembered.** -/
theorem clockStep_remembers (h : clockStep hash configured tasks clientId w e = some w')
    (hw : w.Remembers) : w'.Remembers := by
  cases e with
  | settingsRead now =>
    cases h
    refine ⟨⟨enabled_lastPersist.trans hw.record.1, ?_⟩, fun k => ?_⟩
    · dsimp only
      rw [enabled_storedPersist]
      exact hw.record.2
    · dsimp only
      rw [enabled_ping]
      exact hw.ping k
  | coldStart =>
    cases h
    exact ⟨⟨hw.record.2, hw.record.2⟩, fun k => ⟨(hw.ping k).2, (hw.ping k).2⟩⟩
  | message m =>
    cases h
    obtain ⟨-, -, hwritten, hskipped, htimes⟩ := receive_spec hash configured tasks clientId w.object m
    constructor
    · dsimp only [ClockWorld.after]
      cases hpersisted : (w.object.receive hash configured tasks clientId m).2.2 with
      | true =>
        obtain ⟨hlast, hstored⟩ := hwritten hpersisted
        rw [hlast, hstored]
        exact ⟨rfl, rfl⟩
      | false =>
        obtain ⟨hlast, hstored⟩ := hskipped hpersisted
        rw [hlast, hstored]
        exact hw.record
    · intro k
      dsimp only [ClockWorld.after]
      have hk := htimes k
      by_cases hmem : k ∈ (w.object.receive hash configured tasks clientId m).2.1
      · rw [if_pos hmem] at hk
        rw [if_pos (List.contains_iff_mem.mpr hmem)]
        exact hk
      · rw [if_neg hmem] at hk
        rw [if_neg fun hin => hmem (List.contains_iff_mem.mp hin), hk.1, hk.2]
        exact hw.ping k

/-- **When a step does not stop the history.** -/
theorem goesOn_iff (hw : w.Remembers) :
    GoesOn hash configured tasks clientId w e ↔ Due configured tasks clientId w e := by
  cases e with
  | settingsRead now => exact Iff.rfl
  | coldStart => exact Iff.rfl
  | message m =>
    obtain ⟨haccepted, hpersisted, -⟩ := receive_spec hash configured tasks clientId w.object m
    refine and_congr ?_ (forall_congr' fun k => ?_)
    · refine imp_congr_right fun hreport => forall_congr' fun last => imp_congr_right fun hlast =>
        imp_congr_right fun _ => ?_
      have htime : w.object.lastPersist = last.time := by
        rw [hw.record.1, hlast]
        rfl
      rw [hpersisted, htime]
      exact and_iff_right hreport
    · refine imp_congr_right fun hresult => forall_congr' fun last => imp_congr_right fun hlast =>
        imp_congr_right fun _ => ?_
      have htime : (w.object.ping.read k).lastAcceptedMs = last.time := by
        rw [(hw.ping k).1, hlast]
        rfl
      rw [haccepted, AcceptedTask, htime]
      constructor
      · rintro ⟨validated, hvalid, -, hdue⟩
        exact ⟨⟨validated, hvalid⟩, hdue⟩
      · rintro ⟨⟨validated, hvalid⟩, hdue⟩
        exact ⟨validated, hvalid, hasResult_validated hresult hvalid, hdue⟩

end Runs

/-- **When the steps of a clock do not stop the history**: in a run every first report after an interval is
    written, and every first result after the interval of its task is accepted, exactly when each of them
    is due by its own time, under the settings in force. -/
theorem history_goes_on_iff {η : Type} [DecidableEq η] (hash : Directory Int Int → η)
    (configured : HistorySettings) (tasks : List PingTask) (clientId : String) (events : List ClockEvent) :
    (clockMachine hash configured tasks clientId).Along
        (fun w e _ => GoesOn hash configured tasks clientId w e) ClockWorld.start events ↔
      (clockMachine hash configured tasks clientId).Along
        (fun w e _ => Due configured tasks clientId w e) ClockWorld.start events :=
  (clockMachine hash configured tasks clientId).along_congr (I := ClockWorld.Remembers)
    (fun _ _ _ hI h => clockStep_remembers h hI) (fun _ _ _ hI => goesOn_iff hI) events _ start_remembers

/-- A report without ping results. -/
def plainReport (receivedAt : ℕ) (timestamp : ℚ) : ReportMessage :=
  ⟨receivedAt, receivedAt, some timestamp, none, []⟩

/-- The clock of the client is set back by an hour. -/
theorem clock_set_back_stops_history : ¬ ∀ events : List ClockEvent,
      (clockMachine entriesHash ⟨none, none⟩ [] "node").Along
        (fun w e _ => GoesOn entriesHash ⟨none, none⟩ [] "node" w e) ClockWorld.start events := by
  intro h
  obtain ⟨-, ⟨hrecord, -⟩, -⟩ := h [.message (plainReport 1788696000000 1788696000000),
    .message (plainReport 1788696120000 1788692520000)]
  have hfirst : ((ClockWorld.start : ClockWorld (List (Int × Int))).object.receive entriesHash
      ⟨none, none⟩ [] "node" (plainReport 1788696000000 1788696000000)).2.2 = true := by decide +kernel
  have hskipped : (ClockWorld.after entriesHash ⟨none, none⟩ [] "node" ClockWorld.start
      (plainReport 1788696000000 1788696000000)).skipped = [] := if_pos hfirst
  have hsecond := hrecord rfl ⟨1788696000000, (plainReport 1788696000000 1788696000000).reportTime⟩
    (if_pos hfirst)
    ⟨fun s hs => absurd (hskipped ▸ hs) (by simp), by decide +kernel⟩
  exact absurd hsecond (by decide +kernel)

end CfMonitor.History
