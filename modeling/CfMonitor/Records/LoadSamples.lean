/-
  Persisted samples and the windows of load alerts (`load-notification-window.ts`,
  `record-persist.ts`, `isPersistDue` and `isRecordPersistenceEnabled` of the live-data object, the
  window of `runLoadCheck`).

  1. **Threshold** — a report is persisted when the interval of the settings, less a tolerance, has
     passed since the last one (`isRecordPersistDue`).

  2. **Object** — the time of the last persisted report is cached in memory and kept in storage
     (`PersistState`).  What a run persists is the throttle of its reports (`run_rows`).

  3. **Windows** — a rule looks back over at least two of the slower distances of both reporting modes,
     so that its window has two persisted samples (`load_windows_have_samples`).  Of these only the ones
     with a value of the metric are counted.
-/
import CfMonitor.Backup.SavedSettings
import CfMonitor.Lib.Machine
import CfMonitor.Lib.Throttle

namespace CfMonitor.Records

open CfMonitor.Lib CfMonitor.Live CfMonitor.Backup
open Assoc (get?)

/-! ## Threshold -/

def RECORD_PERSIST_TOLERANCE_MAX_MS : ℚ := 5000

/-- `recordPersistToleranceMs` of a finite interval. -/
def recordPersistToleranceMs (intervalMs : ℚ) : ℚ :=
  if intervalMs ≤ 0 then 0 else min RECORD_PERSIST_TOLERANCE_MAX_MS ⌊intervalMs * (5 / 100)⌋

def recordPersistThresholdMs (intervalMs : ℚ) : ℚ :=
  if intervalMs ≤ 0 then 0 else max 0 (intervalMs - recordPersistToleranceMs intervalMs)

def isRecordPersistDue (elapsedMs : ℤ) (intervalMs : ℚ) : Bool := decide (recordPersistThresholdMs intervalMs ≤ elapsedMs)

section Settings

variable (rules : BackupRules)

/-! ## Settings -/

/-- `Number(settings[key])`. -/
def settingNumber (settings : List (String × String)) (key : String) : Option ℚ :=
  (Assoc.get? settings key).bind rules.numberOf

structure LoadNotificationPolicy where
  minimumIntervalMin : ℚ
  sampleIntervalSec : ℚ
  historyEnabled : Bool
  deriving DecidableEq

/-- The distance of persisted samples, for reports at a distance in seconds. -/
def sampleSecondsOf (thresholdMs reportSeconds : ℚ) : ℚ :=
  max 1 ⌈thresholdMs / (reportSeconds * 1000)⌉ * reportSeconds

/-- `buildLoadNotificationPolicy`; without a number in the settings there is none. -/
def buildLoadNotificationPolicy (stored : List (String × String)) : Option LoadNotificationPolicy :=
  let settings := buildAdminSettings rules stored
  (settingNumber rules settings "record_persist_interval_sec").bind fun interval =>
  (settingNumber rules settings "live_poll_active_interval_sec").bind fun active =>
  (settingNumber rules settings "live_poll_idle_interval_sec").map fun idle =>
    let thresholdMs := recordPersistThresholdMs (interval * 1000)
    let sampleSeconds := max (sampleSecondsOf thresholdMs active) (sampleSecondsOf thresholdMs idle)
    { minimumIntervalMin := max 1 ⌈2 * sampleSeconds / 60⌉
      sampleIntervalSec := sampleSeconds
      historyEnabled := Assoc.get? settings "record_enabled" = some "true" }

/-- `effectiveLoadNotificationIntervalMin`, of the interval of a rule where it is a finite number. -/
def effectiveLoadNotificationIntervalMin (configured : Option ℚ) (policy : LoadNotificationPolicy) : ℚ :=
  max policy.minimumIntervalMin ((configured.filter fun x => decide (0 < x)).getD 15)

def RECORD_PERSISTENCE_SETTING_KEYS : List String :=
  ["record_enabled", "record_persist_interval_sec", "ping_record_persist_interval_sec", "record_high_watermark_rows",
    "record_high_watermark_bytes"]

/-- What the object reads of the settings. -/
structure RecordSettings where
  enabled : Bool
  intervalMs : ℚ
  deriving DecidableEq

/-- `normalizeRecordPersistenceEnabled`. -/
def normalizeRecordPersistenceEnabled (settings : List (String × String)) : Bool :=
  match normalizeSettingValue rules "record_enabled" (.str ((Assoc.get? settings "record_enabled").getD "true")) none with
  | .ok value => value == "true"
  | .error _ => true

/-- `isRecordPersistenceEnabled`: what is read of the stored settings. -/
def readRecordSettings (stored : List (String × String)) : RecordSettings :=
  let settings := buildAdminSettings rules (stored.filter fun p => RECORD_PERSISTENCE_SETTING_KEYS.contains p.1)
  let boundedIntervalSec : ℚ := match settingNumber rules settings "record_persist_interval_sec" with
    | some x => min (max ⌊x⌋ 3) 3600
    | none => 120000 / 1000
  { enabled := normalizeRecordPersistenceEnabled rules settings
    intervalMs := min (max (boundedIntervalSec * 1000) 3000) 3600000 }

end Settings

/-! ## Object -/

/-- The metrics of a record; a value that is not available is `none`. -/
structure LoadRecord where
  cpu : Option ℚ
  ram : Option ℚ
  ramTotal : Option ℚ
  load : Option ℚ
  disk : ℚ
  diskTotal : ℚ
  temp : Option ℚ
  deriving DecidableEq

/-- A row of `records`. -/
structure RecordRow where
  time : ℤ
  record : LoadRecord
  deriving DecidableEq

/-- The time of the last persisted report: in memory, where it was read, and in storage. -/
structure PersistState where
  cached : Option ℤ
  stored : Option ℤ
  coherent : ∀ t, cached = some t → t = stored.getD 0

namespace PersistState

variable (s : PersistState)

/-- The `lastPersist` of `isPersistDue`. -/
def last : ℤ := s.cached.getD (s.stored.getD 0)

theorem last_eq : s.last = s.stored.getD 0 := by
  rw [last]
  cases hcached : s.cached with
  | none => rfl
  | some t => exact s.coherent t hcached

/-- `isPersistDue`: what it answers, and the state with the time read. -/
def isPersistDue (now : ℤ) (intervalMs : ℚ) : Bool × PersistState :=
  (isRecordPersistDue (now - s.last) intervalMs,
    ⟨some s.last, s.stored, fun t h => by rw [← Option.some.inj h, s.last_eq]⟩)

/-- `markPersistSuccess`. -/
def markPersistSuccess (now : ℤ) : PersistState := ⟨some now, some now, fun _ h => (Option.some.inj h).symm⟩

/-- The object is built again; storage stays. -/
def restart : PersistState := ⟨none, s.stored, nofun⟩

end PersistState

/-- One client: its state and its rows, the oldest first. -/
structure PersistWorld where
  state : PersistState
  rows : List RecordRow

inductive ReportEvent where
  | report (now : ℤ) (record : LoadRecord)
  | restart

/-- `persistReservedReport` of a report, within capacity; the insert succeeds. -/
def persistReport (settings : RecordSettings) (w : PersistWorld) (now : ℤ) (record : LoadRecord) : PersistWorld :=
  if settings.enabled then
    let due := w.state.isPersistDue now settings.intervalMs
    if due.1 then ⟨.markPersistSuccess now, w.rows ++ [⟨now, record⟩]⟩ else ⟨due.2, w.rows⟩
  else w

def persistMachine (settings : RecordSettings) : Machine PersistWorld ReportEvent where
  step w
    | .report now record => some (persistReport settings w now record)
    | .restart => some { w with state := w.state.restart }

/-- The times of the reports of a run. -/
def reportTimes : List ReportEvent → List ℤ
  | [] => []
  | .report now _ :: events => now :: reportTimes events
  | .restart :: events => reportTimes events

variable {settings : RecordSettings}

theorem persistReport_due (henabled : settings.enabled = true) {w : PersistWorld} {now : ℤ}
    (record : LoadRecord) (h : recordPersistThresholdMs settings.intervalMs ≤ ((now - w.state.last : ℤ) : ℚ)) :
    persistReport settings w now record = ⟨.markPersistSuccess now, w.rows ++ [⟨now, record⟩]⟩ := by
  have hyes : (w.state.isPersistDue now settings.intervalMs).1 = true := decide_eq_true h
  simp only [persistReport, henabled, if_true, hyes]

/-- **A run** persists the throttle of its reports. -/
theorem run_rows (henabled : settings.enabled = true) {events : List ReportEvent} :
    ∀ {w w' : PersistWorld}, (persistMachine settings).run w events = some w' →
    ∃ rows, w'.rows = w.rows ++ rows ∧
      rows.map RecordRow.time = throttle (recordPersistThresholdMs settings.intervalMs) w.state.last (reportTimes events) := by
  induction events with
  | nil =>
    intro w w' h
    cases h
    exact ⟨[], (List.append_nil _).symm, rfl⟩
  | cons event events ih =>
    intro w w' h
    obtain ⟨u, hstep, hrun⟩ := Machine.run_cons _ |>.mp h
    obtain ⟨rows, hrows, htimes⟩ := ih hrun
    cases event with
    | restart =>
      cases hstep
      refine ⟨rows, hrows, ?_⟩
      rw [htimes, reportTimes, PersistState.last_eq, PersistState.last_eq]
      rfl
    | report now record =>
      cases hstep
      rw [reportTimes, throttle]
      by_cases hdue : recordPersistThresholdMs settings.intervalMs ≤ ((now - w.state.last : ℤ) : ℚ)
      · rw [persistReport_due henabled record hdue] at hrows htimes
        refine ⟨⟨now, record⟩ :: rows, by rw [hrows, List.append_assoc]; rfl, ?_⟩
        rw [if_pos hdue, List.map_cons, htimes]
        rfl
      · have hpersist : persistReport settings w now record =
            ⟨(w.state.isPersistDue now settings.intervalMs).2, w.rows⟩ := by
          have hno : (w.state.isPersistDue now settings.intervalMs).1 = false := decide_eq_false hdue
          simp only [persistReport, henabled, if_true, hno, Bool.false_eq_true, if_false]
        rw [hpersist] at hrows htimes
        refine ⟨rows, hrows, ?_⟩
        rw [if_neg hdue, htimes]
        rfl

/-! ## Load check -/

inductive LoadMetric where
  | cpu
  | ram
  | load
  | disk
  | temp

/-- The `metric_value` of `cfm_load_metric_window_stats`. -/
def metricValue (metric : LoadMetric) (r : LoadRecord) : Option ℚ :=
  match metric with
  | .cpu => r.cpu
  | .ram => (r.ramTotal.filter fun total => decide (0 < total)).bind fun total => r.ram.map fun ram => ram / total * 100
  | .load => r.load
  | .disk => if 0 < r.diskTotal then some (r.disk / r.diskTotal * 100) else none
  | .temp => r.temp

structure LoadMetricWindowStats where
  samples : Nat
  exceeded : Nat

/-- The rows of a closed window. -/
def windowRows (rows : List RecordRow) (start finish : ℤ) : List RecordRow :=
  rows.filter fun row => decide (start ≤ row.time ∧ row.time ≤ finish)

/-- `cfm_load_metric_window_stats` of one client. -/
def loadMetricWindowStats (rows : List RecordRow) (start finish : ℤ) (metric : LoadMetric) (threshold : ℚ) :
    LoadMetricWindowStats :=
  let values := (windowRows rows start finish).filterMap fun row => metricValue metric row.record
  ⟨values.length, (values.filter fun x => decide (threshold ≤ x)).length⟩

/-- The `startTime` of `runLoadCheck`, past the epoch. -/
def windowStart (now : ℤ) (intervalMin : ℚ) : ℤ := ⌊(now : ℚ) - intervalMin * 60000⌋

/-- Whether `runLoadCheck` sends an alert for a client. -/
def loadCheck (stats : LoadMetricWindowStats) (ratio : ℚ) : Bool :=
  if stats.samples < 2 then false else decide (ratio ≤ (stats.exceeded : ℚ) / stats.samples)

/-! ## Settings that are read -/

section

variable {rules : BackupRules}

theorem get?_filter_keys {l : List (String × String)} {keys : List String} {key : String} (h : key ∈ keys) :
    get? (l.filter fun p => keys.contains p.1) key = get? l key := by
  induction l with
  | nil => rfl
  | cons p l ih =>
    obtain ⟨k, v⟩ := p
    by_cases hk : k = key
    · subst hk
      rw [List.filter_cons, if_pos (List.contains_iff_mem.mpr h), get?, get?]
      simp
    · rw [List.filter_cons]
      have hrest : get? ((k, v) :: l) key = get? l key := by
        rw [get?, if_neg (Ne.symm hk)]
      rw [hrest, ← ih]
      split_ifs
      · rw [get?, if_neg (Ne.symm hk)]
      · rfl

variable {d : SettingDefinition}

variable {stored : List (String × String)}

theorem adminSetting_filter {keys : List String} (h : d.key ∈ keys) :
    adminSetting rules (stored.filter fun p => keys.contains p.1) d = adminSetting rules stored d := by
  rw [adminSetting, adminSetting, get?_filter_keys h]

section

variable (hlaw : rules.Lawful)

include hlaw

theorem normalize_adminSetting (hmem : d ∈ SETTING_SCHEMA)
    (hkey : d.key ≠ "update_repository_url") (stored : List (String × String)) :
    normalizeSettingValue rules d.key (.str (adminSetting rules stored d)) none = .ok (adminSetting rules stored d) := by
  rw [adminSetting]
  cases hnormal : normalizeSettingValue rules d.key (.str ((get? stored d.key).getD d.defaultValue)) none with
  | ok value => exact normalizeSettingValue_again hlaw hkey hnormal
  | error e => exact normalizeSettingValue_default hlaw hmem

/-- What was read once is read again. -/
theorem adminSetting_twice (hmem : d ∈ SETTING_SCHEMA)
    (hkey : d.key ≠ "update_repository_url") (stored : List (String × String)) :
    adminSetting rules (buildAdminSettings rules stored) d = adminSetting rules stored d := by
  rw [adminSetting, get?_buildAdminSettings, definitionOf_key d hmem, Option.map_some, Option.getD_some,
    normalize_adminSetting hlaw hmem hkey]

variable {default : ℤ}

/-- **An integer setting** is the decimal text of a number in its range. -/
theorem adminSetting_integer (hmem : d ∈ SETTING_SCHEMA)
    {min max : ℤ} (htype : d.type = .integer default min max) (stored : List (String × String)) :
    ∃ n : ℤ, adminSetting rules stored d = toString n ∧ min ≤ n ∧ n ≤ max ∧
      rules.numberOf (adminSetting rules stored d) = some (n : ℚ) := by
  have hsound := (schema_sound d hmem).2.2
  rw [htype] at hsound
  obtain ⟨hlow, hhigh, hmin, hmax⟩ := hsound
  suffices hn : ∃ n : ℤ, adminSetting rules stored d = toString n ∧ min ≤ n ∧ n ≤ max by
    obtain ⟨n, hn, hminn, hmaxn⟩ := hn
    exact ⟨n, hn, hminn, hmaxn, by rw [hn]; exact hlaw.numberInt n (by omega)⟩
  rw [adminSetting]
  cases hnormal : normalizeSettingValue rules d.key (.str ((get? stored d.key).getD d.defaultValue)) none with
  | error e => exact ⟨default, by rw [SettingDefinition.defaultValue, htype], hlow, hhigh⟩
  | ok value =>
    obtain ⟨d', hd', hnormal, -⟩ := normalizeSettingValue_ok.mp hnormal
    obtain rfl := Option.some.inj ((definitionOf_key d hmem).symm.trans hd')
    rw [SettingDefinition.normalize, htype] at hnormal
    have hinteger := orInvalid_ok.mp hnormal
    simp only [normalizeInteger] at hinteger
    split_ifs at hinteger
    · exact ⟨default, (Option.some.inj hinteger).symm, hlow, hhigh⟩
    · cases hx : finiteNumber rules (.str ((get? stored d.key).getD d.defaultValue)) with
      | none => simp [hx] at hinteger
      | some x =>
        simp only [hx] at hinteger
        split_ifs at hinteger with hrange
        exact ⟨x.num, (Option.some.inj hinteger).symm, hrange.2⟩

theorem settingNumber_integer {key : String} {min max : ℤ}
    (hdefinition : definitionOf key = some ⟨key, .integer default min max⟩) (stored : List (String × String)) :
    ∃ n : ℤ, settingNumber rules (buildAdminSettings rules stored) key = some (n : ℚ) ∧ min ≤ n ∧ n ≤ max := by
  obtain ⟨n, -, hmin, hmax, hn⟩ := adminSetting_integer hlaw (definitionOf_some hdefinition).1 rfl stored
  refine ⟨n, ?_, hmin, hmax⟩
  rw [settingNumber, get?_buildAdminSettings, hdefinition]
  exact hn

theorem settingNumber_twice {key : String} (hd : definitionOf key = some d)
    (hkey : key ≠ "update_repository_url") (stored : List (String × String)) :
    settingNumber rules (buildAdminSettings rules (buildAdminSettings rules stored)) key =
      settingNumber rules (buildAdminSettings rules stored) key := by
  obtain ⟨hmem, rfl⟩ := definitionOf_some hd
  rw [settingNumber, settingNumber, get?_buildAdminSettings, get?_buildAdminSettings, hd, Option.map_some, Option.map_some,
    adminSetting_twice hlaw hmem hkey]

/-- **Normalised settings** give the policy of the settings. -/
theorem policy_twice (stored : List (String × String)) :
    buildLoadNotificationPolicy rules (buildAdminSettings rules stored) = buildLoadNotificationPolicy rules stored := by
  have henabled : get? (buildAdminSettings rules (buildAdminSettings rules stored)) "record_enabled" =
      get? (buildAdminSettings rules stored) "record_enabled" := by
    rw [get?_buildAdminSettings, get?_buildAdminSettings]
    exact congrArg some (adminSetting_twice (d := ⟨"record_enabled", .boolean true⟩) hlaw (by decide) (by decide) stored)
  have hinterval := settingNumber_twice hlaw (rfl : definitionOf "record_persist_interval_sec" = some _) (by decide) stored
  have hactive := settingNumber_twice hlaw (rfl : definitionOf "live_poll_active_interval_sec" = some _) (by decide) stored
  have hidle := settingNumber_twice hlaw (rfl : definitionOf "live_poll_idle_interval_sec" = some _) (by decide) stored
  simp only [buildLoadNotificationPolicy, henabled, hinterval, hactive, hidle]

end

/-- What object and policy read of the same settings. -/
structure ReadAlike (rules : BackupRules) (stored : List (String × String)) (active idle : ℤ) (policy : LoadNotificationPolicy) :
    Prop where
  built : buildLoadNotificationPolicy rules stored = some policy
  readActive : settingNumber rules (buildAdminSettings rules stored) "live_poll_active_interval_sec" = some (active : ℚ)
  readIdle : settingNumber rules (buildAdminSettings rules stored) "live_poll_idle_interval_sec" = some (idle : ℚ)
  positive : 0 < active ∧ 0 < idle
  sample : policy.sampleIntervalSec =
    max (sampleSecondsOf (recordPersistThresholdMs (readRecordSettings rules stored).intervalMs) active)
      (sampleSecondsOf (recordPersistThresholdMs (readRecordSettings rules stored).intervalMs) idle)
  minimum : policy.minimumIntervalMin = max 1 (⌈2 * policy.sampleIntervalSec / 60⌉ : ℤ)

theorem readAlike (hlaw : rules.Lawful) (stored : List (String × String)) :
    ∃ active idle policy, ReadAlike rules stored active idle policy := by
  obtain ⟨interval, hinterval, hmin, hmax⟩ := settingNumber_integer hlaw
    (rfl : definitionOf "record_persist_interval_sec" = some ⟨_, .integer 120 3 3600⟩) stored
  obtain ⟨active, hactive, hactivemin, -⟩ := settingNumber_integer hlaw
    (rfl : definitionOf "live_poll_active_interval_sec" = some ⟨_, .integer 3 3 300⟩) stored
  obtain ⟨idle, hidle, hidlemin, -⟩ := settingNumber_integer hlaw
    (rfl : definitionOf "live_poll_idle_interval_sec" = some ⟨_, .integer 120 60 3600⟩) stored
  -- The object clamps to the range of the setting.
  have hobject : (readRecordSettings rules stored).intervalMs = (interval : ℚ) * 1000 := by
    have hread : settingNumber rules (buildAdminSettings rules (stored.filter fun p =>
        RECORD_PERSISTENCE_SETTING_KEYS.contains p.1)) "record_persist_interval_sec" = some (interval : ℚ) := by
      rw [← hinterval, settingNumber, settingNumber, get?_buildAdminSettings, get?_buildAdminSettings]
      have hsame : adminSetting rules (stored.filter fun p => RECORD_PERSISTENCE_SETTING_KEYS.contains p.1)
          ⟨"record_persist_interval_sec", .integer 120 3 3600⟩ = adminSetting rules stored _ := adminSetting_filter (by decide)
      exact congrArg (fun text => (some text).bind rules.numberOf) hsame
    have hlow : (3 : ℚ) ≤ interval := by exact_mod_cast hmin
    have hhigh : (interval : ℚ) ≤ 3600 := by exact_mod_cast hmax
    simp only [readRecordSettings, hread, Int.floor_intCast]
    rw [max_eq_left hlow, min_eq_left hhigh, max_eq_left (by linarith), min_eq_left (by linarith)]
  obtain ⟨policy, hpolicy⟩ : ∃ policy, buildLoadNotificationPolicy rules stored = some policy := by
    simp only [buildLoadNotificationPolicy, hinterval, hactive, hidle, Option.bind_some, Option.map_some]
    exact ⟨_, rfl⟩
  have hbuilt := hpolicy
  simp only [buildLoadNotificationPolicy, hinterval, hactive, hidle, Option.bind_some, Option.map_some] at hbuilt
  cases hbuilt
  refine ⟨active, idle, _, hpolicy, hactive, hidle, ⟨by omega, by omega⟩, by rw [hobject], by push_cast; rfl⟩

/-- The check runs where samples are persisted. -/
theorem historyEnabled_eq (hlaw : rules.Lawful) {policy : LoadNotificationPolicy}
    (h : buildLoadNotificationPolicy rules stored = some policy) :
    policy.historyEnabled = (readRecordSettings rules stored).enabled := by
  have hmem : (⟨"record_enabled", .boolean true⟩ : SettingDefinition) ∈ SETTING_SCHEMA := by decide
  have hsame : adminSetting rules (stored.filter fun p => RECORD_PERSISTENCE_SETTING_KEYS.contains p.1)
      ⟨"record_enabled", .boolean true⟩ = adminSetting rules stored _ := adminSetting_filter (by decide)
  have hnormal := normalize_adminSetting hlaw hmem (by decide) stored
  have hread : ∀ stored', get? (buildAdminSettings rules stored') "record_enabled" =
      some (adminSetting rules stored' ⟨"record_enabled", .boolean true⟩) :=
    fun stored' => get?_buildAdminSettings stored' "record_enabled"
  have henabled : (readRecordSettings rules stored).enabled =
      (adminSetting rules stored ⟨"record_enabled", .boolean true⟩ == "true") := by
    simp only [readRecordSettings, normalizeRecordPersistenceEnabled, hread, hsame, Option.getD_some]
    rw [hnormal]
  rw [buildLoadNotificationPolicy] at h
  obtain ⟨interval, -, h⟩ := Option.bind_eq_some_iff.mp h
  obtain ⟨active, -, h⟩ := Option.bind_eq_some_iff.mp h
  obtain ⟨idle, -, rfl⟩ := Option.map_eq_some_iff.mp h
  rw [henabled, Bool.eq_iff_iff, decide_eq_true_eq, beq_iff_eq, hread, Option.some.injEq]

/-- The distance in milliseconds. -/
theorem sampleSeconds_eq (threshold : ℚ) (r : ℤ) :
    ((eventsPerSample threshold (1000 * r) * (1000 * r) : ℤ) : ℚ) = 1000 * sampleSecondsOf threshold r := by
  rw [eventsPerSample, sampleSecondsOf]
  push_cast
  rw [mul_comm (r : ℚ) 1000]
  ring

/-- **A window of the policy** is as long as two distances. -/
theorem window_long {policy : LoadNotificationPolicy} (hminimum : policy.minimumIntervalMin = max 1 (⌈2 * policy.sampleIntervalSec / 60⌉ : ℤ))
    {spacing : ℤ} (hspacing : (spacing : ℚ) ≤ 1000 * policy.sampleIntervalSec) (configured : Option ℚ) (now : ℤ) :
    windowStart now (effectiveLoadNotificationIntervalMin configured policy) + 2 * spacing ≤ now := by
  have hminutes : 2 * policy.sampleIntervalSec / 60 ≤ effectiveLoadNotificationIntervalMin configured policy := by
    have hceil : 2 * policy.sampleIntervalSec / 60 ≤ ((⌈2 * policy.sampleIntervalSec / 60⌉ : ℤ) : ℚ) := Int.le_ceil _
    have hpolicy : ((⌈2 * policy.sampleIntervalSec / 60⌉ : ℤ) : ℚ) ≤ policy.minimumIntervalMin := by
      rw [hminimum]
      exact_mod_cast le_max_right (1 : ℤ) ⌈2 * policy.sampleIntervalSec / 60⌉
    exact hceil.trans (hpolicy.trans (le_max_left _ _))
  have hfloor := Int.floor_le ((now : ℚ) - effectiveLoadNotificationIntervalMin configured policy * 60000)
  have hcast : ((windowStart now (effectiveLoadNotificationIntervalMin configured policy) + 2 * spacing : ℤ) : ℚ) ≤ now := by
    rw [windowStart]
    push_cast
    linarith
  exact_mod_cast hcast

theorem samples_eq {rows : List RecordRow} {start finish : ℤ} {metric : LoadMetric} (threshold : ℚ)
    (h : ∀ row ∈ windowRows rows start finish, (metricValue metric row.record).isSome = true) :
    (loadMetricWindowStats rows start finish metric threshold).samples = (windowRows rows start finish).length := by
  rw [loadMetricWindowStats]
  exact List.filterMap_length_eq_length.mpr h

/-- **Windows of load alerts have two persisted samples** where reports come at one of the two distances: the samples have the
    distance of the threshold, rounded up to whole reports, and this is at most the distance of the policy.  Where these
    samples have a value of the metric, two samples are counted and the minimum suppresses nothing. -/
theorem load_windows_have_samples (hlaw : rules.Lawful) (stored : List (String × String))
    (henabled : (readRecordSettings rules stored).enabled = true) :
    ∃ policy, buildLoadNotificationPolicy rules (buildAdminSettings rules stored) = some policy ∧ policy.historyEnabled = true ∧
    ∀ (key : String) (r : ℤ), key = "live_poll_active_interval_sec" ∨ key = "live_poll_idle_interval_sec" →
      settingNumber rules (buildAdminSettings rules stored) key = some (r : ℚ) →
      ∃ spacing : ℤ, (spacing : ℚ) = 1000 * sampleSecondsOf (recordPersistThresholdMs (readRecordSettings rules stored).intervalMs) r ∧
        (spacing : ℚ) ≤ 1000 * policy.sampleIntervalSec ∧
        ∀ (w w' : PersistWorld) (events : List ReportEvent) (start : ℤ) (n : Nat),
          reportTimes events = progression start (1000 * r) n →
          (persistMachine (readRecordSettings rules stored)).run w events = some w' →
          ∃ rows, w'.rows = w.rows ++ rows ∧ (rows = [] ∨ ∃ (first : ℤ) (m : Nat),
            rows.map RecordRow.time = progression first spacing (m + 1) ∧ start + n * (1000 * r) ≤ first + (m + 1) * spacing ∧
            ∀ (configured : Option ℚ) (now : ℤ),
              first ≤ windowStart now (effectiveLoadNotificationIntervalMin configured policy) → now < start + n * (1000 * r) →
              2 ≤ (windowRows w'.rows (windowStart now (effectiveLoadNotificationIntervalMin configured policy)) now).length ∧
              ∀ (metric : LoadMetric) (threshold ratio : ℚ),
                (∀ row ∈ windowRows w'.rows (windowStart now (effectiveLoadNotificationIntervalMin configured policy)) now,
                  (metricValue metric row.record).isSome = true) →
                let stats := loadMetricWindowStats w'.rows
                  (windowStart now (effectiveLoadNotificationIntervalMin configured policy)) now metric threshold
                2 ≤ stats.samples ∧ loadCheck stats ratio = decide (ratio ≤ (stats.exceeded : ℚ) / stats.samples)) := by
  obtain ⟨active, idle, policy, hread⟩ := readAlike hlaw stored
  refine ⟨policy, (policy_twice hlaw stored).trans hread.built, (historyEnabled_eq hlaw hread.built).trans henabled, ?_⟩
  intro key r hkey hr
  have hmode : 0 < r ∧ sampleSecondsOf (recordPersistThresholdMs (readRecordSettings rules stored).intervalMs) r ≤
      policy.sampleIntervalSec := by
    rcases hkey with rfl | rfl
    · obtain rfl : r = active := by exact_mod_cast Option.some.inj (hr.symm.trans hread.readActive)
      exact ⟨hread.positive.1, hread.sample ▸ le_max_left _ _⟩
    · obtain rfl : r = idle := by exact_mod_cast Option.some.inj (hr.symm.trans hread.readIdle)
      exact ⟨hread.positive.2, hread.sample ▸ le_max_right _ _⟩
  obtain ⟨hpos, hmax⟩ := hmode
  have hspacing := sampleSeconds_eq (recordPersistThresholdMs (readRecordSettings rules stored).intervalMs) r
  have hshort : ((eventsPerSample (recordPersistThresholdMs (readRecordSettings rules stored).intervalMs) (1000 * r) *
      (1000 * r) : ℤ) : ℚ) ≤ 1000 * policy.sampleIntervalSec := by
    rw [hspacing]
    linarith
  refine ⟨_, hspacing, hshort, ?_⟩
  intro w w' events start n hreports hrun
  obtain ⟨rows, hrows, htimes⟩ := run_rows henabled hrun
  refine ⟨rows, hrows, ?_⟩
  rw [hreports] at htimes
  rcases throttle_progression (recordPersistThresholdMs (readRecordSettings rules stored).intervalMs)
    (by omega : 0 < 1000 * r) n w.state.last start with hnone | ⟨first, m, hsamples, hcover⟩
  · rw [hnone] at htimes
    exact .inl (List.map_eq_nil_iff.mp htimes)
  rw [hsamples] at htimes
  refine .inr ⟨first, m, htimes, hcover, ?_⟩
  intro configured now hfirst hnow
  have hlong := window_long hread.minimum hshort configured now
  have hone : 1 ≤ eventsPerSample (recordPersistThresholdMs (readRecordSettings rules stored).intervalMs) (1000 * r) :=
    le_max_left _ _
  have hstep : 0 < eventsPerSample (recordPersistThresholdMs (readRecordSettings rules stored).intervalMs) (1000 * r) *
      (1000 * r) := Int.mul_pos (by omega) (by omega)
  have htwo := two_samples (m := m + 1) hstep hfirst (by push_cast; omega) hlong
  have hwindow : 2 ≤ (windowRows w'.rows (windowStart now (effectiveLoadNotificationIntervalMin configured policy)) now).length := by
    rw [hrows, windowRows, List.filter_append, List.length_append]
    rw [← htimes, List.filter_map, List.length_map] at htwo
    exact le_trans htwo (Nat.le_add_left _ _)
  refine ⟨hwindow, fun metric threshold ratio hmetric => ?_⟩
  have hsamples := samples_eq threshold hmetric
  refine ⟨hsamples ▸ hwindow, ?_⟩
  rw [loadCheck, if_neg (by omega)]

end

/-! ## Fixed inputs -/

/-- A record of a busy processor, or of one that was not measured. -/
def cpuRecord (cpu : Option ℚ) : LoadRecord := ⟨cpu, some 1, some 2, some 1, 1, 2, none⟩

/-- Five reports at the default distance of an idle agent. -/
def idleReports (cpus : Nat → Option ℚ) : List ReportEvent :=
  (List.range 5).map fun i : Nat => .report (1000000 + (i : ℤ) * 120000) (cpuRecord (cpus i))

def emptyWorld : PersistWorld := ⟨⟨none, none, nofun⟩, []⟩

theorem idle_rows (cpus : Nat → Option ℚ) : ∃ w,
    (persistMachine (readRecordSettings githubRules [])).run emptyWorld (idleReports cpus) = some w ∧
    w.rows = (List.range 5).map fun i : Nat => ⟨1000000 + (i : ℤ) * 120000, cpuRecord (cpus i)⟩ := by
  have hsettings : readRecordSettings githubRules [] = ⟨true, 120000⟩ := by decide +kernel
  have hdue : ∀ t : ℤ, recordPersistThresholdMs (120000 : ℚ) ≤ ((t + 120000 - t : ℤ) : ℚ) := by
    intro t
    rw [add_sub_cancel_left]
    decide +kernel
  have hstep : ∀ (w : PersistWorld) (t : ℤ) (record : LoadRecord), w.state.last = t →
      persistReport ⟨true, 120000⟩ w (t + 120000) record = ⟨.markPersistSuccess (t + 120000), w.rows ++ [⟨t + 120000, record⟩]⟩ :=
    fun w t record h => persistReport_due rfl record (by rw [h]; exact hdue t)
  have hfirst : persistReport ⟨true, 120000⟩ emptyWorld 1000000 (cpuRecord (cpus 0)) =
      ⟨.markPersistSuccess 1000000, [⟨1000000, cpuRecord (cpus 0)⟩]⟩ := persistReport_due rfl _ (by decide +kernel)
  rw [hsettings]
  refine ⟨_, Machine.run_cons _ |>.mpr ⟨_, congrArg some hfirst, Machine.run_cons _ |>.mpr ⟨_, congrArg some (hstep _ 1000000 _ rfl),
    Machine.run_cons _ |>.mpr ⟨_, congrArg some (hstep _ 1120000 _ rfl), Machine.run_cons _ |>.mpr ⟨_,
    congrArg some (hstep _ 1240000 _ rfl), Machine.run_cons _ |>.mpr ⟨_, congrArg some (hstep _ 1360000 _ rfl), rfl⟩⟩⟩⟩⟩, rfl⟩

/-- The hypotheses are satisfiable: a rule of four minutes, in the middle of the run. -/
theorem load_windows_have_samples_idle : ∃ policy w,
    buildLoadNotificationPolicy githubRules (buildAdminSettings githubRules []) = some policy ∧
    (persistMachine (readRecordSettings githubRules [])).run emptyWorld (idleReports fun _ => some 95) = some w ∧
    2 ≤ (loadMetricWindowStats w.rows (windowStart 1300000 (effectiveLoadNotificationIntervalMin (some 4) policy)) 1300000
      .cpu 80).samples := by
  have henabled : (readRecordSettings githubRules []).enabled = true := by decide +kernel
  have hpolicy : buildLoadNotificationPolicy githubRules (buildAdminSettings githubRules []) = some ⟨4, 120, true⟩ := by
    decide +kernel
  have hidle : settingNumber githubRules (buildAdminSettings githubRules []) "live_poll_idle_interval_sec" =
      some ((120 : ℤ) : ℚ) := by decide +kernel
  have htimes : reportTimes (idleReports fun _ => some 95) = progression 1000000 (1000 * 120) 5 := by decide +kernel
  have hstart : windowStart 1300000 (effectiveLoadNotificationIntervalMin (some 4) ⟨4, 120, true⟩) = 1060000 := by
    decide +kernel
  obtain ⟨w, hrun, hw⟩ := idle_rows fun _ => some 95
  obtain ⟨policy, hbuilt, -, hall⟩ := load_windows_have_samples githubRules_lawful [] henabled
  obtain rfl := Option.some.inj (hpolicy.symm.trans hbuilt)
  obtain ⟨spacing, -, -, hruns⟩ := hall _ 120 (.inr rfl) hidle
  obtain ⟨rows, hrows, hcases⟩ := hruns emptyWorld w _ 1000000 5 htimes hrun
  have hsame : rows = w.rows := (List.nil_append rows).symm.trans hrows.symm
  rw [hsame, hw] at hcases
  rcases hcases with hnone | ⟨first, m, htimes, -, hwindow⟩
  · cases hnone
  · have hfirst : first = 1000000 := by
      rw [progression_succ] at htimes
      exact (List.cons.inj htimes).1.symm
    refine ⟨_, w, hbuilt, hrun, ?_⟩
    rw [hw]
    refine ((hwindow (some 4) 1300000 (by rw [hstart, hfirst]; decide) (by decide)).2 .cpu 80 (4 / 5) ?_).1
    rw [hstart]
    decide +kernel

/-- With every other measurement missing, the minimum suppresses an alert: one of the two samples is counted. -/
theorem missing_measurements_suppress : ∃ policy w,
    buildLoadNotificationPolicy githubRules (buildAdminSettings githubRules []) = some policy ∧
    policy.historyEnabled = true ∧
    (persistMachine (readRecordSettings githubRules [])).run emptyWorld
      (idleReports fun i => if i % 2 = 1 then some 95 else none) = some w ∧
    let start := windowStart 1300000 (effectiveLoadNotificationIntervalMin (some 4) policy)
    let stats := loadMetricWindowStats w.rows start 1300000 .cpu 80
    (windowRows w.rows start 1300000).length = 2 ∧ stats.samples = 1 ∧ (4 / 5 : ℚ) ≤ (stats.exceeded : ℚ) / stats.samples ∧
      loadCheck stats (4 / 5) = false := by
  obtain ⟨w, hrun, hw⟩ := idle_rows fun i => if i % 2 = 1 then some 95 else none
  refine ⟨⟨4, 120, true⟩, w, by decide +kernel, rfl, hrun, ?_⟩
  rw [hw]
  decide +kernel

end CfMonitor.Records
