/-
  The traffic reset tracker (`agent/main.go`): periods, counter deltas and one sample.

  A period starts on the reset day of a month, at local midnight, or on the first of the next
  month when the month is too short.  A sample of the interface counters either starts a new
  record, or adds to the totals of the current period what the counters have grown by since the
  sample before.

  Program
    * `lastTrafficResetDate`, `actualTrafficResetDate`, `rawTrafficCoversPeriod` — the calendar;
    * `trafficCounterDelta` — growth of one counter, a smaller value meaning that it restarted;
    * `adjustInterfacesSinceBoot` — one sample, up to the call of `save`.  Its layers keep an own
      name: `freshState` (first record of a cycle), `migrate` (records without per-interface
      counters), `accumulate` (growth, reboot and rotation);
    * `newTrafficResetTracker`, `setResetDay`, `setPolicyResetDay`,
      `applyTrafficResetDayPolicy` — where the reset day comes from.
-/
import CfMonitor.Agent.TrafficState
import CfMonitor.Lib.Word64

namespace CfMonitor.Agent

open CfMonitor.Lib

/-! ## Periods -/

/-- `normalizeTrafficResetDay`. -/
def normalizeTrafficResetDay (day : Int) : Int :=
  if day < 1 then 1 else if day > 31 then 31 else day

theorem normalizeTrafficResetDay_bounds (day : Int) :
    1 ≤ normalizeTrafficResetDay day ∧ normalizeTrafficResetDay day ≤ 31 := by
  unfold normalizeTrafficResetDay
  split_ifs <;> omega

/-- The date on which the cycle of a month starts: its reset day, or the first of the next month
    when the month has no such day. -/
def resetDateIn (month : Int) (resetDay : Int) (hday : 1 ≤ resetDay) : Date :=
  if h : resetDay ≤ daysIn month then ⟨month, resetDay, hday, h⟩ else Date.first (month + 1)

variable (loc : Location)

/-- `actualTrafficResetDate`: the local midnight of `resetDateIn`. -/
def actualTrafficResetDate (month : Int) (resetDay : Int) (hday : 1 ≤ resetDay) : Int :=
  loc.midnight (resetDateIn month resetDay hday)

/-- `lastTrafficResetDate`: this month's reset date when it has come, else last month's. -/
def lastTrafficResetDate (resetDay : Int) (currentDate : Int) : Int :=
  let day := normalizeTrafficResetDay resetDay
  have hday : 1 ≤ day := (normalizeTrafficResetDay_bounds resetDay).1
  let thisMonth := actualTrafficResetDate loc (loc.date currentDate).month day hday
  if thisMonth ≤ currentDate then thisMonth
  else actualTrafficResetDate loc ((loc.date currentDate).month - 1) day hday

/-- `trafficResetPeriodKey`: the period of an instant, by the date on which it started. -/
def trafficResetPeriodKey (now : Int) (resetDay : Int) : String :=
  DateOnly.format (loc.date (lastTrafficResetDate loc resetDay now))

/-- `rawTrafficCoversPeriod`: the machine booted inside the period, so that the raw counters are
    the traffic of the period. -/
def rawTrafficCoversPeriod (periodStart now bootedAt : Int) : Bool :=
  !Instant.isZero bootedAt && decide (periodStart ≤ bootedAt) && decide (bootedAt ≤ now)

/-- `trafficBootUnix`: 0 when the boot time is not known. -/
def trafficBootUnix (bootedAt : Int) : Int :=
  if Instant.isZero bootedAt then 0 else Instant.unix bootedAt

/-! ## Counters -/

/-- `maxInt64`. -/
def maxInt64 (a b : Int64) : Int64 := if a > b then a else b

/-- `trafficCounterDelta`. -/
def trafficCounterDelta (previous current : UInt64) : Int64 :=
  if current < previous then current.toInt64 else (current - previous).toInt64

/-- The sum of one direction over all interfaces, as the `range` loop accumulates it. -/
def rawTotal (dir : TrafficInterfaceState → UInt64) (m : InterfaceMap) : Int64 :=
  m.entries.foldl (fun acc e => acc + (dir e.2).toInt64) 0

/-- What one interface adds: nothing when the sample before did not have it. -/
def interfaceDelta (dir : TrafficInterfaceState → UInt64) (previous : InterfaceMap)
    (e : String × TrafficInterfaceState) : Int64 :=
  match previous.get? e.1 with
  | none => 0
  | some prior => trafficCounterDelta (dir prior) (dir e.2)

/-- The growth of one direction over the interfaces present in both samples. -/
def deltaTotal (dir : TrafficInterfaceState → UInt64) (previous m : InterfaceMap) : Int64 :=
  m.entries.foldl (fun acc e => acc + interfaceDelta dir previous e) 0

/-! ## The tracker -/

/-- `trafficResetTracker`, loaded; the path and the file live in `TrafficFiles`. -/
structure TrafficResetTracker where
  resetDay : Int
  scope : String
  state : TrafficResetState
  resetDaySource : String
  policyResetDay : Option Int
  deriving DecidableEq

/-- What one sample brings: counters, the time of the sample, and the boot time (`Instant.zero`
    when it is not known). -/
structure Sample where
  current : InterfaceMap
  now : Int
  bootedAt : Int

namespace TrafficResetTracker

variable (t : TrafficResetTracker) (x : Sample)

/-- The saved record belongs to another cycle or another counting scope. -/
def otherCycle : Bool :=
  decide (t.state.resetDay ≠ t.resetDay ∨ t.state.period = "" ∨ t.state.scope ≠ t.scope)

/-- The start of the period of the sample. -/
def periodStart : Int := lastTrafficResetDate loc t.resetDay x.now

/-- The key of the period of the sample. -/
def currentPeriod : String := DateOnly.format (loc.date (t.periodStart loc x))

/-- The raw counters of the sample are the traffic of its period. -/
def covers : Bool := rawTrafficCoversPeriod (t.periodStart loc x) x.now x.bootedAt

/-- The saved boot time is known and another one. -/
def bootChanged : Bool :=
  decide (trafficBootUnix x.bootedAt ≠ 0 ∧ t.state.lastBootUnix ≠ 0
    ∧ t.state.lastBootUnix ≠ trafficBootUnix x.bootedAt)

/-- The first record of a cycle. -/
def freshState : TrafficResetState :=
  let s : TrafficResetState :=
    { resetDay := t.resetDay, period := t.currentPeriod loc x, scope := t.scope,
      revision := t.state.revision, historyIncomplete := t.state.historyIncomplete }
  if t.covers loc x then
    { s with periodUp := rawTotal (·.sent) x.current, periodDown := rawTotal (·.recv) x.current }
  else s

/-- The record holds the baseline of an old installation and no raw sums. -/
def legacyBaseline : Bool :=
  decide (t.state.period = t.currentPeriod loc x ∧ t.state.lastRawUp = 0 ∧ t.state.lastRawDown = 0
    ∧ (t.state.baselineUp ≠ 0 ∨ t.state.baselineDown ≠ 0))

/-- The record was installed with zero totals in a period that the raw counters cover. -/
def zeroInstall : Bool :=
  decide (t.state.period = t.currentPeriod loc x ∧ t.covers loc x ∧ t.state.periodUp = 0
    ∧ t.state.periodDown = 0)

/-- The `switch` for records without per-interface counters: the record, the counters to compare
    with, and whether the totals already are those of this sample. -/
def migrate : TrafficResetState × InterfaceMap × Bool :=
  let s := t.state
  let rawUp := rawTotal (·.sent) x.current
  let rawDown := rawTotal (·.recv) x.current
  if s.counterVersion = 0 then
    if t.legacyBaseline loc x then
      ({ s with periodUp := maxInt64 0 (rawUp - s.baselineUp),
                periodDown := maxInt64 0 (rawDown - s.baselineDown) }, s.interfaces, true)
    else if t.zeroInstall loc x then
      ({ s with periodUp := rawUp, periodDown := rawDown }, s.interfaces, true)
    else if (x.current.get? "").isSome then
      (s, InterfaceMap.single "" ⟨(maxInt64 0 s.lastRawUp).toUInt64,
        (maxInt64 0 s.lastRawDown).toUInt64⟩, false)
    else (s, s.interfaces, false)
  else (s, s.interfaces, false)

/-- Add the growth of one sample to the record of its cycle, or rotate it to the new period. -/
def accumulate : TrafficResetState :=
  let rawUp := rawTotal (·.sent) x.current
  let rawDown := rawTotal (·.recv) x.current
  let (s, previous, migratedTotals) := t.migrate loc x
  let deltas : Int64 × Int64 :=
    if migratedTotals then (0, 0)
    else (deltaTotal (·.sent) previous x.current, deltaTotal (·.recv) previous x.current)
  let deltas := if t.bootChanged x && t.covers loc x then (rawUp, rawDown) else deltas
  if s.period ≠ t.currentPeriod loc x then
    let deltas := if t.covers loc x then (rawUp, rawDown) else deltas
    { s with period := t.currentPeriod loc x, historyIncomplete := false,
             periodUp := deltas.1, periodDown := deltas.2 }
  else { s with periodUp := s.periodUp + deltas.1, periodDown := s.periodDown + deltas.2 }

/-- `adjustInterfacesSinceBoot` up to the call of `save`; the two results of the function are the
    totals of the record it leaves. -/
def adjustInterfacesSinceBoot : TrafficResetTracker :=
  let counted := if t.otherCycle then t.freshState loc x else t.accumulate loc x
  { t with
    state := { counted with
      resetDay := t.resetDay
      scope := t.scope
      lastRawUp := rawTotal (·.sent) x.current
      lastRawDown := rawTotal (·.recv) x.current
      baselineUp := 0
      baselineDown := 0
      lastBootUnix :=
        if trafficBootUnix x.bootedAt ≠ 0 then trafficBootUnix x.bootedAt
        else counted.lastBootUnix
      counterVersion := 1
      interfaces := x.current
      resetDaySource := t.resetDaySource
      policyResetDay := t.policyResetDay } }

/-- `adjustSinceBoot`: the single-counter entry, an interface with the empty name. -/
def adjustSinceBoot (rawUp rawDown : Int64) (now bootedAt : Int) : TrafficResetTracker :=
  t.adjustInterfacesSinceBoot loc
    ⟨InterfaceMap.single "" ⟨(maxInt64 0 rawUp).toUInt64, (maxInt64 0 rawDown).toUInt64⟩, now, bootedAt⟩

/-! ## Where the reset day comes from -/

/-- A saved day of unknown origin is kept as the cycle: legacy state did not record where its
    day came from. -/
def restoreResetDay : TrafficResetTracker :=
  if 1 ≤ t.state.resetDay ∧ t.state.resetDay ≤ 31 ∧ t.state.period ≠ ""
      ∧ t.state.resetDaySource ≠ "local" then
    { t with resetDay := t.state.resetDay, resetDaySource := "restored" }
  else t

/-- `newTrafficResetTracker`, given what `load` left in the state. -/
def newTrafficResetTracker (resetDay : Int) (scope : String) (state : TrafficResetState) :
    TrafficResetTracker :=
  let tracker : TrafficResetTracker :=
    { resetDay := normalizeTrafficResetDay resetDay, scope := scope, state := state,
      resetDaySource := "local", policyResetDay := none }
  match state.policyResetDay with
  | some day =>
    if 1 ≤ day ∧ day ≤ 31 then
      { tracker with resetDay := day, policyResetDay := some day, resetDaySource := "server" }
    else tracker.restoreResetDay
  | none => tracker.restoreResetDay

/-- `setResetDay`. -/
def setResetDay (day : Int) : TrafficResetTracker × Bool :=
  let day := normalizeTrafficResetDay day
  if t.resetDay = day then (t, false)
  else ({ t with resetDay := day, resetDaySource := "local", policyResetDay := none }, true)

/-- `setPolicyResetDay`, up to the call of `save` that a day not yet known makes; the period
    counters stay until the next sample applies the change. -/
def setPolicyResetDay (day : Int) : TrafficResetTracker × Bool :=
  let changed := decide (t.resetDay ≠ day)
  let known := decide (t.policyResetDay = some day)
  let t' := { t with resetDay := day, resetDaySource := "server", policyResetDay := some day }
  if known then (t', changed)
  else ({ t' with state := { t'.state with policyResetDay := some day,
                                           resetDaySource := "server" } }, changed)

/-- `applyTrafficResetDayPolicy`: a day outside a month is ignored, not clamped. -/
def applyTrafficResetDayPolicy (policyDay : Option Int) : TrafficResetTracker :=
  match policyDay with
  | none => t
  | some day => if day < 1 ∨ day > 31 then t else (t.setPolicyResetDay day).1

end TrafficResetTracker

end CfMonitor.Agent
