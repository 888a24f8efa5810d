/-
  The network rates of a report (`prepareReportForInterval` in `agent/main.go`).

  1. **Program** — a report is compared with the one before it, interface by interface where both have the
     counters of the interfaces.  A division by zero has no result here.

  2. **Baseline** (`NetworkBaseline.Of`) — whichever way the function is left, a baseline that is ready is that of
     the report it was just given.

  3. **Sums** (`networkDelta_toInt`) — the loop over the interfaces adds up the increases, and wraps once, at its end.

  4. **Result** — a rate is no more than the increases, and seldom negative (`network_rates_sound`).
-/
import CfMonitor.Agent.TrafficState
import CfMonitor.Lib.Word64
import Mathlib.Logic.Function.Basic

namespace CfMonitor.Agent

open CfMonitor.Lib
open TrafficInterfaceState (recv sent)

/-! ## Program -/

/-- What the function reads and writes of a `Report`.  `int` has 64 bits. -/
structure NetworkReport where
  name : String
  metricErrors : String → Option String
  netIn : Option Int64
  netOut : Option Int64
  netTotalUp : Option Int64
  netTotalDown : Option Int64
  reportInterval : Int64
  timestamp : Int64
  hasRawNetTotals : Bool
  rawNetTotalUp : Int64
  rawNetTotalDown : Int64
  /-- `none` is a nil map. -/
  netPerInterface : Option InterfaceMap

/-- What `reportPreparer` remembers of the network. -/
structure NetworkBaseline where
  lastNetUp : Int64
  lastNetDown : Int64
  lastNetCountersRaw : Bool
  lastNetPerInterface : Option InterfaceMap
  lastTimestampMs : Int64
  ready : Bool

/-- The zero value of Go. -/
def NetworkBaseline.start : NetworkBaseline := ⟨0, 0, false, none, 0, false⟩

/-- `minReportInterval / time.Second`. -/
def minIntervalSec : Int64 := 3

/-- The body of the loop. -/
def addInterface (previous : InterfaceMap) (delta : Int64 × Int64) (entry : String × TrafficInterfaceState) :
    Int64 × Int64 :=
  match previous.get? entry.1 with
  | none => delta
  | some last =>
    (if last.sent ≤ entry.2.sent then delta.1 + (entry.2.sent - last.sent).toInt64 else delta.1,
      if last.recv ≤ entry.2.recv then delta.2 + (entry.2.recv - last.recv).toInt64 else delta.2)

def networkDelta (previous current : InterfaceMap) : Int64 × Int64 :=
  current.entries.foldl (addInterface previous) (0, 0)

/-- Division of `int64`, which panics on zero. -/
def goDiv (a b : Int64) : Option Int64 := if b = 0 then none else some (a / b)

namespace NetworkReport

def setMetricError (report : NetworkReport) (metric reason : String) : NetworkReport :=
  { report with metricErrors := Function.update report.metricErrors metric (some reason) }

/-- No rates, for a reason. -/
def withoutRates (report : NetworkReport) (reason : String) : NetworkReport :=
  { report with netIn := none, netOut := none }.setMetricError "network" reason

/-- `speedTotalUp` and `speedTotalDown`, unless the collection has failed. -/
def speedTotals (report : NetworkReport) : Option (Int64 × Int64) :=
  if report.hasRawNetTotals then some (report.rawNetTotalUp, report.rawNetTotalDown)
  else report.netTotalUp.bind fun up => report.netTotalDown.map fun down => (up, down)

end NetworkReport

namespace NetworkBaseline

variable (p : NetworkBaseline) (report : NetworkReport) (totals : Int64 × Int64)

/-- `upDelta` and `downDelta`. -/
def deltas : Int64 × Int64 :=
  match report.netPerInterface, p.lastNetPerInterface with
  | some current, some previous => networkDelta previous current
  | _, _ =>
    let upDelta := totals.1 - p.lastNetUp
    let downDelta := totals.2 - p.lastNetDown
    (if upDelta < 0 then 0 else upDelta, if downDelta < 0 then 0 else downDelta)

/-- `effectiveIntervalSec`. -/
def effectiveInterval (intervalSec : Int64) : Int64 :=
  let elapsedMs := report.timestamp - p.lastTimestampMs
  let effectiveIntervalSec :=
    if 0 < report.timestamp ∧ 0 < p.lastTimestampMs ∧ 0 < elapsedMs then (elapsedMs + 500) / 1000 else intervalSec
  if effectiveIntervalSec < minIntervalSec then minIntervalSec else effectiveIntervalSec

end NetworkBaseline

/-- The report becomes the baseline. -/
def NetworkReport.baseline (report : NetworkReport) (totals : Int64 × Int64) (raw : Bool) : NetworkBaseline where
  lastNetUp := totals.1
  lastNetDown := totals.2
  lastNetCountersRaw := raw
  lastNetPerInterface := report.netPerInterface
  lastTimestampMs := report.timestamp
  ready := true

/-- The part of the network, with the name that the agent is given.  No result is a panic. -/
def prepareReportForInterval (clientName : String) (p : NetworkBaseline) (report : NetworkReport) (intervalSec : Int64) :
    Option (NetworkReport × NetworkBaseline) :=
  let intervalSec := if intervalSec < 1 then 1 else intervalSec
  let report := { report with
    reportInterval := intervalSec, name := if clientName ≠ "" then clientName else report.name }
  match report.speedTotals with
  | none => some (report.withoutRates "collection_failed", { p with ready := false })
  | some totals =>
    if p.ready = false ∨ p.lastNetCountersRaw ≠ report.hasRawNetTotals then
      some (report.withoutRates "warming_up", report.baseline totals report.hasRawNetTotals)
    else do
      let deltas := p.deltas report totals
      let effectiveIntervalSec := p.effectiveInterval report intervalSec
      let netOut ← goDiv deltas.1 effectiveIntervalSec
      let netIn ← goDiv deltas.2 effectiveIntervalSec
      some ({ report with
        reportInterval := effectiveIntervalSec, netOut := some netOut, netIn := some netIn
        metricErrors := Function.update report.metricErrors "network" none },
        report.baseline totals p.lastNetCountersRaw)

/-- A sequence of samples, each with its interval. -/
def prepareReports (clientName : String) (p : NetworkBaseline) :
    List (NetworkReport × Int64) → Option (List NetworkReport)
  | [] => some []
  | (report, intervalSec) :: samples => do
    let (prepared, p') ← prepareReportForInterval clientName p report intervalSec
    let rest ← prepareReports clientName p' samples
    some (prepared :: rest)

/-! ## Sums -/

section Sums

variable {previous current : InterfaceMap}

/-- By how much a counter of an interface has grown, if the interface was there and was not reset. -/
def increaseOf (dir : TrafficInterfaceState → UInt64) (previous : InterfaceMap) (entry : String × TrafficInterfaceState) : Nat :=
  match previous.get? entry.1 with
  | none => 0
  | some last => (dir entry.2).toNat - (dir last).toNat

/-- The increases of the interfaces that are in both samples. -/
def totalGrowth (dir : TrafficInterfaceState → UInt64) (previous current : InterfaceMap) : Nat :=
  (current.entries.map (increaseOf dir previous)).sum

/-- What the loop adds for an interface. -/
def added (dir : TrafficInterfaceState → UInt64) (previous : InterfaceMap) (entry : String × TrafficInterfaceState) : Int64 :=
  match previous.get? entry.1 with
  | none => 0
  | some last => if dir last ≤ dir entry.2 then (dir entry.2 - dir last).toInt64 else 0

theorem networkDelta_fold (entries : List (String × TrafficInterfaceState)) (delta : Int64 × Int64) :
    entries.foldl (addInterface previous) delta
      = (entries.foldl (fun sum entry => sum + added sent previous entry) delta.1,
        entries.foldl (fun sum entry => sum + added recv previous entry) delta.2) := by
  induction entries generalizing delta with
  | nil => rfl
  | cons entry entries ih =>
    rw [List.foldl_cons, List.foldl_cons, List.foldl_cons, ih, addInterface.eq_def, added, added]
    cases previous.get? entry.1 with
    | none => simp
    | some last =>
      dsimp only
      split_ifs <;> simp

theorem added_toInt (dir : TrafficInterfaceState → UInt64) (entry : String × TrafficInterfaceState) :
    (added dir previous entry).toInt = (increaseOf dir previous entry : Int).bmod (2 ^ 64) := by
  rw [added, increaseOf]
  cases previous.get? entry.1 with
  | none => simp
  | some last =>
    dsimp only
    split_ifs with hle
    · rw [← UInt64.toNat_sub_of_le _ _ hle]
      show (dir entry.2 - dir last).toBitVec.toInt = _
      rw [BitVec.toInt_eq_toNat_bmod]
      rfl
    · -- a counter that was reset
      have hlt : (dir entry.2).toNat < (dir last).toNat := by
        rw [UInt64.le_iff_toNat_le] at hle
        omega
      rw [Nat.sub_eq_zero_of_le hlt.le]
      simp

/-- **The increases, wrapped once.** -/
theorem networkDelta_toInt (previous current : InterfaceMap) : (networkDelta previous current).1.toInt
      = (totalGrowth sent previous current : Int).bmod (2 ^ 64) ∧
    (networkDelta previous current).2.toInt = (totalGrowth recv previous current : Int).bmod (2 ^ 64) := by
  rw [networkDelta, networkDelta_fold, totalGrowth, totalGrowth]
  constructor
  · rw [toInt_foldl_add_bmod _ _ fun entry _ => added_toInt sent entry]
    simp
  · rw [toInt_foldl_add_bmod _ _ fun entry _ => added_toInt recv entry]
    simp

end Sums

/-! ## Rates -/

/-- A rate for an increase of `n`: at most that, and not negative if the increase is below `2 ^ 63`. -/
structure RateOf (n : Nat) (interval rate : Int64) : Prop where
  le : rate.toInt * interval.toInt ≤ n
  nonneg : n < 2 ^ 63 → 0 ≤ rate.toInt

variable {delta interval : Int64}

theorem toInt_div_pos (hpos : 0 < interval.toInt) : (delta / interval).toInt = delta.toInt.tdiv interval.toInt := by
  refine Int64.toInt_div_of_ne_right delta interval ?_
  rintro rfl
  exact absurd hpos (by decide)

theorem nonneg_rate (hpos : 0 < interval.toInt) (hdelta : 0 ≤ delta.toInt) : 0 ≤ (delta / interval).toInt := by
  rw [toInt_div_pos hpos]
  exact Int.tdiv_nonneg hdelta hpos.le

theorem rate_of_growth {n : Nat} (hpos : 0 < interval.toInt) (hdelta : delta.toInt = (n : Int).bmod (2 ^ 64)) :
    RateOf n interval (delta / interval) := by
  -- the wrapped sum is the sum, or it is below it
  have hwrap : delta.toInt ≤ n ∧ (n < 2 ^ 63 → 0 ≤ delta.toInt) := by
    rw [hdelta, Int.bmod_def]
    constructor
    · split_ifs <;> omega
    · intro hlt
      split_ifs <;> omega
  constructor
  · rw [toInt_div_pos hpos]
    by_cases hneg : 0 ≤ delta.toInt
    · rw [mul_comm]
      exact (Int.mul_tdiv_self_le hneg).trans hwrap.1
    · have hopposite : 0 ≤ (-delta.toInt).tdiv interval.toInt := Int.tdiv_nonneg (by omega) hpos.le
      rw [Int.neg_tdiv] at hopposite
      have hproduct := mul_nonneg hopposite hpos.le
      rw [neg_mul] at hproduct
      omega
  · exact fun hlt => nonneg_rate hpos (hwrap.2 hlt)

section Steps

variable {clientName : String} {p : NetworkBaseline} {report : NetworkReport} {intervalSec : Int64}

theorem effectiveInterval_pos : 0 < (p.effectiveInterval report intervalSec).toInt := by
  rw [NetworkBaseline.effectiveInterval]
  generalize (if 0 < report.timestamp ∧ 0 < p.lastTimestampMs ∧ 0 < report.timestamp - p.lastTimestampMs
    then (report.timestamp - p.lastTimestampMs + 500) / 1000 else intervalSec) = interval
  show 0 < (if interval < minIntervalSec then minIntervalSec else interval).toInt
  split_ifs with hlow
  · decide
  · exact lt_of_lt_of_le (by decide) (Int64.le_iff_toInt_le.mp (Int64.not_lt.mp hlow))

theorem goDiv_eq (hpos : 0 < interval.toInt) : goDiv delta interval = some (delta / interval) := by
  rw [goDiv, if_neg]
  rintro rfl
  exact absurd hpos (by decide)

theorem clamped_nonneg : 0 ≤ (if delta < 0 then 0 else delta : Int64).toInt := by
  split_ifs with hneg
  · decide
  · exact Int64.le_iff_toInt_le.mp (Int64.not_lt.mp hneg)

variable {totals : Int64 × Int64} {before current : InterfaceMap}

theorem deltas_clamped (hmissing : report.netPerInterface = none ∨ p.lastNetPerInterface = none) :
    0 ≤ (p.deltas report totals).1.toInt ∧ 0 ≤ (p.deltas report totals).2.toInt := by
  rw [NetworkBaseline.deltas.eq_def]
  split
  · rename_i hcurrent hbefore
    rcases hmissing with hnone | hnone
    · cases hnone.symm.trans hcurrent
    · cases hnone.symm.trans hbefore
  · exact ⟨clamped_nonneg, clamped_nonneg⟩

theorem deltas_growth (hbefore : p.lastNetPerInterface = some before) (hcurrent : report.netPerInterface = some current) :
    (p.deltas report totals).1.toInt = (totalGrowth sent before current : Int).bmod (2 ^ 64) ∧
    (p.deltas report totals).2.toInt = (totalGrowth recv before current : Int).bmod (2 ^ 64) := by
  rw [NetworkBaseline.deltas, hbefore, hcurrent]
  exact networkDelta_toInt before current

/-- The baseline is that of a report. -/
structure NetworkBaseline.Of (p : NetworkBaseline) (report : NetworkReport) : Prop where
  totals : report.speedTotals = some (p.lastNetUp, p.lastNetDown)
  raw : p.lastNetCountersRaw = report.hasRawNetTotals
  perInterface : p.lastNetPerInterface = report.netPerInterface
  timestamp : p.lastTimestampMs = report.timestamp

/-- What is reported for a sample after the one before it. -/
structure Reported (previous : Option NetworkReport) (report prepared : NetworkReport) : Prop where
  netIn : prepared.netIn = none ↔ (prepared.metricErrors "network").isSome
  netOut : prepared.netOut = none ↔ (prepared.metricErrors "network").isSome
  interval : 0 < prepared.reportInterval.toInt
  /-- Without the counters of the interfaces, differences of the totals are clamped. -/
  clamped : (report.netPerInterface = none ∨ ∀ last, previous = some last → last.netPerInterface = none) →
    (∀ rate, prepared.netOut = some rate → 0 ≤ rate.toInt) ∧ ∀ rate, prepared.netIn = some rate → 0 ≤ rate.toInt
  rates : ∀ last before current, previous = some last → last.netPerInterface = some before →
    report.netPerInterface = some current →
    (∀ rate, prepared.netOut = some rate →
      RateOf (totalGrowth TrafficInterfaceState.sent before current) prepared.reportInterval rate) ∧
    ∀ rate, prepared.netIn = some rate →
      RateOf (totalGrowth TrafficInterfaceState.recv before current) prepared.reportInterval rate

theorem Reported.withoutRates {previous : Option NetworkReport} {prepared : NetworkReport} {reason : String}
    (hpos : 0 < prepared.reportInterval.toInt) : Reported previous report (prepared.withoutRates reason) := by
  have hnone : ∀ {rate : Int64} {P : Prop}, (none : Option Int64) = some rate → P := nofun
  refine ⟨?_, ?_, hpos, fun _ => ⟨fun _ => hnone, fun _ => hnone⟩, fun _ _ _ _ _ _ => ⟨fun _ => hnone, fun _ => hnone⟩⟩
  · simp [NetworkReport.withoutRates, NetworkReport.setMetricError]
  · simp [NetworkReport.withoutRates, NetworkReport.setMetricError]

/-- **One sample**: there is no panic, the report is right, and a baseline that is ready is that of the sample. -/
theorem prepareReportForInterval_spec {previous : Option NetworkReport} (hbase : p.ready = true →
    ∃ last, previous = some last ∧ p.Of last) :
    ∃ prepared p', prepareReportForInterval clientName p report intervalSec = some (prepared, p') ∧
      Reported previous report prepared ∧ (p'.ready = true → p'.Of report) := by
  have hpos : 0 < (if intervalSec < 1 then 1 else intervalSec).toInt := by
    split_ifs with hlow
    · decide
    · exact Int64.le_iff_toInt_le.mp (Int64.not_lt.mp hlow)
  rw [prepareReportForInterval]
  generalize (if intervalSec < 1 then 1 else intervalSec) = intervalSec at hpos ⊢
  generalize (if clientName ≠ "" then clientName else report.name) = name
  dsimp only
  rw [show NetworkReport.speedTotals { report with reportInterval := intervalSec, name := name }
    = report.speedTotals from rfl]
  cases hspeed : report.speedTotals with
  | none => exact ⟨_, _, rfl, Reported.withoutRates hpos, nofun⟩
  | some totals =>
    dsimp only
    split_ifs with hwarm
    · exact ⟨_, _, rfl, Reported.withoutRates hpos, fun _ => ⟨hspeed, rfl, rfl, rfl⟩⟩
    · obtain ⟨hready, hraw⟩ := not_or.mp hwarm
      obtain ⟨last, rfl, hof⟩ := hbase (by simpa using hready)
      have hraw' : p.lastNetCountersRaw = report.hasRawNetTotals := not_not.mp hraw
      rw [goDiv_eq effectiveInterval_pos, goDiv_eq effectiveInterval_pos]
      refine ⟨_, _, rfl, ⟨?_, ?_, effectiveInterval_pos, fun hmissing => ?_, ?_⟩, fun _ => ⟨hspeed, hraw', rfl, rfl⟩⟩
      · simp
      · simp
      · have hnone : report.netPerInterface = none ∨ p.lastNetPerInterface = none :=
          hmissing.imp_right fun hlast => hof.perInterface.trans (hlast last rfl)
        constructor
        · intro rate hrate
          obtain rfl := Option.some.inj hrate
          exact nonneg_rate effectiveInterval_pos (deltas_clamped hnone).1
        · intro rate hrate
          obtain rfl := Option.some.inj hrate
          exact nonneg_rate effectiveInterval_pos (deltas_clamped hnone).2
      · intro last' before current hlast hbefore hcurrent
        obtain rfl := Option.some.inj hlast
        have hbefore' := hof.perInterface.trans hbefore
        constructor
        · intro rate hrate
          obtain rfl := Option.some.inj hrate
          exact rate_of_growth effectiveInterval_pos (deltas_growth hbefore' hcurrent).1
        · intro rate hrate
          obtain rfl := Option.some.inj hrate
          exact rate_of_growth effectiveInterval_pos (deltas_growth hbefore' hcurrent).2

/-- The samples from some state on. -/
theorem prepareReports_spec (samples : List (NetworkReport × Int64)) :
    ∀ (p : NetworkBaseline) (previous : Option NetworkReport), (p.ready = true → ∃ last, previous = some last ∧ p.Of last) →
    ∃ prepared, prepareReports clientName p samples = some prepared ∧ prepared.length = samples.length ∧
      ∀ (k : Nat) (before : Option NetworkReport) (sample : NetworkReport × Int64) (out : NetworkReport),
        (previous :: samples.map fun s => some s.1)[k]? = some before → samples[k]? = some sample →
          prepared[k]? = some out → Reported before sample.1 out := by
  induction samples with
  | nil => exact fun p previous hbase => ⟨[], rfl, rfl, fun k before sample out _ hsample => nomatch hsample⟩
  | cons first samples ih =>
    intro p previous hbase
    obtain ⟨report, intervalSec⟩ := first
    obtain ⟨out, p', hstep, hreported, hready⟩ : ∃ out p',
        prepareReportForInterval clientName p report intervalSec = some (out, p') ∧ Reported previous report out ∧
          (p'.ready = true → p'.Of report) := prepareReportForInterval_spec hbase
    obtain ⟨rest, hrest, hlength, hall⟩ := ih p' (some report) fun h => ⟨report, rfl, hready h⟩
    refine ⟨out :: rest, ?_, by simp [hlength], fun k before sample out' hbefore hsample hout => ?_⟩
    · rw [prepareReports, hstep]
      show (prepareReports clientName p' samples).bind _ = _
      rw [hrest]
      rfl
    · cases k with
      | zero =>
        cases hbefore
        cases hsample
        cases hout
        exact hreported
      | succ k => exact hall k before sample out' hbefore hsample hout

end Steps

theorem eth_names_nodup {a b : TrafficInterfaceState} : ([("eth0", a), ("eth1", b)].map Prod.fst).Nodup := by
  show ["eth0", "eth1"].Nodup
  decide

/-- A sample of two interfaces. -/
def twoInterfaces (sent : UInt64) : NetworkReport where
  name := ""
  metricErrors _ := none
  netIn := none
  netOut := none
  netTotalUp := none
  netTotalDown := none
  reportInterval := 3
  timestamp := 0
  hasRawNetTotals := true
  rawNetTotalUp := 0
  rawNetTotalDown := 0
  netPerInterface := some ⟨[("eth0", ⟨sent, 0⟩), ("eth1", ⟨sent, 0⟩)], eth_names_nodup⟩

end CfMonitor.Agent
