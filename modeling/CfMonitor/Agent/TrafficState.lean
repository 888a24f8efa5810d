/-
  The saved traffic state of the agent (`agent/main.go`, `agent/traffic_persistence.go`).

  Data
    * `InterfaceMap` — the counters of the selected interfaces, one entry for each name.  Go's map
      has no order; every use below is a lookup or a sum.  A nil map and an empty one are the same
      value here, as they are for every reader (`omitempty` drops both on disk).
    * `TrafficResetState` — the record that is kept in memory and written to disk.  Totals and
      raw sums are Go's `int64`, counters are `uint64`: they wrap.

  Program
    * `decodeTrafficState` — the checks a parsed record must pass to be used.
-/
import CfMonitor.Lib.DateOnly

namespace CfMonitor.Agent

open CfMonitor.Lib

/-! ## Counters -/

/-- Bytes sent and received by one interface since boot (`trafficInterfaceState`,
    `interfaceCounters`). -/
structure TrafficInterfaceState where
  sent : UInt64
  recv : UInt64
  deriving DecidableEq

/-- Counters by interface name; a name occurs once. -/
structure InterfaceMap where
  entries : List (String × TrafficInterfaceState)
  nodup : (entries.map Prod.fst).Nodup
  deriving DecidableEq

namespace InterfaceMap

/-- The counters of one interface. -/
def get? (m : InterfaceMap) (name : String) : Option TrafficInterfaceState := m.entries.lookup name

/-- A map without interfaces. -/
def empty : InterfaceMap := ⟨[], List.nodup_nil⟩

/-- A map with one interface. -/
def single (name : String) (c : TrafficInterfaceState) : InterfaceMap :=
  ⟨[(name, c)], by simp⟩

end InterfaceMap

/-! ## The record -/

/-- `trafficResetState`.  The revision and the Unix time of the last boot take part in no
    arithmetic that could wrap, and are plain numbers. -/
structure TrafficResetState where
  resetDay : Int := 0
  period : String := ""
  scope : String := ""
  lastRawUp : Int64 := 0
  lastRawDown : Int64 := 0
  periodUp : Int64 := 0
  periodDown : Int64 := 0
  baselineUp : Int64 := 0
  baselineDown : Int64 := 0
  lastBootUnix : Int := 0
  counterVersion : Int := 0
  interfaces : InterfaceMap := InterfaceMap.empty
  resetDaySource : String := ""
  policyResetDay : Option Int := none
  revision : Nat := 0
  historyIncomplete : Bool := false
  deriving DecidableEq

/-! ## Checks of a parsed record -/

/-- Why a parsed record is refused. -/
inductive DecodeError where
  /-- `errTrafficStateNewerFormat`: the record may be good, but not for this program. -/
  | newerFormat
  | invalidPolicy
  | invalidCounters
  | missingPeriod
  | invalidResetDay
  /-- `time.Parse` refused the period. -/
  | invalidPeriod
  deriving DecidableEq

/-- The text of the error; `time.Parse` words its own. -/
def DecodeError.message : DecodeError → Option String
  | .newerFormat => some "unsupported newer traffic counter format"
  | .invalidPolicy => some "invalid saved traffic policy"
  | .invalidCounters => some "invalid saved traffic counters"
  | .missingPeriod => some "missing saved traffic period"
  | .invalidResetDay => some "invalid saved reset day"
  | .invalidPeriod => none

/-- Some saved policy day lies outside a month. -/
def badPolicyDay (s : TrafficResetState) : Bool :=
  match s.policyResetDay with
  | none => false
  | some day => decide (day < 1 ∨ day > 31)

/-- Some saved counter is negative. -/
def badCounters (s : TrafficResetState) : Bool :=
  decide (s.lastRawUp < 0 ∨ s.lastRawDown < 0 ∨ s.periodUp < 0 ∨ s.periodDown < 0
    ∨ s.baselineUp < 0 ∨ s.baselineDown < 0 ∨ s.lastBootUnix < 0 ∨ s.counterVersion < 0)

/-- `decodeTrafficState`, after `json.Unmarshal` has filled the record. -/
def decodeTrafficState (s : TrafficResetState) : Except DecodeError TrafficResetState :=
  if s.counterVersion > 1 then .error .newerFormat
  else if badPolicyDay s then .error .invalidPolicy
  else if badCounters s then .error .invalidCounters
  else if s.period = "" then
    if s.policyResetDay = none ∨ s.periodUp ≠ 0 ∨ s.periodDown ≠ 0 then .error .missingPeriod
    else .ok s
  else if s.resetDay < 1 ∨ s.resetDay > 31 then .error .invalidResetDay
  else if DateOnly.parse s.period = none then .error .invalidPeriod
  else .ok s

/-- The record passes every check of `decodeTrafficState`. -/
def Accepted (s : TrafficResetState) : Prop := decodeTrafficState s = .ok s

instance (s : TrafficResetState) : Decidable (Accepted s) :=
  inferInstanceAs (Decidable (decodeTrafficState s = .ok s))

variable {s : TrafficResetState}

theorem decode_ok {s' : TrafficResetState} (h : decodeTrafficState s = .ok s') : s' = s ∧ Accepted s := by
  have hs : s' = s := by
    unfold decodeTrafficState at h
    split_ifs at h <;> exact (Except.ok.inj h).symm
  subst hs
  exact ⟨rfl, h⟩

/-- **What acceptance promises**: a known format and counters that are not negative. -/
structure AcceptedFacts (s : TrafficResetState) : Prop where
  version : s.counterVersion = 0 ∨ s.counterVersion = 1
  lastRawUp : 0 ≤ s.lastRawUp.toInt
  lastRawDown : 0 ≤ s.lastRawDown.toInt
  periodUp : 0 ≤ s.periodUp.toInt
  periodDown : 0 ≤ s.periodDown.toInt
  baselineUp : 0 ≤ s.baselineUp.toInt
  baselineDown : 0 ≤ s.baselineDown.toInt
  lastBootUnix : 0 ≤ s.lastBootUnix

theorem int64_neg_iff (x : Int64) : x < 0 ↔ x.toInt < 0 := Int64.lt_iff_toInt_lt

theorem accepted_facts (h : Accepted s) : AcceptedFacts s := by
  unfold Accepted decodeTrafficState at h
  by_cases hv : s.counterVersion > 1
  · rw [if_pos hv] at h
    cases h
  rw [if_neg hv] at h
  by_cases hp : badPolicyDay s = true
  · rw [if_pos hp] at h
    cases h
  rw [if_neg hp] at h
  by_cases hc : badCounters s = true
  · rw [if_pos hc] at h
    cases h
  simp only [badCounters, decide_eq_true_eq, not_or, int64_neg_iff] at hc
  obtain ⟨h1, h2, h3, h4, h5, h6, h7, h8⟩ := hc
  exact ⟨by omega, by omega, by omega, by omega, by omega, by omega, by omega, by omega⟩

/-- A record with a readable period, a reset day of a month, no saved policy, a known format and
    counters that are not negative is accepted. -/
theorem accepted_of (hv : s.counterVersion = 1) (hpol : s.policyResetDay = none) (hc : badCounters s = false)
    (hperiod : (DateOnly.parse s.period).isSome) (hday : 1 ≤ s.resetDay ∧ s.resetDay ≤ 31) :
    Accepted s := by
  have hne : s.period ≠ "" := by
    intro h
    rw [h] at hperiod
    cases hperiod
  have hbad : badPolicyDay s = false := by
    unfold badPolicyDay
    rw [hpol]
  have hparse : ¬ DateOnly.parse s.period = none := by
    intro h
    rw [h] at hperiod
    cases hperiod
  unfold Accepted decodeTrafficState
  rw [if_neg (by omega), if_neg (by simp [hbad]), if_neg (by simp [hc]), if_neg hne,
    if_neg (by omega), if_neg hparse]

end CfMonitor.Agent
