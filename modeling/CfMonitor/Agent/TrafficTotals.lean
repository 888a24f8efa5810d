/-
  What one traffic sample does to the totals of its period.

  Specification side
    * `counterSum` — the raw sum of one direction, as a number;
    * `growth` — the growth of one direction over the interfaces present in two samples.

  The two directions run through the same branches, so both totals are instances of ONE function
  of the branch conditions (`Branches`, `directionTotal`; `adjust_periodUp`, `adjust_periodDown`).

  Result
    A sample never adds more than the raw counters to what the period already had, except where a
    record without per-interface counters is migrated on the first sample after a reboot: there
    the totals are first REPLACED by the raw counters (or by their excess over the old baseline)
    and the reboot branch then ADDS the raw counters once more.  `period_totals_bounded_iff` says
    exactly when that shows.
-/
import CfMonitor.Agent.TrafficTracker
import Mathlib.Algebra.Order.BigOperators.Group.List

namespace CfMonitor.Agent

open CfMonitor.Lib

/-! ## Sums as numbers -/

/-- The sum of one direction over all interfaces. -/
def counterSum (dir : TrafficInterfaceState → UInt64) (m : InterfaceMap) : Nat :=
  (m.entries.map fun e => (dir e.2).toNat).sum

/-- The growth of one counter: a smaller value means that it restarted from 0. -/
def counterGrowth (previous current : Nat) : Nat :=
  if current < previous then current else current - previous

/-- The growth of one interface, nothing when the sample before did not have it. -/
def interfaceGrowth (dir : TrafficInterfaceState → UInt64) (previous : InterfaceMap)
    (e : String × TrafficInterfaceState) : Nat :=
  match previous.get? e.1 with
  | none => 0
  | some prior => counterGrowth (dir prior).toNat (dir e.2).toNat

/-- The growth of one direction over the interfaces present in both samples. -/
def growth (dir : TrafficInterfaceState → UInt64) (previous m : InterfaceMap) : Nat :=
  (m.entries.map fun e => interfaceGrowth dir previous e).sum

variable {dir : TrafficInterfaceState → UInt64}

theorem interfaceGrowth_le (previous : InterfaceMap) (e : String × TrafficInterfaceState) :
    interfaceGrowth dir previous e ≤ (dir e.2).toNat := by
  unfold interfaceGrowth
  cases previous.get? e.1 with
  | none => exact Nat.zero_le _
  | some prior =>
    show counterGrowth _ _ ≤ _
    unfold counterGrowth
    split_ifs <;> omega

theorem growth_le (dir : TrafficInterfaceState → UInt64) (previous m : InterfaceMap) :
    growth dir previous m ≤ counterSum dir m :=
  List.sum_le_sum fun e _ => interfaceGrowth_le previous e

variable {m : InterfaceMap}

variable {e : String × TrafficInterfaceState}

theorem counter_le_counterSum (dir : TrafficInterfaceState → UInt64)
    (he : e ∈ m.entries) : (dir e.2).toNat ≤ counterSum dir m :=
  List.single_le_sum (fun _ _ => Nat.zero_le _) _ (List.mem_map_of_mem he)

/-- The loop that adds up the raw counters is exact below `2 ^ 63`. -/
theorem rawTotal_toInt (h : counterSum dir m < 2 ^ 63) :
    (rawTotal dir m).toInt = (counterSum dir m : Int) := by
  have hterm : ∀ e ∈ m.entries, ((dir e.2).toInt64).toInt = ((dir e.2).toNat : Int) := by
    intro e he
    have := counter_le_counterSum dir he
    exact toInt_toInt64_of_lt (by omega)
  have hzero : (0 : Int64).toInt = 0 := rfl
  have hloop := toInt_foldl_add m.entries 0 (le_of_eq hzero.symm) hterm (by
    show (0 : Int64).toInt + (counterSum dir m : Int) < 2 ^ 63
    omega)
  rw [hzero, Int.zero_add] at hloop
  exact hloop

theorem interfaceDelta_toInt {previous : InterfaceMap} (h : (dir e.2).toNat < 2 ^ 63) :
    (interfaceDelta dir previous e).toInt = (interfaceGrowth dir previous e : Int) := by
  unfold interfaceDelta interfaceGrowth
  cases previous.get? e.1 with
  | none => rfl
  | some prior =>
    show (trafficCounterDelta _ _).toInt = (counterGrowth _ _ : Int)
    unfold trafficCounterDelta counterGrowth
    by_cases hlt : dir e.2 < dir prior
    · rw [if_pos hlt, if_pos (UInt64.lt_iff_toNat_lt.mp hlt), toInt_toInt64_of_lt h]
    · have hle : dir prior ≤ dir e.2 := by
        rw [UInt64.le_iff_toNat_le]
        rw [UInt64.lt_iff_toNat_lt] at hlt
        omega
      have hsub := UInt64.toNat_sub_of_le (dir e.2) (dir prior) hle
      rw [if_neg hlt, if_neg (fun h' => hlt (UInt64.lt_iff_toNat_lt.mpr h')),
        toInt_toInt64_of_lt (by omega), hsub]

/-- The loop that adds up the growth is exact when the raw sum stays below `2 ^ 63`. -/
theorem deltaTotal_toInt (previous : InterfaceMap) (h : counterSum dir m < 2 ^ 63) :
    (deltaTotal dir previous m).toInt = (growth dir previous m : Int) := by
  have hterm : ∀ e ∈ m.entries,
      (interfaceDelta dir previous e).toInt = (interfaceGrowth dir previous e : Int) := by
    intro e he
    have := counter_le_counterSum dir he
    exact interfaceDelta_toInt (by omega)
  have hle := growth_le dir previous m
  have hzero : (0 : Int64).toInt = 0 := rfl
  have hloop := toInt_foldl_add m.entries 0 (le_of_eq hzero.symm) hterm (by
    show (0 : Int64).toInt + (growth dir previous m : Int) < 2 ^ 63
    omega)
  rw [hzero, Int.zero_add] at hloop
  exact hloop

/-! ## One function for both directions -/

/-- The branch conditions of one sample, shared by the two directions. -/
structure Branches where
  /-- The saved record is of another cycle. -/
  otherCycle : Bool
  /-- The raw counters are the traffic of the period. -/
  covers : Bool
  /-- A record with a legacy baseline is migrated. -/
  baseline : Bool
  /-- A record with zero totals is repaired. -/
  zeroInstall : Bool
  /-- The machine rebooted inside the period. -/
  rebooted : Bool
  /-- A new period has begun. -/
  rotated : Bool

/-- The totals are replaced by a migration. -/
def Branches.migrated (b : Branches) : Bool := b.baseline || b.zeroInstall

/-- The total that a migration leaves, and the saved one without a migration. -/
def startTotal (b : Branches) (raw saved base : Int64) : Int64 :=
  if b.baseline then maxInt64 0 (raw - base) else if b.zeroInstall then raw else saved

/-- The new total of one direction. -/
def directionTotal (b : Branches) (raw saved base delta : Int64) : Int64 :=
  if b.otherCycle then (if b.covers then raw else 0)
  else
    let delta := if b.rebooted then raw else if b.migrated then 0 else delta
    if b.rotated then (if b.covers then raw else delta)
    else startTotal b raw saved base + delta

namespace TrafficResetTracker

variable (loc : Location) (t : TrafficResetTracker) (x : Sample)

/-- The branches one sample takes. -/
def branches : Branches where
  otherCycle := t.otherCycle
  covers := t.covers loc x
  baseline := decide (t.state.counterVersion = 0) && t.legacyBaseline loc x
  zeroInstall := decide (t.state.counterVersion = 0) && !t.legacyBaseline loc x && t.zeroInstall loc x
  rebooted := t.bootChanged x && t.covers loc x
  rotated := decide (t.state.period ≠ t.currentPeriod loc x)

/-- The counters that the growth is measured against. -/
def previousCounters : InterfaceMap := (t.migrate loc x).2.1

theorem migrate_period : (t.migrate loc x).1.period = t.state.period := by
  unfold migrate
  simp only
  split_ifs <;> rfl

/-- **What a migration leaves**, by the branch taken. -/
theorem migrate_cases : (t.migrate loc x).2.2 = (t.branches loc x).migrated
    ∧ (t.migrate loc x).1.periodUp = startTotal (t.branches loc x)
        (rawTotal (·.sent) x.current) t.state.periodUp t.state.baselineUp
    ∧ (t.migrate loc x).1.periodDown = startTotal (t.branches loc x)
        (rawTotal (·.recv) x.current) t.state.periodDown t.state.baselineDown := by
  unfold migrate branches Branches.migrated startTotal
  by_cases hv : t.state.counterVersion = 0
  · cases hb : t.legacyBaseline loc x
    · cases hz : t.zeroInstall loc x
      · simp only [hv, if_true]
        split_ifs <;> simp_all
      · simp [hv]
    · simp [hv]
  · simp [hv]

theorem accumulate_totals (ho : t.otherCycle = false) :
    (t.accumulate loc x).periodUp = directionTotal (t.branches loc x)
        (rawTotal (·.sent) x.current) t.state.periodUp t.state.baselineUp
        (deltaTotal (·.sent) (t.previousCounters loc x) x.current)
    ∧ (t.accumulate loc x).periodDown = directionTotal (t.branches loc x)
        (rawTotal (·.recv) x.current) t.state.periodDown t.state.baselineDown
        (deltaTotal (·.recv) (t.previousCounters loc x) x.current) := by
  obtain ⟨hmig, hup, hdown⟩ := t.migrate_cases loc x
  have hper := t.migrate_period loc x
  have hother : (t.branches loc x).otherCycle = false := ho
  have hcov : (t.branches loc x).covers = t.covers loc x := rfl
  have hreb : (t.branches loc x).rebooted = (t.bootChanged x && t.covers loc x) := rfl
  have hrot : (t.branches loc x).rotated = decide (t.state.period ≠ t.currentPeriod loc x) := rfl
  unfold accumulate previousCounters directionTotal
  rw [hother, hcov, hreb, hrot, ← hmig, ← hup, ← hdown, ← hper]
  rcases t.migrate loc x with ⟨s, previous, migrated⟩
  by_cases h : s.period = t.currentPeriod loc x
  · cases t.covers loc x <;> cases t.bootChanged x <;> cases migrated <;> simp [h]
  · cases t.covers loc x <;> cases t.bootChanged x <;> cases migrated <;> simp [h]

/-- **Both totals after a sample**, one function of the branches taken. -/
theorem adjust_totals : (t.adjustInterfacesSinceBoot loc x).state.periodUp = directionTotal (t.branches loc x)
        (rawTotal (·.sent) x.current) t.state.periodUp t.state.baselineUp
        (deltaTotal (·.sent) (t.previousCounters loc x) x.current)
    ∧ (t.adjustInterfacesSinceBoot loc x).state.periodDown = directionTotal (t.branches loc x)
        (rawTotal (·.recv) x.current) t.state.periodDown t.state.baselineDown
        (deltaTotal (·.recv) (t.previousCounters loc x) x.current) := by
  show (if t.otherCycle then t.freshState loc x else t.accumulate loc x).periodUp = _
    ∧ (if t.otherCycle then t.freshState loc x else t.accumulate loc x).periodDown = _
  cases ho : t.otherCycle with
  | false => exact t.accumulate_totals loc x ho
  | true =>
    have hother : (t.branches loc x).otherCycle = true := ho
    have hcov : (t.branches loc x).covers = t.covers loc x := rfl
    unfold directionTotal freshState
    rw [hother, hcov]
    cases t.covers loc x <;> exact ⟨rfl, rfl⟩

end TrafficResetTracker

/-! ## The bound of one direction -/

section Bound

variable {b : Branches} {raw saved base delta : Int64}

/-- Migrations only happen inside the period of the record. -/
structure Branches.Coherent (b : Branches) : Prop where
  migrated_not_rotated : b.migrated = true → b.rotated = false
  rebooted_covers : b.rebooted = true → b.covers = true

/-- The migrated total together with the raw counters goes past what the period had, and shows:
    the sum does not wrap around. -/
def Exceeds (b : Branches) (raw saved base : Int) : Prop :=
  let start := if b.baseline then max 0 (raw - base) else raw
  saved < start ∧ start + raw < 2 ^ 63

/-- What the period had before: the saved total if it is the same period of the same cycle. -/
def oldTotal (b : Branches) (saved : Int) : Int :=
  if b.otherCycle || b.rotated then 0 else saved

theorem maxInt64_zero_toInt (x : Int64) : (maxInt64 0 x).toInt = max 0 x.toInt := by
  have hzero : (0 : Int64).toInt = 0 := rfl
  unfold maxInt64
  by_cases h : (0 : Int64) > x
  · rw [if_pos h]
    have := Int64.lt_iff_toInt_lt.mp h
    omega
  · rw [if_neg h]
    have : ¬ x.toInt < (0 : Int64).toInt := fun h' => h (Int64.lt_iff_toInt_lt.mpr h')
    omega

theorem startTotal_toInt (saved : Int64) (hr : 0 ≤ raw.toInt) (hb : 0 ≤ base.toInt) (hm : b.migrated = true) :
    (startTotal b raw saved base).toInt
      = if b.baseline then max 0 (raw.toInt - base.toInt) else raw.toInt := by
  unfold startTotal
  cases hbase : b.baseline with
  | true =>
    show (maxInt64 0 (raw - base)).toInt = max 0 (raw.toInt - base.toInt)
    rw [maxInt64_zero_toInt, toInt_sub_of_nonneg hr hb]
  | false =>
    have hz : b.zeroInstall = true := by
      unfold Branches.migrated at hm
      rw [hbase] at hm
      exact hm
    rw [hz]
    rfl

theorem startTotal_of_not_migrated (hm : b.migrated = false) : startTotal b raw saved base = saved := by
  obtain ⟨h1, h2⟩ := Bool.or_eq_false_iff.mp hm
  unfold startTotal
  rw [h1, h2]
  rfl

/-- **The bound of one direction**: the new total is at most what the period had plus the raw
    counters, except where a migration meets a reboot and the doubled total shows. -/
theorem directionTotal_le_iff (hco : b.Coherent) (hr : 0 ≤ raw.toInt) (hs : 0 ≤ saved.toInt)
    (hb : 0 ≤ base.toInt) (hd : 0 ≤ delta.toInt) (hdr : delta.toInt ≤ raw.toInt) :
    (directionTotal b raw saved base delta).toInt ≤ oldTotal b saved.toInt + raw.toInt ↔
      ¬ (b.otherCycle = false ∧ b.migrated = true ∧ b.rebooted = true
          ∧ Exceeds b raw.toInt saved.toInt base.toInt) := by
  have hzero : (0 : Int64).toInt = 0 := rfl
  unfold directionTotal oldTotal
  cases ho : b.otherCycle with
  | true =>
    -- a fresh record holds the raw counters or nothing
    have hle : (if b.covers = true then raw else 0).toInt ≤ 0 + raw.toInt := by
      cases b.covers with
      | true => exact le_of_eq (Int.zero_add _).symm
      | false =>
        show (0 : Int64).toInt ≤ _
        omega
    exact iff_of_true hle (fun h => absurd h.1 (by simp))
  | false =>
    cases hrot : b.rotated with
    | true =>
      -- rotation: the raw counters, or the growth of the rotating sample
      have hmig : b.migrated = false := by
        cases hm : b.migrated with
        | false => rfl
        | true => exact absurd (hco.migrated_not_rotated hm) (by simp [hrot])
      refine iff_of_true ?_ (fun h => absurd h.2.1 (by simp [hmig]))
      rw [hmig]
      cases b.covers with
      | true => exact le_of_eq (Int.zero_add _).symm
      | false => cases b.rebooted with
        | true => exact le_of_eq (Int.zero_add _).symm
        | false => exact le_trans hdr (le_of_eq (Int.zero_add _).symm)
    | false =>
      cases hreb : b.rebooted with
      | false =>
        -- no reboot: a migrated total stands alone, any other grows by its delta
        refine iff_of_true ?_ (fun h => absurd h.2.2.1 (by simp))
        cases hmig : b.migrated with
        | true =>
          have hst := startTotal_toInt saved hr hb hmig
          have hst0 : 0 ≤ (startTotal b raw saved base).toInt := by
            rw [hst]
            split_ifs <;> omega
          have hadd := toInt_add_le (b := 0) hst0 (le_of_eq hzero.symm)
          show (startTotal b raw saved base + 0).toInt ≤ saved.toInt + raw.toInt
          rw [hst] at hadd
          split_ifs at hadd <;> omega
        | false =>
          have hadd := toInt_add_le hs hd
          show (startTotal b raw saved base + delta).toInt ≤ saved.toInt + raw.toInt
          rw [startTotal_of_not_migrated hmig]
          omega
      | true =>
        cases hmig : b.migrated with
        | false =>
          refine iff_of_true ?_ (fun h => absurd h.2.1 (by simp))
          have hadd := toInt_add_le hs hr
          show (startTotal b raw saved base + raw).toInt ≤ saved.toInt + raw.toInt
          rw [startTotal_of_not_migrated hmig]
          omega
        | true =>
          -- both: the raw counters come on top of the migrated total
          have hst := startTotal_toInt saved hr hb hmig
          have hst0 : 0 ≤ (startTotal b raw saved base).toInt := by
            rw [hst]
            split_ifs <;> omega
          show (startTotal b raw saved base + raw).toInt ≤ saved.toInt + raw.toInt ↔ _
          unfold Exceeds
          simp only [true_and, ← hst]
          rcases toInt_add_cases hst0 hr with ⟨hlt, hval⟩ | ⟨hge, hval⟩
          · rw [hval]
            constructor
            · intro h hex
              omega
            · intro h
              by_contra hcon
              exact h ⟨by omega, hlt⟩
          · have hlst := (startTotal b raw saved base).toInt_lt
            have hlr := raw.toInt_lt
            refine iff_of_true (by rw [hval]; omega) (fun hex => ?_)
            omega

end Bound

/-! ## The bound of a sample -/

namespace TrafficResetTracker

variable (loc : Location) (t : TrafficResetTracker) (x : Sample)

theorem branches_coherent : (t.branches loc x).Coherent where
  migrated_not_rotated := by
    intro h
    have hper : t.state.period = t.currentPeriod loc x := by
      rcases (Bool.or_eq_true_iff ..).mp h with hb | hz
      · obtain ⟨-, hl⟩ := (Bool.and_eq_true_iff ..).mp hb
        exact (of_decide_eq_true hl).1
      · obtain ⟨-, hz⟩ := (Bool.and_eq_true_iff ..).mp hz
        exact (of_decide_eq_true hz).1
    show decide (t.state.period ≠ t.currentPeriod loc x) = false
    simp [hper]
  rebooted_covers := by
    intro h
    exact ((Bool.and_eq_true_iff ..).mp h).2

/-- What the period of the sample had before it: the saved total when the saved period, reset day
    and scope are the current ones, and nothing otherwise. -/
def priorTotal (saved : Int64) : Int :=
  if t.state.period = t.currentPeriod loc x ∧ t.state.resetDay = t.resetDay
      ∧ t.state.scope = t.scope then saved.toInt else 0

theorem priorTotal_eq (saved : Int64) :
    t.priorTotal loc x saved = oldTotal (t.branches loc x) saved.toInt := by
  unfold priorTotal oldTotal
  have hne : t.currentPeriod loc x ≠ "" := DateOnly.format_ne_empty _
  by_cases h : t.state.period = t.currentPeriod loc x ∧ t.state.resetDay = t.resetDay
      ∧ t.state.scope = t.scope
  · obtain ⟨hp, hd, hs⟩ := h
    have ho : t.otherCycle = false := by simp [otherCycle, hd, hs, hp, hne]
    rw [if_pos ⟨hp, hd, hs⟩]
    simp [branches, ho, hp]
  · rw [if_neg h]
    have hb : (t.otherCycle || decide (t.state.period ≠ t.currentPeriod loc x)) = true := by
      by_contra hcon
      simp only [otherCycle, Bool.or_eq_true, decide_eq_true_eq, not_or, not_not] at hcon
      exact h ⟨hcon.2, hcon.1.1, hcon.1.2.2⟩
    exact (if_pos hb).symm

/-- A record without per-interface counters is migrated by the first sample after a reboot inside
    the period: its totals are replaced and the raw counters are added to them. -/
def migratesAfterReboot : Bool :=
  !t.otherCycle && decide (t.state.counterVersion = 0)
    && (t.legacyBaseline loc x || t.zeroInstall loc x) && t.bootChanged x && t.covers loc x

/-- The total that the migration takes from the raw counters of one direction. -/
def migratedTotal (raw : Nat) (base : Int64) : Int :=
  if t.legacyBaseline loc x then max 0 ((raw : Int) - base.toInt) else raw

/-- In one direction the migrated total is above the saved one, and adding the raw counters to it
    does not wrap around. -/
def overCounts (raw : Nat) (saved base : Int64) : Prop :=
  saved.toInt < t.migratedTotal loc x raw base ∧ t.migratedTotal loc x raw base + raw < 2 ^ 63

theorem exceeds_iff (hv : t.state.counterVersion = 0) (raw : Nat) (saved base : Int64) :
    Exceeds (t.branches loc x) raw saved.toInt base.toInt ↔ t.overCounts loc x raw saved base := by
  unfold Exceeds overCounts migratedTotal branches
  simp [hv]

theorem migratesAfterReboot_iff : t.migratesAfterReboot loc x = true ↔
    t.state.counterVersion = 0 ∧ (t.branches loc x).otherCycle = false
      ∧ (t.branches loc x).migrated = true ∧ (t.branches loc x).rebooted = true := by
  unfold migratesAfterReboot branches Branches.migrated
  cases t.otherCycle <;> cases t.legacyBaseline loc x <;> cases t.zeroInstall loc x <;>
    cases t.bootChanged x <;> cases t.covers loc x <;> simp

theorem direction_bounded_iff (dir : TrafficInterfaceState → UInt64) {saved base : Int64}
    (hs : 0 ≤ saved.toInt) (hb : 0 ≤ base.toInt) (hsum : counterSum dir x.current < 2 ^ 63) :
    (directionTotal (t.branches loc x) (rawTotal dir x.current) saved base
        (deltaTotal dir (t.previousCounters loc x) x.current)).toInt
      ≤ t.priorTotal loc x saved + counterSum dir x.current ↔
    ¬ (t.migratesAfterReboot loc x = true ∧ t.overCounts loc x (counterSum dir x.current) saved base) := by
  have hraw := rawTotal_toInt hsum
  have hdelta := deltaTotal_toInt (t.previousCounters loc x) hsum
  have hle := growth_le dir (t.previousCounters loc x) x.current
  rw [priorTotal_eq, ← hraw, directionTotal_le_iff (t.branches_coherent loc x) (by omega) hs hb
    (by omega) (by omega), hraw, migratesAfterReboot_iff]
  refine not_congr ⟨?_, ?_⟩
  · rintro ⟨ho, hm, hr, hex⟩
    have hv : t.state.counterVersion = 0 := by
      by_contra hv
      simp [branches, Branches.migrated, hv] at hm
    exact ⟨⟨hv, ho, hm, hr⟩, (t.exceeds_iff loc x hv _ saved base).mp hex⟩
  · rintro ⟨⟨hv, ho, hm, hr⟩, hex⟩
    exact ⟨ho, hm, hr, (t.exceeds_iff loc x hv _ saved base).mpr hex⟩

/-- **When a sample does not over-count.**  For every accepted record and every sample whose raw
    sums stay below `2 ^ 63`, both totals are at most what the period had before plus the raw
    sums EXACTLY WHEN it is not the case that an old record is migrated after a reboot and, in
    some direction, the doubled total shows. -/
theorem period_totals_bounded_iff (hacc : Accepted t.state) (hup : counterSum (·.sent) x.current < 2 ^ 63)
    (hdown : counterSum (·.recv) x.current < 2 ^ 63) :
    ((t.adjustInterfacesSinceBoot loc x).state.periodUp.toInt
        ≤ t.priorTotal loc x t.state.periodUp + counterSum (·.sent) x.current
      ∧ (t.adjustInterfacesSinceBoot loc x).state.periodDown.toInt
        ≤ t.priorTotal loc x t.state.periodDown + counterSum (·.recv) x.current) ↔
    ¬ (t.migratesAfterReboot loc x = true
        ∧ (t.overCounts loc x (counterSum (·.sent) x.current) t.state.periodUp t.state.baselineUp
          ∨ t.overCounts loc x (counterSum (·.recv) x.current) t.state.periodDown t.state.baselineDown)) := by
  have hf := accepted_facts hacc
  obtain ⟨htu, htd⟩ := t.adjust_totals loc x
  rw [htu, htd, t.direction_bounded_iff loc x (·.sent) hf.periodUp hf.baselineUp hup,
    t.direction_bounded_iff loc x (·.recv) hf.periodDown hf.baselineDown hdown]
  constructor
  · rintro ⟨h1, h2⟩ ⟨hm, h | h⟩
    · exact h1 ⟨hm, h⟩
    · exact h2 ⟨hm, h⟩
  · intro h
    exact ⟨fun h1 => h ⟨h1.1, .inl h1.2⟩, fun h2 => h ⟨h2.1, .inr h2.2⟩⟩

/-- A record of the old format with zero totals, saved before the reboot of the 5th of September
    2026. -/
def zeroTotalsTracker : TrafficResetTracker where
  resetDay := 1
  scope := "same-scope"
  state := { resetDay := 1, period := "2026-09-01", scope := "same-scope",
             lastBootUnix := 1788307200 }
  resetDaySource := "local"
  policyResetDay := none

/-- The sample of the 6th of September 2026, noon UTC, with ten bytes in each direction since the
    boot at `boot` (seconds). -/
def noonSample (boot : Int) : Sample where
  current := InterfaceMap.single "eth0" ⟨10, 10⟩
  now := 1788696000 * Instant.second
  bootedAt := boot * Instant.second

/-- The ten bytes since the reboot are reported as twenty. -/
theorem reboot_migration_over_counts : Accepted zeroTotalsTracker.state
    ∧ counterSum (·.sent) (noonSample 1788566400).current < 2 ^ 63
    ∧ counterSum (·.recv) (noonSample 1788566400).current < 2 ^ 63
    ∧ ¬ ((zeroTotalsTracker.adjustInterfacesSinceBoot Location.utc
            (noonSample 1788566400)).state.periodUp.toInt
          ≤ zeroTotalsTracker.priorTotal Location.utc (noonSample 1788566400) zeroTotalsTracker.state.periodUp
            + counterSum (·.sent) (noonSample 1788566400).current) := by
  decide +kernel

/-- Without a reboot the same record and sample stay inside the bound. -/
theorem period_totals_bounded_without_reboot : (zeroTotalsTracker.adjustInterfacesSinceBoot Location.utc
        (noonSample 1788307200)).state.periodUp.toInt
      ≤ zeroTotalsTracker.priorTotal Location.utc (noonSample 1788307200) zeroTotalsTracker.state.periodUp
        + counterSum (·.sent) (noonSample 1788307200).current :=
  ((period_totals_bounded_iff Location.utc zeroTotalsTracker (noonSample 1788307200)
    (by decide +kernel) (by decide +kernel) (by decide +kernel)).mpr
      (fun h => absurd h.1 (by decide +kernel))).1

end TrafficResetTracker

end CfMonitor.Agent
