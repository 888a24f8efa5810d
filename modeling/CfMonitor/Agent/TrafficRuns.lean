/-
  Traffic accounting over whole runs of the agent.

  A world is a tracker together with its files.  A run is a list of samples and restarts; a sample
  ends with a save that succeeds (`step` is undefined when it fails), a restart builds the tracker
  anew from the files.

  Specification (`expectedTotal`)
    The total of a direction after a list of samples is
    * the contribution of the first sample of the current period: its raw sum when the machine
      booted inside the period, not after the sample; otherwise nothing if it is the first sample
      of all, and its growth over the sample before if it is not;
    * plus the growth of every later sample of the period over the sample before it.
    The growth of a sample counts the interfaces present in both samples, by the difference if the
    counter did not decrease and by its value if it did (`growth`).

  Correctness (`traffic_accounting`)
    Every reported total equals the specification, restarts included, as long as raw sums and
    totals stay below `2 ^ 63`, the boot is not before 1970 and the years have at most four
    digits.  The invariant (`Tracks`) relates the record in memory to the samples so far and the
    files to the record; a restart only moves the record from the files to memory.
-/
import CfMonitor.Agent.TrafficPeriods
import CfMonitor.Agent.TrafficTotals
import CfMonitor.Agent.TrafficCrash
import CfMonitor.Lib.Machine
import Mathlib.Data.List.Induction
import Mathlib.Data.List.Infix
import Mathlib.Data.UInt

namespace CfMonitor.Agent

open CfMonitor.Lib
open TrafficResetTracker (accumulate bootChanged branches freshState migrate newTrafficResetTracker
  otherCycle)

/-! ## The specification -/

section Specification

variable (loc : Location) (resetDay : Int)

/-- The period of a sample. -/
def sampleKey (x : Sample) : String := trafficResetPeriodKey loc x.now resetDay

/-- The machine booted inside the period of the sample. -/
def bootInside (x : Sample) : Bool :=
  rawTrafficCoversPeriod (lastTrafficResetDate loc resetDay x.now) x.now x.bootedAt

variable (dir : TrafficInterfaceState → UInt64)

/-- What the sample that opens a period contributes, after the sample `before`. -/
def openingContribution (before : Option Sample) (x : Sample) : Nat :=
  if bootInside loc resetDay x then counterSum dir x.current
  else match before with
    | none => 0
    | some y => growth dir y.current x.current

/-- The contribution of the first sample of the period `p`; `before` is the sample before the
    list. -/
def firstContribution (p : String) : Option Sample → List Sample → Nat
  | _, [] => 0
  | before, x :: rest =>
    if sampleKey loc resetDay x = p then openingContribution loc resetDay dir before x
    else firstContribution p (some x) rest

/-- The growth of the later samples of the period `p`. -/
def laterIncrements (p : String) : List Sample → Nat
  | [] => 0
  | [_] => 0
  | y :: x :: rest =>
    (if sampleKey loc resetDay y = p ∧ sampleKey loc resetDay x = p
      then growth dir y.current x.current else 0) + laterIncrements p (x :: rest)

/-- What the agent has to report after these samples. -/
def expectedTotal (xs : List Sample) : Nat :=
  match xs.getLast? with
  | none => 0
  | some x => firstContribution loc resetDay dir (sampleKey loc resetDay x) none xs
      + laterIncrements loc resetDay dir (sampleKey loc resetDay x) xs

variable {loc resetDay dir}

variable {p : String}

variable {xs : List Sample}

theorem firstContribution_append (x : Sample) : ∀ before, (∃ z ∈ xs, sampleKey loc resetDay z = p) →
      firstContribution loc resetDay dir p before (xs ++ [x])
        = firstContribution loc resetDay dir p before xs := by
  induction xs with
  | nil => rintro before ⟨z, hz, -⟩; cases hz
  | cons y ys ih =>
    rintro before ⟨z, hz, hkey⟩
    rw [List.cons_append, firstContribution, firstContribution]
    by_cases hy : sampleKey loc resetDay y = p
    · rw [if_pos hy, if_pos hy]
    · rw [if_neg hy, if_neg hy]
      refine ih (some y) ?_
      rcases List.mem_cons.mp hz with rfl | hz
      · exact absurd hkey hy
      · exact ⟨z, hz, hkey⟩

variable {ys : List Sample} {y x : Sample}

/-- A sample that opens its period, after the sample `y`. -/
theorem firstContribution_new (hx : sampleKey loc resetDay x = p) :
    ∀ before, (∀ z ∈ ys ++ [y], sampleKey loc resetDay z ≠ p) →
      firstContribution loc resetDay dir p before (ys ++ [y] ++ [x])
        = openingContribution loc resetDay dir (some y) x := by
  induction ys with
  | nil =>
    intro before hnew
    have hy : sampleKey loc resetDay y ≠ p := hnew y List.mem_cons_self
    show firstContribution loc resetDay dir p before [y, x] = _
    rw [firstContribution, if_neg hy, firstContribution, if_pos hx]
  | cons z zs ih =>
    intro before hnew
    have hz : sampleKey loc resetDay z ≠ p := hnew z List.mem_cons_self
    rw [List.cons_append, List.cons_append, firstContribution, if_neg hz]
    exact ih (some z) fun z' hz' => hnew z' (List.mem_cons_of_mem z hz')

theorem laterIncrements_append : laterIncrements loc resetDay dir p (ys ++ [y] ++ [x])
      = laterIncrements loc resetDay dir p (ys ++ [y])
        + if sampleKey loc resetDay y = p ∧ sampleKey loc resetDay x = p
            then growth dir y.current x.current else 0 := by
  induction ys with
  | nil => exact Nat.add_comm _ _
  | cons z zs ih =>
    cases zs with
    | nil =>
      show laterIncrements loc resetDay dir p [z, y, x] = laterIncrements loc resetDay dir p [z, y] + _
      simp only [laterIncrements]
      omega
    | cons z' zs' =>
      show laterIncrements loc resetDay dir p (z :: z' :: (zs' ++ [y] ++ [x]))
        = laterIncrements loc resetDay dir p (z :: z' :: (zs' ++ [y])) + _
      rw [laterIncrements, laterIncrements]
      have ih' : laterIncrements loc resetDay dir p (z' :: (zs' ++ [y] ++ [x]))
        = laterIncrements loc resetDay dir p (z' :: (zs' ++ [y])) + _ := ih
      rw [ih']
      omega

theorem laterIncrements_none
    (h : ∀ z ∈ xs, sampleKey loc resetDay z ≠ p) : laterIncrements loc resetDay dir p xs = 0 := by
  induction xs with
  | nil => rfl
  | cons y ys ih =>
    cases ys with
    | nil => rfl
    | cons x rest =>
      rw [laterIncrements, if_neg (fun hyx => h y List.mem_cons_self hyx.1),
        ih fun z hz => h z (List.mem_cons_of_mem y hz)]

theorem expectedTotal_concat (xs : List Sample) (x : Sample) : expectedTotal loc resetDay dir (xs ++ [x])
      = firstContribution loc resetDay dir (sampleKey loc resetDay x) none (xs ++ [x])
        + laterIncrements loc resetDay dir (sampleKey loc resetDay x) (xs ++ [x]) := by
  unfold expectedTotal
  rw [List.getLast?_concat]

/-- **The first sample of all.** -/
theorem expectedTotal_single (x : Sample) : expectedTotal loc resetDay dir [x]
      = openingContribution loc resetDay dir none x := by
  show firstContribution loc resetDay dir (sampleKey loc resetDay x) none [x] + 0 = _
  rw [firstContribution, if_pos rfl, Nat.add_zero]

/-- **A further sample of the same period** adds its growth. -/
theorem expectedTotal_same (h : sampleKey loc resetDay y = sampleKey loc resetDay x) :
    expectedTotal loc resetDay dir (ys ++ [y] ++ [x])
      = expectedTotal loc resetDay dir (ys ++ [y]) + growth dir y.current x.current := by
  have hex : ∃ z ∈ ys ++ [y], sampleKey loc resetDay z = sampleKey loc resetDay x :=
    ⟨y, List.mem_append_right ys List.mem_cons_self, h⟩
  rw [expectedTotal_concat, expectedTotal_concat, firstContribution_append x none hex,
    laterIncrements_append, if_pos ⟨h, rfl⟩, h]
  omega

/-- **A sample that opens a new period.** -/
theorem expectedTotal_new (h : ∀ z ∈ ys ++ [y], sampleKey loc resetDay z ≠ sampleKey loc resetDay x) :
    expectedTotal loc resetDay dir (ys ++ [y] ++ [x]) = openingContribution loc resetDay dir (some y) x := by
  have hy : sampleKey loc resetDay y ≠ sampleKey loc resetDay x :=
    h y (List.mem_append_right ys List.mem_cons_self)
  rw [expectedTotal_concat, firstContribution_new rfl none h, laterIncrements_append,
    laterIncrements_none h, if_neg (fun hyx => hy hyx.1), Nat.add_zero]

end Specification

/-! ## Worlds and runs -/

/-- A running tracker and the files beside its state file. -/
structure TrafficWorld where
  tracker : TrafficResetTracker
  files : TrafficDir

/-- What happens to the agent. -/
inductive TrafficEvent where
  | sample (x : Sample) (plan : WritePlan)
  | restart

/-- `load`: the recovered record, or an empty one; damage is remembered as a gap. -/
def loadState (d : TrafficDir) : TrafficResetState :=
  match readTrafficResetState d with
  | .ok g => g.state
  | .error (.corruption _) => { historyIncomplete := true }
  | .error _ => {}

/-- `save`: the next revision, written to the files. -/
def bumpRevision (s : TrafficResetState) : TrafficResetState := { s with revision := s.revision + 1 }

section Runs

variable (loc : Location) (resetDay : Int) (scope : String)

/-- The agent as it starts. -/
def bootWorld (d : TrafficDir) : TrafficWorld :=
  ⟨TrafficResetTracker.newTrafficResetTracker resetDay scope (loadState d), d⟩

/-- The record that a sample leaves in memory and saves. -/
def sampledTracker (t : TrafficResetTracker) (x : Sample) : TrafficResetTracker :=
  let t' := t.adjustInterfacesSinceBoot loc x
  { t' with state := bumpRevision t'.state }

/-- One event; a sample whose save fails has no successor here. -/
def trafficStep (w : TrafficWorld) : TrafficEvent → Option TrafficWorld
  | .restart => some (bootWorld resetDay scope w.files)
  | .sample x plan =>
    let t := sampledTracker loc w.tracker x
    let run := writeTrafficResetState t.state plan w.files
    match run.result with
    | .ok _ => some ⟨t, run.last⟩
    | .error _ => none

/-- The agent as a machine. -/
def trafficMachine : Machine TrafficWorld TrafficEvent := ⟨trafficStep loc resetDay scope⟩

/-- The sample of an event. -/
def sampleOf : TrafficEvent → Option Sample
  | .sample x _ => some x
  | .restart => none

/-- The samples of a run. -/
def samplesOf (es : List TrafficEvent) : List Sample := es.filterMap sampleOf

/-! ## The invariant -/

/-- The record of a tracker after the samples `xs`, the last of which is `y`. -/
structure RecordOf (boot : Int) (xs : List Sample) (y : Sample) (s : TrafficResetState) : Prop where
  cycle : s.resetDay = normalizeTrafficResetDay resetDay
  period : s.period = sampleKey loc resetDay y
  counting : s.scope = scope
  interfaces : s.interfaces = y.current
  counterVersion : s.counterVersion = 1
  lastBootUnix : s.lastBootUnix = trafficBootUnix boot
  resetDaySource : s.resetDaySource = "local"
  policyResetDay : s.policyResetDay = none
  periodUp : s.periodUp.toInt = expectedTotal loc resetDay (·.sent) xs
  periodDown : s.periodDown.toInt = expectedTotal loc resetDay (·.recv) xs

/-- The settings of a tracker that no policy has reached. -/
structure LocalSettings (t : TrafficResetTracker) : Prop where
  cycle : t.resetDay = normalizeTrafficResetDay resetDay
  counting : t.scope = scope
  resetDaySource : t.resetDaySource = "local"
  policyResetDay : t.policyResetDay = none

/-- Before the first sample: an empty record, and nothing to recover. -/
structure Idle (w : TrafficWorld) : Prop where
  period : w.tracker.state.period = ""
  files : ∀ g, readTrafficResetState w.files ≠ .ok g

/-- After samples: the record in memory, and the same record in the files, but for the gap mark. -/
structure Holding (boot : Int) (xs : List Sample) (y : Sample) (w : TrafficWorld) : Prop where
  record : RecordOf loc resetDay scope boot xs y w.tracker.state
  files : ∃ gap, recovered w.files = some (markHistory gap w.tracker.state)

/-- **The invariant**: what memory and files hold after the samples `xs`. -/
def Tracks (boot : Int) (xs : List Sample) (w : TrafficWorld) : Prop :=
  LocalSettings resetDay scope w.tracker ∧
    ((xs = [] ∧ Idle w) ∨ ∃ ys y, xs = ys ++ [y] ∧ Holding loc resetDay scope boot xs y w)

/-! ## The domain -/

/-- Samples of one boot, in non-decreasing time. -/
structure SampleRun (boot : Int) (xs : List Sample) : Prop where
  boot : ∀ x ∈ xs, x.bootedAt = boot
  ordered : xs.Pairwise fun x y => x.now ≤ y.now

/-- Everything that the record and the file format can represent: years of at most four digits,
    raw sums and totals below `2 ^ 63`, a boot that is not before 1970. -/
structure Representable (boot : Int) (xs : List Sample) : Prop where
  years : ∀ x ∈ xs, ReadableYear loc resetDay x.now
  rawUp : ∀ x ∈ xs, counterSum (·.sent) x.current < 2 ^ 63
  rawDown : ∀ x ∈ xs, counterSum (·.recv) x.current < 2 ^ 63
  totalUp : ∀ ys, ys <+: xs → expectedTotal loc resetDay (·.sent) ys < 2 ^ 63
  totalDown : ∀ ys, ys <+: xs → expectedTotal loc resetDay (·.recv) ys < 2 ^ 63
  bootUnix : 0 ≤ trafficBootUnix boot

end Runs

section Proof

variable {loc : Location} {resetDay : Int} {scope : String} {boot : Int}

variable {xs : List Sample} {x : Sample}

theorem SampleRun.init (h : SampleRun boot (xs ++ [x])) :
    SampleRun boot xs where
  boot := fun z hz => h.boot z (List.mem_append_left _ hz)
  ordered := (List.pairwise_append.mp h.ordered).1

theorem Representable.init
    (h : Representable loc resetDay boot (xs ++ [x])) : Representable loc resetDay boot xs where
  years := fun z hz => h.years z (List.mem_append_left _ hz)
  rawUp := fun z hz => h.rawUp z (List.mem_append_left _ hz)
  rawDown := fun z hz => h.rawDown z (List.mem_append_left _ hz)
  totalUp := fun ys hys => h.totalUp ys (hys.trans (List.prefix_append xs [x]))
  totalDown := fun ys hys => h.totalDown ys (hys.trans (List.prefix_append xs [x]))
  bootUnix := h.bootUnix

/-- **Samples of a period are consecutive**: when the period changes, it is a new one. -/
theorem new_period {ys : List Sample} {y : Sample} (hrun : SampleRun boot (ys ++ [y] ++ [x]))
    (hrep : Representable loc resetDay boot (ys ++ [y] ++ [x]))
    (h : sampleKey loc resetDay y ≠ sampleKey loc resetDay x) :
    ∀ z ∈ ys ++ [y], sampleKey loc resetDay z ≠ sampleKey loc resetDay x := by
  intro z hz hzx
  have hy : y ∈ ys ++ [y] := List.mem_append_right ys List.mem_cons_self
  obtain ⟨hpre, -, hlast⟩ := List.pairwise_append.mp hrun.ordered
  have hyx : y.now ≤ x.now := hlast y hy x List.mem_cons_self
  have hzy : z.now ≤ y.now := by
    rcases List.mem_append.mp hz with hz' | hz'
    · exact (List.pairwise_append.mp hpre).2.2 z hz' y List.mem_cons_self
    · rw [List.mem_singleton.mp hz']
  exact h (trafficResetPeriodKey_between hzy hyx (hrep.years z (List.mem_append_left _ hz))
    (hrep.years x (List.mem_append_right _ List.mem_cons_self)) hzx)

/-! ## Restarts -/

variable {s : TrafficResetState}

theorem newTracker_settings (resetDay : Int) (scope : String) (hpol : s.policyResetDay = none)
    (hsrc : s.period = "" ∨ s.resetDaySource = "local") :
    LocalSettings resetDay scope (newTrafficResetTracker resetDay scope s)
    ∧ (newTrafficResetTracker resetDay scope s).state = s := by
  unfold newTrafficResetTracker
  rw [hpol]
  unfold TrafficResetTracker.restoreResetDay
  have hno : ¬ (1 ≤ s.resetDay ∧ s.resetDay ≤ 31 ∧ s.period ≠ "" ∧ s.resetDaySource ≠ "local") := by
    rintro ⟨-, -, hp, hs⟩
    rcases hsrc with h | h
    · exact hp h
    · exact hs h
  simp only
  rw [if_neg hno]
  exact ⟨⟨rfl, rfl, rfl, rfl⟩, rfl⟩

variable {d : TrafficDir}

theorem loadState_of_recovered (h : recovered d = some s) : loadState d = s := by
  unfold recovered at h
  unfold loadState
  cases hr : readTrafficResetState d with
  | ok g =>
    rw [hr] at h
    exact Option.some.inj h
  | error e =>
    rw [hr] at h
    cases h

theorem loadState_of_none (h : ∀ g, readTrafficResetState d ≠ .ok g) :
    (loadState d).period = "" ∧ (loadState d).policyResetDay = none := by
  unfold loadState
  cases hr : readTrafficResetState d with
  | ok g => exact absurd hr (h g)
  | error e => cases e <;> exact ⟨rfl, rfl⟩

theorem RecordOf.mark {y : Sample} (h : RecordOf loc resetDay scope boot xs y s) (gap : Bool) :
    RecordOf loc resetDay scope boot xs y (markHistory gap s) := by
  cases gap with
  | false => exact h
  | true => exact ⟨h.cycle, h.period, h.counting, h.interfaces, h.counterVersion, h.lastBootUnix,
      h.resetDaySource, h.policyResetDay, h.periodUp, h.periodDown⟩

theorem bootWorld_idle (resetDay : Int) (scope : String) (h : ∀ g, readTrafficResetState d ≠ .ok g) :
    LocalSettings resetDay scope (bootWorld resetDay scope d).tracker
    ∧ Idle (bootWorld resetDay scope d) := by
  obtain ⟨hper, hpol⟩ := loadState_of_none h
  obtain ⟨hset, hst⟩ := newTracker_settings resetDay scope hpol (.inl hper)
  exact ⟨hset, ⟨by show (newTrafficResetTracker _ _ _).state.period = ""
                   rw [hst]; exact hper, h⟩⟩

variable {w : TrafficWorld}

/-- **A restart is transparent.** -/
theorem tracks_restart (h : Tracks loc resetDay scope boot xs w) :
    Tracks loc resetDay scope boot xs (bootWorld resetDay scope w.files) := by
  obtain ⟨-, ⟨rfl, hidle⟩ | ⟨ys, y, rfl, hhold⟩⟩ := h
  · obtain ⟨hset, hidle'⟩ := bootWorld_idle resetDay scope hidle.files
    exact ⟨hset, .inl ⟨rfl, hidle'⟩⟩
  · obtain ⟨gap, hgap⟩ := hhold.files
    have hrec := hhold.record.mark gap
    have hload := loadState_of_recovered hgap
    obtain ⟨hset, hst⟩ := newTracker_settings resetDay scope
      (s := loadState w.files) (by rw [hload]; exact hrec.policyResetDay)
      (.inr (by rw [hload]; exact hrec.resetDaySource))
    rw [hload] at hst
    have hstate : (bootWorld resetDay scope w.files).tracker.state = markHistory gap w.tracker.state := by
      show (newTrafficResetTracker _ _ (loadState w.files)).state = _
      rw [hload]
      exact hst
    refine ⟨hset, .inr ⟨ys, y, rfl, ⟨hstate ▸ hrec, false, ?_⟩⟩⟩
    show recovered w.files = some (bootWorld resetDay scope w.files).tracker.state
    rw [hstate]
    exact hgap

/-! ## Samples -/

section Step

variable {t : TrafficResetTracker} {x : Sample}

theorem currentPeriod_eq (h : t.resetDay = normalizeTrafficResetDay resetDay) :
    t.currentPeriod loc x = sampleKey loc resetDay x := by
  show DateOnly.format (loc.date (lastTrafficResetDate loc t.resetDay x.now)) = _
  rw [h, lastTrafficResetDate_normalize]
  rfl

theorem covers_eq (h : t.resetDay = normalizeTrafficResetDay resetDay) :
    t.covers loc x = bootInside loc resetDay x := by
  show rawTrafficCoversPeriod (lastTrafficResetDate loc t.resetDay x.now) _ _ = _
  rw [h, lastTrafficResetDate_normalize]
  rfl

theorem adjust_period : (t.adjustInterfacesSinceBoot loc x).state.period = t.currentPeriod loc x := by
  show (if t.otherCycle then t.freshState loc x else t.accumulate loc x).period = _
  cases t.otherCycle with
  | true =>
    show (t.freshState loc x).period = _
    unfold freshState
    cases t.covers loc x <;> rfl
  | false =>
    show (t.accumulate loc x).period = _
    have hper := t.migrate_period loc x
    unfold accumulate
    rcases t.migrate loc x with ⟨s, previous, migrated⟩
    simp only
    by_cases h : s.period = t.currentPeriod loc x
    · rw [if_neg (not_not.mpr h)]
      exact h
    · rw [if_pos h]

theorem adjust_lastBootUnix : (t.adjustInterfacesSinceBoot loc x).state.lastBootUnix
    = if trafficBootUnix x.bootedAt ≠ 0 then trafficBootUnix x.bootedAt
      else if t.otherCycle then 0 else t.state.lastBootUnix := by
  show (if trafficBootUnix x.bootedAt ≠ 0 then trafficBootUnix x.bootedAt
    else (if t.otherCycle then t.freshState loc x else t.accumulate loc x).lastBootUnix) = _
  congr 1
  cases t.otherCycle with
  | true =>
    show (t.freshState loc x).lastBootUnix = 0
    unfold freshState
    cases t.covers loc x <;> rfl
  | false =>
    show (t.accumulate loc x).lastBootUnix = t.state.lastBootUnix
    unfold accumulate migrate
    simp only
    split_ifs <;> rfl

theorem adjust_revision : (t.adjustInterfacesSinceBoot loc x).state.revision = t.state.revision := by
  show (if t.otherCycle then t.freshState loc x else t.accumulate loc x).revision = _
  cases t.otherCycle with
  | true =>
    show (t.freshState loc x).revision = _
    unfold freshState
    cases t.covers loc x <;> rfl
  | false =>
    show (t.accumulate loc x).revision = _
    unfold accumulate migrate
    simp only
    split_ifs <;> rfl

variable {saved : Int64}

theorem directionTotal_plain {b : Branches} {raw base delta : Int64}
    (ho : b.otherCycle = false) (hm : b.migrated = false) (hr : b.rebooted = false) :
    directionTotal b raw saved base delta
      = if b.rotated then (if b.covers then raw else delta) else saved + delta := by
  unfold directionTotal
  rw [ho, hm, hr, startTotal_of_not_migrated hm]
  rfl

theorem opening_total (dir : TrafficInterfaceState → UInt64) (hsum : counterSum dir x.current < 2 ^ 63) :
    (if bootInside loc resetDay x then rawTotal dir x.current else 0).toInt
      = openingContribution loc resetDay dir none x := by
  unfold openingContribution
  cases bootInside loc resetDay x with
  | true => exact rawTotal_toInt hsum
  | false => rfl

theorem continued_total (dir : TrafficInterfaceState → UInt64) {ys : List Sample} {y : Sample}
    (hrun : SampleRun boot (ys ++ [y] ++ [x]))
    (hrep : Representable loc resetDay boot (ys ++ [y] ++ [x]))
    (hsum : counterSum dir x.current < 2 ^ 63)
    (htotal : expectedTotal loc resetDay dir (ys ++ [y] ++ [x]) < 2 ^ 63)
    (hsaved : saved.toInt = expectedTotal loc resetDay dir (ys ++ [y])) :
    (if decide (sampleKey loc resetDay y ≠ sampleKey loc resetDay x) then
        (if bootInside loc resetDay x then rawTotal dir x.current
          else deltaTotal dir y.current x.current)
      else saved + deltaTotal dir y.current x.current).toInt
      = expectedTotal loc resetDay dir (ys ++ [y] ++ [x]) := by
  have hdelta := deltaTotal_toInt y.current hsum
  by_cases hkey : sampleKey loc resetDay y = sampleKey loc resetDay x
  · rw [if_neg (by simp [hkey])]
    rw [expectedTotal_same hkey] at htotal ⊢
    rw [toInt_add_of_lt (by omega) (by omega) (by omega), hdelta, hsaved]
    omega
  · rw [if_pos (by simp [hkey]), expectedTotal_new (new_period hrun hrep hkey)]
    unfold openingContribution
    cases bootInside loc resetDay x with
    | true => exact rawTotal_toInt hsum
    | false => exact hdelta

theorem branches_continued {xs : List Sample} {y : Sample} (hset : LocalSettings resetDay scope t)
    (hrec : RecordOf loc resetDay scope boot xs y t.state) (hboot : x.bootedAt = boot) :
    (t.branches loc x).otherCycle = false ∧ (t.branches loc x).migrated = false
      ∧ (t.branches loc x).rebooted = false ∧ t.previousCounters loc x = y.current := by
  have hne : t.state.period ≠ "" := by
    rw [hrec.period]
    exact DateOnly.format_ne_empty _
  have hother : t.otherCycle = false := by
    simp [otherCycle, hrec.cycle, hset.cycle, hne, hrec.counting, hset.counting]
  have hsame : t.bootChanged x = false := by
    simp [bootChanged, hrec.lastBootUnix, hboot]
  refine ⟨hother, ?_, ?_, ?_⟩
  · simp [branches, Branches.migrated, hrec.counterVersion]
  · simp [branches, hsame]
  · simp [TrafficResetTracker.previousCounters, migrate, hrec.counterVersion, hrec.interfaces]

theorem otherCycle_of_empty (h : t.state.period = "") : t.otherCycle = true := by
  simp [otherCycle, h]

theorem sampled_record {xs : List Sample} (hset : LocalSettings resetDay scope t) (hboot : x.bootedAt = boot)
    (hlast : t.otherCycle = true ∨ t.state.lastBootUnix = trafficBootUnix boot)
    (hup : (t.adjustInterfacesSinceBoot loc x).state.periodUp.toInt = expectedTotal loc resetDay (·.sent) xs)
    (hdown : (t.adjustInterfacesSinceBoot loc x).state.periodDown.toInt
      = expectedTotal loc resetDay (·.recv) xs) :
    RecordOf loc resetDay scope boot xs x (sampledTracker loc t x).state where
  cycle := hset.cycle
  period := adjust_period.trans (currentPeriod_eq hset.cycle)
  counting := hset.counting
  interfaces := rfl
  counterVersion := rfl
  lastBootUnix := by
    show (t.adjustInterfacesSinceBoot loc x).state.lastBootUnix = _
    rw [adjust_lastBootUnix, hboot]
    by_cases hb : trafficBootUnix boot = 0
    · rw [if_neg (not_not.mpr hb)]
      rcases hlast with h | h
      · rw [if_pos h, hb]
      · rw [h, hb, ite_self]
    · rw [if_pos hb]
  resetDaySource := hset.resetDaySource
  policyResetDay := hset.policyResetDay
  periodUp := hup
  periodDown := hdown

end Step

/-- **The totals after a sample.** -/
theorem sampled_totals
    (hrun : SampleRun boot (xs ++ [x])) (hrep : Representable loc resetDay boot (xs ++ [x]))
    (h : Tracks loc resetDay scope boot xs w) :
    RecordOf loc resetDay scope boot (xs ++ [x]) x (sampledTracker loc w.tracker x).state := by
  have hx : x ∈ xs ++ [x] := List.mem_append_right xs List.mem_cons_self
  have hboot := hrun.boot x hx
  obtain ⟨htu, htd⟩ := w.tracker.adjust_totals loc x
  obtain ⟨hset, ⟨rfl, hidle⟩ | ⟨ys, y, rfl, hhold⟩⟩ := h
  · -- the first sample of all
    have ho := otherCycle_of_empty hidle.period
    have hplain : ∀ raw saved base delta, directionTotal (w.tracker.branches loc x) raw saved base delta
          = if bootInside loc resetDay x then raw else 0 := by
      intro raw saved base delta
      unfold directionTotal
      rw [show (w.tracker.branches loc x).otherCycle = true from ho,
        show (w.tracker.branches loc x).covers = _ from covers_eq hset.cycle]
      rfl
    refine sampled_record hset hboot (.inl ho) ?_ ?_
    · rw [htu, hplain, opening_total (·.sent) (hrep.rawUp x hx), List.nil_append, expectedTotal_single]
    · rw [htd, hplain, opening_total (·.recv) (hrep.rawDown x hx), List.nil_append, expectedTotal_single]
  · have hrec := hhold.record
    obtain ⟨ho, hm, hr, hprev⟩ := branches_continued hset hrec hboot
    have hrot : (w.tracker.branches loc x).rotated
        = decide (sampleKey loc resetDay y ≠ sampleKey loc resetDay x) := by
      show decide (w.tracker.state.period ≠ w.tracker.currentPeriod loc x) = _
      rw [hrec.period, currentPeriod_eq hset.cycle]
    have hcov : (w.tracker.branches loc x).covers = bootInside loc resetDay x :=
      covers_eq hset.cycle
    refine sampled_record hset hboot (.inr hrec.lastBootUnix) ?_ ?_
    · rw [htu, directionTotal_plain ho hm hr, hrot, hcov, hprev]
      exact continued_total (·.sent) hrun hrep (hrep.rawUp x hx)
        (hrep.totalUp _ (List.prefix_refl _)) hrec.periodUp
    · rw [htd, directionTotal_plain ho hm hr, hrot, hcov, hprev]
      exact continued_total (·.recv) hrun hrep (hrep.rawDown x hx)
        (hrep.totalDown _ (List.prefix_refl _)) hrec.periodDown

theorem sampled_accepted {t : TrafficResetTracker} (hrep : Representable loc resetDay boot (xs ++ [x]))
    (hrec : RecordOf loc resetDay scope boot (xs ++ [x]) x (sampledTracker loc t x).state) :
    Accepted (sampledTracker loc t x).state := by
  have hx : x ∈ xs ++ [x] := List.mem_append_right xs List.mem_cons_self
  have hyear := hrep.years x hx
  refine accepted_of hrec.counterVersion hrec.policyResetDay ?_ ?_ ?_
  · have hru : (sampledTracker loc t x).state.lastRawUp = rawTotal (·.sent) x.current := rfl
    have hrd : (sampledTracker loc t x).state.lastRawDown = rawTotal (·.recv) x.current := rfl
    have hbu : (sampledTracker loc t x).state.baselineUp = 0 := rfl
    have hbd : (sampledTracker loc t x).state.baselineDown = 0 := rfl
    have h0 : (0 : Int64).toInt = 0 := rfl
    have hbu0 := hrep.bootUnix
    unfold badCounters
    simp only [decide_eq_false_iff_not, not_or, int64_neg_iff, hru, hrd, hbu, hbd, h0,
      hrec.periodUp, hrec.periodDown, hrec.lastBootUnix, hrec.counterVersion,
      rawTotal_toInt (hrep.rawUp x hx), rawTotal_toInt (hrep.rawDown x hx)]
    omega
  · rw [hrec.period]
    show (DateOnly.parse (DateOnly.format (periodDate loc resetDay x.now))).isSome
    rw [DateOnly.parse_format _ hyear.1 hyear.2]
    rfl
  · rw [hrec.cycle]
    exact normalizeTrafficResetDay_bounds resetDay

/-- **A sample keeps the invariant.** -/
theorem tracks_sample {w' : TrafficWorld} {plan : WritePlan}
    (hrun : SampleRun boot (xs ++ [x])) (hrep : Representable loc resetDay boot (xs ++ [x]))
    (h : Tracks loc resetDay scope boot xs w)
    (hstep : trafficStep loc resetDay scope w (.sample x plan) = some w') :
    Tracks loc resetDay scope boot (xs ++ [x]) w' := by
  have hrec := sampled_totals hrun hrep h
  have hacc := sampled_accepted hrep hrec
  have hrev : ∀ g, readTrafficResetState w.files = .ok g →
      g.state.revision < (sampledTracker loc w.tracker x).state.revision := by
    intro g hg
    have hnext : (sampledTracker loc w.tracker x).state.revision = w.tracker.state.revision + 1 := by
      show (w.tracker.adjustInterfacesSinceBoot loc x).state.revision + 1 = _
      rw [adjust_revision]
    obtain ⟨-, ⟨-, hidle⟩ | ⟨ys, y, -, hhold⟩⟩ := h
    · exact absurd hg (hidle.files g)
    · obtain ⟨gap, hgap⟩ := hhold.files
      rw [recovered_of_read hg] at hgap
      rw [Option.some.inj hgap, markHistory_revision, hnext]
      omega
  unfold trafficStep at hstep
  simp only at hstep
  cases hres : (writeTrafficResetState (sampledTracker loc w.tracker x).state plan
      w.files).result with
  | error e =>
    rw [hres] at hstep
    cases hstep
  | ok u =>
    rw [hres] at hstep
    cases hstep
    refine ⟨⟨h.1.cycle, h.1.counting, h.1.resetDaySource, h.1.policyResetDay⟩,
      .inr ⟨xs, x, rfl, ⟨hrec, _, write_recovers hacc hrev hres⟩⟩⟩

/-! ## Whole runs -/

theorem samplesOf_concat (es : List TrafficEvent) (e : TrafficEvent) :
    samplesOf (es ++ [e]) = samplesOf es ++ (sampleOf e).toList := by
  unfold samplesOf
  rw [List.filterMap_append]
  cases h : sampleOf e <;> simp [h]

/-- **The invariant holds along every run.** -/
theorem run_tracks (boot : Int) (hd : ∀ g, readTrafficResetState d ≠ .ok g) (es : List TrafficEvent) :
    ∀ w, (trafficMachine loc resetDay scope).run (bootWorld resetDay scope d) es = some w →
      SampleRun boot (samplesOf es) → Representable loc resetDay boot (samplesOf es) →
      Tracks loc resetDay scope boot (samplesOf es) w := by
  induction es using List.reverseRecOn with
  | nil =>
    intro w hr _ _
    cases hr
    obtain ⟨hset, hidle⟩ := bootWorld_idle resetDay scope hd
    exact ⟨hset, .inl ⟨rfl, hidle⟩⟩
  | append_singleton es e ih =>
    intro w hr hrun hrep
    obtain ⟨u, hu, hstep⟩ := (trafficMachine loc resetDay scope).run_concat.mp hr
    rw [samplesOf_concat] at hrun hrep ⊢
    cases e with
    | restart =>
      cases hstep
      rw [show (sampleOf TrafficEvent.restart).toList = [] from rfl, List.append_nil] at hrun hrep ⊢
      exact tracks_restart (ih u hu hrun hrep)
    | sample x plan => exact tracks_sample hrun hrep (ih u hu hrun.init hrep.init) hstep

/-- **Traffic accounting equals its specification over whole runs.**

    For every run of samples and restarts on files without a saved generation, with one boot time
    and samples in non-decreasing time, and as long as everything is representable: after each
    sample both reported totals are the expected ones. -/
theorem traffic_accounting (boot : Int) {d : TrafficDir} (hd : ∀ g, readTrafficResetState d ≠ .ok g)
    (es : List TrafficEvent) (x : Sample) (plan : WritePlan) (w : TrafficWorld)
    (hr : (trafficMachine loc resetDay scope).run (bootWorld resetDay scope d)
      (es ++ [.sample x plan]) = some w)
    (hrun : SampleRun boot (samplesOf es ++ [x]))
    (hrep : Representable loc resetDay boot (samplesOf es ++ [x])) :
    w.tracker.state.periodUp.toInt = expectedTotal loc resetDay (·.sent) (samplesOf es ++ [x])
    ∧ w.tracker.state.periodDown.toInt = expectedTotal loc resetDay (·.recv) (samplesOf es ++ [x]) := by
  have hsamples : samplesOf (es ++ [.sample x plan]) = samplesOf es ++ [x] :=
    samplesOf_concat es _
  have htracks := run_tracks boot hd (es ++ [.sample x plan]) w hr (hsamples ▸ hrun) (hsamples ▸ hrep)
  rw [hsamples] at htracks
  obtain ⟨-, ⟨hnil, -⟩ | ⟨ys, y, -, hhold⟩⟩ := htracks
  · exact absurd hnil (by simp)
  · exact ⟨hhold.record.periodUp, hhold.record.periodDown⟩

end Proof

/-! ## Runs in the small -/

/-- A sample of one interface, times in seconds. -/
def smallSample (sent recv : UInt64) (now boot : Int) : Sample where
  current := InterfaceMap.single "eth0" ⟨sent, recv⟩
  now := now * Instant.second
  bootedAt := boot * Instant.second

/-- A sample, a restart, and a second sample a minute later; no file operation fails. -/
def restartRun (now boot : Int) : List TrafficEvent :=
  [.sample (smallSample 10 20 now boot) smoothPlan, .restart]

/-- The sample after the restart. -/
def afterRestart (now boot : Int) : Sample := smallSample 15 40 (now + 60) boot

/-- The ten bytes since the boot and the five bytes since the first sample are reported across a
    restart. -/
theorem traffic_accounting_across_restart :
    ∃ w, (trafficMachine Location.utc 1 "scope").run (bootWorld 1 "scope" Directory.empty)
        (restartRun 1788696000 1788307200
          ++ [.sample (afterRestart 1788696000 1788307200) smoothPlan]) = some w
      ∧ w.tracker.state.periodUp.toInt = 15 := by
  have hsome : ((trafficMachine Location.utc 1 "scope").run
      (bootWorld 1 "scope" Directory.empty) (restartRun 1788696000 1788307200
        ++ [.sample (afterRestart 1788696000 1788307200) smoothPlan])).isSome = true := by
    decide +kernel
  obtain ⟨w, hw⟩ := Option.isSome_iff_exists.mp hsome
  have hempty : readTrafficResetState Directory.empty = .error .notExist := by decide +kernel
  have htotal := (traffic_accounting (1788307200 * Instant.second)
    (fun g hg => absurd (hempty.symm.trans hg) (by simp)) _ _ _ w hw
    ⟨by decide +kernel, by decide +kernel⟩
    ⟨by unfold ReadableYear; decide +kernel, by decide +kernel, by decide +kernel,
      fun ys hys => (by decide +kernel : ∀ ys ∈ List.inits (samplesOf (restartRun 1788696000
        1788307200) ++ [afterRestart 1788696000 1788307200]),
        expectedTotal Location.utc 1 (·.sent) ys < 2 ^ 63) ys ((List.mem_inits ys _).mpr hys),
      fun ys hys => (by decide +kernel : ∀ ys ∈ List.inits (samplesOf (restartRun 1788696000
        1788307200) ++ [afterRestart 1788696000 1788307200]),
        expectedTotal Location.utc 1 (·.recv) ys < 2 ^ 63) ys ((List.mem_inits ys _).mpr hys),
      by decide +kernel⟩).1
  exact ⟨w, hw, htotal.trans (by decide +kernel)⟩

/-- The upload total that a run reports at its end. -/
def reportedUp (es : List TrafficEvent) : Option Int :=
  ((trafficMachine Location.utc 1 "scope").run (bootWorld 1 "scope" Directory.empty) es).map
    fun w => w.tracker.state.periodUp.toInt

/-- What cannot be represented is not accounted for: a raw sum of `2 ^ 63` is reported as a
    negative number, and a record of the year 10000, or of a boot before 1970, does not survive a
    restart. -/
theorem unrepresentable_runs_differ :
    (reportedUp [.sample (smallSample (2 ^ 63) 0 1788696000 1788307200) smoothPlan] = some (-2 ^ 63)
      ∧ expectedTotal Location.utc 1 (·.sent) [smallSample (2 ^ 63) 0 1788696000 1788307200] = 2 ^ 63)
    ∧ (reportedUp (restartRun 253402300800 1788307200
        ++ [.sample (afterRestart 253402300800 1788307200) smoothPlan]) = some 0
      ∧ expectedTotal Location.utc 1 (·.sent) (samplesOf (restartRun 253402300800 1788307200)
          ++ [afterRestart 253402300800 1788307200]) = 5)
    ∧ (reportedUp (restartRun 3600 (-1) ++ [.sample (afterRestart 3600 (-1)) smoothPlan]) = some 0
      ∧ expectedTotal Location.utc 1 (·.sent) (samplesOf (restartRun 3600 (-1))
          ++ [afterRestart 3600 (-1)]) = 5) := by
  decide +kernel

end CfMonitor.Agent
