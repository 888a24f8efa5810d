/-
  The reset day of a policy over restarts (`agent/main.go`, `agent/traffic_persistence.go`).

  1. **Program** — samples, policy days and restarts on one state path, where every save succeeds.  Each
     restart has its own local day and its own scope.

  2. **Records** — what decides whether a record decodes: the policy day apart, it is `Sane`.

  3. **Result** — every saved record decodes, and the last policy day is in force after every restart
     (`policy_day_survives`), as long as no total wraps and the years have four digits.
-/
import Mathlib
import CfMonitor.Agent.TrafficSaves

namespace CfMonitor.Agent

open CfMonitor.Lib TrafficResetTracker

/-! ## Program -/

/-- The agent, the last day of a policy, and the records that were saved, the newest first. -/
structure PolicyWorld where
  tracker : TrafficResetTracker
  files : TrafficDir
  given : Option Int
  written : List TrafficResetState

inductive PolicyEvent where
  | policy (day : Int) (plan : WritePlan)
  | sample (x : Sample) (plan : WritePlan)
  | restart (localDay : Int) (scope : String)

/-- What a sample adds to the total of a period that goes on. -/
def TrafficResetTracker.addition (loc : Location) (t : TrafficResetTracker) (x : Sample)
    (dir : TrafficInterfaceState → UInt64) : Nat :=
  if t.bootChanged x && t.covers loc x then counterSum dir x.current else growth dir t.state.interfaces x.current

namespace PolicyWorld

/-- `save`; a save that fails has no successor here. -/
def save (w : PolicyWorld) (t : TrafficResetTracker) (given : Option Int) (plan : WritePlan) : Option PolicyWorld :=
  let t' := { t with state := bumpRevision t.state }
  let run := writeTrafficResetState t'.state plan w.files
  match run.result with
  | .ok _ => some ⟨t', run.last, given, t'.state :: w.written⟩
  | .error _ => none

def restart (w : PolicyWorld) (localDay : Int) (scope : String) : PolicyWorld :=
  { w with tracker := newTrafficResetTracker localDay scope (loadState w.files) }

/-- An agent without a state file. -/
def start (localDay : Int) (scope : String) : PolicyWorld :=
  restart ⟨{ resetDay := 0, scope := "", state := {}, resetDaySource := "", policyResetDay := none },
    Directory.empty, none, []⟩ localDay scope

variable (loc : Location) (w : PolicyWorld)

/-- A day outside a month is ignored, and a known day is not saved again. -/
def policyStep : PolicyEvent → Option PolicyWorld
  | .policy day plan =>
    let t := w.tracker.applyTrafficResetDayPolicy (some day)
    if day < 1 ∨ day > 31 then some w
    else if w.tracker.policyResetDay = some day then some { w with tracker := t, given := some day }
    else w.save t (some day) plan
  | .sample x plan => w.save (w.tracker.adjustInterfacesSinceBoot loc x) w.given plan
  | .restart localDay scope => some (w.restart localDay scope)

def policyMachine : Machine PolicyWorld PolicyEvent := ⟨policyStep loc⟩

/-- A sample that the machine was up for, with counters that `int64` can hold. -/
def Sampled : PolicyEvent → Prop
  | .sample x _ => counterSum (·.sent) x.current < 2 ^ 63 ∧ counterSum (·.recv) x.current < 2 ^ 63 ∧
      0 ≤ trafficBootUnix x.bootedAt
  | _ => True

instance (e : PolicyEvent) : Decidable (Sampled e) :=
  match e with
  | .sample _ _ => inferInstanceAs (Decidable (_ ∧ _ ∧ _))
  | .policy _ _ => .isTrue trivial
  | .restart _ _ => .isTrue trivial

/-- The period has a year of four digits, and its totals do not wrap. -/
def Fits : PolicyEvent → Prop
  | .sample x _ => ReadableYear loc w.tracker.resetDay x.now ∧
      w.tracker.priorTotal loc x w.tracker.state.periodUp + w.tracker.addition loc x (·.sent) < 2 ^ 63 ∧
      w.tracker.priorTotal loc x w.tracker.state.periodDown + w.tracker.addition loc x (·.recv) < 2 ^ 63
  | _ => True

instance (e : PolicyEvent) : Decidable (w.Fits loc e) :=
  match e with
  | .sample _ _ => inferInstanceAs (Decidable ((_ ∧ _) ∧ _ ∧ _))
  | .policy _ _ => .isTrue trivial
  | .restart _ _ => .isTrue trivial

end PolicyWorld

/-! ## Records -/

/-- All checks of a record but those of its policy day. -/
structure Sane (s : TrafficResetState) : Prop where
  counters : badCounters s = false
  fresh : s.period = "" → s.counterVersion = 0 ∧ s.periodUp = 0 ∧ s.periodDown = 0
  started : s.period ≠ "" → s.counterVersion = 1 ∧ (1 ≤ s.resetDay ∧ s.resetDay ≤ 31) ∧
    (DateOnly.parse s.period).isSome

variable {s : TrafficResetState}

theorem Sane.accepted (h : Sane s) (hpolicy : ∀ day, s.policyResetDay = some day → 1 ≤ day ∧ day ≤ 31)
    (hgiven : s.period = "" → s.policyResetDay ≠ none) : Accepted s := by
  have hbad : badPolicyDay s = false := by
    rw [badPolicyDay.eq_def]
    cases hday : s.policyResetDay with
    | none => rfl
    | some day =>
      have := hpolicy day hday
      simp only [decide_eq_false_iff_not]
      omega
  unfold Accepted decodeTrafficState
  by_cases hperiod : s.period = ""
  · obtain ⟨hversion, hup, hdown⟩ := h.fresh hperiod
    rw [if_neg (by omega), if_neg (by simp [hbad]), if_neg (by simp [h.counters]), if_pos hperiod,
      if_neg (by simp [hgiven hperiod, hup, hdown])]
  · obtain ⟨hversion, hday, hparse⟩ := h.started hperiod
    rw [if_neg (by omega), if_neg (by simp [hbad]), if_neg (by simp [h.counters]), if_neg hperiod,
      if_neg (by omega), if_neg (by simpa [Option.isSome_iff_ne_none] using hparse)]

theorem Sane.mark (h : Sane s) (gap : Bool) : Sane (markHistory gap s) := by
  cases gap with
  | false => exact h
  | true => exact ⟨h.counters, h.fresh, h.started⟩

/-! ## New trackers -/

theorem newTracker_policy {localDay day : Int} {scope : String} (h : s.policyResetDay = some day)
    (hrange : 1 ≤ day ∧ day ≤ 31) : newTrafficResetTracker localDay scope s =
      { resetDay := day, scope := scope, state := s, resetDaySource := "server", policyResetDay := some day } := by
  rw [newTrafficResetTracker, h]
  exact if_pos hrange

theorem newTracker_local (localDay : Int) (scope : String) (h : s.policyResetDay = none) :
    (1 ≤ (newTrafficResetTracker localDay scope s).resetDay ∧
      (newTrafficResetTracker localDay scope s).resetDay ≤ 31) ∧
      (newTrafficResetTracker localDay scope s).policyResetDay = none := by
  have hnormal := normalizeTrafficResetDay_bounds localDay
  rw [newTrafficResetTracker, h]
  dsimp only
  rw [restoreResetDay]
  split_ifs with hlegacy
  · exact ⟨⟨hlegacy.1, hlegacy.2.1⟩, rfl⟩
  · exact ⟨hnormal, rfl⟩

/-! ## Samples -/

section Samples

variable {loc : Location} {t : TrafficResetTracker} {x : Sample}

/-- The total of one direction after a sample is not negative. -/
theorem directionTotal_nonneg {dir : TrafficInterfaceState → UInt64} {saved : Int64} (base : Int64)
    (hsane : Sane t.state) (hsum : counterSum dir x.current < 2 ^ 63) (hsaved : 0 ≤ saved.toInt)
    (hfits : t.priorTotal loc x saved + t.addition loc x dir < 2 ^ 63) :
    0 ≤ (directionTotal (t.branches loc x) (rawTotal dir x.current) saved base
      (deltaTotal dir (t.previousCounters loc x) x.current)).toInt := by
  have hraw := rawTotal_toInt hsum
  rw [t.priorTotal_eq, oldTotal] at hfits
  cases hother : (t.branches loc x).otherCycle with
  | true =>
    rw [directionTotal, hother, if_pos rfl]
    split_ifs
    · omega
    · exact Int.le_refl 0
  | false =>
    have hperiod : t.state.period ≠ "" := by
      intro h
      exact absurd ((otherCycle_of_empty h).symm.trans hother) (by decide)
    have hversion := (hsane.started hperiod).1
    have hmigrated : (t.branches loc x).migrated = false := by
      simp [branches, Branches.migrated, hversion]
    have hprevious : t.previousCounters loc x = t.state.interfaces := by
      simp [previousCounters, migrate, hversion]
    obtain ⟨added, htotal, hadded⟩ : ∃ added : Int64, directionTotal (t.branches loc x) (rawTotal dir x.current)
        saved base (deltaTotal dir (t.previousCounters loc x) x.current) = (if (t.branches loc x).rotated then
          (if (t.branches loc x).covers then rawTotal dir x.current else added) else saved + added) ∧
        added.toInt = t.addition loc x dir := by
      refine ⟨if (t.branches loc x).rebooted then rawTotal dir x.current
        else deltaTotal dir (t.previousCounters loc x) x.current, ?_, ?_⟩
      · rw [directionTotal, hother, hmigrated, startTotal_of_not_migrated hmigrated]
        rfl
      · rw [hprevious]
        show (if (t.bootChanged x && t.covers loc x) = true then _ else _ : Int64).toInt = _
        rw [addition]
        split_ifs
        · exact hraw
        · exact deltaTotal_toInt _ hsum
    rw [hother, Bool.false_or] at hfits
    rw [htotal]
    cases hrotated : (t.branches loc x).rotated with
    | true =>
      rw [if_pos rfl]
      split_ifs <;> omega
    | false =>
      rw [hrotated] at hfits
      rw [if_neg Bool.false_ne_true] at hfits ⊢
      rw [toInt_add_of_lt hsaved (by omega) (by omega)]
      omega

theorem sane_sample {plan : WritePlan} {w : PolicyWorld} (hsane : Sane w.tracker.state)
    (hday : 1 ≤ w.tracker.resetDay ∧ w.tracker.resetDay ≤ 31)
    (hsampled : PolicyWorld.Sampled (.sample x plan)) (hfits : w.Fits loc (.sample x plan)) :
    Sane (bumpRevision (w.tracker.adjustInterfacesSinceBoot loc x).state) := by
  obtain ⟨hsent, hrecv, hboot⟩ := hsampled
  obtain ⟨hyear, hup, hdown⟩ := hfits
  obtain ⟨htu, htd⟩ := w.tracker.adjust_totals loc x
  have hcounters := hsane.counters
  simp only [badCounters, decide_eq_false_iff_not, not_or, int64_neg_iff] at hcounters
  obtain ⟨-, -, hpu, hpd, -, -, hunix, -⟩ := hcounters
  have hperiod : (bumpRevision (w.tracker.adjustInterfacesSinceBoot loc x).state).period
      = w.tracker.currentPeriod loc x := adjust_period
  refine ⟨?_, fun h => ?_, fun _ => ⟨rfl, hday, ?_⟩⟩
  · have hlast : 0 ≤ (w.tracker.adjustInterfacesSinceBoot loc x).state.lastBootUnix := by
      rw [adjust_lastBootUnix]
      split_ifs <;> omega
    have hnewUp := directionTotal_nonneg w.tracker.state.baselineUp hsane hsent (by omega) hup
    have hnewDown := directionTotal_nonneg w.tracker.state.baselineDown hsane hrecv (by omega) hdown
    rw [← htu] at hnewUp
    rw [← htd] at hnewDown
    have hrawUp : (w.tracker.adjustInterfacesSinceBoot loc x).state.lastRawUp = rawTotal (·.sent) x.current := rfl
    have hrawDown : (w.tracker.adjustInterfacesSinceBoot loc x).state.lastRawDown = rawTotal (·.recv) x.current := rfl
    simp only [badCounters, bumpRevision, decide_eq_false_iff_not, not_or, int64_neg_iff, hrawUp, hrawDown,
      rawTotal_toInt hsent, rawTotal_toInt hrecv]
    have hzero : ¬ (0 : Int) < 0 := Int.lt_irrefl 0
    exact ⟨by omega, by omega, by omega, by omega, hzero, hzero, by omega, Int.not_lt.mpr (Int.zero_le_ofNat 1)⟩
  · rw [hperiod] at h
    exact absurd h (DateOnly.format_ne_empty _)
  · rw [hperiod]
    show (DateOnly.parse (DateOnly.format (periodDate loc w.tracker.resetDay x.now))).isSome
    rw [DateOnly.parse_format _ hyear.1 hyear.2]
    rfl

end Samples

/-! ## The invariant -/

namespace PolicyWorld

/-- **The invariant**: the tracker and the record in memory have the last policy day, and the files have
    the record, but for the mark of a gap. -/
structure Inv (w : PolicyWorld) : Prop where
  sane : Sane w.tracker.state
  day : 1 ≤ w.tracker.resetDay ∧ w.tracker.resetDay ≤ 31
  given : ∀ day, w.given = some day → (1 ≤ day ∧ day ≤ 31) ∧ w.tracker.resetDay = day ∧
    w.tracker.resetDaySource = "server"
  policy : w.tracker.policyResetDay = w.given
  recorded : w.tracker.state.policyResetDay = w.given
  files : (w.given = none ∧ w.tracker.state.period = "" ∧ w.files = Directory.empty) ∨
    ∃ gap, recovered w.files = some (markHistory gap w.tracker.state)
  written : ∀ s ∈ w.written, Accepted s

variable {loc : Location} {w w' : PolicyWorld} {t : TrafficResetTracker} {given : Option Int} {plan : WritePlan}

/-- The day that the tracker has from a policy. -/
theorem apply_known {day : Int} (hrange : ¬ (day < 1 ∨ day > 31)) (hday : t.resetDay = day)
    (hsource : t.resetDaySource = "server") (hknown : t.policyResetDay = some day) :
    t.applyTrafficResetDayPolicy (some day) = t := by
  obtain ⟨resetDay, scope, state, source, policy⟩ := t
  obtain rfl : resetDay = day := hday
  obtain rfl : source = "server" := hsource
  obtain rfl : policy = some resetDay := hknown
  simp [applyTrafficResetDayPolicy, hrange, setPolicyResetDay]

theorem read_empty : ∀ g, readTrafficResetState Directory.empty ≠ .ok g := by
  intro g h
  cases h

/-- **A save** of a tracker that the invariant holds of, the files apart. -/
theorem Inv.save (hI : w.Inv) (h : w.save t given plan = some w') (hrev : t.state.revision = w.tracker.state.revision)
    (hsane : Sane (bumpRevision t.state)) (hstarted : t.state.period = "" → given ≠ none)
    (hday : 1 ≤ t.resetDay ∧ t.resetDay ≤ 31)
    (hgiven : ∀ day, given = some day → (1 ≤ day ∧ day ≤ 31) ∧ t.resetDay = day ∧ t.resetDaySource = "server")
    (hpolicy : t.policyResetDay = given) (hrecorded : t.state.policyResetDay = given) : w'.Inv := by
  have hacc : Accepted (bumpRevision t.state) :=
    hsane.accepted (fun day hd => (hgiven day (hrecorded.symm.trans hd)).1) fun hp => hrecorded ▸ hstarted hp
  have hnewer : ∀ g, readTrafficResetState w.files = .ok g → g.state.revision < (bumpRevision t.state).revision := by
    intro g hg
    have hnext : (bumpRevision t.state).revision = w.tracker.state.revision + 1 := by
      rw [← hrev]
      rfl
    rcases hI.files with ⟨-, -, hempty⟩ | ⟨gap, hgap⟩
    · exact absurd (hempty ▸ hg) (read_empty g)
    · rw [recovered_of_read hg] at hgap
      rw [Option.some.inj hgap, markHistory_revision, hnext]
      omega
  rw [PolicyWorld.save] at h
  dsimp only at h
  cases hres : (writeTrafficResetState (bumpRevision t.state) plan w.files).result with
  | error e =>
    rw [hres] at h
    cases h
  | ok u =>
    rw [hres] at h
    cases h
    refine ⟨hsane, hday, hgiven, hpolicy, hrecorded, .inr ⟨_, write_recovers hacc hnewer hres⟩, ?_⟩
    intro s hs
    rcases List.mem_cons.mp hs with rfl | hs
    · exact hacc
    · exact hI.written s hs

/-- **A restart** finds the record, and the policy day in it. -/
theorem Inv.restart (hI : w.Inv) (localDay : Int) (scope : String) : (w.restart localDay scope).Inv := by
  obtain ⟨hsane, hrecorded, hfiles⟩ : Sane (loadState w.files) ∧ (loadState w.files).policyResetDay = w.given ∧
      ((w.given = none ∧ (loadState w.files).period = "" ∧ w.files = Directory.empty) ∨
        ∃ gap, recovered w.files = some (markHistory gap (loadState w.files))) := by
    rcases hI.files with ⟨hnone, -, hempty⟩ | ⟨gap, hgap⟩
    · rw [hempty, hnone]
      exact ⟨⟨rfl, fun _ => ⟨rfl, rfl, rfl⟩, fun h => absurd rfl h⟩, rfl, .inl ⟨rfl, rfl, rfl⟩⟩
    · rw [loadState_of_recovered hgap]
      refine ⟨hI.sane.mark gap, ?_, .inr ⟨false, hgap⟩⟩
      rw [← hI.recorded]
      cases gap <;> rfl
  have hstate : (w.restart localDay scope).tracker.state = loadState w.files := newTracker_state _ _ _
  have htracker : (1 ≤ (w.restart localDay scope).tracker.resetDay ∧ (w.restart localDay scope).tracker.resetDay ≤ 31) ∧
      (∀ day, w.given = some day → (1 ≤ day ∧ day ≤ 31) ∧ (w.restart localDay scope).tracker.resetDay = day ∧
        (w.restart localDay scope).tracker.resetDaySource = "server") ∧
      (w.restart localDay scope).tracker.policyResetDay = w.given := by
    cases hgiven : w.given with
    | some day =>
      have hrange := (hI.given day hgiven).1
      rw [show (w.restart localDay scope).tracker = _ from newTracker_policy (hrecorded.trans hgiven) hrange]
      refine ⟨hrange, ?_, rfl⟩
      rintro _ ⟨⟩
      exact ⟨hrange, rfl, rfl⟩
    | none =>
      obtain ⟨hday, hpolicy⟩ := newTracker_local localDay scope (hrecorded.trans hgiven)
      exact ⟨hday, nofun, hpolicy⟩
  exact ⟨hstate ▸ hsane, htracker.1, htracker.2.1, htracker.2.2, hstate ▸ hrecorded,
    by rw [hstate]; exact hfiles, hI.written⟩

theorem start_inv (localDay : Int) (scope : String) : (start localDay scope).Inv := by
  have hnormal := normalizeTrafficResetDay_bounds localDay
  exact ⟨⟨rfl, fun _ => ⟨rfl, rfl, rfl⟩, fun h => absurd rfl h⟩, hnormal, nofun, rfl, rfl, .inl ⟨rfl, rfl, rfl⟩, nofun⟩

theorem Inv.step {e : PolicyEvent} (hI : w.Inv) (hsampled : Sampled e) (hfits : w.Fits loc e)
    (h : policyStep loc w e = some w') : w'.Inv := by
  cases e with
  | policy day plan =>
    rw [policyStep] at h
    split_ifs at h with hrange hknown
    · cases h
      exact hI
    · cases h
      obtain ⟨-, hday, hsource⟩ := hI.given day (hI.policy.symm.trans hknown)
      have hgiven : some day = w.given := hknown.symm.trans hI.policy
      rw [apply_known hrange hday hsource hknown, hgiven]
      exact hI
    · have hnew : w.tracker.applyTrafficResetDayPolicy (some day) = { w.tracker with
          resetDay := day, resetDaySource := "server", policyResetDay := some day
          state := { w.tracker.state with policyResetDay := some day, resetDaySource := "server" } } := by
        simp only [applyTrafficResetDayPolicy, if_neg hrange,
          setPolicyResetDay, hknown, decide_false, Bool.false_eq_true, if_false]
      have hin : 1 ≤ day ∧ day ≤ 31 := by omega
      rw [hnew] at h
      refine hI.save h rfl ⟨hI.sane.counters, hI.sane.fresh, hI.sane.started⟩ (by rintro _ ⟨⟩) hin ?_ rfl rfl
      rintro _ ⟨⟩
      exact ⟨hin, rfl, rfl⟩
  | sample x plan =>
    refine hI.save h adjust_revision (sane_sample hI.sane hI.day hsampled hfits) ?_ hI.day hI.given hI.policy hI.policy
    intro hperiod
    rw [adjust_period] at hperiod
    exact absurd hperiod (DateOnly.format_ne_empty _)
  | restart localDay scope =>
    cases h
    exact hI.restart localDay scope

/-- **The policy day survives every restart**: whatever local day and scope the next process has, its
    tracker has the last day of a policy; and that day again, in a month, changes nothing. -/
theorem policy_day_survives (loc : Location) (localDay : Int) (scope : String) (es : List PolicyEvent) (w : PolicyWorld)
    (hfits : (policyMachine loc).Along (fun w e _ => Sampled e ∧ w.Fits loc e) (start localDay scope) es)
    (hrun : (policyMachine loc).run (start localDay scope) es = some w) :
    (∀ s ∈ w.written, Accepted s) ∧
    ∀ day, w.given = some day → ∀ localDay scope plan, (w.restart localDay scope).tracker.resetDay = day ∧
      policyStep loc (w.restart localDay scope) (.policy day plan) = some (w.restart localDay scope) := by
  have hI : w.Inv := (policyMachine loc).run_inv_along (fun _ _ _ hI hm hs => hI.step hm.1 hm.2 hs) es _ _
    (start_inv localDay scope) hfits hrun
  refine ⟨hI.written, fun day hgiven localDay scope plan => ?_⟩
  obtain ⟨hrange, hday, hsource⟩ := (hI.restart localDay scope).given day hgiven
  have hknown := (hI.restart localDay scope).policy.trans hgiven
  refine ⟨hday, ?_⟩
  rw [policyStep, if_neg (by omega), if_pos hknown, apply_known (by omega) hday hsource hknown, ← hgiven]
  rfl

/-- The day 15 of a policy, after a restart with the local day 3. -/
theorem policy_day_survives_local : ∃ w, (policyMachine Location.utc).run (start 1 "scope")
      [.policy 15 smoothPlan, .sample (smallSample 10 20 1788696000 1788307200) smoothPlan] = some w ∧
    (w.restart 3 "other").tracker.resetDay = 15 := by
  have hgiven : ((policyMachine Location.utc).run (start 1 "scope") [.policy 15 smoothPlan,
      .sample (smallSample 10 20 1788696000 1788307200) smoothPlan]).map given = some (some 15) := by decide +kernel
  obtain ⟨w, hw, hday⟩ := Option.map_eq_some_iff.mp hgiven
  exact ⟨w, hw, ((policy_day_survives Location.utc 1 "scope" _ w (by decide +kernel) hw).2 15 hday 3 "other"
    smoothPlan).1⟩

/-- A counter near `2 ^ 63` that starts again: the total of the period wraps, and its record does not decode. -/
theorem wrapped_total_rejected : ∃ es w, (policyMachine Location.utc).Along (fun _ e _ => Sampled e)
      (start 1 "scope") es ∧ (policyMachine Location.utc).run (start 1 "scope") es = some w ∧
    ∃ s ∈ w.written, ¬ Accepted s := by
  have hbad : ((policyMachine Location.utc).run (start 1 "scope")
      [.sample (smallSample (2 ^ 63 - 1) 0 1788696000 1788307200) smoothPlan,
        .sample (smallSample 1 0 1788696060 1788307200) smoothPlan]).map
      (fun w => decide (∃ s ∈ w.written, ¬ Accepted s)) = some true := by decide +kernel
  obtain ⟨w, hw, hwritten⟩ := Option.map_eq_some_iff.mp hbad
  exact ⟨_, w, by decide +kernel, hw, of_decide_eq_true hwritten⟩

end PolicyWorld

end CfMonitor.Agent
