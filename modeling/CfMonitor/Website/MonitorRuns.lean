/-
  The row of a website monitor is a fold of the checks that were applied to it.

  1. **Invariant** (`MonitorState.Inv`) — the health of the row is what the applied checks of its
     revision say (`outageStart` and the heads of the list), these are in the order of their times,
     and every revision of the row and of the checks was drawn before the next one.

  2. **Results** — `monitor_row_folds_checks` and `agent_success_proves_site_up`.
-/
import CfMonitor.Website.Monitor
import CfMonitor.Lib.Json

namespace CfMonitor.Website

open CfMonitor.Lib

/-- The time of the first failure after the last success. -/
def outageStart (applied : List (Int × Bool)) : Option Int :=
  ((applied.takeWhile fun c => !c.2).getLast?).map Prod.fst

namespace MonitorState

variable {s s' : MonitorState}

/-! ## The invariant -/

structure Inv (s : MonitorState) : Prop where
  revision : s.row.configRevision < s.issued
  checks : ∀ c ∈ s.checks, c.configRevision < s.issued
  times : s.applied.Pairwise fun a b => b.1 < a.1
  disabled : s.row.config.enabled = false → s.applied = []
  lastChecked : s.row.health.lastCheckedAt = s.applied.head?.map Prod.fst
  lastSuccess : s.row.health.lastSuccessAt = (s.applied.find? fun c => c.2).map Prod.fst
  lastFailure : s.row.health.lastFailureAt = (s.applied.find? fun c => !c.2).map Prod.fst
  up : s.row.health.status = .up ↔ s.applied.head?.map Prod.snd = some true
  down : s.row.health.status = .down ↔ s.applied.head?.map Prod.snd = some false
  downSince : s.row.health.downSince = outageStart s.applied
  notified : s.row.health.status = .down →
    s.row.health.lastNotifiedAt = none ∨ s.markedFor = some s.row.health.downSince

theorem Inv.created (revision : Nat) (name : String) (hidden hideUrl : Bool) (config : MonitorConfig) :
    (MonitorState.created revision name hidden hideUrl config).Inv where
  revision := Nat.lt_succ_self _
  checks c hc := absurd hc (by simp [MonitorState.created])
  times := List.Pairwise.nil
  disabled _ := rfl
  lastChecked := rfl
  lastSuccess := rfl
  lastFailure := rfl
  up := by simp [MonitorState.created]
  down := by simp [MonitorState.created]
  downSince := rfl
  notified h := absurd h (by simp [MonitorState.created])

theorem Inv.rotate (hI : s.Inv) (new : MonitorRow) :
    ({ s with
      row := { new with
        configRevision := s.issued, health := MonitorHealth.fresh new.config.enabled }
      issued := s.issued + 1
      applied := [] } : MonitorState).Inv where
  revision := Nat.lt_succ_self _
  checks c hc := Nat.lt_succ_of_lt (hI.checks c hc)
  times := List.Pairwise.nil
  disabled _ := rfl
  lastChecked := rfl
  lastSuccess := rfl
  lastFailure := rfl
  up := by
    cases new.config.enabled <;> simp [MonitorHealth.fresh]
  down := by
    cases new.config.enabled <;> simp [MonitorHealth.fresh]
  downSince := rfl
  notified _ := .inl rfl

theorem Inv.keep (hI : s.Inv) {new : MonitorRow} (hrevision : new.configRevision = s.row.configRevision)
    (hconfig : new.config = s.row.config) (hhealth : new.health = s.row.health) :
    ({ s with row := new } : MonitorState).Inv where
  revision := hrevision ▸ hI.revision
  checks := hI.checks
  times := hI.times
  disabled h := hI.disabled (hconfig ▸ h)
  lastChecked := hhealth ▸ hI.lastChecked
  lastSuccess := hhealth ▸ hI.lastSuccess
  lastFailure := hhealth ▸ hI.lastFailure
  up := hhealth ▸ hI.up
  down := hhealth ▸ hI.down
  downSince := hhealth ▸ hI.downSince
  notified := hhealth ▸ hI.notified

/-! ## What one call can do -/

/-- The row begins a revision that was drawn just now, keeps the applied checks, or has one more. -/
def Follows (s s' : MonitorState) : Prop :=
  (s'.row.configRevision = s.issued ∧ s'.row.health = MonitorHealth.fresh s'.row.config.enabled) ∨
  (s'.row.configRevision = s.row.configRevision ∧ s'.row.config = s.row.config ∧
    (s'.applied = s.applied ∨ ∃ check, s'.applied = check :: s.applied))

theorem Follows.refl (s : MonitorState) : Follows s s := .inr ⟨rfl, rfl, .inl rfl⟩

theorem updateRow_health (health : MonitorHealth) :
    s.updateRow { s.row with health := health } = { s with row := { s.row with health := health } } :=
  if_neg (by simp)

section

variable (hI : s.Inv)

include hI

theorem updateRow_spec {new : MonitorRow} (hrevision : new.configRevision = s.row.configRevision)
    (hhealth : new.config = s.row.config → new.health = s.row.health) :
    (s.updateRow new).Inv ∧ Follows s (s.updateRow new) := by
  rw [updateRow]
  by_cases hconfig : new.config = s.row.config
  · rw [if_neg (by simp [hrevision, hconfig])]
    exact ⟨hI.keep hrevision hconfig (hhealth hconfig), .inr ⟨hrevision, hconfig, .inl rfl⟩⟩
  · rw [if_pos (.inr hconfig)]
    exact ⟨hI.rotate new, .inl ⟨rfl, rfl⟩⟩

theorem updateWebsiteMonitor_spec (patch : MonitorPatch) :
    (s.updateWebsiteMonitor patch).Inv ∧ Follows s (s.updateWebsiteMonitor patch) := by
  rw [updateWebsiteMonitor]
  split_ifs
  · exact updateRow_spec hI rfl fun _ => rfl
  · exact ⟨hI, Follows.refl s⟩

theorem setWebsiteMonitorVisibility_spec (hidden : Bool) :
    (s.setWebsiteMonitorVisibility hidden).Inv ∧ Follows s (s.setWebsiteMonitorVisibility hidden) := by
  rw [setWebsiteMonitorVisibility]
  split_ifs
  · exact updateRow_spec hI rfl fun _ => rfl
  · exact ⟨hI, Follows.refl s⟩

/-- A paused monitor whose status was not `paused` yet: it has no applied checks. -/
theorem Inv.pause (hdisabled : s.row.config.enabled = false) :
    ({ s with row := { s.row with health := { s.row.health with status := .paused } } } :
      MonitorState).Inv where
  revision := hI.revision
  checks := hI.checks
  times := hI.times
  disabled := hI.disabled
  lastChecked := hI.lastChecked
  lastSuccess := hI.lastSuccess
  lastFailure := hI.lastFailure
  up := by simp [hI.disabled hdisabled]
  down := by simp [hI.disabled hdisabled]
  downSince := hI.downSince
  notified h := absurd h (by simp)

theorem setWebsiteMonitorEnabled_spec (enabled : Bool) :
    (s.setWebsiteMonitorEnabled enabled).Inv ∧ Follows s (s.setWebsiteMonitorEnabled enabled) := by
  rw [setWebsiteMonitorEnabled]
  by_cases hsame : s.row.config.enabled = enabled
  · by_cases hpause : enabled = false ∧ s.row.health.status ≠ .paused
    · -- nothing to rotate: the status becomes `paused`
      obtain ⟨rfl, hstatus⟩ := hpause
      rw [if_pos (.inr ⟨rfl, hstatus⟩)]
      have hconfig : ({ s.row.config with enabled := false } : MonitorConfig) = s.row.config := by
        rw [← hsame]
      have hrow : s.updateRow { s.row with
            config := { s.row.config with enabled := false }
            health := { s.row.health with
              status := if false = true then s.row.health.status else .paused } }
          = { s with row := { s.row with health := { s.row.health with status := .paused } } } := by
        rw [hconfig]
        exact updateRow_health _
      rw [hrow]
      exact ⟨hI.pause hsame, .inr ⟨rfl, rfl, .inl rfl⟩⟩
    · have hnothing : ¬ (s.row.config.enabled ≠ enabled ∨
          (enabled = false ∧ s.row.health.status ≠ .paused)) := by
        rintro (hne | h)
        · exact hne hsame
        · exact hpause h
      rw [if_neg hnothing]
      exact ⟨hI, Follows.refl s⟩
  · rw [if_pos (.inl hsame)]
    refine updateRow_spec hI rfl fun hconfig => ?_
    exact absurd (congrArg MonitorConfig.enabled hconfig).symm hsame

theorem markWebsiteMonitorNotified_spec (time : Option Int) (expected : Option ExpectedHealth) :
    (s.markWebsiteMonitorNotified time expected).Inv ∧
      Follows s (s.markWebsiteMonitorNotified time expected) := by
  cases expected with
  | none => exact ⟨hI, Follows.refl s⟩
  | some expected =>
    rw [markWebsiteMonitorNotified]
    simp only
    split_ifs with hnow
    · rw [updateRow_health]
      have hsince : s.row.health.downSince = expected.downSince := by
        simp only [expectedNow, Bool.and_eq_true, decide_eq_true_eq] at hnow
        exact hnow.1.2
      refine ⟨⟨hI.revision, hI.checks, hI.times, hI.disabled, hI.lastChecked, hI.lastSuccess,
        hI.lastFailure, hI.up, hI.down, hI.downSince, fun _ => .inr ?_⟩, .inr ⟨rfl, rfl, .inl rfl⟩⟩
      exact congrArg some hsince.symm
    · exact ⟨hI, Follows.refl s⟩

variable {input : CheckInput}

theorem newer_of_accepted {now : Int} (h : s.refuses input now = false) :
    s.row.config.enabled = true ∧ ∀ c ∈ s.applied, c.1 < (s.storedCheck input now).checkedAt := by
  simp only [refuses, Bool.or_eq_false_iff] at h
  obtain ⟨⟨⟨henabled, -⟩, hlast⟩, -⟩ := h
  refine ⟨by simpa using henabled, ?_⟩
  intro c hc
  cases happlied : s.applied with
  | nil => simp [happlied] at hc
  | cons head rest =>
    have hhead : head.1 < (s.storedCheck input now).checkedAt := by
      rw [hI.lastChecked, happlied] at hlast
      simpa using hlast
    rw [happlied] at hc
    rcases List.mem_cons.mp hc with rfl | hc
    · exact hhead
    · have hsorted := hI.times
      rw [happlied] at hsorted
      exact Int.lt_trans ((List.pairwise_cons.mp hsorted).1 c hc) hhead

/-- An accepted check is one more check in the history. -/
theorem Inv.store (input : CheckInput) (now : Int) :
    ({ s with checks := s.storedCheck input now :: s.checks } : MonitorState).Inv where
  revision := hI.revision
  checks c hc := by
    rcases List.mem_cons.mp hc with rfl | hc
    · exact hI.revision
    · exact hI.checks c hc
  times := hI.times
  disabled := hI.disabled
  lastChecked := hI.lastChecked
  lastSuccess := hI.lastSuccess
  lastFailure := hI.lastFailure
  up := hI.up
  down := hI.down
  downSince := hI.downSince
  notified := hI.notified

theorem Inv.succeed (check : StoredCheck) (hok : check.ok = true)
    (henabled : s.row.config.enabled = true) (hnew : ∀ c ∈ s.applied, c.1 < check.checkedAt) :
    ({ s with
      row := { s.row with health := s.succeeded check }
      applied := (check.checkedAt, check.ok) :: s.applied } : MonitorState).Inv where
  revision := hI.revision
  checks := hI.checks
  times := List.pairwise_cons.mpr ⟨hnew, hI.times⟩
  disabled h := absurd (henabled.symm.trans h) (by simp)
  lastChecked := rfl
  lastSuccess := by simp [succeeded, hok]
  lastFailure := by
    rw [List.find?_cons_of_neg (by simp [hok])]
    exact hI.lastFailure
  up := by simp [succeeded, hok]
  down := by simp [succeeded, hok]
  downSince := by simp [succeeded, outageStart, hok]
  notified h := absurd h (by simp [succeeded])

end

theorem outageStart_cons_false (t : Int) (applied : List (Int × Bool)) :
    outageStart ((t, false) :: applied) = (outageStart applied).or (some t) := by
  rw [outageStart, outageStart, List.takeWhile_cons_of_pos rfl]
  cases hrest : applied.takeWhile fun c => !c.2 with
  | nil => rfl
  | cons c cs =>
    rw [List.getLast?_cons_cons]
    cases hlast : (c :: cs).getLast? with
    | none => cases hlast
    | some d => rfl

theorem outageStart_isSome (applied : List (Int × Bool)) :
    (outageStart applied).isSome ↔ applied.head?.map Prod.snd = some false := by
  cases applied with
  | nil => simp [outageStart]
  | cons c cs =>
    obtain ⟨t, ok⟩ := c
    cases ok with
    | true => simp [outageStart]
    | false =>
      rw [outageStart_cons_false]
      cases outageStart cs <;> simp

theorem Inv.fail (hI : s.Inv) (check : StoredCheck) (hok : check.ok = false)
    (henabled : s.row.config.enabled = true) (hnew : ∀ c ∈ s.applied, c.1 < check.checkedAt) :
    ({ s with
      row := { s.row with health := s.failed check }
      applied := (check.checkedAt, check.ok) :: s.applied } : MonitorState).Inv where
  revision := hI.revision
  checks := hI.checks
  times := List.pairwise_cons.mpr ⟨hnew, hI.times⟩
  disabled h := absurd (henabled.symm.trans h) (by simp)
  lastChecked := rfl
  lastSuccess := by
    rw [List.find?_cons_of_neg (by simp [hok])]
    exact hI.lastSuccess
  lastFailure := by simp [failed, hok]
  up := by simp [failed, hok]
  down := by simp [failed, hok]
  downSince := by
    show s.row.health.downSince.or (some check.checkedAt) = _
    rw [hok, outageStart_cons_false, hI.downSince]
  notified _ := by
    show (if s.row.health.status = .down then s.row.health.lastNotifiedAt else none) = none ∨
      s.markedFor = some (s.row.health.downSince.or (some check.checkedAt))
    split_ifs with hdown
    · -- the outage goes on, and so does its notification
      obtain ⟨since, hsince⟩ : ∃ since, s.row.health.downSince = some since := by
        apply Option.isSome_iff_exists.mp
        rw [hI.downSince, outageStart_isSome]
        exact hI.down.mp hdown
      rcases hI.notified hdown with h | h
      · exact .inl h
      · rw [hsince] at h ⊢
        exact .inr h
    · exact .inl rfl

/-- The health after an applied check. -/
def appliedHealth (s : MonitorState) (check : StoredCheck) : MonitorHealth :=
  if check.ok then s.succeeded check else s.failed check

theorem record_cases (s : MonitorState) (input : CheckInput) (now : Int) :
    (s.refuses input now = true ∧ (s.recordWebsiteCheck input now).1 = s) ∨
    (s.refuses input now = false ∧ (s.storedCheck input now).ok = false ∧ (s.recordWebsiteCheck input now).1
        = { s with checks := s.storedCheck input now :: s.checks }) ∨
    (s.refuses input now = false ∧
      (s.recordWebsiteCheck input now).1 = { s with
        checks := s.storedCheck input now :: s.checks
        row := { s.row with health := s.appliedHealth (s.storedCheck input now) }
        applied := ((s.storedCheck input now).checkedAt, (s.storedCheck input now).ok) ::
          s.applied }) := by
  rw [recordWebsiteCheck]
  cases hrefused : s.refuses input now with
  | true => exact .inl ⟨rfl, rfl⟩
  | false =>
    rw [if_neg (by simp)]
    by_cases hrecord : (s.storedCheck input now).source = .agent ∧
        s.row.config.agentProbeStatusEnabled = true ∧ (s.storedCheck input now).ok = false
    · refine .inr (.inl ⟨rfl, hrecord.2.2, ?_⟩)
      simp only [if_pos hrecord]
    · refine .inr (.inr ⟨rfl, ?_⟩)
      have hrow := updateRow_health (s := { s with checks := s.storedCheck input now :: s.checks })
        (s.appliedHealth (s.storedCheck input now))
      simp only [if_neg hrecord]
      rw [appliedHealth] at hrow ⊢
      simp only at hrow
      rw [hrow]

theorem recordWebsiteCheck_spec (hI : s.Inv) (input : CheckInput) (now : Int) :
    (s.recordWebsiteCheck input now).1.Inv ∧ Follows s (s.recordWebsiteCheck input now).1 := by
  have hstore := hI.store input now
  rcases record_cases s input now with ⟨-, h⟩ | ⟨-, -, h⟩ | ⟨hrefused, h⟩
  · rw [h]
    exact ⟨hI, Follows.refl s⟩
  · rw [h]
    exact ⟨hstore, .inr ⟨rfl, rfl, .inl rfl⟩⟩
  · obtain ⟨henabled, hnew⟩ := newer_of_accepted hI hrefused
    rw [h]
    refine ⟨?_, .inr ⟨rfl, rfl, .inr ⟨_, rfl⟩⟩⟩
    cases hok : (s.storedCheck input now).ok with
    | true =>
      rw [appliedHealth, if_pos hok, ← hok]
      exact hstore.succeed _ hok henabled hnew
    | false =>
      rw [appliedHealth, if_neg (by simp [hok]), ← hok]
      exact hstore.fail _ hok henabled hnew

/-- **One call.** -/
theorem step_spec (hI : s.Inv) (e : MonitorEvent) : (monitorStep s e).Inv ∧ Follows s (monitorStep s e) := by
  cases e with
  | record input now => exact recordWebsiteCheck_spec hI input now
  | update patch => exact updateWebsiteMonitor_spec hI patch
  | setEnabled enabled => exact setWebsiteMonitorEnabled_spec hI enabled
  | setVisibility hidden => exact setWebsiteMonitorVisibility_spec hI hidden
  | mark time expected => exact markWebsiteMonitorNotified_spec hI time expected

/-- **Every run** keeps the invariant. -/
theorem run_inv {es : List MonitorEvent} (hI : s.Inv) (hrun : monitorMachine.run s es = some s') :
    s'.Inv := by
  refine monitorMachine.run_inv (I := Inv) (fun t e t' ht hstep => ?_) hI hrun
  cases hstep
  exact (step_spec ht e).1

/-- A check that the row or its history overtakes. -/
def Stale (s : MonitorState) (input : CheckInput) (now : Int) : Prop :=
  input.configRevision ≠ some s.row.configRevision ∨
  (∃ t, s.row.health.lastCheckedAt = some t ∧ (s.storedCheck input now).checkedAt ≤ t) ∨
  ∃ c ∈ s.checks, c.configRevision = s.row.configRevision ∧ c.source = (s.storedCheck input now).source ∧
    c.sourceClient = (s.storedCheck input now).sourceClient ∧
    (s.storedCheck input now).checkedAt ≤ c.checkedAt

theorem stale_refused {now : Int} (h : s.Stale input now) : s.recordWebsiteCheck input now = (s, none) := by
  have hrefused : s.refuses input now = true := by
    simp only [refuses, Bool.or_eq_true]
    rcases h with h | ⟨t, ht, hle⟩ | ⟨c, hc, hrevision, hsource, hclient, hle⟩
    · exact .inl (.inl (.inr (by simpa using h)))
    · exact .inl (.inr (by rw [ht]; simpa using hle))
    · refine .inr (List.any_eq_true.mpr ⟨c, hc, ?_⟩)
      simp [hrevision, hsource, hclient, hle]
  rw [recordWebsiteCheck, if_pos hrefused]

theorem lastCheckedAt_grows (hI : s.Inv) (hI' : s'.Inv) (hfollows : Follows s s')
    (hrevision : s'.row.configRevision = s.row.configRevision) {t : Int}
    (ht : s.row.health.lastCheckedAt = some t) :
    s'.row.health.lastCheckedAt = some t ∨ ∃ t', s'.row.health.lastCheckedAt = some t' ∧ t < t' := by
  rcases hfollows with ⟨hnew, -⟩ | ⟨-, -, happlied | ⟨check, happlied⟩⟩
  · -- a revision that was drawn just now is another one
    have hlt := hI.revision
    omega
  · rw [hI'.lastChecked, happlied, ← hI.lastChecked]
    exact .inl ht
  · right
    rw [hI'.lastChecked, happlied]
    refine ⟨check.1, rfl, ?_⟩
    rw [hI.lastChecked] at ht
    obtain ⟨c, hc, rfl⟩ := Option.map_eq_some_iff.mp ht
    have hsorted := hI'.times
    rw [happlied] at hsorted
    exact (List.pairwise_cons.mp hsorted).1 c (List.mem_of_mem_head? (Option.mem_def.mpr hc))

/-- An edit that changes the configuration begins a revision. -/
theorem Follows.rotated (h : Follows s s') (hconfig : s'.row.config ≠ s.row.config) :
    s'.row.configRevision = s.issued ∧ s'.row.health = MonitorHealth.fresh s'.row.config.enabled := by
  rcases h with h | ⟨-, hsame, -⟩
  · exact h
  · exact absurd hsame hconfig

end MonitorState

open MonitorState in
/-- **The row is a fold of the applied checks**, in every state that any calls can reach from a new
    monitor. -/
theorem monitor_row_folds_checks (revision : Nat) (name : String) (hidden hideUrl : Bool)
    (config : MonitorConfig) (es : List MonitorEvent) (s : MonitorState)
    (hrun : monitorMachine.run (MonitorState.created revision name hidden hideUrl config) es = some s) :
    -- within a revision the time of the last check only grows
    (∀ e t, (monitorStep s e).row.configRevision = s.row.configRevision →
      s.row.health.lastCheckedAt = some t →
      (monitorStep s e).row.health.lastCheckedAt = some t ∨
        ∃ t', (monitorStep s e).row.health.lastCheckedAt = some t' ∧ t < t') ∧
    -- a stale check changes neither the history nor the row
    (∀ input now, s.Stale input now → s.recordWebsiteCheck input now = (s, none)) ∧
    -- the row is what the applied checks say
    (s.row.health.lastCheckedAt = s.applied.head?.map Prod.fst ∧
      s.row.health.lastSuccessAt = (s.applied.find? fun c => c.2).map Prod.fst ∧
      s.row.health.lastFailureAt = (s.applied.find? fun c => !c.2).map Prod.fst ∧
      (s.row.health.status = .up ↔ s.applied.head?.map Prod.snd = some true) ∧
      (s.row.health.status = .down ↔ s.applied.head?.map Prod.snd = some false)) ∧
    -- an outage begins with the first failure after the last success
    ((s.row.health.downSince.isSome ↔ s.row.health.status = .down) ∧
      s.row.health.downSince = outageStart s.applied) ∧
    -- a notification of the present outage was marked for it
    (s.row.health.status = .down →
      s.row.health.lastNotifiedAt = none ∨ s.markedFor = some s.row.health.downSince) ∧
    -- an edit and its reversal begin a revision that no earlier check fits
    (∀ there back, (monitorStep s there).row.config ≠ s.row.config →
      (monitorStep (monitorStep s there) back).row.config = s.row.config →
      (monitorStep (monitorStep s there) back).row.health = MonitorHealth.fresh s.row.config.enabled ∧
      ∀ input now, input.configRevision = some s.row.configRevision ∨
          input.configRevision = some (monitorStep s there).row.configRevision →
        (monitorStep (monitorStep s there) back).recordWebsiteCheck input now
          = (monitorStep (monitorStep s there) back, none)) := by
  have hI : s.Inv := run_inv (Inv.created revision name hidden hideUrl config) hrun
  refine ⟨?_, fun input now => stale_refused, ⟨hI.lastChecked, hI.lastSuccess, hI.lastFailure, hI.up,
    hI.down⟩, ⟨?_, hI.downSince⟩, hI.notified, ?_⟩
  · intro e t hrevision ht
    obtain ⟨hI', hfollows⟩ := step_spec hI e
    exact lastCheckedAt_grows hI hI' hfollows hrevision ht
  · rw [hI.downSince, outageStart_isSome, hI.down]
  · intro there back hthere hback
    obtain ⟨hI₁, hfollows₁⟩ := step_spec hI there
    obtain ⟨hI₂, hfollows₂⟩ := step_spec hI₁ back
    have hne : (monitorStep (monitorStep s there) back).row.config ≠ (monitorStep s there).row.config := by
      rw [hback]
      exact Ne.symm hthere
    obtain ⟨hrevision₁, -⟩ := hfollows₁.rotated hthere
    obtain ⟨hrevision₂, hfresh⟩ := hfollows₂.rotated hne
    refine ⟨hback ▸ hfresh, fun input now hinput => stale_refused (.inl ?_)⟩
    have hlt := hI.revision
    have hlt₁ := hI₁.revision
    rw [hrevision₂]
    rintro hsame
    rcases hinput with hinput | hinput
    · have heq := Option.some.inj (hinput.symm.trans hsame)
      omega
    · have heq := Option.some.inj (hinput.symm.trans hsame)
      omega

/-- A monitor that is checked every two minutes, by agents first. -/
def plainConfig : MonitorConfig :=
  ⟨"https://a/", "GET", 200, 399, 120, 10, 180, true, .countryAuto, [], 3, true⟩

/-- A check of a Worker at a time, for a revision. -/
def workerCheck (revision : Nat) (time : Int) (ok : Bool) : CheckInput :=
  ⟨some revision, some time, some ok, some (if ok then "up" else "down"), none, none, none, none, none,
    some "worker", none⟩

/-- Let a minute more pass between two checks. -/
def slower : MonitorPatch :=
  ⟨none, none, none, none, none, some 180, none, none, none, none, none, none, none, none, none⟩

/-- The hypothesis is satisfiable: after a failed check there is an outage since its time. -/
theorem monitor_row_folds_checks_down :
    ∃ s, monitorMachine.run (MonitorState.created 0 "a" false false plainConfig)
        [.record (workerCheck 0 100 false) 0] = some s ∧ s.row.health.status = .down ∧
      s.row.health.downSince = outageStart s.applied :=
  ⟨_, rfl, rfl, (monitor_row_folds_checks 0 "a" false false plainConfig
    [.record (workerCheck 0 100 false) 0] _ rfl).2.2.2.1.2⟩

/-- The checks of earlier revisions do not count: one of the new revision is applied although the
    same source has a newer check in the history. -/
theorem earlier_revision_does_not_count :
    ¬ ∀ (es : List MonitorEvent) (s : MonitorState) (input : CheckInput) (now : Int),
      monitorMachine.run (MonitorState.created 0 "a" false false plainConfig) es = some s →
      (∃ c ∈ s.checks, c.source = (s.storedCheck input now).source ∧
        c.sourceClient = (s.storedCheck input now).sourceClient ∧
        (s.storedCheck input now).checkedAt ≤ c.checkedAt) →
      (s.recordWebsiteCheck input now).1.row = s.row := by
  intro h
  have hsame := h [.record (workerCheck 0 100 true) 0, .update slower] _ (workerCheck 1 50 true) 0 rfl
    ⟨_, List.mem_singleton.mpr rfl, rfl, rfl, by decide⟩
  exact absurd (congrArg (fun row => row.health.status) hsame) (by decide)

/-! ## Checks by agents -/

/-- A result of a report, after its fields were read: `ok` is `Boolean(item.ok)`, `effectiveUp` is
    missing when `effective_status` is neither `up` nor `down`. -/
structure ProbeResult where
  configRevision : Nat
  ok : Bool
  effectiveUp : Option Bool
  effectiveReason : String
  statusCode : Option Int
  rawStatusCode : Option Int
  latencyMs : Int
  error : Option String

namespace ProbeResult

variable (r : ProbeResult)

/-- The raw status code defaults to the status code. -/
def rawCode : Option Int := r.rawStatusCode.or r.statusCode

/-- Whether `persistWebsiteProbeResultsFromReport` records a result. -/
def admitted : Bool :=
  decide (0 ≤ r.latencyMs) && decide (r.latencyMs ≤ 60000) && r.effectiveUp.isSome &&
  (r.statusCode.all fun code => decide (100 ≤ code) && decide (code ≤ 599)) &&
  (r.rawCode.all fun code => decide (100 ≤ code) && decide (code ≤ 599))

/-- The check that a result becomes. -/
def check (client : String) (time : Int) : CheckInput where
  configRevision := some r.configRevision
  checkedAt := some time
  ok := some (r.ok && r.effectiveUp == some true)
  effectiveStatus := some (if r.effectiveUp == some true then "up" else "down")
  effectiveReason := some r.effectiveReason
  statusCode := r.statusCode
  rawStatusCode := r.rawCode
  latencyMs := some r.latencyMs
  error := r.error
  sourceType := some "agent"
  sourceClient := some client

end ProbeResult

/-- Every check of an agent comes from an admitted result that satisfies `P`. -/
def MonitorEvent.Reported (P : ProbeResult → Prop) : MonitorEvent → Prop
  | .record input _ => input.sourceType = some "agent" →
      ∃ r client time, r.admitted = true ∧ P r ∧ input = r.check client time
  | _ => True

/-- A result that calls a site up calls it ok. -/
def ProbeResult.Consistent (r : ProbeResult) : Prop := r.effectiveUp = some true → r.ok = true

/-- An agent's success of the present revision suppresses the Worker's check. -/
def MonitorState.Suppresses (s : MonitorState) (now : Int) (c : StoredCheck) : Prop :=
  c ∈ s.checks ∧ c.configRevision = s.row.configRevision ∧ c.source = .agent ∧
    c.effectiveUp = true ∧ now - s.successWindow ≤ c.checkedAt

namespace MonitorState

variable {s s' : MonitorState}

/-- Every success of an agent in the present revision was applied. -/
def AgentApplied (s : MonitorState) : Prop :=
  ∀ c ∈ s.checks, c.configRevision = s.row.configRevision → c.source = .agent →
    c.effectiveUp = true → (c.checkedAt, true) ∈ s.applied

theorem updateRow_checks (new : MonitorRow) : (s.updateRow new).checks = s.checks := by
  rw [updateRow]
  split_ifs <;> rfl

/-- A call that is no check leaves the history alone. -/
theorem AgentApplied.of_follows (h : s.AgentApplied) (hI : s.Inv) (hfollows : Follows s s')
    (hchecks : s'.checks = s.checks) : s'.AgentApplied := by
  intro c hc hrevision hsource hup
  rw [hchecks] at hc
  rcases hfollows with ⟨hnew, -⟩ | ⟨hsame, -, happlied⟩
  · have hlt := hI.checks c hc
    omega
  · have hmem := h c hc (hrevision.trans hsame) hsource hup
    rcases happlied with happlied | ⟨check, happlied⟩
    · rw [happlied]
      exact hmem
    · rw [happlied]
      exact List.mem_cons_of_mem _ hmem

variable {input : CheckInput}

theorem ok_of_reported {now : Int}
    (hreported : (MonitorEvent.record input now).Reported ProbeResult.Consistent)
    (hsource : (s.storedCheck input now).source = .agent)
    (hup : (s.storedCheck input now).effectiveUp = true) : (s.storedCheck input now).ok = true := by
  have hagent : input.sourceType = some "agent" := by
    by_contra hne
    have hworker : (s.storedCheck input now).source = .worker := if_neg (by simpa using hne)
    cases hsource.symm.trans hworker
  obtain ⟨r, client, time, -, hconsistent, rfl⟩ := hreported hagent
  have hreportedUp : r.effectiveUp = some true := by
    by_contra hne
    simp [storedCheck, ProbeResult.check, hne] at hup
  simp [storedCheck, ProbeResult.check, hreportedUp, hconsistent hreportedUp]

theorem AgentApplied.record (h : s.AgentApplied) {now : Int}
    (hreported : (MonitorEvent.record input now).Reported ProbeResult.Consistent) :
    (s.recordWebsiteCheck input now).1.AgentApplied := by
  rcases record_cases s input now with ⟨-, heq⟩ | ⟨-, hok, heq⟩ | ⟨-, heq⟩
  · rw [heq]
    exact h
  · rw [heq]
    intro c hc hrevision hsource hup
    rcases List.mem_cons.mp hc with rfl | hc
    · exact absurd (hok.symm.trans (ok_of_reported hreported hsource hup)) (by simp)
    · exact h c hc hrevision hsource hup
  · rw [heq]
    intro c hc hrevision hsource hup
    rcases List.mem_cons.mp hc with rfl | hc
    · rw [ok_of_reported hreported hsource hup]
      exact List.mem_cons_self
    · exact List.mem_cons_of_mem _ (h c hc hrevision hsource hup)

/-- **One call** keeps the successes of agents applied. -/
theorem AgentApplied.step (h : s.AgentApplied) (hI : s.Inv) {e : MonitorEvent}
    (hreported : e.Reported ProbeResult.Consistent) : (monitorStep s e).AgentApplied := by
  have hfollows := (step_spec hI e).2
  cases e with
  | record input now => exact h.record hreported
  | update patch =>
    refine h.of_follows hI hfollows ?_
    rw [monitorStep, updateWebsiteMonitor]
    split_ifs
    · exact updateRow_checks _
    · rfl
  | setEnabled enabled =>
    refine h.of_follows hI hfollows ?_
    rw [monitorStep, setWebsiteMonitorEnabled]
    split_ifs
    · exact updateRow_checks _
    · exact updateRow_checks _
    · rfl
  | setVisibility hidden =>
    refine h.of_follows hI hfollows ?_
    rw [monitorStep, setWebsiteMonitorVisibility]
    split_ifs
    · exact updateRow_checks _
    · rfl
  | mark time expected =>
    refine h.of_follows hI hfollows ?_
    rw [monitorStep]
    cases expected with
    | none => rfl
    | some expected =>
      rw [markWebsiteMonitorNotified]
      simp only
      split_ifs
      · exact updateRow_checks _
      · rfl

theorem find_success_newest {applied : List (Int × Bool)} {t : Int}
    (hsorted : applied.Pairwise fun a b => b.1 < a.1) (h : (t, true) ∈ applied) :
    ∃ last, (applied.find? fun c => c.2).map Prod.fst = some last ∧ t ≤ last := by
  induction applied with
  | nil => cases h
  | cons c rest ih =>
    obtain ⟨hnewest, hrest⟩ := List.pairwise_cons.mp hsorted
    rcases List.mem_cons.mp h with rfl | hmem
    · exact ⟨t, rfl, Int.le_refl t⟩
    · obtain ⟨t', ok⟩ := c
      cases ok with
      | true => exact ⟨t', rfl, Int.le_of_lt (hnewest _ hmem)⟩
      | false =>
        rw [List.find?_cons_of_neg (by simp)]
        exact ih hrest hmem

end MonitorState

open MonitorState in
/-- **A suppressed check is one that an agent's success stands for**: when every result that calls a
    site up calls it ok, then in every reachable state a success of an agent that keeps the Worker
    from checking is not newer than the last success of the row. -/
theorem agent_success_proves_site_up (revision : Nat) (name : String) (hidden hideUrl : Bool)
    (config : MonitorConfig) (es : List MonitorEvent)
    (hreported : ∀ e ∈ es, e.Reported ProbeResult.Consistent) (s : MonitorState)
    (hrun : monitorMachine.run (MonitorState.created revision name hidden hideUrl config) es = some s)
    (now : Int) (c : StoredCheck) (hsuppresses : s.Suppresses now c) :
    ∃ last, s.row.health.lastSuccessAt = some last ∧ c.checkedAt ≤ last := by
  have hinv : s.Inv ∧ s.AgentApplied := by
    refine monitorMachine.run_inv_of (I := fun s => s.Inv ∧ s.AgentApplied) ?_ es _ s ?_ hreported hrun
    · rintro t e t' ⟨hI, happlied⟩ he hstep
      cases hstep
      exact ⟨(step_spec hI e).1, happlied.step hI he⟩
    · refine ⟨Inv.created revision name hidden hideUrl config, fun c hc => ?_⟩
      simp [MonitorState.created] at hc
  obtain ⟨hmem, hrevision, hsource, hup, -⟩ := hsuppresses
  rw [hinv.1.lastSuccess]
  exact find_success_newest hinv.1.times (hinv.2 c hmem hrevision hsource hup)

/-- A result of an agent: the site is called up, and `ok` says whether it is called ok. -/
def upResult (ok : Bool) : ProbeResult := ⟨0, ok, some true, "up", some 200, none, 8, none⟩

theorem upResult_reported (P : ProbeResult → Prop) (ok : Bool) (hP : P (upResult ok)) :
    ∀ e ∈ [MonitorEvent.record ((upResult ok).check "node" 100) 0], e.Reported P := by
  intro e he
  obtain rfl := List.mem_singleton.mp he
  exact fun _ => ⟨upResult ok, "node", 100, by cases ok <;> decide, hP, rfl⟩

/-- The hypotheses are satisfiable: a success of an agent is the last success of the row. -/
theorem agent_success_proves_site_up_once :
    ∃ s, monitorMachine.run (MonitorState.created 0 "a" false false plainConfig)
        [.record ((upResult true).check "node" 100) 0] = some s ∧
      ∃ last, s.row.health.lastSuccessAt = some last ∧ 100 ≤ last :=
  ⟨_, rfl, agent_success_proves_site_up 0 "a" false false plainConfig _
    (upResult_reported _ true fun _ => rfl) _ rfl 100 _
    ⟨List.mem_singleton.mpr rfl, rfl, rfl, rfl, by decide⟩⟩

/-- A result that calls a site up and not ok suppresses the Worker's check although no success was
    ever applied. -/
theorem agent_up_without_success :
    ¬ ∀ (es : List MonitorEvent) (s : MonitorState) (now : Int) (c : StoredCheck),
      (∀ e ∈ es, e.Reported fun _ => True) →
      monitorMachine.run (MonitorState.created 0 "a" false false plainConfig) es = some s →
      s.Suppresses now c → ∃ last, s.row.health.lastSuccessAt = some last ∧ c.checkedAt ≤ last := by
  intro h
  obtain ⟨last, hlast, -⟩ := h [.record ((upResult false).check "node" 100) 0] _ 100 _
    (upResult_reported _ false trivial) rfl ⟨List.mem_singleton.mpr rfl, rfl, rfl, rfl, by decide⟩
  cases Option.isSome_iff_exists.mpr ⟨last, hlast⟩

end CfMonitor.Website
