/-
  Host information on its way to the server (`attachBasicInfoIfDue`, `currentReportBasicInfo`, the
  first loop of `acknowledgeReports`).

  The preparer keeps the newest host information until an acknowledgement covers it.  Copies of it
  travel on reports, each under the revision it was taken at.

  1. **Program** — the machine of `Agent.Reporter` with the clock of the refreshes (`hostStep`).  A
     process keeps the transport it was started with; here the two loops may also take turns over one
     preparer, so that nothing below depends on which of them runs.

  2. **Invariant** (`AgentState.Informed`) — every copy is of the current revision or of an older one,
     and a copy of the current revision says what is pending.  What is handed to the transport was
     stripped of everything else just before, and no refresh comes between.

  3. **Results** — host information stays pending until it is acknowledged (`basic_info_delivered`).
-/
import CfMonitor.Agent.ReporterMoves

namespace CfMonitor.Agent

open CfMonitor.Lib

/-! ## The machine with the clock of the refreshes -/

/-- Thirty minutes, in milliseconds. -/
def basicInfoRefreshInterval : Int := 30 * 60 * 1000

/-- The condition of the refresh in `attachBasicInfoIfDue`; `none` is the zero time. -/
def basicInfoDue (lastBasicInfoAt : Option Int) (now : Int) : Bool :=
  match lastBasicInfoAt with
  | none => true
  | some last => decide (basicInfoRefreshInterval ≤ now - last)

/-- An agent, and when its preparer last took host information. -/
structure HostAgent where
  agent : AgentState
  lastBasicInfoAt : Option Int

/-- What happens next: a report is collected at `timestamp` and prepared at `now`, with `info` as what
    `getBasicInfo` would say; the reporter loop or a probe goes on; or the transport changes. -/
inductive HostEvent where
  | prepare (timestamp now : Int) (info : BasicInfo)
  | loop (e : ReporterEvent)
  | changeTransport

/-- The labels other than the section that prepares a report. -/
def ReporterEvent.besidePreparing : ReporterEvent → Bool
  | .appendDueResults _ _ => false
  | _ => true

/-- The other loop takes over between two sessions or two rounds; what the HTTP loop held is retried. -/
def changeTransport (a : AgentState) : Option AgentState :=
  match a.reporter with
  | .disconnected => some { a with reporter := .sleeping [] }
  | .sleeping pending =>
    some { a with state := retryReports a.state a.preparer pending, reporter := .disconnected }
  | _ => none

/-- What a preparation at `now` takes from the host. -/
def HostAgent.refresh (h : HostAgent) (now : Int) (info : BasicInfo) : Option BasicInfo :=
  if basicInfoDue h.lastBasicInfoAt now then some info else none

/-- One step of the agent. -/
def hostStep (fold : Char → Char) (h : HostAgent) : HostEvent → Option HostAgent
  | .prepare timestamp now info =>
    (reporterStep fold h.agent (.appendDueResults timestamp (h.refresh now info))).map fun a =>
      ⟨a, if basicInfoDue h.lastBasicInfoAt now then some now else h.lastBasicInfoAt⟩
  | .loop e =>
    if e.besidePreparing then (reporterStep fold h.agent e).map (⟨·, h.lastBasicInfoAt⟩) else none
  | .changeTransport => (changeTransport h.agent).map (⟨·, h.lastBasicInfoAt⟩)

/-- The agent as a machine. -/
def hostMachine (fold : Char → Char) : Machine HostAgent HostEvent := ⟨hostStep fold⟩

/-- A fresh agent. -/
def HostAgent.start (http : Bool) : HostAgent := ⟨.start http, none⟩

/-! ## Copies and revisions -/

/-- The preparer is as before, or has begun a new revision. -/
inductive Refreshed (p : ReportPreparer) : ReportPreparer → Prop where
  | same : Refreshed p p
  | refresh (info : BasicInfo) : Refreshed p ⟨some info, p.basicInfoRevision + 1⟩

/-- The host information on a report was taken at a revision up to the current one, and at the current
    one it is what is pending, if anything is. -/
structure Report.Informed (p : ReportPreparer) (report : Report) : Prop where
  carries : report.basicInfo.isSome = report.hasBasicInfoOwner
  taken : report.hasBasicInfoOwner = true → report.basicInfoRevision ≤ p.basicInfoRevision
  newest : report.hasBasicInfoOwner = true → report.basicInfoRevision = p.basicInfoRevision →
    ∀ info, p.pendingBasicInfo = some info → report.basicInfo = some info

/-- A report carries what is pending. -/
def Report.Newest (p : ReportPreparer) (report : Report) : Prop :=
  ∀ info, p.pendingBasicInfo = some info →
    report.basicInfo = some info ∧ report.basicInfoRevision = p.basicInfoRevision

/-- A report carries what is pending, or nothing. -/
def Report.Fresh (p : ReportPreparer) (report : Report) : Prop :=
  ∀ info, report.basicInfo = some info →
    p.pendingBasicInfo = some info ∧ report.basicInfoRevision = p.basicInfoRevision

namespace Report.Informed

variable {p p' : ReportPreparer} {report : Report}

/-- A report without host information. -/
theorem of_none (hinfo : report.basicInfo = none) (howner : report.hasBasicInfoOwner = false) :
    report.Informed p where
  carries := by rw [hinfo, howner]; rfl
  taken := fun h => absurd (howner.symm.trans h) (by simp)
  newest := fun h => absurd (howner.symm.trans h) (by simp)

theorem refreshed (h : report.Informed p) (hp : Refreshed p p') : report.Informed p' := by
  cases hp with
  | same => exact h
  | refresh info =>
    refine ⟨h.carries, fun howner => ?_, fun howner hrev => ?_⟩
    · have hle := h.taken howner
      show report.basicInfoRevision ≤ p.basicInfoRevision + 1
      omega
    · -- a copy is never of the revision that the refresh has just begun
      have hle := h.taken howner
      have hnew : report.basicInfoRevision = p.basicInfoRevision + 1 := hrev
      omega

theorem released (h : report.Informed p) : report.Informed { p with pendingBasicInfo := none } :=
  ⟨h.carries, h.taken, nofun⟩

/-- `currentReportBasicInfo` leaves what is pending, or nothing. -/
theorem current (h : report.Informed p) :
    (currentReportBasicInfo p report).Informed p ∧ (currentReportBasicInfo p report).Fresh p := by
  rw [currentReportBasicInfo]
  split_ifs with hstale
  · exact ⟨of_none rfl rfl, by rintro _ ⟨⟩⟩
  · refine ⟨h, fun info hinfo => ?_⟩
    have howner : report.hasBasicInfoOwner = true := by rw [← h.carries, hinfo]; rfl
    rw [howner, Bool.true_and, Bool.or_eq_true, not_or] at hstale
    have hrev : report.basicInfoRevision = p.basicInfoRevision := by
      have hsame : p.basicInfoRevision = report.basicInfoRevision := by simpa using hstale.2
      exact hsame.symm
    cases hpending : p.pendingBasicInfo with
    | none => exact absurd (by rw [hpending]; rfl) hstale.1
    | some newest =>
      have hsame := h.newest howner hrev newest hpending
      rw [hinfo] at hsame
      exact ⟨hsame.symm, hrev⟩

end Report.Informed

variable {s : PingReportState} {p : ReportPreparer} {reports : List Report}

theorem informed_currentResults (h : ∀ report ∈ reports, report.Informed p) :
    ∀ report ∈ currentReportResults s p reports, report.Informed p ∧ report.Fresh p := by
  intro report hmem
  obtain ⟨old, hold, rfl⟩ := List.mem_map.mp hmem
  obtain ⟨hinformed, hfresh⟩ := (h old hold).current
  exact ⟨⟨hinformed.carries, hinformed.taken, hinformed.newest⟩, hfresh⟩

theorem informed_retry (hqueue : ∀ report ∈ s.retryQueue, report.Informed p)
    (hreports : ∀ report ∈ reports, report.Informed p) :
    ∀ report ∈ (retryReports s p reports).retryQueue, report.Informed p := by
  intro report hmem
  rcases List.mem_append.mp hmem with hmem | hmem
  · exact hqueue report hmem
  · exact (informed_currentResults hreports report (List.mem_filter.mp hmem).1).1

theorem flush_preparer (a : AgentState) (x : Session) : (flush a x).preparer = a.preparer := by
  rw [flush]
  split_ifs <;> rfl

theorem attachBasicInfoIfDue_spec (p : ReportPreparer) (refresh : Option BasicInfo) (timestamp : Int) :
    Refreshed p (attachBasicInfoIfDue p refresh (Report.collected timestamp)).1 ∧
    (attachBasicInfoIfDue p refresh (Report.collected timestamp)).2.Informed
      (attachBasicInfoIfDue p refresh (Report.collected timestamp)).1 ∧
    (attachBasicInfoIfDue p refresh (Report.collected timestamp)).2.Newest
      (attachBasicInfoIfDue p refresh (Report.collected timestamp)).1 := by
  have hattached : ∀ (q : ReportPreparer) (info : BasicInfo), q.pendingBasicInfo = some info →
      ∀ report : Report, report.basicInfo = some info → report.hasBasicInfoOwner = true →
        report.basicInfoRevision = q.basicInfoRevision → report.Informed q ∧ report.Newest q := by
    intro q info hq report hinfo howner hrev
    have hsame : ∀ info', q.pendingBasicInfo = some info' → report.basicInfo = some info' :=
      fun info' hq' => by rw [hinfo, ← hq, hq']
    refine ⟨⟨?_, fun _ => Nat.le_of_eq hrev, fun _ _ => hsame⟩, fun info' hq' => ⟨hsame info' hq', hrev⟩⟩
    rw [hinfo, howner]
    rfl
  cases refresh with
  | some info =>
    exact ⟨.refresh info, hattached ⟨some info, p.basicInfoRevision + 1⟩ info rfl _ rfl rfl rfl⟩
  | none =>
    cases hp : p.pendingBasicInfo with
    | none =>
      have heq : attachBasicInfoIfDue p none (Report.collected timestamp)
          = (p, Report.collected timestamp) := by simp [attachBasicInfoIfDue, hp]
      rw [heq]
      refine ⟨.same, .of_none rfl rfl, fun info hinfo => ?_⟩
      rw [hp] at hinfo
      cases hinfo
    | some info =>
      have heq : attachBasicInfoIfDue p none (Report.collected timestamp)
          = (p, { Report.collected timestamp with
              basicInfo := some info, hasBasicInfoOwner := true
              basicInfoRevision := p.basicInfoRevision }) := by simp [attachBasicInfoIfDue, hp]
      rw [heq]
      exact ⟨.same, hattached p info hp _ rfl rfl rfl⟩

/-! ## Acknowledgements -/

/-- An acknowledged report covers what is pending. -/
def Report.covers (p : ReportPreparer) (report : Report) : Bool :=
  report.hasBasicInfoOwner && report.basicInfo.isSome && p.basicInfoRevision == report.basicInfoRevision

/-- The first loop of `acknowledgeReports` asks whether one of the reports covers what is pending. -/
theorem acknowledgeBasicInfo_eq (reports : List Report) : ∀ p : ReportPreparer, acknowledgeBasicInfo p reports
      = if reports.any (Report.covers p) then { p with pendingBasicInfo := none } else p := by
  induction reports with
  | nil => intro p; rfl
  | cons report reports ih =>
    intro p
    show acknowledgeBasicInfo (if report.covers p then _ else p) reports = _
    rw [List.any_cons]
    cases hcovers : report.covers p with
    | false =>
      rw [if_neg (by simp), Bool.false_or]
      exact ih p
    | true =>
      rw [if_pos rfl, Bool.true_or, if_pos rfl, ih]
      split_ifs <;> rfl

theorem Report.Informed.acknowledge {p : ReportPreparer} {report : Report} (h : report.Informed p)
    (reports : List Report) : report.Informed (acknowledgeBasicInfo p reports) := by
  rw [acknowledgeBasicInfo_eq]
  split_ifs
  · exact h.released
  · exact h

theorem acknowledgeBasicInfo_older (p : ReportPreparer) (reports : List Report) :
    acknowledgeBasicInfo p reports = acknowledgeBasicInfo p
      (reports.filter fun report => !decide (report.basicInfoRevision < p.basicInfoRevision)) := by
  rw [acknowledgeBasicInfo_eq, acknowledgeBasicInfo_eq, List.any_filter]
  refine if_congr (Bool.eq_iff_iff.mp (congrArg reports.any (funext fun report => ?_))) rfl rfl
  by_cases hcovers : report.covers p = true
  · have hrev : p.basicInfoRevision = report.basicInfoRevision := by
      simp only [Report.covers, Bool.and_eq_true, beq_iff_eq] at hcovers
      exact hcovers.2
    rw [hcovers, decide_eq_false (by omega)]
    rfl
  · rw [Bool.not_eq_true] at hcovers
    rw [hcovers, Bool.and_false]

theorem covers_of_released {info : BasicInfo}
    (h : ∀ report ∈ reports, report.Informed p) (hinfo : p.pendingBasicInfo = some info)
    (hreleased : (acknowledgeBasicInfo p reports).pendingBasicInfo = none) :
    ∃ report ∈ reports, report.basicInfo = some info ∧ report.basicInfoRevision = p.basicInfoRevision := by
  rw [acknowledgeBasicInfo_eq] at hreleased
  split_ifs at hreleased with hany
  · obtain ⟨report, hmem, hcovers⟩ := List.any_eq_true.mp hany
    simp only [Report.covers, Bool.and_eq_true, beq_iff_eq] at hcovers
    obtain ⟨⟨howner, -⟩, hrev⟩ := hcovers
    exact ⟨report, hmem, (h report hmem).newest howner hrev.symm info hinfo, hrev.symm⟩
  · rw [hinfo] at hreleased
    cases hreleased

/-! ## The invariant -/

/-- The further copies of `appendPendingReports` say nothing about the host. -/
theorem appendPendingLoop_bare (first : Report) (n : Nat) : ∀ s : PingReportState,
    ∀ report ∈ (appendPendingLoop first n s).2,
      report.basicInfo = none ∧ report.hasBasicInfoOwner = false := by
  induction n with
  | zero => intro s report hmem; simp [appendPendingLoop] at hmem
  | succ n ih =>
    intro s report
    rw [appendPendingLoop]
    dsimp only
    split_ifs
    · intro hmem
      rcases List.mem_cons.mp hmem with rfl | hmem
      · exact ⟨rfl, rfl⟩
      · exact ih _ report hmem
    · intro hmem
      cases hmem

/-- The invariant on host information. -/
structure AgentState.Informed (a : AgentState) : Prop where
  queue : ∀ report ∈ a.state.retryQueue, report.Informed a.preparer
  held : ∀ report ∈ a.reporter.held, report.Informed a.preparer
  wire : ∀ report ∈ a.reporter.onWire, report.Informed a.preparer
  handed : ∀ batch, a.reporter.handed = some batch → ∀ report ∈ batch, report.Fresh a.preparer
  prepared : ∀ reports, a.reporter.prepared = some reports → ∃ report ∈ reports, report.Newest a.preparer

variable {e : ReporterEvent}

variable {s' : PingReportState} {p' : ReportPreparer} {stage stage' : Preparing}

/-- A section of `prepareReportsWithPing`. -/
theorem prepareStep_informed (h : prepareStep s p stage e = some (s', p', stage'))
    (hqueue : ∀ report ∈ s.retryQueue, report.Informed p)
    (hheld : ∀ report ∈ stage.held, report.Informed p)
    (hprepared : ∀ reports, stage.prepared = some reports → ∃ report ∈ reports, report.Newest p) :
    Refreshed p p' ∧ (∀ report ∈ s'.retryQueue, report.Informed p') ∧
      (∀ report ∈ stage'.held, report.Informed p') ∧
      ∀ reports, stage'.prepared = some reports → ∃ report ∈ reports, report.Newest p' := by
  rw [prepareStep.eq_def] at h
  split at h
  · -- the retry queue is taken, without what is obsolete
    cases h
    refine ⟨.same, fun report hmem => absurd hmem (by simp), ?_,
      fun reports hnone => absurd hnone (by simp [Preparing.prepared])⟩
    intro report hmem
    exact (informed_currentResults hqueue report (List.mem_filter.mp hmem).1).1
  · -- a new report, which takes results from the queues
    rename_i retry timestamp refresh
    cases h
    obtain ⟨hstep, hinformed, hnewest⟩ := attachBasicInfoIfDue_spec p refresh timestamp
    refine ⟨hstep, fun report hmem => (hqueue report hmem).refreshed hstep, fun report hmem => ?_, ?_⟩
    · rcases List.mem_cons.mp hmem with rfl | hmem
      · exact ⟨hinformed.carries, hinformed.taken, hinformed.newest⟩
      · exact (hheld report hmem).refreshed hstep
    · intro reports hsome
      cases hsome
      exact ⟨_, List.mem_singleton_self _, hnewest⟩
  · -- further copies, for the results that are left
    rename_i retry first
    obtain ⟨rfl, rfl, rfl⟩ : _ ∧ _ ∧ _ := by simpa using h
    rw [appendPendingReports_eq]
    have hcopies := appendPendingLoop_bare first (s.ping.order.length + s.website.order.length + 1) s
    refine ⟨.same, fun report hmem => hqueue report ?_, fun report hmem => ?_, ?_⟩
    · rw [← appendPendingLoop_retryQueue first _ s]
      exact hmem
    · rcases List.mem_append.mp hmem with hmem | hmem
      · exact hheld report (List.mem_cons_of_mem _ hmem)
      · rcases List.mem_cons.mp hmem with rfl | hmem
        · exact hheld report List.mem_cons_self
        · obtain ⟨hinfo, howner⟩ := hcopies report hmem
          exact .of_none hinfo howner
    · intro reports hsome
      cases hsome
      obtain ⟨report, hmem, hnewest⟩ := hprepared [first] rfl
      obtain rfl := List.mem_singleton.mp hmem
      exact ⟨report, List.mem_append_right _ List.mem_cons_self, hnewest⟩
  · cases h

/-- What a step does to the preparer: a refresh or nothing, or it acknowledges the batch that waits for
    that. -/
inductive InfoChange (a : AgentState) (e : ReporterEvent) (a' : AgentState) : Prop where
  | refreshed (h : Refreshed a.preparer a'.preparer)
  | acknowledged (he : e = .ack) (h : a'.preparer = acknowledgeBasicInfo a.preparer a.reporter.unacknowledged)

namespace AgentState.Informed

variable {a b : AgentState} {x : Session}

theorem start (http : Bool) : (AgentState.start http).Informed := by
  cases http <;>
    exact ⟨fun _ h => absurd h (by simp [AgentState.start, newPingReportState]),
      fun _ h => absurd h (by simp [AgentState.start, Reporter.held]),
      fun _ h => absurd h (by simp [AgentState.start, Reporter.held, Reporter.onWire]),
      fun _ h => absurd h (by simp [AgentState.start, Reporter.handed]),
      fun _ h => absurd h (by simp [AgentState.start, Reporter.prepared])⟩

/-- For the phases in which no batch is on its way and no report is being prepared. -/
theorem of_held (hwire : a.reporter.onWire = a.reporter.held) (hhanded : a.reporter.handed = none)
    (hprepared : a.reporter.prepared = none)
    (hqueue : ∀ report ∈ a.state.retryQueue, report.Informed a.preparer)
    (hheld : ∀ report ∈ a.reporter.held, report.Informed a.preparer) : a.Informed where
  queue := hqueue
  held := hheld
  wire := by rw [hwire]; exact hheld
  handed := fun _ h => absurd (hhanded.symm.trans h) (by simp)
  prepared := fun _ h => absurd (hprepared.symm.trans h) (by simp)

/-- Probes and policies leave the reports and the preparer alone. -/
theorem beside (h : a.Informed) (hpreparer : b.preparer = a.preparer)
    (hreporter : b.reporter = a.reporter) (hqueue : b.state.retryQueue = a.state.retryQueue) :
    b.Informed where
  queue := by rw [hqueue, hpreparer]; exact h.queue
  held := by rw [hreporter, hpreparer]; exact h.held
  wire := by rw [hreporter, hpreparer]; exact h.wire
  handed := by rw [hreporter, hpreparer]; exact h.handed
  prepared := by rw [hreporter, hpreparer]; exact h.prepared

theorem flush (hqueue : ∀ report ∈ b.state.retryQueue, report.Informed b.preparer)
    (hheld : ∀ report ∈ x.inFlight ++ x.pending, report.Informed b.preparer) :
    (flush b x).Informed := by
  rw [Agent.flush]
  split_ifs
  · exact of_held rfl rfl rfl hqueue hheld
  · have hpending : ∀ report ∈ x.pending, report.Informed b.preparer :=
      fun report hmem => hheld report (List.mem_append_right _ hmem)
    have hcopies := informed_currentResults (s := b.state)
      fun report (hmem : report ∈ x.pending.take maxReportsPerEnvelope) =>
        hpending report (List.mem_of_mem_take hmem)
    have hall : ∀ report ∈ currentReportResults b.state b.preparer
          (x.pending.take maxReportsPerEnvelope) ++ x.pending.drop maxReportsPerEnvelope,
        report.Informed b.preparer := by
      intro report hmem
      rcases List.mem_append.mp hmem with hmem | hmem
      · exact (hcopies report hmem).1
      · exact hpending report (List.mem_of_mem_drop hmem)
    refine ⟨hqueue, hall, hall, fun batch hbatch => ?_, fun _ h => absurd h (by simp [Reporter.prepared])⟩
    cases hbatch
    exact fun report hmem => (hcopies report hmem).2

end AgentState.Informed

/-! ## The steps -/

variable {fold : Char → Char} {a a' : AgentState}

/-- **One step of a reporter loop.** -/
theorem loopStep_informed {r : Reporter} (hr : a.reporter = r) (hI : a.Informed) (hs : LoopStep fold a r e a') :
    a'.Informed ∧ InfoChange a e a' := by
  have hqueue := hI.queue
  have hheld := hI.held
  have hwire := hI.wire
  have hprepared := hI.prepared
  rw [hr] at hheld hwire hprepared
  cases hs with
  | quiet r' he hheld' hplain hsent =>
    exact ⟨.of_held hplain.wire hplain.handed hplain.prepared hqueue fun report h => hheld report (hheld'.mem_iff.mp h),
      .refreshed .same⟩
  | @prepare s' p' stage stage' others r' h hheld₁ hheld₂ hwire' hhanded hprep hprep' hsent =>
    rw [hheld₁] at hheld
    rw [hprep] at hprepared
    obtain ⟨hstep, hqueue', hheld', hprepared'⟩ := prepareStep_informed h hqueue
      (fun report hmem => hheld report (List.mem_append_left _ hmem)) hprepared
    have hall : ∀ report ∈ r'.held, report.Informed p' := by
      intro report hmem
      rw [hheld₂] at hmem
      rcases List.mem_append.mp hmem with hmem | hmem
      · exact hheld' report hmem
      · exact (hheld report (List.mem_append_right _ hmem)).refreshed hstep
    rw [← hprep'] at hprepared'
    exact ⟨⟨hqueue', hall, hwire' ▸ hall, fun _ h => absurd (hhanded.symm.trans h) (by simp), hprepared'⟩, .refreshed hstep⟩
  | flush x he hheld' hsent =>
    exact ⟨.flush hqueue fun report h => hheld report (hheld'.mem_iff.mp h), .refreshed (by rw [flush_preparer]; exact .same)⟩
  | chunk reports he hdelivering =>
    subst hdelivering
    have hcopies := informed_currentResults (s := a.state)
      fun report (hmem : report ∈ reports.take maxReportsPerEnvelope) => hheld report (List.mem_of_mem_take hmem)
    refine ⟨⟨hqueue, hheld, fun report hmem => ?_, fun batch hbatch => ?_,
      fun _ h => absurd h (by simp [Reporter.prepared])⟩, .refreshed .same⟩
    · rcases List.mem_append.mp hmem with hmem | hmem
      · exact (hcopies report hmem).1
      · exact hheld report (List.mem_of_mem_drop hmem)
    · cases hbatch
      exact fun report hmem => (hcopies report hmem).2
  | sent batch r' he hheld' hwire' hhanded hprep hbatch =>
    rw [← hheld'] at hheld
    rw [← hwire'] at hwire
    exact ⟨⟨hqueue, hheld, hwire, fun _ h => absurd (hhanded.symm.trans h) (by simp),
      fun _ h => absurd (hprep.symm.trans h) (by simp)⟩, .refreshed .same⟩
  | policy policy r' he hheld' hplain hsent =>
    exact ⟨.of_held hplain.wire hplain.handed hplain.prepared hqueue fun report h => hheld report (hheld' ▸ h),
      .refreshed .same⟩
  | ackFlush x he hne hheld' hwire' hnone =>
    refine ⟨.flush (fun report hmem => (hqueue report hmem).acknowledge _) fun report hmem => ?_, .acknowledged he ?_⟩
    · rw [hnone] at hmem
      exact (hheld report (hheld' ▸ List.mem_append_right _ hmem)).acknowledge _
    · rw [flush_preparer, hr]
      rfl
  | ack reports he hwire' hsub =>
    refine ⟨.of_held rfl rfl rfl (fun report hmem => (hqueue report hmem).acknowledge _)
      fun report hmem => (hheld report (hsub report hmem)).acknowledge _, .acknowledged he ?_⟩
    rw [hr]
    rfl
  | retry reports r' he hheld' hplain hsent =>
    have hall : ∀ report ∈ reports ++ r'.held, report.Informed a.preparer := fun report h => hheld report (hheld'.mem_iff.mp h)
    exact ⟨.of_held hplain.wire hplain.handed hplain.prepared
      (informed_retry hqueue fun report h => hall report (List.mem_append_left _ h))
      fun report h => hall report (List.mem_append_right _ h), .refreshed .same⟩

/-- **One step of the reporter loop**, or of a probe beside it. -/
theorem reporterStep_informed
    (hI : a.Informed) (hs : reporterStep fold a e = some a') : a'.Informed ∧ InfoChange a e a' := by
  rw [reporterStep.eq_def] at hs
  split at hs
  · cases hs
    exact ⟨hI.beside rfl rfl rfl, .refreshed .same⟩
  · cases hs
    exact ⟨hI.beside rfl rfl rfl, .refreshed .same⟩
  · cases hs
    exact ⟨hI.beside rfl rfl rfl, .refreshed .same⟩
  · split_ifs at hs with hhttp
    · exact loopStep_informed rfl hI (httpStep_cases hs)
    · exact loopStep_informed rfl hI (sessionStep_cases hs)

theorem changeTransport_informed (hI : a.Informed) (hinv : a.Inv) (hs : changeTransport a = some a') :
    a'.Informed ∧ a'.Inv ∧ a'.preparer = a.preparer := by
  rw [changeTransport] at hs
  split at hs
  · rename_i hr
    cases hs
    have hheld := hinv.held
    rw [hr] at hheld
    exact ⟨.of_held rfl rfl rfl hI.queue fun report h => absurd h (by simp [Reporter.held]),
      .of_held rfl hheld (.inl rfl), rfl⟩
  · rename_i pending hr
    cases hs
    have hheld := hinv.held
    have hinformed := hI.held
    rw [hr] at hheld hinformed
    have hfront : Tracked a.state (pending ++ (a.state.retryQueue ++ [])) := by
      rw [List.append_nil]
      exact hheld.perm List.perm_append_comm
    exact ⟨.of_held rfl rfl rfl (informed_retry hI.queue hinformed)
        fun report h => absurd h (by simp [Reporter.held]),
      .of_held rfl (hfront.retry a.preparer) (.inl rfl), rfl⟩
  · cases hs

variable {h : HostAgent}

/-- **One step of the agent.** -/
theorem hostStep_informed {h' : HostAgent} {e : HostEvent}
    (hI : h.agent.Informed) (hinv : h.agent.Inv) (hs : hostStep fold h e = some h') :
    h'.agent.Informed ∧ h'.agent.Inv ∧ (Refreshed h.agent.preparer h'.agent.preparer ∨
      e = .loop .ack ∧ h'.agent.preparer
        = acknowledgeBasicInfo h.agent.preparer h.agent.reporter.unacknowledged) := by
  cases e with
  | prepare timestamp now info =>
    obtain ⟨a, ha, rfl⟩ := Option.map_eq_some_iff.mp hs
    obtain ⟨hinformed, hchange⟩ := reporterStep_informed hI ha
    refine ⟨hinformed, (reporterStep_inv hinv ha).1, ?_⟩
    cases hchange with
    | refreshed h => exact .inl h
    | acknowledged he h => cases he
  | loop e =>
    rw [hostStep] at hs
    split_ifs at hs
    obtain ⟨a, ha, rfl⟩ := Option.map_eq_some_iff.mp hs
    obtain ⟨hinformed, hchange⟩ := reporterStep_informed hI ha
    refine ⟨hinformed, (reporterStep_inv hinv ha).1, ?_⟩
    cases hchange with
    | refreshed h => exact .inl h
    | acknowledged he h => exact .inr ⟨by rw [he], h⟩
  | changeTransport =>
    obtain ⟨a, ha, rfl⟩ := Option.map_eq_some_iff.mp hs
    obtain ⟨hinformed, hinv', hpreparer⟩ := changeTransport_informed hI hinv ha
    exact ⟨hinformed, hinv', .inl (by rw [hpreparer]; exact .same)⟩

/-- **Every reachable state.** -/
theorem HostAgent.informed {http : Bool} {es : List HostEvent}
    (hrun : (hostMachine fold).run (.start http) es = some h) : h.agent.Informed ∧ h.agent.Inv := by
  have hstep : ∀ (h : HostAgent) (e : HostEvent) (h' : HostAgent),
      h.agent.Informed ∧ h.agent.Inv → (hostMachine fold).step h e = some h' →
      h'.agent.Informed ∧ h'.agent.Inv := by
    intro h e h' hI hs
    obtain ⟨hinformed, hinv, -⟩ := hostStep_informed hI.1 hI.2 hs
    exact ⟨hinformed, hinv⟩
  have hstart : (HostAgent.start http).agent.Informed ∧ (HostAgent.start http).agent.Inv :=
    ⟨AgentState.Informed.start http, AgentState.Inv.start http⟩
  exact (hostMachine fold).run_inv (I := fun h => h.agent.Informed ∧ h.agent.Inv) hstep hstart hrun

/-! ## Delivery -/

theorem prepareStep_drafted {timestamp : Int} {refresh : Option BasicInfo}
    (h : prepareStep s p stage (.appendDueResults timestamp refresh) = some (s', p', stage')) :
    (∃ first, stage'.prepared = some [first]) ∧
      p' = (attachBasicInfoIfDue p refresh (Report.collected timestamp)).1 := by
  cases stage with
  | retaken retry =>
    obtain ⟨rfl, rfl, rfl⟩ : _ ∧ _ ∧ _ := by simpa [prepareStep] using h
    exact ⟨⟨_, rfl⟩, rfl⟩
  | _ => simp [prepareStep] at h

theorem reporterStep_drafted {timestamp : Int} {refresh : Option BasicInfo}
    (hs : reporterStep fold a (.appendDueResults timestamp refresh) = some a') :
    (∃ first, a'.reporter.prepared = some [first]) ∧
      a'.preparer = (attachBasicInfoIfDue a.preparer refresh (Report.collected timestamp)).1 := by
  have hs : (if a.reporter.isHTTP then httpStep fold a a.reporter (.appendDueResults timestamp refresh)
    else sessionStep fold a a.reporter (.appendDueResults timestamp refresh)) = some a' := hs
  split_ifs at hs
  · rw [httpStep.eq_def] at hs
    split at hs <;> first | contradiction | skip
    rename_i stage _ _ _
    cases hp : prepareStep a.state a.preparer stage (.appendDueResults timestamp refresh) with
    | none => rw [hp] at hs; cases hs
    | some next =>
      rw [hp] at hs
      cases hs
      exact prepareStep_drafted hp
  · rw [sessionStep.eq_def] at hs
    split at hs <;> first | contradiction | skip
    rename_i stage _ _ _
    cases hp : prepareStep a.state a.preparer stage (.appendDueResults timestamp refresh) with
    | none => rw [hp] at hs; cases hs
    | some next =>
      rw [hp] at hs
      cases hs
      exact prepareStep_drafted hp

theorem unacknowledged_onWire {r : Reporter} {report : Report} (h : report ∈ r.unacknowledged) :
    report ∈ r.onWire := by
  cases r with
  | preparing x stage upload =>
    exact List.mem_append_right _ (List.mem_append_left _ h)
  | selecting x => exact List.mem_append_left _ h
  | accepted batch reports => exact List.mem_append_left _ h
  | _ => simp [Reporter.unacknowledged] at h

/-- **Host information is delivered at least once per refresh.**  In every reachable state the reports
    that were just prepared carry what is pending, and those that are being handed to the transport
    carry what is pending, under the current revision, or nothing; acknowledged reports of older
    revisions make no difference.  A preparation that is due makes new information pending; and only
    the acknowledgement of a batch that was sent with the pending information ends its pending. -/
theorem basic_info_delivered (fold : Char → Char) (http : Bool) (es : List HostEvent) (h : HostAgent)
    (hrun : (hostMachine fold).run (.start http) es = some h) :
    (∀ reports, h.agent.reporter.prepared = some reports →
      ∃ report ∈ reports, report.Newest h.agent.preparer) ∧
    (∀ batch, h.agent.reporter.handed = some batch → ∀ report ∈ batch, report.Fresh h.agent.preparer) ∧
    (∀ batch, acknowledgeBasicInfo h.agent.preparer batch
      = acknowledgeBasicInfo h.agent.preparer (batch.filter fun report =>
          !decide (report.basicInfoRevision < h.agent.preparer.basicInfoRevision))) ∧
    ∀ e h', hostStep fold h e = some h' → (∀ timestamp now info, e = .prepare timestamp now info →
        ∃ first, h'.agent.reporter.prepared = some [first] ∧ first.Newest h'.agent.preparer ∧
          (basicInfoDue h.lastBasicInfoAt now = true → h'.agent.preparer.pendingBasicInfo = some info)) ∧
      (∀ info, h.agent.preparer.pendingBasicInfo = some info → h'.agent.preparer.pendingBasicInfo = none →
        e = .loop .ack ∧ ∃ batch ∈ h.agent.sent,
          h'.agent.preparer = acknowledgeBasicInfo h.agent.preparer batch ∧
          ∃ report ∈ batch, report.basicInfo = some info ∧
            report.basicInfoRevision = h.agent.preparer.basicInfoRevision) := by
  obtain ⟨hI, hinv⟩ := HostAgent.informed hrun
  refine ⟨hI.prepared, hI.handed, acknowledgeBasicInfo_older _, fun e h' hs => ⟨?_, ?_⟩⟩
  · rintro timestamp now info rfl
    obtain ⟨hI', -, -⟩ := hostStep_informed hI hinv hs
    obtain ⟨a, ha, rfl⟩ := Option.map_eq_some_iff.mp hs
    obtain ⟨⟨first, hfirst⟩, hpreparer⟩ := reporterStep_drafted ha
    obtain ⟨report, hmem, hnewest⟩ := hI'.prepared [first] hfirst
    obtain rfl := List.mem_singleton.mp hmem
    refine ⟨report, hfirst, hnewest, fun hdue => ?_⟩
    have hrefresh : h.refresh now info = some info := if_pos hdue
    show a.preparer.pendingBasicInfo = some info
    rw [hpreparer, hrefresh]
    rfl
  · intro info hinfo hreleased
    obtain ⟨-, -, hchange⟩ := hostStep_informed hI hinv hs
    rcases hchange with hrefreshed | ⟨he, hack⟩
    · -- neither a refresh nor anything else makes nothing pending
      generalize h'.agent.preparer = p' at hrefreshed hreleased
      cases hrefreshed with
      | same => rw [hinfo] at hreleased; cases hreleased
      | refresh newest => cases hreleased
    · rw [hack] at hreleased
      have hcovers := covers_of_released
        (fun report hmem => hI.wire report (unacknowledged_onWire hmem)) hinfo hreleased
      rcases hinv.sent with hnone | hsent
      · obtain ⟨report, hmem, -⟩ := hcovers
        rw [hnone] at hmem
        cases hmem
      · exact ⟨he, _, hsent, hack, hcovers⟩

/-- A host with one CPU. -/
def oneCore : BasicInfo :=
  ⟨"cpu", "", "amd64", 1, "linux", "6.1", "", "", "", "", "1.0", "host", 1024, 0, 4096, 10⟩

/-- The first report of a session is prepared and sent. -/
def firstReportSent : List HostEvent :=
  [.loop .connect, .loop .takeRetryReports, .prepare 1 0 oneCore, .loop .appendPendingReports,
    .loop .prepared, .loop .sent]

/-- The first report is acknowledged: nothing is pending any more, and the batch that was sent carried
    what was. -/
theorem first_report_acknowledged : ∃ h h',
    (hostMachine Char.toLower).run (.start false) firstReportSent = some h ∧
    hostStep Char.toLower h (.loop .ack) = some h' ∧
    h.agent.preparer.pendingBasicInfo = some oneCore ∧ h'.agent.preparer.pendingBasicInfo = none ∧
    ∃ batch ∈ h.agent.sent, ∃ report ∈ batch, report.basicInfo = some oneCore := by
  obtain ⟨h, h', hrun, hstep, hpending, hreleased⟩ : ∃ h h',
      (hostMachine Char.toLower).run (.start false) firstReportSent = some h ∧
      hostStep Char.toLower h (.loop .ack) = some h' ∧
      h.agent.preparer.pendingBasicInfo = some oneCore ∧
      h'.agent.preparer.pendingBasicInfo = none := ⟨_, _, rfl, rfl, rfl, rfl⟩
  have hdelivered := basic_info_delivered Char.toLower false firstReportSent h hrun
  obtain ⟨-, batch, hsent, -, report, hmem, hinfo, -⟩ :=
    (hdelivered.2.2.2 _ h' hstep).2 oneCore hpending hreleased
  exact ⟨h, h', hrun, hstep, hpending, hreleased, batch, hsent, report, hmem, hinfo⟩

/-- A refresh comes before the acknowledgement: what is pending now stays. -/
example : (((hostMachine Char.toLower).run (.start false) (firstReportSent ++
    [.loop (.sampleTimer false), .loop .takeRetryReports,
      .prepare 2 basicInfoRefreshInterval { oneCore with cpuCores := 2 }, .loop .appendPendingReports,
      .loop .prepared, .loop .ack])).map (·.agent.preparer.pendingBasicInfo))
    = some (some { oneCore with cpuCores := 2 }) := by
  rfl

end CfMonitor.Agent
