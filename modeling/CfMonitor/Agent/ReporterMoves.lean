/-
  What one step of a reporter loop can do.

  A step applies a policy, or queues nothing new (`Narrowed`); the reports it holds afterwards have
  leases for their results (`Report.Covered`) if those it held before had; and a batch that it builds
  for the transport is made of current copies of reports that it held (`Moved`).  One lemma for each
  kind of step, and from them one for each transport.
-/
import Mathlib
import CfMonitor.Agent.Reporter

namespace CfMonitor.Agent

open CfMonitor.Lib
open List (mem_append mem_append_left mem_append_right)

/-! ## Labels and batches -/

/-- The labels of the reporter loop; the others stand for probes that complete. -/
def ReporterEvent.isReporting : ReporterEvent → Bool
  | .pingDone _ | .websiteDone _ => false
  | _ => true

/-! ## Queues that take nothing new -/

/-- Nothing new is queued, and the tasks and the numbers are as before. -/
structure Narrowed (s s' : PingReportState) : Prop where
  queued : Stays s' s
  tasks : s'.tasks = s.tasks
  websiteTasks : s'.websiteTasks = s.websiteTasks
  numbers : s'.nextResultID = s.nextResultID

theorem Narrowed.refl (s : PingReportState) : Narrowed s s := ⟨Stays.of_eq rfl rfl, rfl, rfl, rfl⟩

variable {s s' : PingReportState}

theorem Narrowed.trans {s'' : PingReportState} (h : Narrowed s s') (h' : Narrowed s' s'') : Narrowed s s'' :=
  ⟨h'.queued.trans h.queued, h'.tasks.trans h.tasks, h'.websiteTasks.trans h.websiteTasks,
    h'.numbers.trans h.numbers⟩

theorem narrowed_append (s : PingReportState) (report : Report) :
    Narrowed s (appendPendingResultsLocked s report).1 :=
  ⟨⟨fun hp => LeaseQueue.keeps_of_leaseAlong _ _ _ _ hp,
    fun hp => LeaseQueue.keeps_of_leaseAlong _ _ _ _ hp⟩, rfl, rfl, rfl⟩

theorem narrowed_acknowledge (s : PingReportState) (reports : List Report) :
    Narrowed s (acknowledgeReports s reports) :=
  ⟨⟨fun hp => Keeps.refl ((get?_settle _ _).mp hp).1, fun hp => Keeps.refl ((get?_settle _ _).mp hp).1⟩,
    rfl, rfl, rfl⟩

/-- The results wait under the ids they are about. -/
def Keyed (s : PingReportState) : Prop :=
  (∀ {k p}, s.ping.pending.get? k = some p → p.result.taskID = k) ∧
  ∀ {k p}, s.website.pending.get? k = some p → p.result.monitorID = k

variable {reports : List Report}

theorem Tracked.keyed (h : Tracked s reports) : Keyed s :=
  ⟨h.ping.keyed, h.website.keyed⟩

theorem Keyed.narrowed (h : Keyed s) (hs : Narrowed s s') : Keyed s' := by
  refine ⟨fun {k p} hp => ?_, fun {k p} hp => ?_⟩
  · obtain ⟨p', hp', hresult, -⟩ := hs.queued.ping hp
    rw [← hresult]
    exact h.1 hp'
  · obtain ⟨p', hp', hresult, -⟩ := hs.queued.website hp
    rw [← hresult]
    exact h.2 hp'

/-! ## Reports whose results have leases -/

/-- The results of a report have their leases. -/
def Report.Covered (report : Report) : Prop :=
  report.pings.Covered PingResult.taskID ∧ report.websites.Covered WebsiteProbeResult.monitorID

theorem Report.Covered.current {report : Report} (h : report.Covered) (s : PingReportState)
    (p : ReportPreparer) : (currentReportResultsLocked s p report).Covered := by
  obtain ⟨hpings, hwebsites⟩ := currentReportBasicInfo_carriers p report
  constructor
  · show ((currentReportBasicInfo p report).pings.current _ _).Covered _
    rw [hpings]
    exact h.1.current _ _
  · show ((currentReportBasicInfo p report).websites.current _ _).Covered _
    rw [hwebsites]
    exact h.2.current _ _

/-- Filling a report that carries nothing. -/
theorem covered_append (h : Keyed s) {report : Report}
    (hpings : report.pings = Carrier.empty) (hwebsites : report.websites = Carrier.empty) :
    (appendPendingResultsLocked s report).2.Covered := by
  constructor
  · show (s.ping.lease _ report.pings).2.Covered _
    rw [hpings]
    exact (Carrier.Covered.empty _).lease _ h.1 _
  · show (s.website.lease _ report.websites).2.Covered _
    rw [hwebsites]
    exact (Carrier.Covered.empty _).lease _ h.2 _

theorem appendPendingLoop_narrowed (first : Report) (n : Nat) : ∀ s : PingReportState,
    Narrowed s (appendPendingLoop first n s).1 ∧
      (Keyed s → ∀ report ∈ (appendPendingLoop first n s).2, report.Covered) := by
  induction n with
  | zero => intro s; exact ⟨Narrowed.refl s, by rintro _ _ ⟨⟩⟩
  | succ n ih =>
    intro s
    have hround := narrowed_append s first.bare
    obtain ⟨hrest, hcovered⟩ := ih (appendPendingResultsLocked s first.bare).1
    rw [appendPendingLoop]
    dsimp only
    split_ifs
    · refine ⟨hround.trans hrest, fun hkeyed report hmem => ?_⟩
      rcases List.mem_cons.mp hmem with rfl | hmem
      · exact covered_append hkeyed rfl rfl
      · exact hcovered (hkeyed.narrowed hround) report hmem
    · exact ⟨hround, by rintro _ _ ⟨⟩⟩

theorem covered_currentResults (h : ∀ report ∈ reports, report.Covered)
    (s : PingReportState) (p : ReportPreparer) :
    ∀ report ∈ currentReportResults s p reports, report.Covered := by
  intro report hmem
  obtain ⟨old, hold, rfl⟩ := List.mem_map.mp hmem
  exact (h old hold).current s p

variable {p : ReportPreparer}

theorem covered_retry
    (hqueue : ∀ report ∈ s.retryQueue, report.Covered) (h : ∀ report ∈ reports, report.Covered) :
    ∀ report ∈ (retryReports s p reports).retryQueue, report.Covered := by
  intro report hmem
  rcases mem_append.mp hmem with hmem | hmem
  · exact hqueue report hmem
  · exact covered_currentResults h s p report (List.mem_filter.mp hmem).1

/-! ## Steps -/

/-- What a step does: a policy is applied, or nothing new is queued; reports stay covered; and a batch
    that is built is made of current copies. -/
structure Moved (fold : Char → Char) (a : AgentState) (e : ReporterEvent) (a' : AgentState) : Prop where
  state : match e.applied with
    | none => Narrowed a.state a'.state
    | some policy => a'.state = applyPolicy fold a.state policy
  covered : Keyed a.state → (∀ report ∈ a.outstanding, report.Covered) →
    ∀ report ∈ a'.outstanding, report.Covered
  handed : ∀ batch, a'.reporter.handed = some batch → a.reporter.handed = some batch ∨
    ∃ p reports, batch = currentReportResults a'.state p reports ∧ ∀ report ∈ reports, report ∈ a.outstanding

variable {e : ReporterEvent}

/-- A section of `prepareReportsWithPing`. -/
theorem prepareStep_moved {p' : ReportPreparer} {stage stage' : Preparing}
    (h : prepareStep s p stage e = some (s', p', stage')) :
    e.applied = none ∧ Narrowed s s' ∧ (Keyed s → (∀ report ∈ s.retryQueue ++ stage.held, report.Covered) →
        ∀ report ∈ s'.retryQueue ++ stage'.held, report.Covered) := by
  rw [prepareStep.eq_def] at h
  split at h
  · cases h
    refine ⟨rfl, ⟨Stays.of_eq rfl rfl, rfl, rfl, rfl⟩, fun _ hall report hmem => ?_⟩
    have hmem' : report ∈ (currentReportResults s p s.retryQueue).filter Report.hasResults := by
      simpa [takeRetryReports, Preparing.held] using hmem
    exact covered_currentResults (fun old hold => hall old (mem_append_left _ hold)) s p report
      (List.mem_filter.mp hmem').1
  · rename_i retry timestamp refresh
    cases h
    refine ⟨rfl, narrowed_append s _, fun hkeyed hall report hmem => ?_⟩
    obtain ⟨hpings, hwebsites⟩ :=
      attachBasicInfoIfDue_carriers p refresh (Report.collected timestamp)
    rcases mem_append.mp hmem with hmem | hmem
    · exact hall report (mem_append_left _ hmem)
    · rcases List.mem_cons.mp hmem with rfl | hmem
      · exact covered_append hkeyed hpings hwebsites
      · exact hall report (mem_append_right _ hmem)
  · rename_i retry first
    obtain ⟨rfl, rfl, rfl⟩ : _ ∧ _ ∧ _ := by simpa using h
    obtain ⟨hnarrowed, hcovered⟩ := appendPendingLoop_narrowed first
      (s.ping.order.length + s.website.order.length + 1) s
    rw [appendPendingReports_eq]
    refine ⟨rfl, hnarrowed, fun hkeyed hall report hmem => ?_⟩
    rcases mem_append.mp hmem with hmem | hmem
    · refine hall report (mem_append_left _ ?_)
      rw [← appendPendingLoop_retryQueue first _ s]
      exact hmem
    · rcases mem_append.mp hmem with hmem | hmem
      · exact hall report (mem_append_right _ (List.mem_cons_of_mem _ hmem))
      · rcases List.mem_cons.mp hmem with rfl | hmem
        · exact hall report (mem_append_right _ List.mem_cons_self)
        · exact hcovered hkeyed report hmem
  · cases h

theorem flush_moved (a : AgentState) (x : Session) :
    ((∀ report ∈ a.state.retryQueue ++ (x.inFlight ++ x.pending), report.Covered) →
      ∀ report ∈ (flush a x).outstanding, report.Covered) ∧
    ∀ batch, (flush a x).reporter.handed = some batch →
      ∃ p reports, batch = currentReportResults a.state p reports ∧
        ∀ report ∈ reports, report ∈ x.pending := by
  rw [flush]
  split_ifs
  · exact ⟨fun hall => hall, by rintro _ ⟨⟩⟩
  · constructor
    · intro hall report hmem
      rcases mem_append.mp hmem with hmem | hmem
      · exact hall report (mem_append_left _ hmem)
      · rcases mem_append.mp hmem with hmem | hmem
        · refine covered_currentResults (fun old hold => hall old ?_) a.state a.preparer report hmem
          exact mem_append_right _ (mem_append_right _ (List.mem_of_mem_take hold))
        · exact hall report (mem_append_right _ (mem_append_right _ (List.mem_of_mem_drop hmem)))
    · intro batch h
      cases h
      exact ⟨a.preparer, _, rfl, fun report hmem => List.mem_of_mem_take hmem⟩

namespace Moved

variable {fold : Char → Char} {a a' : AgentState} {e : ReporterEvent} {x : Session}

/-- Steps that leave the queues alone and build no batch. -/
theorem quiet (he : e.applied = none) (hstate : a'.state = a.state)
    (hheld : ∀ report ∈ a'.reporter.held, report ∈ a.reporter.held)
    (hhanded : a'.reporter.handed = none) : Moved fold a e a' where
  state := by
    rw [he, hstate]
    exact Narrowed.refl a.state
  covered := by
    intro _ hall report hmem
    rw [AgentState.outstanding, hstate] at hmem
    rcases mem_append.mp hmem with hmem | hmem
    · exact hall report (mem_append_left _ hmem)
    · exact hall report (mem_append_right _ (hheld report hmem))
  handed := fun batch h => absurd (hhanded.symm.trans h) (by simp)

theorem flush (b : AgentState) (he : e.applied = none) (hnarrowed : Narrowed a.state b.state)
    (hqueue : b.state.retryQueue = a.state.retryQueue)
    (hheld : ∀ report ∈ x.inFlight ++ x.pending, report ∈ a.reporter.held) :
    Moved fold a e (flush b x) where
  state := by
    rw [he, flush_state]
    exact hnarrowed
  covered := by
    intro _ hall
    refine (flush_moved b x).1 fun report hmem => ?_
    rcases mem_append.mp hmem with hmem | hmem
    · exact hall report (mem_append_left _ (hqueue ▸ hmem))
    · exact hall report (mem_append_right _ (hheld report hmem))
  handed := by
    intro batch hbatch
    obtain ⟨p, reports, heq, hsub⟩ := (flush_moved b x).2 batch hbatch
    refine .inr ⟨p, reports, by rw [heq, flush_state], fun report hmem => ?_⟩
    exact mem_append_right _ (hheld report (mem_append_right _ (hsub report hmem)))

theorem retry (reports : List Report) (r : Reporter) (he : e.applied = none)
    (hreports : ∀ report ∈ reports ++ r.held, report ∈ a.reporter.held) (hhanded : r.handed = none)
    (hstate : a'.state = retryReports a.state a.preparer reports) (hr : a'.reporter = r) :
    Moved fold a e a' where
  state := by
    rw [he, hstate]
    exact ⟨Stays.of_eq rfl rfl, rfl, rfl, rfl⟩
  covered := by
    intro _ hall report hmem
    rw [AgentState.outstanding, hstate, hr] at hmem
    rcases mem_append.mp hmem with hmem | hmem
    · exact covered_retry (fun report hmem => hall report (mem_append_left _ hmem))
        (fun report hmem => hall report
          (mem_append_right _ (hreports report (mem_append_left _ hmem)))) report hmem
    · exact hall report (mem_append_right _ (hreports report (mem_append_right _ hmem)))
  handed := fun batch h => absurd (hhanded.symm.trans (hr ▸ h)) (by simp)

theorem policy {policy : AgentPolicy} (he : e.applied = some policy)
    (hstate : a'.state = applyPolicy fold a.state policy)
    (hheld : ∀ report ∈ a'.reporter.held, report ∈ a.reporter.held)
    (hhanded : a'.reporter.handed = none ∨ a'.reporter = a.reporter) : Moved fold a e a' where
  state := by
    rw [he]
    exact hstate
  covered := by
    intro _ hall report hmem
    rw [AgentState.outstanding, hstate] at hmem
    rcases mem_append.mp hmem with hmem | hmem
    · exact hall report (mem_append_left _ hmem)
    · exact hall report (mem_append_right _ (hheld report hmem))
  handed := by
    intro batch h
    rcases hhanded with hnone | hsame
    · cases hnone.symm.trans h
    · exact .inl (hsame ▸ h)

/-- A section of `prepareReportsWithPing`, beside what the loop holds already. -/
theorem prepare {s' : PingReportState} {p' : ReportPreparer} {stage stage' : Preparing}
    {others : List Report} (h : prepareStep a.state a.preparer stage e = some (s', p', stage'))
    (hheld : a.reporter.held = stage.held ++ others) (hstate : a'.state = s')
    (hheld' : a'.reporter.held = stage'.held ++ others) (hhanded : a'.reporter.handed = none) :
    Moved fold a e a' := by
  obtain ⟨he, hnarrowed, hcovered⟩ := prepareStep_moved h
  refine ⟨?_, fun hkeyed hall report hmem => ?_, fun batch h => absurd (hhanded.symm.trans h) (by simp)⟩
  · rw [he, hstate]
    exact hnarrowed
  · rw [AgentState.outstanding, hstate, hheld'] at hmem
    rw [AgentState.outstanding, hheld] at hall
    rw [← List.append_assoc] at hmem hall
    rcases mem_append.mp hmem with hmem | hmem
    · exact hcovered hkeyed (fun old hold => hall old (mem_append_left _ hold)) report hmem
    · exact hall report (mem_append_right _ hmem)

end Moved

variable {fold : Char → Char} {a a' : AgentState}

/-- **One step of a reporter loop.** -/
theorem loopStep_moved {r : Reporter} (hr : a.reporter = r) (hs : LoopStep fold a r e a') : Moved fold a e a' := by
  have hheld : ∀ report ∈ r.held, report ∈ a.reporter.held := fun report h => hr ▸ h
  cases hs with
  | quiet r' he hheld' hplain hsent =>
    exact .quiet he rfl (fun report h => hheld report (hheld'.mem_iff.mp h)) hplain.handed
  | prepare others r' h hheld₁ hheld₂ hwire hhanded hprepared hprepared' hsent =>
    exact .prepare h (by rw [hr, hheld₁]) rfl hheld₂ hhanded
  | flush x he hheld' hsent =>
    exact .flush a he (Narrowed.refl _) rfl fun report h => hheld report (hheld'.mem_iff.mp h)
  | chunk reports he hdelivering =>
    subst hdelivering
    refine ⟨by rw [he]; exact Narrowed.refl _, fun _ hall report hmem => ?_, fun batch h => ?_⟩
    · rw [AgentState.outstanding, hr] at hall
      exact hall report hmem
    · -- the batch is made of current copies
      cases h
      refine .inr ⟨a.preparer, _, rfl, fun report hmem => mem_append_right _ (hheld report ?_)⟩
      exact List.mem_of_mem_take hmem
  | sent batch r' he hheld' hwire hhanded hprepared hbatch =>
    exact .quiet he rfl (fun report h => hheld report (hheld' ▸ h)) hhanded
  | policy policy r' he hheld' hplain hsent =>
    exact .policy (by rw [he]; rfl) rfl (fun report h => hheld report (hheld' ▸ h)) (.inl hplain.handed)
  | ackFlush x he hne hheld' hwire hnone =>
    refine .flush _ (by rw [he]; rfl) (narrowed_acknowledge _ _) rfl fun report h => hheld report ?_
    rw [hnone] at h
    exact hheld' ▸ mem_append_right _ h
  | ack reports he hwire hsub =>
    subst he
    refine ⟨narrowed_acknowledge _ _, fun _ hall report hmem => ?_, nofun⟩
    rcases mem_append.mp hmem with hmem | hmem
    · exact hall report (mem_append_left _ hmem)
    · exact hall report (mem_append_right _ (hheld report (hsub report hmem)))
  | retry reports r' he hheld' hplain hsent =>
    exact .retry reports r' he (fun report h => hheld report (hheld'.mem_iff.mp h)) hplain.handed rfl rfl

/-- **One step of the reporter loop**, or a policy beside it. -/
theorem reporterStep_moved
    (he : e.isReporting = true) (hs : reporterStep fold a e = some a') : Moved fold a e a' := by
  rw [reporterStep.eq_def] at hs
  split at hs
  · simp [ReporterEvent.isReporting] at he
  · simp [ReporterEvent.isReporting] at he
  · cases hs
    exact .policy rfl rfl (fun report h => h) (.inr rfl)
  · split_ifs at hs with hhttp
    · exact loopStep_moved rfl (httpStep_cases hs)
    · exact loopStep_moved rfl (sessionStep_cases hs)

end CfMonitor.Agent
