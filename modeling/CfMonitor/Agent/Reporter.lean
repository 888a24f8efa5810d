/-
  The reporter loops: what becomes of queued probe results (`runWebSocketSession`,
  `runHTTPReporter`, `prepareReportsWithPing`, `deliverHTTPReports`).

  1. **Program** — one machine for both transports.  A label is a critical section of the mutex of
     `pingReportState`, or the outcome of a send, a timer, a message.  Probes run in goroutines of
     their own, so a probe can complete between any two of them; policies are applied by the
     reporter loop itself, between its rounds.  A result is LEASED to a report while it travels
     through the draft of `prepareReportsWithPing`, `pending`, `inFlight`, the chunks of
     `deliverHTTPReports` and the retry queue.

  2. **Invariant** (`AgentState.Inv`) — all reports outside the queues are in one list, and every queued
     result is on none of them or on one, as its mark says.

  3. **Results** — what becomes of each queued result (`probe_results_tracked`).
-/
import CfMonitor.Agent.ReportDelivery
import CfMonitor.Lib.Machine

namespace CfMonitor.Agent

open CfMonitor.Lib

/-! ## The machine -/

/-- How far `prepareReportsWithPing` got, and the reports in its local variables. -/
inductive Preparing where
  | started
  | retaken (retry : List Report)
  | drafted (retry : List Report) (first : Report)
  | done (reports : List Report)

/-- The local variables of `runWebSocketSession`. -/
structure Session where
  pending : List Report
  inFlight : List Report
  uploadReady : Bool

/-- Where the reporter loop is. -/
inductive Reporter where
  /-- `runWebSocketReporter` between two sessions. -/
  | disconnected
  /-- A session prepares reports; `upload` says whether it flushes afterwards. -/
  | preparing (x : Session) (stage : Preparing) (upload : Bool)
  /-- A session waits in its `select`. -/
  | selecting (x : Session)
  /-- A session is in `sendWebSocketReports` of the in-flight batch. -/
  | sending (x : Session)
  /-- A session has ended and retried its in-flight batch, not yet what was pending. -/
  | closing (pending : List Report)
  /-- `runHTTPReporter` between two rounds. -/
  | sleeping (pending : List Report)
  /-- `runHTTPReporter` prepares reports; `upload` says whether it delivers them afterwards. -/
  | collecting (pending : List Report) (stage : Preparing) (upload : Bool)
  /-- `deliverHTTPReports` with the reports that are left. -/
  | delivering (reports : List Report)
  /-- `sendHTTPReports` of the current copies of the first reports that are left. -/
  | posting (batch reports : List Report)
  /-- The server has accepted the batch. -/
  | accepted (batch reports : List Report)

/-- An agent: the probe state, the preparer, the reporter loop, and (not read by the program) the
    batches that were sent. -/
structure AgentState where
  state : PingReportState
  preparer : ReportPreparer
  reporter : Reporter
  sent : List (List Report)

/-- What happens next. -/
inductive ReporterEvent where
  | pingDone (results : List PingResult)
  | websiteDone (results : List WebsiteProbeResult)
  | applyPolicy (policy : AgentPolicy)
  | connect
  | sampleTimer (upload : Bool)
  | uploadTimer
  | policy (policy : AgentPolicy)
  | takeRetryReports
  | appendDueResults (timestamp : Int) (refresh : Option BasicInfo)
  | appendPendingReports
  | prepared
  | deliver
  | sent
  | ack
  | failed
  | retryPending

/-- A critical section of `prepareReportsWithPing`. -/
def prepareStep (s : PingReportState) (p : ReportPreparer) :
    Preparing → ReporterEvent → Option (PingReportState × ReportPreparer × Preparing)
  | .started, .takeRetryReports =>
    let (s, retry) := takeRetryReports s p
    some (s, p, .retaken retry)
  | .retaken retry, .appendDueResults timestamp refresh =>
    let (p, report) := attachBasicInfoIfDue p refresh (Report.collected timestamp)
    let (s, first) := appendPendingResultsLocked s report
    some (s, p, .drafted retry first)
  | .drafted retry first, .appendPendingReports =>
    let (s, reports) := appendPendingReports s first
    some (s, p, .done (retry ++ reports))
  | _, _ => none

/-- `flush`, up to the send. -/
def flush (a : AgentState) (x : Session) : AgentState :=
  if !x.uploadReady || !x.inFlight.isEmpty || x.pending.isEmpty then
    { a with reporter := .selecting x }
  else
    let pending := x.pending.drop maxReportsPerEnvelope
    { a with
      reporter := .sending {
        inFlight := currentReportResults a.state a.preparer (x.pending.take maxReportsPerEnvelope)
        pending := pending
        uploadReady := !pending.isEmpty } }

/-- The deferred call at the end of a session, its first half. -/
def endSession (a : AgentState) (x : Session) : AgentState :=
  { a with state := retryReports a.state a.preparer x.inFlight, reporter := .closing x.pending }

/-- `acknowledgeReports` of a batch. -/
def acknowledge (a : AgentState) (batch : List Report) : AgentState :=
  { a with
    state := acknowledgeReports a.state batch
    preparer := acknowledgeBasicInfo a.preparer batch }

/-- One step of a WebSocket session. -/
def sessionStep (fold : Char → Char) (a : AgentState) : Reporter → ReporterEvent → Option AgentState
  | .disconnected, .connect => some { a with reporter := .preparing ⟨[], [], true⟩ .started true }
  | .preparing x (.done reports) upload, .prepared =>
    let x := { x with pending := x.pending ++ reports }
    if upload then some (flush a { x with uploadReady := true })
    else some { a with reporter := .selecting x }
  | .preparing x stage upload, e =>
    match prepareStep a.state a.preparer stage e with
    | none => none
    | some (s, p, stage) =>
      some { a with state := s, preparer := p, reporter := .preparing x stage upload }
  | .selecting x, .sampleTimer upload => some { a with reporter := .preparing x .started upload }
  | .selecting x, .uploadTimer => some (flush a { x with uploadReady := !x.pending.isEmpty })
  | .selecting x, .policy policy =>
    let a := { a with state := applyPolicy fold a.state policy }
    if policy.reportNow then some { a with reporter := .preparing x .started true }
    else some { a with reporter := .selecting x }
  | .selecting x, .ack =>
    if x.inFlight.isEmpty then some { a with reporter := .selecting x }
    else some (flush (acknowledge a x.inFlight) { x with inFlight := [] })
  | .selecting x, .failed => some (endSession a x)
  | .sending x, .sent => some { a with reporter := .selecting x, sent := x.inFlight :: a.sent }
  | .sending x, .failed => some (endSession a x)
  | .closing pending, .retryPending =>
    some { a with state := retryReports a.state a.preparer pending, reporter := .disconnected }
  | _, _ => none

/-- One step of the HTTP reporter. -/
def httpStep (fold : Char → Char) (a : AgentState) : Reporter → ReporterEvent → Option AgentState
  | .sleeping pending, .policy policy =>
    let a := { a with state := applyPolicy fold a.state policy }
    if policy.reportNow then some { a with reporter := .collecting pending .started true }
    else some { a with reporter := .sleeping pending }
  | .sleeping pending, .sampleTimer upload =>
    some { a with reporter := .collecting pending .started upload }
  | .collecting pending (.done reports) upload, .prepared =>
    if upload then some { a with reporter := .delivering (pending ++ reports) }
    else some { a with reporter := .sleeping (pending ++ reports) }
  | .collecting pending stage upload, e =>
    match prepareStep a.state a.preparer stage e with
    | none => none
    | some (s, p, stage) =>
      some { a with state := s, preparer := p, reporter := .collecting pending stage upload }
  | .delivering reports, .deliver =>
    if reports.isEmpty then some { a with reporter := .sleeping [] }
    else
      let batch := currentReportResults a.state a.preparer (reports.take maxReportsPerEnvelope)
      some { a with reporter := .posting batch reports }
  | .posting batch reports, .sent =>
    some { a with reporter := .accepted batch reports, sent := batch :: a.sent }
  | .posting _ reports, .failed =>
    some { a with state := retryReports a.state a.preparer reports, reporter := .sleeping [] }
  | .accepted batch reports, .ack =>
    some { acknowledge a batch with reporter := .delivering (reports.drop maxReportsPerEnvelope) }
  | _, _ => none

/-- Which of the two loops a reporter belongs to. -/
def Reporter.isHTTP : Reporter → Bool
  | .sleeping _ | .collecting .. | .delivering _ | .posting .. | .accepted .. => true
  | _ => false

/-- One step: a probe completes, a policy is applied, or the reporter loop goes on.  The loops apply
    the policies they receive between their rounds; the state allows it at any moment. -/
def reporterStep (fold : Char → Char) (a : AgentState) (e : ReporterEvent) : Option AgentState :=
  match e with
  | .pingDone results => some { a with state := queuePingResultsLocked a.state results }
  | .websiteDone results => some { a with state := queueWebsiteResultsLocked a.state results }
  | .applyPolicy policy => some { a with state := applyPolicy fold a.state policy }
  | e => if a.reporter.isHTTP then httpStep fold a a.reporter e else sessionStep fold a a.reporter e

/-- The agent as a machine. -/
def reporterMachine (fold : Char → Char) : Machine AgentState ReporterEvent := ⟨reporterStep fold⟩

/-- A fresh agent that reports over HTTP, or over a WebSocket. -/
def AgentState.start (http : Bool) : AgentState :=
  ⟨newPingReportState, ⟨none, 0⟩, if http then .sleeping [] else .disconnected, []⟩

/-! ## The reports outside the queues -/

/-- The reports in the local variables of `prepareReportsWithPing`. -/
def Preparing.held : Preparing → List Report
  | .started => []
  | .retaken retry => retry
  | .drafted retry first => first :: retry
  | .done reports => reports

/-- The reports that a reporter loop holds. -/
def Reporter.held : Reporter → List Report
  | .disconnected => []
  | .preparing x stage _ => stage.held ++ (x.inFlight ++ x.pending)
  | .selecting x => x.inFlight ++ x.pending
  | .sending x => x.inFlight ++ x.pending
  | .closing pending => pending
  | .sleeping pending => pending
  | .collecting pending stage _ => stage.held ++ pending
  | .delivering reports => reports
  | .posting _ reports => reports
  | .accepted _ reports => reports

/-- The same, with the copies on the wire in the place of the first reports of `deliverHTTPReports`. -/
def Reporter.onWire : Reporter → List Report
  | .posting batch reports => batch ++ reports.drop maxReportsPerEnvelope
  | .accepted batch reports => batch ++ reports.drop maxReportsPerEnvelope
  | r => r.held

/-- The batch that waits for its acknowledgement. -/
def Reporter.unacknowledged : Reporter → List Report
  | .preparing x _ _ => x.inFlight
  | .selecting x => x.inFlight
  | .accepted batch _ => batch
  | _ => []

/-- The policy that a label applies. -/
def ReporterEvent.applied : ReporterEvent → Option AgentPolicy
  | .applyPolicy p | .policy p => some p
  | _ => none

/-- The batch that was built last and is being handed to the transport. -/
def Reporter.handed : Reporter → Option (List Report)
  | .sending x => some x.inFlight
  | .posting batch _ => some batch
  | _ => none

/-- The newly prepared report, and the list in which `prepareReportsWithPing` returns it. -/
def Preparing.prepared : Preparing → Option (List Report)
  | .drafted _ first => some [first]
  | .done reports => some reports
  | _ => none

/-- The same, of a reporter loop that prepares. -/
def Reporter.prepared : Reporter → Option (List Report)
  | .preparing _ stage _ | .collecting _ stage _ => stage.prepared
  | _ => none

/-- No batch is on its way, and no report is being prepared. -/
structure Reporter.Plain (r : Reporter) : Prop where
  wire : r.onWire = r.held
  handed : r.handed = none
  prepared : r.prepared = none

/-- **What a step of either loop does**, from the reporter `r`. -/
inductive LoopStep (fold : Char → Char) (a : AgentState) (r : Reporter) (e : ReporterEvent) : AgentState → Prop where
  | quiet (r' : Reporter) (he : e.applied = none) (hheld : r'.held.Perm r.held) (hplain : r'.Plain)
      (hsent : r'.unacknowledged = [] ∨ r'.unacknowledged = r.unacknowledged) :
      LoopStep fold a r e { a with reporter := r' }
  /-- A section of `prepareReportsWithPing`, beside the other reports. -/
  | prepare {s' : PingReportState} {p' : ReportPreparer} {stage stage' : Preparing} (others : List Report) (r' : Reporter)
      (h : prepareStep a.state a.preparer stage e = some (s', p', stage')) (hheld : r.held = stage.held ++ others)
      (hheld' : r'.held = stage'.held ++ others) (hwire : r'.onWire = r'.held) (hhanded : r'.handed = none)
      (hprepared : r.prepared = stage.prepared) (hprepared' : r'.prepared = stage'.prepared)
      (hsent : r'.unacknowledged = r.unacknowledged) :
      LoopStep fold a r e { a with state := s', preparer := p', reporter := r' }
  | flush (x : Session) (he : e.applied = none) (hheld : (x.inFlight ++ x.pending).Perm r.held)
      (hsent : x.inFlight = r.unacknowledged) : LoopStep fold a r e (flush a x)
  /-- The next chunk, in current copies. -/
  | chunk (reports : List Report) (he : e.applied = none) (hr : r = .delivering reports) :
      LoopStep fold a r e { a with
        reporter := .posting (currentReportResults a.state a.preparer (reports.take maxReportsPerEnvelope)) reports }
  | sent (batch : List Report) (r' : Reporter) (he : e.applied = none) (hheld : r'.held = r.held) (hwire : r'.onWire = r.onWire)
      (hhanded : r'.handed = none) (hprepared : r'.prepared = none) (hbatch : r'.unacknowledged = batch) :
      LoopStep fold a r e { a with reporter := r', sent := batch :: a.sent }
  | policy (policy : AgentPolicy) (r' : Reporter) (he : e = .policy policy) (hheld : r'.held = r.held) (hplain : r'.Plain)
      (hsent : r'.unacknowledged = r.unacknowledged) :
      LoopStep fold a r e { a with state := applyPolicy fold a.state policy, reporter := r' }
  /-- The acknowledged batch leaves, and the session goes on. -/
  | ackFlush (x : Session) (he : e = .ack) (hne : r.unacknowledged ≠ []) (hheld : r.held = r.unacknowledged ++ x.pending)
      (hwire : r.onWire = r.held) (hnone : x.inFlight = []) : LoopStep fold a r e (Agent.flush (acknowledge a r.unacknowledged) x)
  | ack (reports : List Report) (he : e = .ack) (hwire : r.onWire = r.unacknowledged ++ reports)
      (hsub : ∀ report ∈ reports, report ∈ r.held) :
      LoopStep fold a r e { acknowledge a r.unacknowledged with reporter := .delivering reports }
  | retry (reports : List Report) (r' : Reporter) (he : e.applied = none) (hheld : (reports ++ r'.held).Perm r.held)
      (hplain : r'.Plain) (hsent : r'.unacknowledged = []) :
      LoopStep fold a r e { a with state := retryReports a.state a.preparer reports, reporter := r' }

variable {r : Reporter}

theorem sessionStep_cases {fold : Char → Char} {a a' : AgentState} {e : ReporterEvent}
    (hs : sessionStep fold a r e = some a') : LoopStep fold a r e a' := by
  rw [sessionStep.eq_def] at hs
  split at hs
  · -- connect
    cases hs
    exact .quiet _ rfl .rfl ⟨rfl, rfl, rfl⟩ (.inl rfl)
  · -- the prepared reports become pending
    rename_i x reports upload
    have hheld : (x.inFlight ++ (x.pending ++ reports)).Perm (reports ++ (x.inFlight ++ x.pending)) := by
      rw [← List.append_assoc]
      exact List.perm_append_comm
    cases upload with
    | true =>
      cases hs
      exact .flush _ rfl hheld rfl
    | false =>
      cases hs
      exact .quiet _ rfl hheld ⟨rfl, rfl, rfl⟩ (.inr rfl)
  · -- a section of `prepareReportsWithPing`
    rename_i x stage upload hdone
    cases hp : prepareStep a.state a.preparer stage e with
    | none => rw [hp] at hs; cases hs
    | some next =>
      rw [hp] at hs
      cases hs
      exact .prepare _ _ hp rfl rfl rfl rfl rfl rfl rfl
  · -- sampleTimer
    cases hs
    exact .quiet _ rfl .rfl ⟨rfl, rfl, rfl⟩ (.inr rfl)
  · -- uploadTimer
    cases hs
    exact .flush _ rfl .rfl rfl
  · -- policy
    split_ifs at hs
    · cases hs
      exact .policy _ _ rfl rfl ⟨rfl, rfl, rfl⟩ rfl
    · cases hs
      exact .policy _ _ rfl rfl ⟨rfl, rfl, rfl⟩ rfl
  · -- ack
    rename_i x
    split_ifs at hs with hnone
    · cases hs
      exact .quiet _ rfl .rfl ⟨rfl, rfl, rfl⟩ (.inr rfl)
    · cases hs
      exact .ackFlush _ rfl (by simpa [Reporter.unacknowledged] using hnone) rfl rfl rfl
  · -- ack deadline or a lost connection
    cases hs
    exact .retry _ _ rfl .rfl ⟨rfl, rfl, rfl⟩ rfl
  · -- sent
    cases hs
    exact .sent _ _ rfl rfl rfl rfl rfl rfl
  · -- send failure
    cases hs
    exact .retry _ _ rfl .rfl ⟨rfl, rfl, rfl⟩ rfl
  · -- the second half of the deferred call
    cases hs
    exact .retry _ _ rfl (.of_eq (List.append_nil _)) ⟨rfl, rfl, rfl⟩ rfl
  · cases hs

theorem httpStep_cases {fold : Char → Char} {a a' : AgentState} {e : ReporterEvent}
    (hs : httpStep fold a r e = some a') : LoopStep fold a r e a' := by
  rw [httpStep.eq_def] at hs
  split at hs
  · -- policy
    split_ifs at hs
    · cases hs
      exact .policy _ _ rfl rfl ⟨rfl, rfl, rfl⟩ rfl
    · cases hs
      exact .policy _ _ rfl rfl ⟨rfl, rfl, rfl⟩ rfl
  · -- the next round
    cases hs
    exact .quiet _ rfl .rfl ⟨rfl, rfl, rfl⟩ (.inl rfl)
  · -- the prepared reports become pending
    rename_i pending reports upload
    cases upload with
    | true =>
      cases hs
      exact .quiet _ rfl List.perm_append_comm ⟨rfl, rfl, rfl⟩ (.inl rfl)
    | false =>
      cases hs
      exact .quiet _ rfl List.perm_append_comm ⟨rfl, rfl, rfl⟩ (.inl rfl)
  · -- a section of `prepareReportsWithPing`
    rename_i pending stage upload hdone
    cases hp : prepareStep a.state a.preparer stage e with
    | none => rw [hp] at hs; cases hs
    | some next =>
      rw [hp] at hs
      cases hs
      exact .prepare _ _ hp rfl rfl rfl rfl rfl rfl rfl
  · -- the next chunk
    rename_i reports
    split_ifs at hs with hnone
    · cases hs
      exact .quiet _ rfl (.of_eq (List.isEmpty_iff.mp hnone).symm) ⟨rfl, rfl, rfl⟩ (.inl rfl)
    · cases hs
      exact .chunk reports rfl rfl
  · -- sent
    cases hs
    exact .sent _ _ rfl rfl rfl rfl rfl rfl
  · -- send failure: all that is left is retried
    cases hs
    exact .retry _ _ rfl (.of_eq (List.append_nil _)) ⟨rfl, rfl, rfl⟩ rfl
  · -- ack
    cases hs
    exact .ack _ rfl rfl fun report hmem => List.mem_of_mem_drop hmem
  · cases hs

namespace AgentState

/-- The outstanding reports: those in the retry queue and those of the reporter loop. -/
def outstanding (a : AgentState) : List Report := a.state.retryQueue ++ a.reporter.held

/-- The invariant of the agent. -/
structure Inv (a : AgentState) : Prop where
  held : Tracked a.state (a.state.retryQueue ++ a.reporter.held)
  onWire : Tracked a.state (a.state.retryQueue ++ a.reporter.onWire)
  sent : a.reporter.unacknowledged = [] ∨ a.reporter.unacknowledged ∈ a.sent

theorem Inv.start (http : Bool) : (start http).Inv := by
  cases http with
  | true => exact ⟨Tracked.new, Tracked.new, .inl rfl⟩
  | false => exact ⟨Tracked.new, Tracked.new, .inl rfl⟩

end AgentState

/-! ## The steps keep the invariant -/

theorem appendPendingLoop_retryQueue (first : Report) (n : Nat) :
    ∀ s : PingReportState, (appendPendingLoop first n s).1.retryQueue = s.retryQueue := by
  induction n with
  | zero => intro s; rfl
  | succ n ih =>
    intro s
    rw [appendPendingLoop]
    dsimp only
    split_ifs
    · exact ih (appendPendingResultsLocked s first.bare).1
    · rfl

theorem attachBasicInfoIfDue_carriers (p : ReportPreparer) (refresh : Option BasicInfo) (report : Report) :
    (attachBasicInfoIfDue p refresh report).2.pings = report.pings ∧
      (attachBasicInfoIfDue p refresh report).2.websites = report.websites := by
  cases refresh with
  | none => cases h : p.pendingBasicInfo <;> simp [attachBasicInfoIfDue, h]
  | some info => exact ⟨rfl, rfl⟩

variable {e : ReporterEvent}

theorem prepareStep_tracked {s s' : PingReportState} {p p' : ReportPreparer}
    {stage stage' : Preparing} (rest : List Report)
    (h : prepareStep s p stage e = some (s', p', stage')) :
    Stays s s' ∧ (Tracked s (s.retryQueue ++ (stage.held ++ rest)) →
      Tracked s' (s'.retryQueue ++ (stage'.held ++ rest))) := by
  rw [prepareStep.eq_def] at h
  split at h
  · obtain ⟨rfl, rfl, rfl⟩ : _ ∧ _ ∧ _ := by simpa using h
    exact ⟨Stays.of_eq rfl rfl, fun ht => ht.takeRetry p⟩
  · rename_i retry timestamp refresh
    obtain ⟨rfl, rfl, rfl⟩ : _ ∧ _ ∧ _ := by simpa using h
    refine ⟨Stays.appendPendingResults s _, fun ht => ?_⟩
    obtain ⟨hpings, hwebsites⟩ :=
      attachBasicInfoIfDue_carriers p refresh (Report.collected timestamp)
    exact (ht.appendPendingResults _ hpings hwebsites).perm List.perm_middle.symm
  · rename_i retry first
    obtain ⟨rfl, rfl, rfl⟩ : _ ∧ _ ∧ _ := by simpa using h
    refine ⟨Stays.appendPendingReports s first, fun ht => ?_⟩
    have hall := (ht.perm List.perm_middle).appendPendingReports
    have hqueue : (appendPendingReports s first).1.retryQueue = s.retryQueue := by
      rw [appendPendingReports_eq]
      exact appendPendingLoop_retryQueue first _ s
    rw [hqueue]
    refine hall.perm ?_
    refine (List.perm_append_comm_assoc _ _ _).trans (List.Perm.append_left _ ?_)
    refine (List.perm_append_comm_assoc _ _ _).trans ?_
    show (retry ++ (_ ++ rest)).Perm ((retry ++ _) ++ rest)
    rw [List.append_assoc]
  · cases h

namespace AgentState.Inv

variable {a : AgentState} {x : Session}

/-- For the phases in which no copies are on the wire. -/
theorem of_held (hwire : a.reporter.onWire = a.reporter.held)
    (h : Tracked a.state (a.state.retryQueue ++ a.reporter.held))
    (hsent : a.reporter.unacknowledged = [] ∨ a.reporter.unacknowledged ∈ a.sent) : a.Inv :=
  ⟨h, hwire ▸ h, hsent⟩

theorem flush (h : Tracked a.state (a.state.retryQueue ++ (x.inFlight ++ x.pending)))
    (hsent : x.inFlight = [] ∨ x.inFlight ∈ a.sent) : (flush a x).Inv := by
  rw [Agent.flush]
  split_ifs with hidle
  · exact of_held rfl h hsent
  · have hnone : x.inFlight = [] := by
      have hguard : (x.uploadReady = true ∧ x.inFlight = []) ∧ ¬ x.pending = [] := by
        simpa using hidle
      exact hguard.1.2
    rw [hnone, List.nil_append, ← List.take_append_drop maxReportsPerEnvelope x.pending] at h
    have hfront := (h.perm (List.perm_append_comm_assoc _ _ _)).current a.preparer
    exact of_held rfl (hfront.perm (List.perm_append_comm_assoc _ _ _)) (.inl rfl)

end AgentState.Inv

theorem flush_state (a : AgentState) (x : Session) : (flush a x).state = a.state := by
  rw [flush]
  split_ifs <;> rfl

/-- What a step can do to the queued results: leave them queued, apply a policy, or acknowledge a
    batch that was sent and is still outstanding. -/
inductive QueueChange (fold : Char → Char) (a : AgentState) : ReporterEvent → AgentState → Prop where
  | stays {e : ReporterEvent} {a' : AgentState} (h : Stays a.state a'.state) : QueueChange fold a e a'
  | policy {e : ReporterEvent} {a' : AgentState} {policy : AgentPolicy}
      (he : e = .policy policy ∨ e = .applyPolicy policy)
      (h : a'.state = applyPolicy fold a.state policy) : QueueChange fold a e a'
  | ack {a' : AgentState} {batch : List Report} (hsent : batch ∈ a.sent)
      (hwire : ∀ report ∈ batch, report ∈ a.reporter.onWire)
      (h : a'.state = acknowledgeReports a.state batch) : QueueChange fold a .ack a'

variable {fold : Char → Char} {a a' : AgentState}

/-- **One step of a reporter loop.** -/
theorem loopStep_inv (hr : a.reporter = r) (hI : a.Inv) (hs : LoopStep fold a r e a') :
    a'.Inv ∧ QueueChange fold a e a' := by
  have hheld := hI.held
  have hwire := hI.onWire
  have hsent := hI.sent
  rw [hr] at hheld hwire hsent
  cases hs with
  | quiet r' he hheld' hplain hsent' =>
    refine ⟨.of_held hplain.wire (hheld.perm (hheld'.symm.append_left _)) ?_, .stays (Stays.of_eq rfl rfl)⟩
    exact hsent'.elim .inl fun hsame => hsame ▸ hsent
  | prepare others r' h hheld₁ hheld₂ hwire' hhanded hprepared hprepared' hsent' =>
    obtain ⟨hstays, htracked⟩ := prepareStep_tracked others h
    rw [hheld₁] at hheld
    have hheld' := htracked hheld
    rw [← hheld₂] at hheld'
    exact ⟨.of_held hwire' hheld' (hsent' ▸ hsent), .stays hstays⟩
  | flush x he hheld' hsent' =>
    have hstate := flush_state a x
    exact ⟨.flush (hheld.perm (hheld'.symm.append_left _)) (hsent' ▸ hsent), .stays (Stays.of_eq (by rw [hstate]) (by rw [hstate]))⟩
  | chunk reports he hdelivering =>
    subst hdelivering
    have hsplit : Tracked a.state (a.state.retryQueue
        ++ (reports.take maxReportsPerEnvelope ++ reports.drop maxReportsPerEnvelope)) := by
      rw [List.take_append_drop]
      exact hheld
    have hfront := (hsplit.perm (List.perm_append_comm_assoc _ _ _)).current a.preparer
    exact ⟨⟨hheld, hfront.perm (List.perm_append_comm_assoc _ _ _), .inl rfl⟩, .stays (Stays.of_eq rfl rfl)⟩
  | sent batch r' he hheld' hwire' hhanded hprepared hbatch =>
    rw [← hheld'] at hheld
    rw [← hwire'] at hwire
    exact ⟨⟨hheld, hwire, .inr (hbatch ▸ List.mem_cons_self)⟩, .stays (Stays.of_eq rfl rfl)⟩
  | policy policy r' he hheld' hplain hsent' =>
    rw [← hheld'] at hheld
    exact ⟨.of_held hplain.wire (hheld.applyPolicy fold policy) (hsent' ▸ hsent), .policy (.inl he) rfl⟩
  | ackFlush x he hne hheld' hwire' hnone =>
    subst he
    rw [hheld'] at hheld
    refine ⟨.flush ?_ (.inl hnone), .ack (hsent.resolve_left hne) (fun report hreport => ?_) (flush_state _ _)⟩
    · rw [hnone]
      exact (hheld.perm (List.perm_append_comm_assoc _ _ _)).acknowledge
    · rw [hr, hwire', hheld']
      exact List.mem_append_left _ hreport
  | ack reports he hwire' hsub =>
    subst he
    rw [hwire'] at hwire
    refine ⟨.of_held rfl (hwire.perm (List.perm_append_comm_assoc _ _ _)).acknowledge (.inl rfl), ?_⟩
    rcases hsent with hempty | hmem
    · rw [hempty]
      exact .stays (Stays.of_eq rfl rfl)
    · refine .ack hmem (fun report hreport => ?_) rfl
      rw [hr, hwire']
      exact List.mem_append_left _ hreport
  | retry reports r' he hheld' hplain hsent' =>
    have hfront : Tracked a.state (reports ++ (a.state.retryQueue ++ r'.held)) :=
      (hheld.perm (hheld'.symm.append_left _)).perm (List.perm_append_comm_assoc _ _ _)
    exact ⟨.of_held hplain.wire (hfront.retry a.preparer) (.inl hsent'), .stays (Stays.of_eq rfl rfl)⟩

/-- **One step of the agent** keeps the invariant and does one of three things to the queues. -/
theorem reporterStep_inv (hI : a.Inv)
    (hs : reporterStep fold a e = some a') : a'.Inv ∧ QueueChange fold a e a' := by
  rw [reporterStep.eq_def] at hs
  split at hs
  · rename_i results
    cases hs
    exact ⟨⟨hI.held.queuePing results, hI.onWire.queuePing results, hI.sent⟩,
      .stays (Stays.queuePing a.state results)⟩
  · rename_i results
    cases hs
    exact ⟨⟨hI.held.queueWebsite results, hI.onWire.queueWebsite results, hI.sent⟩,
      .stays (Stays.queueWebsite a.state results)⟩
  · rename_i policy
    cases hs
    exact ⟨⟨hI.held.applyPolicy fold policy, hI.onWire.applyPolicy fold policy, hI.sent⟩,
      .policy (.inr rfl) rfl⟩
  · split_ifs at hs with hhttp
    · exact loopStep_inv rfl hI (httpStep_cases hs)
    · exact loopStep_inv rfl hI (sessionStep_cases hs)

/-- **Every reachable state** satisfies the invariant. -/
theorem AgentState.Inv.run {http : Bool} {es : List ReporterEvent}
    (h : (reporterMachine fold).run (.start http) es = some a) : a.Inv :=
  (reporterMachine fold).run_inv (fun _ _ _ hI hs => (reporterStep_inv hI hs).1)
    (AgentState.Inv.start http) h

/-! ## Nothing is lost, nothing is held twice -/

/-- A queued result is on no carrier, or on exactly one, which carries it. -/
def HeldOnce {ρ : Type} (key : ρ → Int) (cs : List (Carrier Int ρ)) (k : Int) (p : Queued ρ) : Prop :=
  (p.leased = false ∧ holders cs k p.sequence = []) ∨
  (p.leased = true ∧ ∃ c, holders cs k p.sequence = [c] ∧
    c.results.filter (fun r => decide (key r = k)) = [p.result])

/-- The step from `a` to `a'` acknowledges a batch that was sent with the result. -/
def AcknowledgedWith {ρ : Type} (part : Report → Carrier Int ρ) (a : AgentState) (e : ReporterEvent)
    (a' : AgentState) (k : Int) (p : Queued ρ) : Prop :=
  e = .ack ∧ ∃ batch ∈ a.sent, a'.state = acknowledgeReports a.state batch ∧
    ∃ report ∈ batch, (part report).leases.get? k = some p.sequence ∧ p.result ∈ (part report).results

/-- The event `e` applies a policy in which a task of the old list is missing or probes something
    else. -/
def SupersededBy {τ : Type} (id : τ → Int) (same : τ → τ → Bool) (old : List τ)
    (tasks : AgentPolicy → List τ) (e : ReporterEvent) (k : Int) : Prop :=
  ∃ policy, (e = .policy policy ∨ e = .applyPolicy policy) ∧
    ∃ task ∈ old, id task = k ∧ superseded id same (tasks policy) task = true

theorem invalidateResults_keeps {ρ τ : Type} (id : τ → Int) (same : τ → τ → Bool) (old next : List τ)
    {pending : Directory Int (Queued ρ)} {k : Int} {p : Queued ρ}
    (hp : pending.get? k = some p) :
    Keeps (invalidateResults id same old next pending) k p ∨
      ∃ task ∈ old, id task = k ∧ superseded id same next task = true := by
  by_cases hsup : ∃ task ∈ old, id task = k ∧ superseded id same next task = true
  · exact .inr hsup
  · refine .inl (Keeps.refl ?_)
    refine (get?_invalidateResults id same next old pending).mpr ⟨hp, ?_⟩
    intro task htask hk
    by_contra hno
    exact hsup ⟨task, htask, hk, by simpa using hno⟩

theorem settle_keeps {ρ : Type} {key : ρ → Int} {next : Nat} {pending : Directory Int (Queued ρ)}
    {part : Report → Carrier Int ρ} {reports batch : List Report}
    (h : Held key next pending (reports.map part)) (hsub : ∀ report ∈ batch, report ∈ reports)
    {k : Int} {p : Queued ρ} (hp : pending.get? k = some p) :
    Keeps (settle pending (batch.map part)) k p ∨
      ∃ report ∈ batch, (part report).leases.get? k = some p.sequence ∧ p.result ∈ (part report).results := by
  by_cases hheld : ∃ report ∈ batch, (part report).leases.get? k = some p.sequence
  · obtain ⟨report, hreport, hlease⟩ := hheld
    refine .inr ⟨report, hreport, hlease, ?_⟩
    have hres := h.carries (List.mem_map_of_mem (hsub report hreport)) hp hlease
    have hmem : p.result ∈ (part report).results.filter (fun r => decide (key r = k)) := by
      rw [hres]
      exact List.mem_singleton_self _
    exact (List.mem_filter.mp hmem).1
  · refine .inl (Keeps.refl ((get?_settle _ pending).mpr ⟨hp, ?_⟩))
    intro c hc hlease
    obtain ⟨report, hreport, rfl⟩ := List.mem_map.mp hc
    exact hheld ⟨report, hreport, hlease⟩

/-- **Probe results are neither lost nor held twice.**  In every reachable state a queued result is
    not leased and on no outstanding report, or leased and on exactly one, which carries it; and a
    step after which it is not queued any more acknowledged a batch that was sent with it, or
    applied a policy that drops or changes its task. -/
theorem probe_results_tracked (fold : Char → Char) (http : Bool) (es : List ReporterEvent)
    (a : AgentState) (h : (reporterMachine fold).run (.start http) es = some a) :
    (∀ k p, a.state.ping.pending.get? k = some p →
      HeldOnce PingResult.taskID (a.outstanding.map Report.pings) k p) ∧
    (∀ k p, a.state.website.pending.get? k = some p →
      HeldOnce WebsiteProbeResult.monitorID (a.outstanding.map Report.websites) k p) ∧
    ∀ e a', reporterStep fold a e = some a' → (∀ k p, a.state.ping.pending.get? k = some p →
        Keeps a'.state.ping.pending k p ∨ AcknowledgedWith Report.pings a e a' k p ∨
        SupersededBy PingTask.id (samePingProbe fold) a.state.tasks (policyPingTasks a.state) e k) ∧
      (∀ k p, a.state.website.pending.get? k = some p →
        Keeps a'.state.website.pending k p ∨ AcknowledgedWith Report.websites a e a' k p ∨
        SupersededBy WebsiteProbeTask.id (sameWebsiteProbe fold) a.state.websiteTasks
          (policyWebsiteTasks a.state) e k) := by
  have hI := AgentState.Inv.run h
  refine ⟨fun k p hp => hI.held.ping.holder hp, fun k p hp => hI.held.website.holder hp, ?_⟩
  intro e a' hs
  cases (reporterStep_inv hI hs).2 with
  | stays hstays =>
    exact ⟨fun k p hp => .inl (hstays.ping hp), fun k p hp => .inl (hstays.website hp)⟩
  | @policy _ _ policy he hstate =>
    refine ⟨fun k p hp => ?_, fun k p hp => ?_⟩
    · rcases invalidateResults_keeps PingTask.id (samePingProbe fold) a.state.tasks
        (policyPingTasks a.state policy) hp with hkeeps | hsup
      · exact .inl (by rw [hstate]; exact hkeeps)
      · exact .inr (.inr ⟨policy, he, hsup⟩)
    · rcases invalidateResults_keeps WebsiteProbeTask.id (sameWebsiteProbe fold)
        a.state.websiteTasks (policyWebsiteTasks a.state policy) hp with hkeeps | hsup
      · exact .inl (by rw [hstate]; exact hkeeps)
      · exact .inr (.inr ⟨policy, he, hsup⟩)
  | @ack _ batch hsent hwire hstate =>
    have hsub : ∀ report ∈ batch, report ∈ a.state.retryQueue ++ a.reporter.onWire :=
      fun report hreport => List.mem_append_right _ (hwire report hreport)
    refine ⟨fun k p hp => ?_, fun k p hp => ?_⟩
    · rcases settle_keeps hI.onWire.ping hsub hp with hkeeps | hcarried
      · exact .inl (by rw [hstate]; exact hkeeps)
      · exact .inr (.inl ⟨rfl, batch, hsent, hstate, hcarried⟩)
    · rcases settle_keeps hI.onWire.website hsub hp with hkeeps | hcarried
      · exact .inl (by rw [hstate]; exact hkeeps)
      · exact .inr (.inl ⟨rfl, batch, hsent, hstate, hcarried⟩)

/-- A policy with one TCP ping. -/
def onePing : AgentPolicy := ⟨0, "v1", [⟨1, "tcp", "example.org:443", 60⟩], [], false⟩

/-- A policy without tasks. -/
def noProbes : AgentPolicy := ⟨0, "v2", [], [], false⟩

/-- A ping is probed, put into a report and posted. -/
def postedRun : List ReporterEvent :=
  [.policy onePing, .pingDone [⟨1, 7⟩], .sampleTimer true, .takeRetryReports,
    .appendDueResults 5 none, .appendPendingReports, .prepared, .deliver, .sent]

/-- The hypothesis is satisfiable: after `postedRun` the result is leased, to the one report that
    carries it. -/
theorem probe_results_tracked_posted :
    ∃ a, (reporterMachine Char.toLower).run (.start true) postedRun = some a ∧
      a.state.ping.pending.get? 1 = some ⟨⟨1, 7⟩, 1, true⟩ ∧
      HeldOnce PingResult.taskID (a.outstanding.map Report.pings) 1 ⟨⟨1, 7⟩, 1, true⟩ := by
  obtain ⟨a, ha, hp⟩ : ∃ a, (reporterMachine Char.toLower).run (.start true) postedRun = some a ∧
      a.state.ping.pending.get? 1 = some ⟨⟨1, 7⟩, 1, true⟩ := ⟨_, rfl, rfl⟩
  exact ⟨a, ha, hp, (probe_results_tracked Char.toLower true postedRun a ha).1 1 _ hp⟩

/-- An acknowledgement is not the only way out of the queue: a policy without the task drops its
    result before anything was sent. -/
theorem not_only_by_acknowledgement :
    ¬ ∀ (es : List ReporterEvent) (a a' : AgentState) (e : ReporterEvent) (k : Int) (p : Queued PingResult),
      (reporterMachine Char.toLower).run (.start true) es = some a →
      reporterStep Char.toLower a e = some a' → a.state.ping.pending.get? k = some p →
      Keeps a'.state.ping.pending k p ∨ AcknowledgedWith Report.pings a e a' k p := by
  intro h
  obtain ⟨a, a', hrun, hstep, hp, hgone⟩ : ∃ a a',
      (reporterMachine Char.toLower).run (.start true) [.policy onePing, .pingDone [⟨1, 7⟩]] = some a ∧
      reporterStep Char.toLower a (.policy noProbes) = some a' ∧
      a.state.ping.pending.get? 1 = some ⟨⟨1, 7⟩, 1, false⟩ ∧
      a'.state.ping.pending.get? 1 = none := ⟨_, _, rfl, rfl, rfl, rfl⟩
  rcases h _ a a' _ 1 _ hrun hstep hp with ⟨p', hp', -⟩ | ⟨hack, -⟩
  · rw [hgone] at hp'
    cases hp'
  · cases hack

end CfMonitor.Agent
