/-
  Probe results on their way to the server (`report_delivery.go`, `applyPolicy`).

  Ping and website results are queued alike, so both are `LeaseQueue`s of `Lib.LeaseQueue`, and a
  report is a carrier of either.  Each operation of `pingReportState` below is one critical section
  of its mutex; `BasicInfo` travels on the reports as well, under a revision of the preparer.

  The invariant `Tracked s reports` says that the reports are all there is outside: every queued
  result is on none of them, or on one, as its mark says.  One lemma for each operation.
-/
import Mathlib
import CfMonitor.Lib.LeaseQueue

namespace CfMonitor.Agent

open CfMonitor.Lib
open LeaseQueue (leaseAlong offer_keeps offer_le)

/-! ## Data -/

/-- A ping task of the policy: what identifies the probe and how often it runs. -/
structure PingTask where
  id : Int
  type : String
  target : String
  intervalSec : Int
  deriving DecidableEq, Repr

/-- A website probe of the policy. -/
structure WebsiteProbeTask where
  id : Int
  configRevision : String
  url : String
  method : String
  expectedStatusMin : Int
  expectedStatusMax : Int
  timeoutSec : Int
  intervalSec : Int
  deriving DecidableEq, Repr

/-- The outcome of a ping; `value` is the bit pattern of the measured `float64`. -/
structure PingResult where
  taskID : Int
  value : UInt64
  deriving DecidableEq, Repr

/-- The outcome of a website probe. -/
structure WebsiteProbeResult where
  monitorID : Int
  configRevision : String
  ok : Bool
  effectiveStatus : String
  effectiveReason : String
  statusCode : Option Int
  rawStatusCode : Option Int
  latencyMS : Int
  error : Option String
  deriving DecidableEq, Repr

/-- What the host says about itself. -/
structure BasicInfo where
  cpuName : String
  virtualization : String
  arch : String
  cpuCores : Int
  os : String
  kernelVersion : String
  gpuName : String
  ipv4 : String
  ipv6 : String
  region : String
  version : String
  name : String
  memTotal : Int
  swapTotal : Int
  diskTotal : Int
  uptime : Int
  deriving DecidableEq, Repr

/-- A report: the results it carries with their leases, and the host information it carries with
    the revision it was taken at.  The measured values ride along and are not read here, but for
    the time they were taken. -/
structure Report where
  timestamp : Int
  basicInfo : Option BasicInfo
  hasBasicInfoOwner : Bool
  basicInfoRevision : Nat
  pings : Carrier Int PingResult
  websites : Carrier Int WebsiteProbeResult

/-- A report as it is collected: measured values only. -/
def Report.collected (timestamp : Int) : Report :=
  ⟨timestamp, none, false, 0, Carrier.empty, Carrier.empty⟩

/-- The host information that no acknowledgement has covered yet. -/
structure ReportPreparer where
  pendingBasicInfo : Option BasicInfo
  basicInfoRevision : Nat

/-- The policy messages of the server, as far as they concern probes. -/
structure AgentPolicy where
  pingIntervalSec : Int
  pingPolicyVersion : String
  pingTasks : List PingTask
  websiteProbeTasks : List WebsiteProbeTask
  reportNow : Bool

/-- The tasks, the queued results and the reports that wait to be sent again. -/
structure PingReportState where
  tasks : List PingTask
  websiteTasks : List WebsiteProbeTask
  policyVersion : String
  intervalSec : Int
  ping : LeaseQueue Int PingResult
  website : LeaseQueue Int WebsiteProbeResult
  nextResultID : Nat
  retryQueue : List Report

def maxPingResultsPerReport : Nat := 50
def maxWebsiteResultsPerReport : Nat := 20
def maxReportsPerEnvelope : Nat := 300
def defaultPingIntervalSec : Int := 120

/-- `newPingReportState`. -/
def newPingReportState : PingReportState :=
  ⟨[], [], "", defaultPingIntervalSec, LeaseQueue.empty, LeaseQueue.empty, 0, []⟩

/-! ## Policy changes -/

section Policy

-- simple case folding of Unicode, one character at a time
variable (fold : Char → Char)

/-- `strings.EqualFold`. -/
def equalFold (a b : String) : Bool := a.toList.map fold == b.toList.map fold

def samePingProbe (a b : PingTask) : Bool := equalFold fold a.type b.type && a.target == b.target

def sameWebsiteProbe (a b : WebsiteProbeTask) : Bool :=
  a.configRevision == b.configRevision && a.url == b.url && equalFold fold a.method b.method &&
  a.expectedStatusMin == b.expectedStatusMin && a.expectedStatusMax == b.expectedStatusMax &&
  a.timeoutSec == b.timeoutSec

/-- The tasks by id; of two tasks with one id the later counts. -/
def taskByID {τ : Type} (id : τ → Int) (tasks : List τ) : Directory Int τ :=
  tasks.foldl (fun byID task => byID.put (id task) task) Directory.empty

/-- Whether a task of the old policy is missing from the new one or probes something else. -/
def superseded {τ : Type} (id : τ → Int) (same : τ → τ → Bool) (next : List τ) (old : τ) : Bool :=
  match (taskByID id next).get? (id old) with
  | none => true
  | some task => !same old task

/-- Drop the results of the superseded tasks. -/
def invalidateResults {τ ρ : Type} (id : τ → Int) (same : τ → τ → Bool) (old next : List τ)
    (pending : Directory Int (Queued ρ)) : Directory Int (Queued ρ) :=
  old.foldl (fun pending task =>
    if superseded id same next task then pending.remove (id task) else pending) pending

/-- `invalidateResultsForPolicyLocked`, its part on results. -/
def invalidateResultsForPolicyLocked (s : PingReportState) (pings : List PingTask)
    (websites : List WebsiteProbeTask) : PingReportState :=
  { s with
    ping := LeaseQueue.prune { s.ping with
      pending := invalidateResults PingTask.id (samePingProbe fold) s.tasks pings s.ping.pending }
    website := LeaseQueue.prune { s.website with
      pending := invalidateResults WebsiteProbeTask.id (sameWebsiteProbe fold) s.websiteTasks
        websites s.website.pending } }

/-- The interval for tasks that name none: the policy's, else the last one, else the default. -/
def policyInterval (s : PingReportState) (policy : AgentPolicy) : Int :=
  let interval := if 0 < policy.pingIntervalSec then policy.pingIntervalSec else s.intervalSec
  if interval < 1 then defaultPingIntervalSec else interval

/-- The ping tasks of a policy, each with an interval. -/
def policyPingTasks (s : PingReportState) (policy : AgentPolicy) : List PingTask :=
  policy.pingTasks.map fun task =>
    if task.intervalSec < 1 then { task with intervalSec := policyInterval s policy } else task

/-- The website probes of a policy, each with an interval. -/
def policyWebsiteTasks (s : PingReportState) (policy : AgentPolicy) : List WebsiteProbeTask :=
  policy.websiteProbeTasks.map fun task =>
    if task.intervalSec < 1 then { task with intervalSec := policyInterval s policy } else task

def applyPolicy (s : PingReportState) (policy : AgentPolicy) : PingReportState :=
  { invalidateResultsForPolicyLocked fold s (policyPingTasks s policy) (policyWebsiteTasks s policy)
    with
    intervalSec := policyInterval s policy
    tasks := policyPingTasks s policy
    websiteTasks := policyWebsiteTasks s policy
    policyVersion := policy.pingPolicyVersion }

end Policy

/-! ## Results and reports -/

def queuePingResultsLocked (s : PingReportState) (results : List PingResult) : PingReportState :=
  { s with
    ping := (s.ping.offer PingResult.taskID s.nextResultID results).1
    nextResultID := (s.ping.offer PingResult.taskID s.nextResultID results).2 }

def queueWebsiteResultsLocked (s : PingReportState) (results : List WebsiteProbeResult) :
    PingReportState :=
  { s with
    website := (s.website.offer WebsiteProbeResult.monitorID s.nextResultID results).1
    nextResultID := (s.website.offer WebsiteProbeResult.monitorID s.nextResultID results).2 }

def appendPendingResultsLocked (s : PingReportState) (report : Report) :
    PingReportState × Report :=
  ({ s with
      ping := (s.ping.lease maxPingResultsPerReport report.pings).1
      website := (s.website.lease maxWebsiteResultsPerReport report.websites).1 },
    { report with
      pings := (s.ping.lease maxPingResultsPerReport report.pings).2
      websites := (s.website.lease maxWebsiteResultsPerReport report.websites).2 })

/-- Whether a report carries a probe result. -/
def Report.hasResults (report : Report) : Bool :=
  !report.pings.results.isEmpty || !report.websites.results.isEmpty

/-- A copy of a report without results, leases and host information. -/
def Report.bare (first : Report) : Report :=
  { first with
    pings := Carrier.empty, websites := Carrier.empty
    basicInfo := none, hasBasicInfoOwner := false, basicInfoRevision := 0 }

/-- The loop of `appendPendingReports`: further copies of `first` until nothing is left. -/
def appendPendingLoop (first : Report) : Nat → PingReportState → PingReportState × List Report
  | 0, s => (s, [])
  | n + 1, s =>
    let (s', next) := appendPendingResultsLocked s first.bare
    if next.hasResults then
      let (s'', reports) := appendPendingLoop first n s'
      (s'', next :: reports)
    else (s', [])

/-- `appendPendingReports`.  Each round hands out a queued result, so the rounds are bounded by the
    lengths of the queues (`appendPendingReports_exhausts`). -/
def appendPendingReports (s : PingReportState) (first : Report) : PingReportState × List Report :=
  let (s', reports) := appendPendingLoop first (s.ping.order.length + s.website.order.length + 1) s
  (s', first :: reports)

theorem appendPendingReports_eq (s : PingReportState) (first : Report) : appendPendingReports s first
      = ((appendPendingLoop first (s.ping.order.length + s.website.order.length + 1) s).1,
        first :: (appendPendingLoop first (s.ping.order.length + s.website.order.length + 1) s).2) :=
  rfl

/-- `currentReportBasicInfo`. -/
def currentReportBasicInfo (p : ReportPreparer) (report : Report) : Report :=
  if report.hasBasicInfoOwner &&
      (p.pendingBasicInfo.isNone || p.basicInfoRevision != report.basicInfoRevision) then
    { report with basicInfo := none, hasBasicInfoOwner := false, basicInfoRevision := 0 }
  else report

theorem currentReportBasicInfo_carriers (p : ReportPreparer) (report : Report) :
    (currentReportBasicInfo p report).pings = report.pings ∧
      (currentReportBasicInfo p report).websites = report.websites := by
  rw [currentReportBasicInfo]
  split_ifs <;> exact ⟨rfl, rfl⟩

def currentReportResultsLocked (s : PingReportState) (p : ReportPreparer) (report : Report) :
    Report :=
  let report := currentReportBasicInfo p report
  { report with
    pings := report.pings.current PingResult.taskID s.ping.pending
    websites := report.websites.current WebsiteProbeResult.monitorID s.website.pending }

def currentReportResults (s : PingReportState) (p : ReportPreparer) (reports : List Report) :
    List Report :=
  reports.map (currentReportResultsLocked s p)

/-- The first loop of `acknowledgeReports`: the host information of the current revision arrived. -/
def acknowledgeBasicInfo (p : ReportPreparer) (reports : List Report) : ReportPreparer :=
  reports.foldl (fun p report =>
    if report.hasBasicInfoOwner && report.basicInfo.isSome &&
        p.basicInfoRevision == report.basicInfoRevision then
      { p with pendingBasicInfo := none }
    else p) p

/-- `acknowledgeReports`, its part on results. -/
def acknowledgeReports (s : PingReportState) (reports : List Report) : PingReportState :=
  { s with
    ping := LeaseQueue.prune { s.ping with
      pending := settle s.ping.pending (reports.map Report.pings) }
    website := LeaseQueue.prune { s.website with
      pending := settle s.website.pending (reports.map Report.websites) } }

def retryReports (s : PingReportState) (p : ReportPreparer) (reports : List Report) :
    PingReportState :=
  { s with
    retryQueue := s.retryQueue ++ (currentReportResults s p reports).filter Report.hasResults }

def takeRetryReports (s : PingReportState) (p : ReportPreparer) : PingReportState × List Report :=
  ({ s with retryQueue := [] }, (currentReportResults s p s.retryQueue).filter Report.hasResults)

/-- `attachBasicInfoIfDue`; `refresh` is what the host says now, when that is due. -/
def attachBasicInfoIfDue (p : ReportPreparer) (refresh : Option BasicInfo) (report : Report) :
    ReportPreparer × Report :=
  let p := match refresh with
    | none => p
    | some info => ⟨some info, p.basicInfoRevision + 1⟩
  match p.pendingBasicInfo with
  | none => (p, report)
  | some info =>
    (p, { report with
      basicInfo := some info, hasBasicInfoOwner := true, basicInfoRevision := p.basicInfoRevision })

/-! ## The invariant -/

/-- `reports` are all the reports there are: every queued result is on none of them, or on exactly
    one, as its mark says. -/
structure Tracked (s : PingReportState) (reports : List Report) : Prop where
  ping : Held PingResult.taskID s.nextResultID s.ping.pending (reports.map Report.pings)
  website : Held WebsiteProbeResult.monitorID s.nextResultID s.website.pending (reports.map Report.websites)

theorem get?_invalidateResults {τ ρ : Type} (id : τ → Int) (same : τ → τ → Bool) (next : List τ)
    {k : Int} {p : Queued ρ} (old : List τ) :
    ∀ pending : Directory Int (Queued ρ), (invalidateResults id same old next pending).get? k = some p
        ↔ pending.get? k = some p ∧ ∀ task ∈ old, id task = k → superseded id same next task = false := by
  induction old with
  | nil => intro pending; show pending.get? k = some p ↔ _; simp
  | cons task old ih =>
    intro pending
    show (invalidateResults id same old next
      (if superseded id same next task then pending.remove (id task) else pending)).get? k = some p ↔ _
    rw [ih, List.forall_mem_cons]
    cases hsup : superseded id same next task with
    | false =>
      rw [if_neg (by simp)]
      exact ⟨fun h => ⟨h.1, fun _ => rfl, h.2⟩, fun h => ⟨h.1, h.2.2⟩⟩
    | true =>
      rw [if_pos rfl, Directory.get?_remove]
      by_cases hk : k = id task
      · rw [if_pos hk]
        refine ⟨fun h => absurd h.1 (by simp), fun h => ?_⟩
        cases h.2.1 hk.symm
      · rw [if_neg hk]
        exact ⟨fun h => ⟨h.1, fun h' => absurd h'.symm hk, h.2⟩, fun h => ⟨h.1, h.2.2⟩⟩

namespace Tracked

variable {s : PingReportState} {reports others : List Report}

theorem new : Tracked newPingReportState [] := ⟨Held.nothing, Held.nothing⟩

theorem perm (hperm : reports.Perm others) (h : Tracked s reports) : Tracked s others :=
  ⟨h.ping.perm (hperm.map _), h.website.perm (hperm.map _)⟩

theorem queuePing (results : List PingResult) (h : Tracked s reports) :
    Tracked (queuePingResultsLocked s results) reports :=
  ⟨h.ping.offer results, h.website.mono (offer_le _ results _ _)⟩

theorem queueWebsite (results : List WebsiteProbeResult) (h : Tracked s reports) :
    Tracked (queueWebsiteResultsLocked s results) reports :=
  ⟨h.ping.mono (offer_le _ results _ _), h.website.offer results⟩

theorem applyPolicy (fold : Char → Char) (policy : AgentPolicy) (h : Tracked s reports) :
    Tracked (applyPolicy fold s policy) reports :=
  ⟨h.ping.sub fun hp => ((get?_invalidateResults _ _ _ _ _).mp hp).1,
    h.website.sub fun hp => ((get?_invalidateResults _ _ _ _ _).mp hp).1⟩

/-- Filling a report that carries nothing yet makes it one of the reports. -/
theorem appendPendingResults (report : Report) (hpings : report.pings = Carrier.empty)
    (hwebsites : report.websites = Carrier.empty) (h : Tracked s reports) :
    Tracked (appendPendingResultsLocked s report).1 ((appendPendingResultsLocked s report).2 :: reports) := by
  refine ⟨?_, ?_⟩
  · show Held _ _ (s.ping.lease _ report.pings).1.pending ((s.ping.lease _ report.pings).2 :: _)
    rw [hpings]
    exact h.ping.lease s.ping _
  · show Held _ _ (s.website.lease _ report.websites).1.pending ((s.website.lease _ report.websites).2 :: _)
    rw [hwebsites]
    exact h.website.lease s.website _

/-- A report that was handed nothing needs no tracking. -/
theorem drop_without_results {report : Report} (hnone : report.hasResults = false)
    (h : Tracked s (report :: reports)) : Tracked s reports := by
  have hnone' : report.pings.results = [] ∧ report.websites.results = [] := by
    simpa [Report.hasResults] using hnone
  have hping : Idle s.ping.pending report.pings :=
    h.ping.idle_of_no_results List.mem_cons_self hnone'.1
  have hwebsite : Idle s.website.pending report.websites :=
    h.website.idle_of_no_results List.mem_cons_self hnone'.2
  exact ⟨h.ping.drop_head hping, h.website.drop_head hwebsite⟩

theorem appendPendingLoop (first : Report) (n : Nat) :
    ∀ {s : PingReportState} {reports : List Report}, Tracked s reports →
      Tracked (appendPendingLoop first n s).1 ((appendPendingLoop first n s).2 ++ reports) := by
  induction n with
  | zero => intro s reports h; exact h
  | succ n ih =>
    intro s reports h
    have hround := h.appendPendingResults first.bare rfl rfl
    rw [Agent.appendPendingLoop]
    dsimp only
    split_ifs with hres
    · exact (ih hround).perm List.perm_middle
    · exact hround.drop_without_results (by simpa using hres)

theorem appendPendingReports {first : Report} (h : Tracked s (first :: reports)) :
    Tracked (appendPendingReports s first).1 ((appendPendingReports s first).2 ++ reports) := by
  rw [appendPendingReports_eq]
  exact (h.appendPendingLoop first _).perm List.perm_middle

theorem current (p : ReportPreparer) (h : Tracked s (reports ++ others)) :
    Tracked s (currentReportResults s p reports ++ others) := by
  obtain ⟨hping, hwebsite⟩ := h
  rw [List.map_append] at hping hwebsite
  refine ⟨?_, ?_⟩
  · rw [List.map_append, currentReportResults, List.map_map]
    have hmap : reports.map (Report.pings ∘ currentReportResultsLocked s p)
        = (reports.map Report.pings).map (Carrier.current PingResult.taskID s.ping.pending) := by
      rw [List.map_map]
      refine List.map_congr_left fun report _ => ?_
      show (currentReportBasicInfo p report).pings.current _ _ = report.pings.current _ _
      rw [(currentReportBasicInfo_carriers p report).1]
    rw [hmap]
    exact hping.current
  · rw [List.map_append, currentReportResults, List.map_map]
    have hmap : reports.map (Report.websites ∘ currentReportResultsLocked s p)
        = (reports.map Report.websites).map
          (Carrier.current WebsiteProbeResult.monitorID s.website.pending) := by
      rw [List.map_map]
      refine List.map_congr_left fun report _ => ?_
      show (currentReportBasicInfo p report).websites.current _ _ = report.websites.current _ _
      rw [(currentReportBasicInfo_carriers p report).2]
    rw [hmap]
    exact hwebsite.current

theorem filter_hasResults (h : Tracked s (reports ++ others)) :
    Tracked s (reports.filter Report.hasResults ++ others) := by
  induction reports generalizing others with
  | nil => exact h
  | cons report reports ih =>
    cases hres : report.hasResults with
    | true =>
      rw [List.filter_cons_of_pos hres]
      have hmoved : Tracked s (reports ++ (report :: others)) := h.perm List.perm_middle.symm
      exact (ih hmoved).perm List.perm_middle
    | false =>
      rw [List.filter_cons_of_neg (by simp [hres])]
      exact ih (h.drop_without_results hres)

theorem acknowledge (h : Tracked s (reports ++ others)) : Tracked (acknowledgeReports s reports) others := by
  obtain ⟨hping, hwebsite⟩ := h
  rw [List.map_append] at hping hwebsite
  exact ⟨hping.settle, hwebsite.settle⟩

theorem retry (p : ReportPreparer) (h : Tracked s (reports ++ (s.retryQueue ++ others))) :
    Tracked (retryReports s p reports) ((retryReports s p reports).retryQueue ++ others) := by
  have hkept := (h.current p).filter_hasResults
  refine (show Tracked (retryReports s p reports) _ from ⟨hkept.ping, hkept.website⟩).perm ?_
  show (_ ++ (s.retryQueue ++ others)).Perm ((s.retryQueue ++ _) ++ others)
  rw [← List.append_assoc]
  exact List.perm_append_comm.append_right others

theorem takeRetry (p : ReportPreparer) (h : Tracked s (s.retryQueue ++ others)) :
    Tracked (takeRetryReports s p).1 ((takeRetryReports s p).2 ++ others) := by
  have hkept := (h.current p).filter_hasResults
  exact ⟨hkept.ping, hkept.website⟩

end Tracked

/-! ## What stays queued -/

/-- Every result queued in `s` is queued in `s'`, under its number. -/
structure Stays (s s' : PingReportState) : Prop where
  ping : ∀ {k p}, s.ping.pending.get? k = some p → Keeps s'.ping.pending k p
  website : ∀ {k p}, s.website.pending.get? k = some p → Keeps s'.website.pending k p

namespace Stays

variable {s s' s'' : PingReportState}

theorem of_eq (hping : s'.ping.pending = s.ping.pending)
    (hwebsite : s'.website.pending = s.website.pending) : Stays s s' :=
  ⟨fun h => Keeps.refl (hping ▸ h), fun h => Keeps.refl (hwebsite ▸ h)⟩

theorem trans (h : Stays s s') (h' : Stays s' s'') : Stays s s'' := by
  refine ⟨fun hp => ?_, fun hp => ?_⟩
  · obtain ⟨p', hp', hres, hseq⟩ := h.ping hp
    obtain ⟨p'', hp'', hres', hseq'⟩ := h'.ping hp'
    exact ⟨p'', hp'', hres'.trans hres, hseq'.trans hseq⟩
  · obtain ⟨p', hp', hres, hseq⟩ := h.website hp
    obtain ⟨p'', hp'', hres', hseq'⟩ := h'.website hp'
    exact ⟨p'', hp'', hres'.trans hres, hseq'.trans hseq⟩

theorem queuePing (s : PingReportState) (results : List PingResult) :
    Stays s (queuePingResultsLocked s results) :=
  ⟨fun hp => Keeps.refl (offer_keeps _ results hp), fun hp => Keeps.refl hp⟩

theorem queueWebsite (s : PingReportState) (results : List WebsiteProbeResult) :
    Stays s (queueWebsiteResultsLocked s results) :=
  ⟨fun hp => Keeps.refl hp, fun hp => Keeps.refl (offer_keeps _ results hp)⟩

theorem appendPendingResults (s : PingReportState) (report : Report) :
    Stays s (appendPendingResultsLocked s report).1 :=
  ⟨fun hp => LeaseQueue.leaseAlong_keeps _ _ _ _ hp, fun hp => LeaseQueue.leaseAlong_keeps _ _ _ _ hp⟩

theorem appendPendingLoop (first : Report) (n : Nat) :
    ∀ s : PingReportState, Stays s (appendPendingLoop first n s).1 := by
  induction n with
  | zero => intro s; exact of_eq rfl rfl
  | succ n ih =>
    intro s
    have hround := appendPendingResults s first.bare
    rw [Agent.appendPendingLoop]
    dsimp only
    split_ifs
    · exact hround.trans (ih _)
    · exact hround

theorem appendPendingReports (s : PingReportState) (first : Report) :
    Stays s (appendPendingReports s first).1 := by
  rw [appendPendingReports_eq]
  exact appendPendingLoop first _ s

end Stays

/-! ## The rounds of `appendPendingReports` suffice -/

/-- The queued results that no report was handed. -/
def waiting (s : PingReportState) : Nat :=
  s.ping.order.countP (waits s.ping.pending) + s.website.order.countP (waits s.website.pending)

theorem waiting_appendPendingResults (s : PingReportState) (report : Report)
    (hpings : report.pings = Carrier.empty) (hwebsites : report.websites = Carrier.empty)
    (hres : (appendPendingResultsLocked s report).2.hasResults = true) :
    waiting (appendPendingResultsLocked s report).1 < waiting s := by
  have hp := LeaseQueue.leaseAlong_uses maxPingResultsPerReport s.ping.order s.ping.pending report.pings
  have hw := LeaseQueue.leaseAlong_uses maxWebsiteResultsPerReport s.website.order
    s.website.pending report.websites
  have hsome : 0 < (appendPendingResultsLocked s report).2.pings.results.length ∨
      0 < (appendPendingResultsLocked s report).2.websites.results.length := by
    simpa [Report.hasResults, List.length_pos_iff, List.isEmpty_iff] using hres
  rw [hpings] at hp
  rw [hwebsites] at hw
  have hp' : (appendPendingResultsLocked s report).2.pings.results.length
      + s.ping.order.countP (waits (appendPendingResultsLocked s report).1.ping.pending)
      ≤ 0 + s.ping.order.countP (waits s.ping.pending) := by
    show (leaseAlong _ _ _ report.pings).2.results.length
      + s.ping.order.countP (waits (leaseAlong _ _ _ report.pings).1) ≤ _
    rw [hpings]
    exact hp
  have hw' : (appendPendingResultsLocked s report).2.websites.results.length
      + s.website.order.countP (waits (appendPendingResultsLocked s report).1.website.pending)
      ≤ 0 + s.website.order.countP (waits s.website.pending) := by
    show (leaseAlong _ _ _ report.websites).2.results.length
      + s.website.order.countP (waits (leaseAlong _ _ _ report.websites).1) ≤ _
    rw [hwebsites]
    exact hw
  show s.ping.order.countP _ + s.website.order.countP _ < waiting s
  rw [waiting]
  omega

theorem waiting_appendPendingLoop (first : Report) (n : Nat) :
    ∀ s : PingReportState, waiting s < n → waiting (appendPendingLoop first n s).1 = 0 := by
  induction n with
  | zero => intro s h; omega
  | succ n ih =>
    intro s hlt
    rw [appendPendingLoop]
    dsimp only
    split_ifs with hres
    · have hless := waiting_appendPendingResults s first.bare rfl rfl hres
      exact ih (appendPendingResultsLocked s first.bare).1 (by omega)
    · have hnone : (appendPendingResultsLocked s first.bare).2.pings.results = [] ∧
          (appendPendingResultsLocked s first.bare).2.websites.results = [] := by
        simpa [Report.hasResults] using hres
      obtain ⟨hping, hpingNone⟩ := LeaseQueue.leaseAlong_exhausts (by decide) _ _ rfl hnone.1
      obtain ⟨hwebsite, hwebsiteNone⟩ := LeaseQueue.leaseAlong_exhausts (by decide) _ _ rfl hnone.2
      show s.ping.order.countP (waits (leaseAlong _ _ _ _).1)
        + s.website.order.countP (waits (leaseAlong _ _ _ _).1) = 0
      rw [hping, hwebsite, List.countP_eq_zero.mpr (fun k hk => by simp [hpingNone k hk]),
        List.countP_eq_zero.mpr (fun k hk => by simp [hwebsiteNone k hk])]

end CfMonitor.Agent
