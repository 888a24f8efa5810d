/-
  The probe scheduler (`probe_scheduler.go`, `applyPolicy`, and what `report_delivery.go` does to the
  queued results).

  1. **Data** — for ping tasks and for website probes alike: when each id was launched last, which ids
     run, and the goroutines of the probes.  A run is known by the number it was started under; the
     contexts of cancelled runs are in a list.

  2. **Program** — a label is one critical section of the mutex, a receive of the scheduler loop, or
     a send on `probeWake`.  A probe that has completed sends its signal AFTER its critical section,
     in a label of its own; policies and acknowledgements signal inside theirs.

  3. **History** — `log` has the launches and the policies, newest first.
-/
import CfMonitor.Agent.ReportDelivery
import CfMonitor.Lib.Machine
import Mathlib.Algebra.Group.Nat.Defs

namespace CfMonitor.Agent

open CfMonitor.Lib

/-! ## Data -/

/-- What happened to the tasks of a kind. -/
inductive Logged (τ : Type) where
  | launched (task : τ) (now : Nat)
  | replaced (old next : List τ)

/-- The scheduling of one kind of probes.  A worker is the goroutine of a probe, with its run. -/
structure Probes (τ : Type) where
  lastRunByTaskID : Directory Int Int
  running : Directory Int Nat
  workers : List (τ × Nat)
  log : List (Logged τ)

/-- Where `runProbeScheduler` is: before a pass, or in its `select` with the time that the pass
    returned, or at its end. -/
inductive Scheduler where
  | awake
  | asleep (deadline : Option Int)
  | stopped

/-- `pingReportState`.  `finished` counts the completed probes that have not signalled yet. -/
structure ProbeState where
  report : PingReportState
  ping : Probes PingTask
  website : Probes WebsiteProbeTask
  activeProbes : Int
  preferWebsite : Bool
  runs : Nat
  cancelled : List Nat
  closed : Bool
  probeWake : Bool
  finished : Nat
  scheduler : Scheduler

def maxConcurrentProbes : Int := 4

/-! ## Times

Times are nanoseconds since the zero time; `time.Now()` is never before it. -/

/-- `time.Duration(seconds) * time.Second`, in an `int64`. -/
def secondsDuration (seconds : Int) : Int := (seconds * 1000000000).bmod (2 ^ 64)

/-- `pingTaskInterval`; `pingInterval` is the value of the flag. -/
def pingTaskInterval (pingInterval : Int) (task : PingTask) : Int :=
  let interval := if task.intervalSec < 1 then pingInterval else task.intervalSec
  secondsDuration (if interval < 1 then defaultPingIntervalSec else interval)

def websiteProbeInterval (task : WebsiteProbeTask) : Int :=
  secondsDuration (if task.intervalSec < 1 then defaultPingIntervalSec else task.intervalSec)

/-! ## Choosing a task -/

section Choosing

variable {τ : Type} (id : τ → Int) (interval : τ → Int)

/-- When a task is due: the zero time before its first launch. -/
def candidate (last : Directory Int Int) (task : τ) : Int :=
  match last.get? (id task) with
  | some time => time + interval task
  | none => 0

/-- Whether the loops over the tasks take a task into account. -/
def launchable {ρ : Type} (pending : Directory Int (Queued ρ)) (p : Probes τ) (task : τ) : Bool :=
  decide (0 < id task) && (pending.get? (id task)).isNone && (p.running.get? (id task)).isNone

/-- The loop of `nextPingLocked` and `nextWebsiteLocked`: the first of the tasks that are due first. -/
def nextLocked {ρ : Type} (pending : Directory Int (Queued ρ)) (p : Probes τ) (tasks : List τ) :
    Option (τ × Int) :=
  tasks.foldl (fun best task =>
    if launchable id pending p task then
      match best with
      | none => some (task, candidate id interval p.lastRunByTaskID task)
      | some (_, due) =>
        if candidate id interval p.lastRunByTaskID task < due then
          some (task, candidate id interval p.lastRunByTaskID task)
        else best
    else best) none

end Choosing

/-! ## One kind of probes -/

namespace Probes

variable {τ : Type} (id : τ → Int)

/-- Nothing launched. -/
def empty : Probes τ := ⟨Directory.empty, Directory.empty, [], []⟩

/-- Start the goroutine of a probe. -/
def launch (p : Probes τ) (task : τ) (run now : Nat) : Probes τ where
  lastRunByTaskID := p.lastRunByTaskID.put (id task) now
  running := p.running.put (id task) run
  workers := p.workers ++ [(task, run)]
  log := .launched task now :: p.log

/-- The end of a goroutine: its run is forgotten, if it is still the one of its id. -/
def finish (p : Probes τ) (place : Nat) (task : τ) (run : Nat) : Probes τ :=
  { p with
    running := if p.running.get? (id task) = some run then p.running.remove (id task) else p.running
    workers := p.workers.eraseIdx place }

/-- The runs that `invalidateResultsForPolicyLocked` cancels. -/
def superseding (same : τ → τ → Bool) (p : Probes τ) (old next : List τ) : List Nat :=
  old.filterMap fun task =>
    if superseded id same next task then p.running.get? (id task) else none

/-- What `invalidateResultsForPolicyLocked` forgets of the superseded tasks. -/
def invalidate (same : τ → τ → Bool) (p : Probes τ) (old next : List τ) : Probes τ :=
  { p with
    lastRunByTaskID := old.foldl (fun last task =>
      if superseded id same next task then last.remove (id task) else last) p.lastRunByTaskID
    log := .replaced old next :: p.log }

end Probes

namespace ProbeState

/-! ## The scheduler -/

section Passes

variable (pingInterval : Int)

def nextPingLocked (s : ProbeState) : Option (PingTask × Int) :=
  nextLocked PingTask.id (pingTaskInterval pingInterval) s.report.ping.pending s.ping s.report.tasks

def nextWebsiteLocked (s : ProbeState) : Option (WebsiteProbeTask × Int) :=
  nextLocked WebsiteProbeTask.id websiteProbeInterval s.report.website.pending s.website s.report.websiteTasks

/-- Which of the two chosen tasks the loop looks at, with its due time. -/
inductive Choice where
  | ping (task : PingTask) (due : Int)
  | website (task : WebsiteProbeTask) (due : Int)

def Choice.due : Choice → Int
  | .ping _ due => due
  | .website _ due => due

/-- `useWebsite`, when there is a task at all. -/
def choose (s : ProbeState) : Option Choice :=
  match s.nextPingLocked pingInterval, s.nextWebsiteLocked with
  | none, none => none
  | some (ping, pingDue), none => some (.ping ping pingDue)
  | none, some (website, websiteDue) => some (.website website websiteDue)
  | some (ping, pingDue), some (website, websiteDue) =>
    if websiteDue < pingDue ∨ (websiteDue = pingDue ∧ s.preferWebsite) then
      some (.website website websiteDue)
    else some (.ping ping pingDue)

/-- Whether both kinds have a task that is due at the same time. -/
def tied (s : ProbeState) : Bool :=
  match s.nextPingLocked pingInterval, s.nextWebsiteLocked with
  | some (_, pingDue), some (_, websiteDue) => websiteDue == pingDue
  | _, _ => false

/-- Launch a chosen task. -/
def launch (s : ProbeState) (choice : Choice) (now : Nat) : ProbeState :=
  let s := { s with
    preferWebsite := if s.tied pingInterval then !s.preferWebsite else s.preferWebsite
    activeProbes := s.activeProbes + 1
    runs := s.runs + 1 }
  match choice with
  | .ping task _ => { s with ping := s.ping.launch PingTask.id task s.runs now }
  | .website task _ => { s with website := s.website.launch WebsiteProbeTask.id task s.runs now }

/-- The loop of `launchDueProbes`; the zero time is `none`. -/
def launchLoop (now : Nat) : Nat → ProbeState → ProbeState × Option Int
  | 0, s => (s, none)
  | n + 1, s =>
    if s.activeProbes < maxConcurrentProbes ∧ s.closed = false then
      match s.choose pingInterval with
      | none => (s, none)
      | some choice =>
        if (now : Int) < choice.due then (s, some choice.due)
        else launchLoop now n (s.launch pingInterval choice now)
    else (s, none)

/-- `launchDueProbes`: every round takes a slot. -/
def launchDueProbes (s : ProbeState) (now : Nat) : ProbeState × Option Int :=
  s.launchLoop pingInterval now (maxConcurrentProbes - s.activeProbes).toNat

end Passes

/-- `signalProbeScheduler`: a send that does not block, on a channel with one slot. -/
def signalProbeScheduler (s : ProbeState) : ProbeState := { s with probeWake := true }

/-! ## Policies, probes and results -/

section Sections

variable (fold : Char → Char)

/-- `applyPolicy`, with what it cancels and forgets. -/
def applyPolicy (s : ProbeState) (policy : AgentPolicy) : ProbeState :=
  let pings := policyPingTasks s.report policy
  let websites := policyWebsiteTasks s.report policy
  signalProbeScheduler { s with
    report := Agent.applyPolicy fold s.report policy
    ping := s.ping.invalidate PingTask.id (samePingProbe fold) s.report.tasks pings
    website := s.website.invalidate WebsiteProbeTask.id (sameWebsiteProbe fold)
      s.report.websiteTasks websites
    cancelled := s.cancelled ++
      s.ping.superseding PingTask.id (samePingProbe fold) s.report.tasks pings ++
      s.website.superseding WebsiteProbeTask.id (sameWebsiteProbe fold) s.report.websiteTasks websites }

/-- `ctx.Err() != nil` of a run. -/
def isCancelled (s : ProbeState) (run : Nat) : Bool := s.closed || s.cancelled.contains run

/-- The critical section at the end of `runPingProbe`. -/
def runPingProbe (s : ProbeState) (place : Nat) (task : PingTask) (run : Nat) (value : UInt64) :
    ProbeState :=
  { s with
    report := if s.ping.running.get? task.id = some run ∧ s.isCancelled run = false then
      queuePingResultsLocked s.report [⟨task.id, value⟩] else s.report
    ping := s.ping.finish PingTask.id place task run
    activeProbes := s.activeProbes - 1
    finished := s.finished + 1 }

/-- The critical section at the end of `runWebsiteProbe`; the results of the probes name the monitor
    of the task. -/
def runWebsiteProbe (s : ProbeState) (place : Nat) (task : WebsiteProbeTask) (run : Nat)
    (result : WebsiteProbeResult) : ProbeState :=
  { s with
    report := if s.website.running.get? task.id = some run ∧ s.isCancelled run = false then
      queueWebsiteResultsLocked s.report [{ result with monitorID := task.id }] else s.report
    website := s.website.finish WebsiteProbeTask.id place task run
    activeProbes := s.activeProbes - 1
    finished := s.finished + 1 }

end Sections

end ProbeState

/-- What happens next.  A probe is named by its place among the goroutines of its kind. -/
inductive ProbeEvent where
  | applyPolicy (policy : AgentPolicy)
  | pass (now : Nat)
  | wake
  | tick
  | pingDone (place : Nat) (value : UInt64)
  | websiteDone (place : Nat) (result : WebsiteProbeResult)
  | signalDone
  | signal
  | appendDueResults (report : Report)
  | appendPendingReports (first : Report)
  | acknowledgeReports (reports : List Report)
  | retryReports (preparer : ReportPreparer) (reports : List Report)
  | takeRetryReports (preparer : ReportPreparer)
  | close

/-- One step.  The reports of the delivery are arbitrary; the signal of `appendDueResults` is a label
    of its own, at any moment. -/
def probeStep (fold : Char → Char) (pingInterval : Int) (s : ProbeState) :
    ProbeEvent → Option ProbeState
  | .applyPolicy policy => some (s.applyPolicy fold policy)
  | .pass now => match s.scheduler with
    | .awake =>
      if s.closed then some { s with scheduler := .stopped }
      else
        let (s', next) := s.launchDueProbes pingInterval now
        some { s' with scheduler := .asleep next }
    | _ => none
  | .wake => match s.scheduler with
    | .asleep _ => if s.probeWake then some { s with probeWake := false, scheduler := .awake } else none
    | _ => none
  | .tick => match s.scheduler with
    | .asleep (some _) => some { s with scheduler := .awake }
    | _ => none
  | .pingDone place value => match s.ping.workers[place]? with
    | none => none
    | some (task, run) => some (s.runPingProbe place task run value)
  | .websiteDone place result => match s.website.workers[place]? with
    | none => none
    | some (task, run) => some (s.runWebsiteProbe place task run result)
  | .signalDone =>
    if 0 < s.finished then some { s.signalProbeScheduler with finished := s.finished - 1 } else none
  | .signal => some s.signalProbeScheduler
  | .appendDueResults report =>
    some { s with report := (appendPendingResultsLocked s.report report).1 }
  | .appendPendingReports first => some { s with report := (appendPendingReports s.report first).1 }
  | .acknowledgeReports reports =>
    some (ProbeState.signalProbeScheduler { s with report := acknowledgeReports s.report reports })
  | .retryReports preparer reports =>
    some { s with report := retryReports s.report preparer reports }
  | .takeRetryReports preparer => some { s with report := (takeRetryReports s.report preparer).1 }
  | .close => some { s with closed := true }

/-- The agent's probing as a machine. -/
def probeMachine (fold : Char → Char) (pingInterval : Int) : Machine ProbeState ProbeEvent :=
  ⟨probeStep fold pingInterval⟩

/-- `newPingReportState`. -/
def ProbeState.start : ProbeState :=
  ⟨newPingReportState, Probes.empty, Probes.empty, 0, true, 0, [], false, false, 0, .awake⟩

end CfMonitor.Agent
