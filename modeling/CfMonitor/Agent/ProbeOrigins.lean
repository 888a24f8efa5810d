/-
  Which probe a result in a report comes from, and what the policies said since.

  1. **Program** — the probe scheduler of `ProbeScheduler` and a reporter loop of `Reporter`, over one
     `pingReportState`.  A policy cancels running probes and drops queued results in one section.

  2. **History** — for each kind of probes, newest first: the launches with their runs, the task lists
     of the policies, and which run queued which result under which number.

  3. **Invariant** (`Origins`) — a run that was not cancelled, and a queued result, come from a launch
     whose task every policy since has repeated.  Numbers are never used twice, so a task that comes
     back brings no older result back.

  4. **Result** (`replaced_tasks_never_sent`) — so does every result in a batch that is handed over.
-/
import CfMonitor.Agent.ProbeRuns
import CfMonitor.Agent.ReporterMoves

namespace CfMonitor.Agent

open CfMonitor.Lib

/-! ## The machine -/

/-- What happened to the probes of a kind. -/
inductive Told (τ ρ : Type) where
  | launched (task : τ) (run : Nat)
  | applied (tasks : List τ)
  | queued (run sequence : Nat) (result : ρ)

/-- An agent with its probes: what `AgentState` has, over the state of the scheduler, and (not read by
    the program) the histories of both kinds. -/
structure ProbingAgent where
  probes : ProbeState
  preparer : ReportPreparer
  reporter : Reporter
  sent : List (List Report)
  pingHistory : List (Told PingTask PingResult)
  websiteHistory : List (Told WebsiteProbeTask WebsiteProbeResult)

/-- The agent without its scheduler. -/
def ProbingAgent.agent (w : ProbingAgent) : AgentState :=
  ⟨w.probes.report, w.preparer, w.reporter, w.sent⟩

/-- What happens next: in the scheduler and the probes, or in the reporter loop. -/
inductive ProbingEvent where
  | probe (e : ProbeEvent)
  | reporter (e : ReporterEvent)

/-- The labels of the scheduler and the probes; the others belong to the reporter loop. -/
def ProbeEvent.isProbing : ProbeEvent → Bool
  | .pass _ | .wake | .tick | .pingDone .. | .websiteDone .. | .signalDone | .signal | .close => true
  | _ => false

/-- The launches of a pass: the goroutines that were not there before it. -/
def launchesOf {τ ρ : Type} (before after : Probes τ) : List (Told τ ρ) :=
  ((after.workers.drop before.workers.length).map fun w => Told.launched w.1 w.2).reverse

/-- What a completed run queued, if the numbers say that it did. -/
def queuedBy {τ ρ : Type} (s s' : ProbeState) (run : Nat) (result : ρ) : List (Told τ ρ) :=
  if s'.report.nextResultID = s.report.nextResultID then []
  else [.queued run s'.report.nextResultID result]

/-- What a step of the probes adds to the history of the pings. -/
def pingTold (s s' : ProbeState) : ProbeEvent → List (Told PingTask PingResult)
  | .pass _ => launchesOf s.ping s'.ping
  | .pingDone place value => match s.ping.workers[place]? with
    | none => []
    | some (task, run) => queuedBy s s' run ⟨task.id, value⟩
  | _ => []

/-- What a step of the probes adds to the history of the website probes. -/
def websiteTold (s s' : ProbeState) :
    ProbeEvent → List (Told WebsiteProbeTask WebsiteProbeResult)
  | .pass _ => launchesOf s.website s'.website
  | .websiteDone place result => match s.website.workers[place]? with
    | none => []
    | some (task, run) => queuedBy s s' run { result with monitorID := task.id }
  | _ => []

/-- One step.  The signals to the scheduler that the reporter loop sends are labels of their own. -/
def probingStep (fold : Char → Char) (pingInterval : Int) (w : ProbingAgent) :
    ProbingEvent → Option ProbingAgent
  | .probe e =>
    if e.isProbing then
      match probeStep fold pingInterval w.probes e with
      | none => none
      | some s => some { w with
          probes := s
          pingHistory := pingTold w.probes s e ++ w.pingHistory
          websiteHistory := websiteTold w.probes s e ++ w.websiteHistory }
    else none
  | .reporter e =>
    if e.isReporting then
      match reporterStep fold w.agent e with
      | none => none
      | some a => match e.applied with
        | none => some { w with
            probes := { w.probes with report := a.state }
            preparer := a.preparer, reporter := a.reporter, sent := a.sent }
        | some policy => some {
            probes := w.probes.applyPolicy fold policy
            preparer := a.preparer, reporter := a.reporter, sent := a.sent
            pingHistory := .applied (policyPingTasks w.probes.report policy) :: w.pingHistory
            websiteHistory :=
              .applied (policyWebsiteTasks w.probes.report policy) :: w.websiteHistory }
    else none

/-- The agent with its probes as a machine. -/
def probingMachine (fold : Char → Char) (pingInterval : Int) : Machine ProbingAgent ProbingEvent :=
  ⟨probingStep fold pingInterval⟩

/-- A fresh agent that reports over HTTP, or over a WebSocket. -/
def ProbingAgent.start (http : Bool) : ProbingAgent :=
  ⟨ProbeState.start, ⟨none, 0⟩, if http then .sleeping [] else .disconnected, [], [], []⟩

/-! ## Origins -/

section Origins

variable {τ ρ : Type} (id : τ → Int) (same : τ → τ → Bool)

/-- The runs that a history launches. -/
def runsOf (h : List (Told τ ρ)) : List Nat :=
  h.filterMap fun
    | .launched _ run => some run
    | _ => none

/-- The history ends in `since` after the one launch of `run`, which was for `task`. -/
def LaunchedBefore (h : List (Told τ ρ)) (task : τ) (run : Nat) (since : List (Told τ ρ)) : Prop :=
  ∃ pre, h = since ++ .launched task run :: pre ∧ run ∉ runsOf (since ++ pre)

/-- Every policy of a piece of history has the task, as far as its probe goes. -/
def Unreplaced (task : τ) (since : List (Told τ ρ)) : Prop :=
  ∀ tasks, .applied tasks ∈ since → ∃ next ∈ tasks, id next = id task ∧ same task next = true

/-- The result was queued under `sequence` by `run`, and under this number nothing else was. -/
def QueuedOnce (h since : List (Told τ ρ)) (run sequence : Nat) (result : ρ) : Prop :=
  .queued run sequence result ∈ since ∧
    ∀ run' result', .queued run' sequence result' ∈ h → run' = run ∧ result' = result

/-- A result for the id `k` that was handed out under the number `lease` comes from one launch, whose
    task every policy applied since has repeated. -/
def Traced (h : List (Told τ ρ)) (k : Int) (lease : Option Nat) (result : ρ) : Prop :=
  ∃ task run since sequence, LaunchedBefore h task run since ∧ lease = some sequence ∧
    QueuedOnce h since run sequence result ∧ id task = k ∧ Unreplaced id same task since

/-! ## The invariant of one kind -/

/-- Goroutines of the tasks, under rising runs beyond `low`. -/
def FreshRuns (tasks : List τ) : Nat → List (τ × Nat) → Prop
  | _, [] => True
  | low, w :: ws => w.1 ∈ tasks ∧ low < w.2 ∧ FreshRuns tasks w.2 ws

/-- A launch whose task every policy since has repeated, and the tasks now have it still. -/
structure Lasting (h : List (Told τ ρ)) (tasks : List τ) (task : τ) (run : Nat)
    (since : List (Told τ ρ)) : Prop where
  launched : LaunchedBefore h task run since
  unreplaced : Unreplaced id same task since
  current : ∃ now ∈ tasks, id now = id task ∧ same task now = true

/-- The invariant: numbers are used once, and what runs or waits comes from a launch that lasts. -/
structure Origins (h : List (Told τ ρ)) (tasks : List τ) (pending : Directory Int (Queued ρ))
    (workers : List (τ × Nat)) (cancelled : List Nat) (next runs : Nat) : Prop where
  launchedOnce : (runsOf h).Nodup
  launches : ∀ run ∈ runsOf h, run ≤ runs
  numbers : ∀ run n r, .queued run n r ∈ h → n ≤ next
  queuedOnce : ∀ run run' n r r', .queued run n r ∈ h → .queued run' n r' ∈ h → run' = run ∧ r' = r
  working : ∀ task run, (task, run) ∈ workers → run ∉ cancelled →
    ∃ since, Lasting id same h tasks task run since
  waiting : ∀ k p, pending.get? k = some p → ∃ task run since, id task = k ∧
    Lasting id same h tasks task run since ∧ .queued run p.sequence p.result ∈ since

end Origins

section Rules

variable {τ ρ : Type} {id : τ → Int} {same : τ → τ → Bool} {h since : List (Told τ ρ)}
  {tasks : List τ} {pending pending' : Directory Int (Queued ρ)} {workers workers' : List (τ × Nat)}
  {cancelled cancelled' : List Nat} {next next' runs runs' run : Nat} {task : τ}

@[simp] theorem runsOf_nil : runsOf ([] : List (Told τ ρ)) = [] := rfl

@[simp] theorem runsOf_launched (task : τ) (run : Nat) (h : List (Told τ ρ)) :
    runsOf (.launched task run :: h) = run :: runsOf h := rfl

@[simp] theorem runsOf_applied (tasks : List τ) (h : List (Told τ ρ)) :
    runsOf (.applied tasks :: h) = runsOf h := rfl

@[simp] theorem runsOf_queued (run sequence : Nat) (result : ρ) (h : List (Told τ ρ)) :
    runsOf (.queued run sequence result :: h) = runsOf h := rfl

@[simp] theorem runsOf_append (h h' : List (Told τ ρ)) : runsOf (h ++ h') = runsOf h ++ runsOf h' :=
  List.filterMap_append

variable {e : Told τ ρ}

theorem LaunchedBefore.push (hl : LaunchedBefore h task run since)
    (hother : run ∉ runsOf [e]) : LaunchedBefore (e :: h) task run (e :: since) := by
  obtain ⟨pre, rfl, honly⟩ := hl
  refine ⟨pre, rfl, ?_⟩
  rw [show e :: since ++ pre = [e] ++ (since ++ pre) from rfl, runsOf_append, List.mem_append]
  rintro (hmem | hmem)
  · exact hother hmem
  · exact honly hmem

theorem LaunchedBefore.mem (hl : LaunchedBefore h task run since) : run ∈ runsOf h := by
  obtain ⟨pre, rfl, -⟩ := hl
  simp

theorem Lasting.push (hl : Lasting id same h tasks task run since)
    (hother : run ∉ runsOf [e]) (hpolicy : ∀ tasks, e ≠ .applied tasks) :
    Lasting id same (e :: h) tasks task run (e :: since) := by
  refine ⟨hl.launched.push hother, fun next hnext => ?_, hl.current⟩
  rcases List.mem_cons.mp hnext with rfl | hnext
  · exact absurd rfl (hpolicy next)
  · exact hl.unreplaced next hnext

theorem Lasting.apply (hl : Lasting id same h tasks task run since) {next : List τ} {now : τ}
    (hmem : now ∈ next) (hid : id now = id task) (hsame : same task now = true) :
    Lasting id same (.applied next :: h) next task run (.applied next :: since) := by
  refine ⟨hl.launched.push (by simp), fun tasks htasks => ?_, now, hmem, hid, hsame⟩
  rcases List.mem_cons.mp htasks with heq | htasks
  · obtain rfl := Told.applied.inj heq
    exact ⟨now, hmem, hid, hsame⟩
  · exact hl.unreplaced tasks htasks

namespace Origins

theorem empty : Origins id same ([] : List (Told τ ρ)) [] Directory.empty [] [] 0 0 where
  launchedOnce := List.nodup_nil
  launches := by simp
  numbers := by simp
  queuedOnce := by simp
  working := by simp
  waiting := nofun

theorem mono (hO : Origins id same h tasks pending workers cancelled next runs)
    (hpending : ∀ {k p}, pending'.get? k = some p → Keeps pending k p)
    (hworkers : ∀ w ∈ workers', w ∈ workers) (hcancelled : ∀ r ∈ cancelled, r ∈ cancelled')
    (hnext : next ≤ next') (hruns : runs ≤ runs') :
    Origins id same h tasks pending' workers' cancelled' next' runs' where
  launchedOnce := hO.launchedOnce
  launches := fun run hrun => Nat.le_trans (hO.launches run hrun) hruns
  numbers := fun run n r hq => Nat.le_trans (hO.numbers run n r hq) hnext
  queuedOnce := hO.queuedOnce
  working := fun task run hw hrun =>
    hO.working task run (hworkers _ hw) fun hmem => hrun (hcancelled run hmem)
  waiting := by
    intro k p hp
    obtain ⟨p', hp', hresult, hsequence⟩ := hpending hp
    rw [← hresult, ← hsequence]
    exact hO.waiting k p' hp'

theorem launch (hO : Origins id same h tasks pending workers cancelled next runs)
    (hsame : same task task = true) (hmem : task ∈ tasks) (hrun : runs < run) :
    Origins id same (.launched task run :: h) tasks pending (workers ++ [(task, run)]) cancelled next
      run := by
  have hfresh : run ∉ runsOf h := fun hmem => absurd (hO.launches run hmem) (by omega)
  -- what lasted before was launched under another number
  have hlasts : ∀ {task' run' since}, Lasting id same h tasks task' run' since →
      Lasting id same (.launched task run :: h) tasks task' run' (.launched task run :: since) := by
    intro task' run' since hl
    refine hl.push ?_ (fun tasks => by simp)
    rintro hmem'
    obtain rfl : run' = run := by simpa using hmem'
    exact hfresh hl.launched.mem
  constructor
  · exact List.nodup_cons.mpr ⟨hfresh, hO.launchedOnce⟩
  · intro run' hrun'
    rcases List.mem_cons.mp hrun' with rfl | hrun'
    · exact Nat.le_refl _
    · have := hO.launches run' hrun'
      omega
  · intro run' n r hq
    exact hO.numbers run' n r (by simpa using hq)
  · intro run₁ run₂ n r r' hq hq'
    exact hO.queuedOnce run₁ run₂ n r r' (by simpa using hq) (by simpa using hq')
  · intro task' run' hw hrun'
    rcases List.mem_append.mp hw with hw | hw
    · obtain ⟨since, hl⟩ := hO.working task' run' hw hrun'
      exact ⟨_, hlasts hl⟩
    · obtain ⟨rfl, rfl⟩ := Prod.mk.inj (List.mem_singleton.mp hw)
      exact ⟨[], ⟨h, rfl, hfresh⟩, nofun, task', hmem, rfl, hsame⟩
  · intro k p hp
    obtain ⟨task', run', since, hid, hl, hq⟩ := hO.waiting k p hp
    exact ⟨task', run', _, hid, hlasts hl, List.mem_cons_of_mem _ hq⟩

theorem launchAll (hsame : ∀ task, same task task = true) {high : Nat} (new : List (τ × Nat)) :
    ∀ {h : List (Told τ ρ)} {workers : List (τ × Nat)} {runs : Nat},
      Origins id same h tasks pending workers cancelled next runs → FreshRuns tasks runs new →
      runs ≤ high → (∀ w ∈ new, w.2 ≤ high) →
      Origins id same ((new.map fun w => Told.launched w.1 w.2).reverse ++ h) tasks pending
        (workers ++ new) cancelled next high := by
  induction new with
  | nil =>
    intro h workers runs hO _ hle _
    rw [List.append_nil]
    exact hO.mono Keeps.refl (fun _ hw => hw) (fun _ hr => hr) (Nat.le_refl _) hle
  | cons w new ih =>
    intro h workers runs hO hfresh _ hhigh
    obtain ⟨hmem, hlow, hrest⟩ := hfresh
    have hO' := ih (hO.launch (hsame w.1) hmem hlow) hrest (hhigh w List.mem_cons_self)
      fun v hv => hhigh v (List.mem_cons_of_mem w hv)
    simpa using hO'

theorem queue (hO : Origins id same h tasks pending workers cancelled next runs) {result : ρ}
    (hworker : (task, run) ∈ workers) (hrun : run ∉ cancelled) :
    Origins id same (.queued run (next + 1) result :: h) tasks
      (pending.put (id task) ⟨result, next + 1, false⟩) workers cancelled (next + 1) runs := by
  have hlasts : ∀ {task' run' since}, Lasting id same h tasks task' run' since →
      Lasting id same (.queued run (next + 1) result :: h) tasks task' run'
        (.queued run (next + 1) result :: since) :=
    fun hl => hl.push (by simp) (fun tasks => by simp)
  constructor
  · exact hO.launchedOnce
  · exact hO.launches
  · intro run' n r hq
    rcases List.mem_cons.mp hq with heq | hq
    · obtain ⟨-, rfl, -⟩ := Told.queued.inj heq
      exact Nat.le_refl _
    · have := hO.numbers run' n r hq
      omega
  · intro run₁ run₂ n r r' hq hq'
    rcases List.mem_cons.mp hq with heq | hq
    · obtain ⟨rfl, rfl, rfl⟩ := Told.queued.inj heq
      rcases List.mem_cons.mp hq' with heq' | hq'
      · obtain ⟨rfl, -, rfl⟩ := Told.queued.inj heq'
        exact ⟨rfl, rfl⟩
      · have := hO.numbers run₂ _ r' hq'
        omega
    · rcases List.mem_cons.mp hq' with heq' | hq'
      · obtain ⟨-, rfl, -⟩ := Told.queued.inj heq'
        have := hO.numbers run₁ _ r hq
        omega
      · exact hO.queuedOnce run₁ run₂ n r r' hq hq'
  · intro task' run' hw hrun'
    obtain ⟨since, hl⟩ := hO.working task' run' hw hrun'
    exact ⟨_, hlasts hl⟩
  · intro k p hp
    rw [Directory.get?_put] at hp
    split_ifs at hp with hk
    · cases hp
      obtain ⟨since, hl⟩ := hO.working task run hworker hrun
      exact ⟨task, run, _, hk.symm, hlasts hl, List.mem_cons_self⟩
    · obtain ⟨task', run', since, hid, hl, hq⟩ := hO.waiting k p hp
      exact ⟨task', run', _, hid, hlasts hl, List.mem_cons_of_mem _ hq⟩

/-- A run completes: it queues its result under the next number, unless it was cancelled or there is a
    result of its id already. -/
theorem complete {q q' : LeaseQueue Int ρ} {key : ρ → Int} {result : ρ} {live : Bool}
    (hO : Origins id same h tasks q.pending workers cancelled next runs)
    (hworker : (task, run) ∈ workers) (hworkers : ∀ w ∈ workers', w ∈ workers)
    (hkey : key result = id task) (hlive : live = true → run ∉ cancelled)
    (hoffer : (q', next') = if live then q.offer key next [result] else (q, next)) :
    Origins id same ((if next' = next then [] else [.queued run next' result]) ++ h) tasks q'.pending
      workers' cancelled next' runs := by
  have hquiet : (q', next') = (q, next) → Origins id same
      ((if next' = next then [] else [.queued run next' result]) ++ h) tasks q'.pending workers'
      cancelled next' runs := by
    intro hsame
    cases hsame
    rw [if_pos rfl]
    exact hO.mono Keeps.refl hworkers (fun _ hr => hr) (Nat.le_refl _) (Nat.le_refl _)
  cases hl : live with
  | false =>
    rw [hl] at hoffer
    exact hquiet hoffer
  | true =>
    rw [hl, if_pos rfl, LeaseQueue.offer] at hoffer
    split_ifs at hoffer with htaken
    · exact hquiet hoffer
    · cases hoffer
      show Origins id same ((if next + 1 = next then [] else [.queued run (next + 1) result]) ++ h) tasks
        (q.pending.put (key result) ⟨result, next + 1, false⟩) workers' cancelled (next + 1) runs
      rw [if_neg (Nat.succ_ne_self _), hkey]
      exact (hO.queue hworker (hlive hl)).mono Keeps.refl hworkers (fun _ hr => hr) (Nat.le_refl _)
        (Nat.le_refl _)

theorem next_of_not_superseded {new : List τ} (hkept : superseded id same new task = false) :
    ∃ now ∈ new, id now = id task ∧ same task now = true := by
  rw [superseded] at hkept
  cases hget : (taskByID id new).get? (id task) with
  | none => rw [hget] at hkept; cases hkept
  | some now =>
    rw [hget] at hkept
    obtain ⟨hmem, hid⟩ := (Probes.get?_taskByID new (id task)).1 now hget
    exact ⟨now, hmem, hid, by simpa using hkept⟩

theorem policy (hO : Origins id same h tasks pending workers cancelled next runs)
    (htrans : ∀ a b c, same a b = true → same b c = true → same a c = true) (new : List τ)
    (hrunning : ∀ task run, (task, run) ∈ workers → run ∉ cancelled' → run ∉ cancelled ∧
      ∀ old ∈ tasks, id old = id task → superseded id same new old = false) :
    Origins id same (.applied new :: h) new (invalidateResults id same tasks new pending) workers
      cancelled' next runs := by
  -- the task of the list that stands for a launch stays, and so the launch lasts
  have hlasts : ∀ {task' run' since}, Lasting id same h tasks task' run' since →
      (∀ old ∈ tasks, id old = id task' → superseded id same new old = false) →
      Lasting id same (.applied new :: h) new task' run' (.applied new :: since) := by
    intro task' run' since hl hkept
    obtain ⟨old, hmem, hid, hsame⟩ := hl.current
    obtain ⟨now, hnow, hidNow, hsameNow⟩ := next_of_not_superseded (hkept old hmem hid)
    exact hl.apply hnow (hidNow.trans hid) (htrans _ _ _ hsame hsameNow)
  constructor
  · exact hO.launchedOnce
  · exact hO.launches
  · intro run' n r hq
    exact hO.numbers run' n r (by simpa using hq)
  · intro run₁ run₂ n r r' hq hq'
    exact hO.queuedOnce run₁ run₂ n r r' (by simpa using hq) (by simpa using hq')
  · intro task' run' hw hrun'
    obtain ⟨hlive, hkept⟩ := hrunning task' run' hw hrun'
    obtain ⟨since, hl⟩ := hO.working task' run' hw hlive
    exact ⟨_, hlasts hl hkept⟩
  · intro k p hp
    obtain ⟨hp', hkept⟩ := (get?_invalidateResults id same new tasks pending).mp hp
    obtain ⟨task', run', since, rfl, hl, hq⟩ := hO.waiting k p hp'
    exact ⟨task', run', _, rfl, hlasts hl hkept, List.mem_cons_of_mem _ hq⟩

theorem traced (hO : Origins id same h tasks pending workers cancelled next runs) {k : Int}
    {p : Queued ρ} (hp : pending.get? k = some p) : Traced id same h k (some p.sequence) p.result := by
  obtain ⟨task, run, since, hid, hl, hq⟩ := hO.waiting k p hp
  obtain ⟨pre, rfl, honly⟩ := hl.launched
  refine ⟨task, run, since, p.sequence, ⟨pre, rfl, honly⟩, rfl, ⟨hq, fun run' result' hq' => ?_⟩, hid,
    hl.unreplaced⟩
  exact hO.queuedOnce run run' p.sequence p.result result' (List.mem_append_left _ hq) hq'

end Origins

end Rules

/-! ## What a step of the probes does -/

variable {fold : Char → Char}

theorem equalFold_trans {a b c : String} (h : equalFold fold a b = true)
    (h' : equalFold fold b c = true) : equalFold fold a c = true := by
  simp only [equalFold, beq_iff_eq] at h h' ⊢
  exact h.trans h'

theorem samePingProbe_trans (a b c : PingTask)
    (h : samePingProbe fold a b = true) (h' : samePingProbe fold b c = true) :
    samePingProbe fold a c = true := by
  simp only [samePingProbe, Bool.and_eq_true, beq_iff_eq] at h h' ⊢
  exact ⟨equalFold_trans h.1 h'.1, h.2.trans h'.2⟩

theorem sameWebsiteProbe_trans (a b c : WebsiteProbeTask)
    (h : sameWebsiteProbe fold a b = true) (h' : sameWebsiteProbe fold b c = true) :
    sameWebsiteProbe fold a c = true := by
  simp only [sameWebsiteProbe, Bool.and_eq_true, beq_iff_eq] at h h' ⊢
  obtain ⟨⟨⟨⟨⟨hrevision, hurl⟩, hmethod⟩, hmin⟩, hmax⟩, htimeout⟩ := h
  obtain ⟨⟨⟨⟨⟨hrevision', hurl'⟩, hmethod'⟩, hmin'⟩, hmax'⟩, htimeout'⟩ := h'
  exact ⟨⟨⟨⟨⟨hrevision.trans hrevision', hurl.trans hurl'⟩, equalFold_trans hmethod hmethod'⟩,
    hmin.trans hmin'⟩, hmax.trans hmax'⟩, htimeout.trans htimeout'⟩

/-- The goroutines are the runs of the map, whatever is queued. -/
def Matched {τ : Type} (id : τ → Int) (p : Probes τ) : Prop :=
  p.Inv id (Directory.empty : Directory Int (Queued PingResult))

/-- A kind of probes after a pass: new goroutines of the tasks, under new runs. -/
structure Grown {τ : Type} (id : τ → Int) (tasks : List τ) (low high : Nat) (p p' : Probes τ) :
    Prop where
  workers : ∃ new, p'.workers = p.workers ++ new ∧ FreshRuns tasks low new ∧ ∀ w ∈ new, w.2 ≤ high
  matched : Matched id p → Matched id p'

variable {τ : Type} {low : Nat}

variable {tasks : List τ}

theorem FreshRuns.mono {low' : Nat} {new : List (τ × Nat)}
    (hle : low ≤ low') (h : FreshRuns tasks low' new) : FreshRuns tasks low new := by
  cases new with
  | nil => trivial
  | cons w new => exact ⟨h.1, Nat.lt_of_le_of_lt hle h.2.1, h.2.2⟩

variable {id : τ → Int} {high : Nat}

theorem Grown.refl (p : Probes τ) :
    Grown id tasks low high p p := ⟨⟨[], by simp, trivial, by simp⟩, fun h => h⟩

variable {p p' : Probes τ}

/-- Nothing is launched of this kind first. -/
theorem Grown.skip {low' : Nat}
    (hle : low ≤ low') (h : Grown id tasks low' high p p') : Grown id tasks low high p p' := by
  obtain ⟨new, heq, hfresh, hhigh⟩ := h.workers
  exact ⟨⟨new, heq, hfresh.mono hle, hhigh⟩, h.matched⟩

theorem Grown.launch {ρ : Type} {run now : Nat} {pending : Directory Int (Queued ρ)} {task : τ}
    (hready : launchable id pending p task = true) (hmem : task ∈ tasks) (hlow : low < run)
    (hhigh : run ≤ high) (h : Grown id tasks run high (p.launch id task run now) p') :
    Grown id tasks low high p p' := by
  obtain ⟨new, heq, hfresh, hall⟩ := h.workers
  constructor
  · refine ⟨(task, run) :: new, ?_, ⟨hmem, hlow, hfresh⟩, fun w hw => ?_⟩
    · rw [heq]
      show (p.workers ++ [(task, run)]) ++ new = _
      simp
    · rcases List.mem_cons.mp hw with rfl | hw
      · exact hhigh
      · exact hall w hw
  · intro hmatched
    obtain ⟨hid, -, hrunning⟩ := launchable_iff.mp hready
    exact h.matched (hmatched.launch (launchable_iff.mpr ⟨hid, by simp, hrunning⟩) run now)

/-- A state after a pass: launches, and nothing else that matters here. -/
structure Passed (s s' : ProbeState) : Prop where
  report : s'.report = s.report
  cancelled : s'.cancelled = s.cancelled
  runs : s.runs ≤ s'.runs
  ping : Grown PingTask.id s.report.tasks s.runs s'.runs s.ping s'.ping
  website : Grown WebsiteProbeTask.id s.report.websiteTasks s.runs s'.runs s.website s'.website

theorem Passed.refl (s : ProbeState) : Passed s s :=
  ⟨rfl, rfl, Nat.le_refl _, Grown.refl _, Grown.refl _⟩

variable {pingInterval : Int}

theorem Passed.launch {s s' : ProbeState} {choice : ProbeState.Choice} {now : Nat}
    (hsound : s.Sound pingInterval choice) (h : Passed (s.launch pingInterval choice now) s') :
    Passed s s' := by
  have hruns := h.runs
  cases choice with
  | ping task due =>
    obtain ⟨⟨hmem, hready⟩, -⟩ := hsound
    have hruns' : s.runs + 1 ≤ s'.runs := hruns
    exact ⟨h.report, h.cancelled, by omega, h.ping.launch hready hmem (Nat.lt_succ_self _) hruns',
      h.website.skip (Nat.le_succ _)⟩
  | website task due =>
    obtain ⟨⟨hmem, hready⟩, -⟩ := hsound
    have hruns' : s.runs + 1 ≤ s'.runs := hruns
    exact ⟨h.report, h.cancelled, by omega, h.ping.skip (Nat.le_succ _),
      h.website.launch hready hmem (Nat.lt_succ_self _) hruns'⟩

/-- **One pass.** -/
theorem launchLoop_passed (now n : Nat) : ∀ s : ProbeState, Passed s (s.launchLoop pingInterval now n).1 := by
  induction n with
  | zero => exact Passed.refl
  | succ n ih =>
    intro s
    rw [ProbeState.launchLoop]
    split_ifs with hslot
    · cases hchoose : s.choose pingInterval with
      | none => exact Passed.refl s
      | some choice =>
        simp only
        split_ifs
        · exact Passed.refl s
        · exact (ih _).launch ((ProbeState.choose_spec pingInterval s).1 choice hchoose)
    · exact Passed.refl s

/-! ## The invariant -/

/-- What holds between any two steps. -/
structure ProbingAgent.Inv (fold : Char → Char) (w : ProbingAgent) : Prop where
  agent : w.agent.Inv
  covered : ∀ report ∈ w.agent.outstanding, report.Covered
  pingMatched : Matched PingTask.id w.probes.ping
  websiteMatched : Matched WebsiteProbeTask.id w.probes.website
  ping : Origins PingTask.id (samePingProbe fold) w.pingHistory w.probes.report.tasks
    w.probes.report.ping.pending w.probes.ping.workers w.probes.cancelled
    w.probes.report.nextResultID w.probes.runs
  website : Origins WebsiteProbeTask.id (sameWebsiteProbe fold) w.websiteHistory
    w.probes.report.websiteTasks w.probes.report.website.pending w.probes.website.workers
    w.probes.cancelled w.probes.report.nextResultID w.probes.runs

namespace ProbingAgent.Inv

variable {fold : Char → Char} {pingInterval : Int} {w : ProbingAgent} {s : ProbeState}

theorem start (http : Bool) : (ProbingAgent.start http).Inv fold where
  agent := AgentState.Inv.start http
  covered := by
    intro report hmem
    cases http <;> exact absurd hmem (by simp [ProbingAgent.start, ProbingAgent.agent,
      AgentState.outstanding, ProbeState.start, newPingReportState, Reporter.held])
  pingMatched := Probes.Inv.empty
  websiteMatched := Probes.Inv.empty
  ping := Origins.empty
  website := Origins.empty

theorem launchesOf_append {τ ρ : Type} {p p' : Probes τ} (new : List (τ × Nat))
    (h : p'.workers = p.workers ++ new) :
    (launchesOf p p' : List (Told τ ρ)) = (new.map fun v => Told.launched v.1 v.2).reverse := by
  rw [launchesOf, h, List.drop_left]

theorem passed (h : w.Inv fold) (hp : Passed w.probes s) :
    Inv fold { w with
      probes := s
      pingHistory := launchesOf w.probes.ping s.ping ++ w.pingHistory
      websiteHistory := launchesOf w.probes.website s.website ++ w.websiteHistory } := by
  have hagent : (⟨s.report, w.preparer, w.reporter, w.sent⟩ : AgentState) = w.agent := by
    rw [hp.report]
    rfl
  obtain ⟨newPings, hpings, hfreshPings, hhighPings⟩ := hp.ping.workers
  obtain ⟨newWebsites, hwebsites, hfreshWebsites, hhighWebsites⟩ := hp.website.workers
  constructor
  · exact (congrArg AgentState.Inv hagent).mpr h.agent
  · show ∀ report ∈ AgentState.outstanding ⟨s.report, w.preparer, w.reporter, w.sent⟩, report.Covered
    rw [hagent]
    exact h.covered
  · exact hp.ping.matched h.pingMatched
  · exact hp.website.matched h.websiteMatched
  · show Origins _ _ (launchesOf w.probes.ping s.ping ++ _) s.report.tasks s.report.ping.pending
      s.ping.workers s.cancelled s.report.nextResultID s.runs
    rw [launchesOf_append _ hpings, hpings, hp.report, hp.cancelled]
    exact h.ping.launchAll ProbeState.samePingProbe_self newPings hfreshPings hp.runs hhighPings
  · show Origins _ _ (launchesOf w.probes.website s.website ++ _) s.report.websiteTasks
      s.report.website.pending s.website.workers s.cancelled s.report.nextResultID s.runs
    rw [launchesOf_append _ hwebsites, hwebsites, hp.report, hp.cancelled]
    exact h.website.launchAll ProbeState.sameWebsiteProbe_self newWebsites hfreshWebsites hp.runs
      hhighWebsites

theorem flags (h : w.Inv fold) (hreport : s.report = w.probes.report) (hping : s.ping = w.probes.ping)
    (hwebsite : s.website = w.probes.website) (hcancelled : s.cancelled = w.probes.cancelled)
    (hruns : s.runs = w.probes.runs) : Inv fold { w with probes := s } := by
  have hpassed := h.passed (s := s) ⟨hreport, hcancelled, by omega, hping ▸ Grown.refl _,
    hwebsite ▸ Grown.refl _⟩
  have hnoPings : (launchesOf w.probes.ping s.ping : List (Told PingTask PingResult)) = [] :=
    launchesOf_append [] (by simp [hping])
  have hnoWebsites :
      (launchesOf w.probes.website s.website : List (Told WebsiteProbeTask WebsiteProbeResult)) = [] :=
    launchesOf_append [] (by simp [hwebsite])
  rw [hnoPings, hnoWebsites] at hpassed
  exact hpassed

/-- The runs of `cancelled` are over. -/
theorem not_cancelled {run : Nat} (hlive : s.isCancelled run = false) : run ∉ s.cancelled := by
  rw [ProbeState.isCancelled, Bool.or_eq_false_iff] at hlive
  simpa using hlive.2

/-- The agent with the report state after a probe. -/
theorem offered (h : w.Inv fold) {live : Bool} {report offered : PingReportState} {e : ReporterEvent}
    (hreport : report = if live then offered else w.probes.report)
    (hstep : reporterStep fold w.agent e = some ⟨offered, w.preparer, w.reporter, w.sent⟩)
    (hretry : offered.retryQueue = w.probes.report.retryQueue) :
    AgentState.Inv ⟨report, w.preparer, w.reporter, w.sent⟩ ∧
      ∀ r ∈ AgentState.outstanding ⟨report, w.preparer, w.reporter, w.sent⟩, r.Covered := by
  subst hreport
  cases live with
  | false => exact ⟨h.agent, h.covered⟩
  | true =>
    refine ⟨(reporterStep_inv h.agent hstep).1, ?_⟩
    show ∀ r ∈ offered.retryQueue ++ _, r.Covered
    rw [hretry]
    exact h.covered

theorem pingDone (h : w.Inv fold) {place : Nat} {task : PingTask} {run : Nat}
    (hworker : w.probes.ping.workers[place]? = some (task, run)) (value : UInt64) :
    Inv fold { w with
      probes := w.probes.runPingProbe place task run value
      pingHistory := queuedBy w.probes (w.probes.runPingProbe place task run value) run
        ⟨task.id, value⟩ ++ w.pingHistory } := by
  -- the report state is the old one, or the result is offered to it
  obtain ⟨live, report, hlive, hreport, hrun⟩ : ∃ (live : Bool) (report : PingReportState),
      (live = true → run ∉ w.probes.cancelled) ∧
      (report = if live then queuePingResultsLocked w.probes.report [⟨task.id, value⟩] else w.probes.report) ∧
      ProbeState.runPingProbe w.probes place task run value = { w.probes with
        report, ping := w.probes.ping.finish PingTask.id place task run
        activeProbes := w.probes.activeProbes - 1, finished := w.probes.finished + 1 } := by
    refine ⟨decide (w.probes.ping.running.get? task.id = some run ∧ w.probes.isCancelled run = false), _,
      fun hlive => not_cancelled (of_decide_eq_true hlive).2, rfl, ?_⟩
    simp only [ProbeState.runPingProbe, decide_eq_true_eq]
  have hfinish : Matched PingTask.id (w.probes.ping.finish PingTask.id place task run) :=
    h.pingMatched.finish hworker fun _ _ => rfl
  have hstep : reporterStep fold w.agent (.pingDone [⟨task.id, value⟩]) = some _ := rfl
  obtain ⟨hagent, hcovered⟩ := h.offered hreport hstep rfl
  rw [hrun]
  subst hreport
  refine ⟨hagent, hcovered, hfinish, h.websiteMatched, ?_, ?_⟩
  · have htasks : (if live then queuePingResultsLocked w.probes.report [⟨task.id, value⟩]
        else w.probes.report).tasks = w.probes.report.tasks := by cases live <;> rfl
    rw [queuedBy]
    dsimp only
    rw [htasks]
    exact h.ping.complete (List.mem_of_getElem? hworker) (fun v hv => List.mem_of_mem_eraseIdx hv) rfl
      hlive (by cases live <;> rfl)
  · cases live with
    | false => exact h.website
    | true =>
      exact h.website.mono Keeps.refl (fun _ hv => hv) (fun _ hr => hr) (LeaseQueue.offer_le _ _ _ _)
        (Nat.le_refl _)

theorem websiteDone (h : w.Inv fold) {place : Nat} {task : WebsiteProbeTask} {run : Nat}
    (hworker : w.probes.website.workers[place]? = some (task, run)) (result : WebsiteProbeResult) :
    Inv fold { w with
      probes := w.probes.runWebsiteProbe place task run result
      websiteHistory := queuedBy w.probes (w.probes.runWebsiteProbe place task run result) run
        { result with monitorID := task.id } ++ w.websiteHistory } := by
  obtain ⟨live, report, hlive, hreport, hrun⟩ : ∃ (live : Bool) (report : PingReportState),
      (live = true → run ∉ w.probes.cancelled) ∧
      (report = if live then queueWebsiteResultsLocked w.probes.report [{ result with monitorID := task.id }]
        else w.probes.report) ∧
      ProbeState.runWebsiteProbe w.probes place task run result = { w.probes with
        report, website := w.probes.website.finish WebsiteProbeTask.id place task run
        activeProbes := w.probes.activeProbes - 1, finished := w.probes.finished + 1 } := by
    refine ⟨decide (w.probes.website.running.get? task.id = some run ∧ w.probes.isCancelled run = false), _,
      fun hlive => not_cancelled (of_decide_eq_true hlive).2, rfl, ?_⟩
    simp only [ProbeState.runWebsiteProbe, decide_eq_true_eq]
  have hfinish : Matched WebsiteProbeTask.id (w.probes.website.finish WebsiteProbeTask.id place task run) :=
    h.websiteMatched.finish hworker fun _ _ => rfl
  have hstep : reporterStep fold w.agent (.websiteDone [{ result with monitorID := task.id }]) = some _ := rfl
  obtain ⟨hagent, hcovered⟩ := h.offered hreport hstep rfl
  rw [hrun]
  subst hreport
  refine ⟨hagent, hcovered, h.pingMatched, hfinish, ?_, ?_⟩
  · cases live with
    | false => exact h.ping
    | true =>
      exact h.ping.mono Keeps.refl (fun _ hv => hv) (fun _ hr => hr) (LeaseQueue.offer_le _ _ _ _)
        (Nat.le_refl _)
  · have htasks : (if live then queueWebsiteResultsLocked w.probes.report
        [{ result with monitorID := task.id }] else w.probes.report).websiteTasks
        = w.probes.report.websiteTasks := by cases live <;> rfl
    rw [queuedBy]
    dsimp only
    rw [htasks]
    exact h.website.complete (List.mem_of_getElem? hworker) (fun v hv => List.mem_of_mem_eraseIdx hv) rfl
      hlive (by cases live <;> rfl)

/-- A goroutine that a policy leaves alone: its task is not superseded. -/
theorem running_kept {τ : Type} {id : τ → Int} {same : τ → τ → Bool} {p : Probes τ} {tasks new : List τ}
    {cancelled cancelled' : List Nat} (hmatched : Matched id p) (hold : ∀ r ∈ cancelled, r ∈ cancelled')
    (hsup : ∀ r ∈ p.superseding id same tasks new, r ∈ cancelled') :
    ∀ task run, (task, run) ∈ p.workers → run ∉ cancelled' → run ∉ cancelled ∧
      ∀ old ∈ tasks, id old = id task → superseded id same new old = false := by
  intro task run hw hrun
  refine ⟨fun hmem => hrun (hold run hmem), fun old hmem hid => ?_⟩
  by_contra hsuperseded
  obtain ⟨place, hplace⟩ := List.getElem?_of_mem hw
  refine hrun (hsup run (List.mem_filterMap.mpr ⟨old, hmem, ?_⟩))
  rw [if_pos (by simpa using hsuperseded), hid]
  exact hmatched.running_of_worker hplace

variable {a : AgentState}

theorem applyPolicy (h : w.Inv fold) {policy : AgentPolicy}
    (hagent : a.Inv) (hcovered : ∀ report ∈ a.outstanding, report.Covered)
    (hstate : a.state = Agent.applyPolicy fold w.probes.report policy) :
    Inv fold {
      probes := w.probes.applyPolicy fold policy
      preparer := a.preparer, reporter := a.reporter, sent := a.sent
      pingHistory := .applied (policyPingTasks w.probes.report policy) :: w.pingHistory
      websiteHistory := .applied (policyWebsiteTasks w.probes.report policy) :: w.websiteHistory } := by
  have hsame : (⟨Agent.applyPolicy fold w.probes.report policy, a.preparer, a.reporter, a.sent⟩ :
      AgentState) = a := by rw [← hstate]
  constructor
  · show AgentState.Inv ⟨Agent.applyPolicy fold w.probes.report policy, _, _, _⟩
    rw [hsame]
    exact hagent
  · show ∀ report ∈ AgentState.outstanding ⟨Agent.applyPolicy fold w.probes.report policy, _, _, _⟩,
      report.Covered
    rw [hsame]
    exact hcovered
  · exact ⟨h.pingMatched.matched, h.pingMatched.idle⟩
  · exact ⟨h.websiteMatched.matched, h.websiteMatched.idle⟩
  · refine h.ping.policy samePingProbe_trans _ (running_kept h.pingMatched (fun r hr => ?_) fun r hr => ?_)
    · exact List.mem_append_left _ (List.mem_append_left _ hr)
    · exact List.mem_append_left _ (List.mem_append_right _ hr)
  · refine h.website.policy sameWebsiteProbe_trans _
      (running_kept h.websiteMatched (fun r hr => ?_) fun r hr => ?_)
    · exact List.mem_append_left _ (List.mem_append_left _ hr)
    · exact List.mem_append_right _ hr

/-- A step of the reporter loop that applies no policy. -/
theorem narrowed (h : w.Inv fold) (hagent : a.Inv)
    (hcovered : ∀ report ∈ a.outstanding, report.Covered) (hn : Narrowed w.probes.report a.state) :
    Inv fold { w with
      probes := { w.probes with report := a.state }
      preparer := a.preparer, reporter := a.reporter, sent := a.sent } where
  agent := hagent
  covered := hcovered
  pingMatched := h.pingMatched
  websiteMatched := h.websiteMatched
  ping := by
    show Origins _ _ _ a.state.tasks _ _ _ a.state.nextResultID _
    rw [hn.tasks, hn.numbers]
    exact h.ping.mono hn.queued.ping (fun _ hv => hv) (fun _ hr => hr) (Nat.le_refl _) (Nat.le_refl _)
  website := by
    show Origins _ _ _ a.state.websiteTasks _ _ _ a.state.nextResultID _
    rw [hn.websiteTasks, hn.numbers]
    exact h.website.mono hn.queued.website (fun _ hv => hv) (fun _ hr => hr) (Nat.le_refl _)
      (Nat.le_refl _)

/-- **A step of the scheduler or of a probe.** -/
theorem probe {e : ProbeEvent} (h : w.Inv fold) (he : e.isProbing = true)
    (hs : probeStep fold pingInterval w.probes e = some s) :
    Inv fold { w with
      probes := s
      pingHistory := pingTold w.probes s e ++ w.pingHistory
      websiteHistory := websiteTold w.probes s e ++ w.websiteHistory } := by
  cases e with
  | pass now =>
    rw [probeStep] at hs
    split at hs
    · split_ifs at hs with hclosed
      · cases hs
        exact h.passed ⟨rfl, rfl, Nat.le_refl _, Grown.refl _, Grown.refl _⟩
      · cases hs
        have hp : Passed w.probes (w.probes.launchDueProbes pingInterval now).1 := launchLoop_passed _ _ _
        exact h.passed ⟨hp.report, hp.cancelled, hp.runs, hp.ping, hp.website⟩
    · cases hs
  | wake =>
    rw [probeStep] at hs
    split at hs
    · split_ifs at hs
      cases hs
      exact h.flags rfl rfl rfl rfl rfl
    · cases hs
  | tick =>
    rw [probeStep] at hs
    split at hs
    · cases hs
      exact h.flags rfl rfl rfl rfl rfl
    · cases hs
  | pingDone place value =>
    rw [probeStep] at hs
    split at hs
    · cases hs
    · rename_i task run hworker
      cases hs
      rw [pingTold, hworker]
      exact h.pingDone hworker value
  | websiteDone place result =>
    rw [probeStep] at hs
    split at hs
    · cases hs
    · rename_i task run hworker
      cases hs
      rw [websiteTold, hworker]
      exact h.websiteDone hworker result
  | signalDone =>
    rw [probeStep] at hs
    split_ifs at hs
    cases hs
    exact h.flags rfl rfl rfl rfl rfl
  | signal =>
    cases hs
    exact h.flags rfl rfl rfl rfl rfl
  | close =>
    cases hs
    exact h.flags rfl rfl rfl rfl rfl
  | _ => simp [ProbeEvent.isProbing] at he

end ProbingAgent.Inv

variable {w : ProbingAgent}

/-- What a step of the agent with its probes is: one of the probes, which leaves the reporter loop where
    it was, or one of the reporter loop. -/
theorem probingStep_cases {w' : ProbingAgent}
    {e : ProbingEvent} (h : w.Inv fold) (hs : probingStep fold pingInterval w e = some w') :
    w'.Inv fold ∧ (w'.reporter = w.reporter ∨ ∃ e', Moved fold w.agent e' w'.agent) := by
  cases e with
  | probe e =>
    rw [probingStep] at hs
    split_ifs at hs with he
    cases hprobe : probeStep fold pingInterval w.probes e with
    | none => rw [hprobe] at hs; cases hs
    | some s =>
      rw [hprobe] at hs
      cases hs
      exact ⟨h.probe he hprobe, .inl rfl⟩
  | reporter e =>
    rw [probingStep] at hs
    split_ifs at hs with he
    cases hreporter : reporterStep fold w.agent e with
    | none => rw [hreporter] at hs; cases hs
    | some a =>
      have hmoved := reporterStep_moved he hreporter
      have hagent := (reporterStep_inv h.agent hreporter).1
      have hcovered := hmoved.covered h.agent.held.keyed h.covered
      have hstate := hmoved.state
      rw [hreporter] at hs
      cases happlied : e.applied with
      | none =>
        rw [happlied] at hstate
        simp only [happlied] at hs
        cases hs
        exact ⟨h.narrowed hagent hcovered hstate, .inr ⟨e, hmoved⟩⟩
      | some policy =>
        rw [happlied] at hstate
        simp only [happlied] at hs
        cases hs
        have hstate' : a.state = Agent.applyPolicy fold w.probes.report policy := hstate
        have hsame : (⟨Agent.applyPolicy fold w.probes.report policy, a.preparer, a.reporter, a.sent⟩ :
            AgentState) = a := by rw [← hstate']
        exact ⟨h.applyPolicy hagent hcovered hstate, .inr ⟨e, hsame.symm ▸ hmoved⟩⟩

/-- **Every reachable state** satisfies the invariant. -/
theorem ProbingAgent.Inv.run {http : Bool} {es : List ProbingEvent}
    (h : (probingMachine fold pingInterval).run (.start http) es = some w) : w.Inv fold :=
  (probingMachine fold pingInterval).run_inv (fun _ _ _ hI hs => (probingStep_cases hI hs).1)
    (ProbingAgent.Inv.start http) h

/-! ## What is sent -/

theorem traced_current {ρ : Type} {same : τ → τ → Bool} {h : List (Told τ ρ)}
    {pending : Directory Int (Queued ρ)} {workers : List (τ × Nat)}
    {cancelled : List Nat} {next runs : Nat} {key : ρ → Int} {cs : List (Carrier Int ρ)}
    {c : Carrier Int ρ} (hO : Origins id same h tasks pending workers cancelled next runs)
    (hheld : Held key next pending cs) (hmem : c.current key pending ∈ cs) (hcovered : c.Covered key)
    {r : ρ} (hr : r ∈ (c.current key pending).results) :
    Traced id same h (key r) ((c.current key pending).leases.get? (key r)) r := by
  obtain ⟨p, hp, hlease⟩ := hcovered.mem_current key hr
  have hlease' : (c.current key pending).leases.get? (key r) = some p.sequence := by
    rw [Carrier.current_leases]
    exact hlease
  -- the carrier has no other result of the key than the one that waits
  have hcarries := hheld.carries hmem hp hlease'
  have hfiltered : r ∈ (c.current key pending).results.filter fun r' => decide (key r' = key r) :=
    List.mem_filter.mpr ⟨hr, by simp⟩
  rw [hcarries] at hfiltered
  obtain rfl := List.mem_singleton.mp hfiltered
  rw [hlease']
  exact hO.traced hp

/-- **Results of a replaced task are not sent.**  In every run, over either transport, every result of
    a batch that is built for the transport comes from a probe whose task is, unchanged as far as the
    probe goes, in every policy that was applied since the probe was launched. -/
theorem replaced_tasks_never_sent (fold : Char → Char) (pingInterval : Int) (http : Bool)
    (es : List ProbingEvent) (e : ProbingEvent) (w w' : ProbingAgent) (batch : List Report)
    (h : (probingMachine fold pingInterval).run (.start http) es = some w)
    (hs : probingStep fold pingInterval w e = some w') (hbefore : w.reporter.handed = none)
    (hhanded : w'.reporter.handed = some batch) :
    ∀ report ∈ batch, (∀ result ∈ report.pings.results, Traced PingTask.id (samePingProbe fold) w'.pingHistory
        result.taskID (report.pings.leases.get? result.taskID) result) ∧
      (∀ result ∈ report.websites.results, Traced WebsiteProbeTask.id (sameWebsiteProbe fold)
        w'.websiteHistory result.monitorID (report.websites.leases.get? result.monitorID) result) := by
  have hI := ProbingAgent.Inv.run h
  obtain ⟨hI', hkept | ⟨e', hmoved⟩⟩ := probingStep_cases hI hs
  · rw [hkept, hbefore] at hhanded
    cases hhanded
  · rcases hmoved.handed batch hhanded with hbatch | ⟨p, reports, rfl, hreports⟩
    · cases hbefore.symm.trans hbatch
    · intro report hmem
      have hwire : report ∈ w'.agent.state.retryQueue ++ w'.agent.reporter.onWire := by
        refine List.mem_append_right _ ?_
        cases hr : w'.reporter with
        | sending x =>
          rw [hr] at hhanded
          rw [show w'.agent.reporter = _ from hr]
          obtain hsame := Option.some.inj hhanded
          exact List.mem_append_left _ (hsame ▸ hmem)
        | posting batch rest =>
          rw [hr] at hhanded
          rw [show w'.agent.reporter = _ from hr]
          obtain hsame := Option.some.inj hhanded
          exact List.mem_append_left _ (hsame ▸ hmem)
        | _ => rw [hr] at hhanded; simp [Reporter.handed] at hhanded
      obtain ⟨old, hold, rfl⟩ := List.mem_map.mp hmem
      obtain ⟨hpings, hwebsites⟩ := currentReportBasicInfo_carriers p old
      have hcovered := hI.covered old (hreports old hold)
      have hping : (currentReportResultsLocked w'.agent.state p old).pings
          = old.pings.current PingResult.taskID w'.probes.report.ping.pending := by
        show (currentReportBasicInfo p old).pings.current _ _ = _
        rw [hpings]
        rfl
      have hwebsite : (currentReportResultsLocked w'.agent.state p old).websites
          = old.websites.current WebsiteProbeResult.monitorID w'.probes.report.website.pending := by
        show (currentReportBasicInfo p old).websites.current _ _ = _
        rw [hwebsites]
        rfl
      have hpingMem := List.mem_map_of_mem (f := Report.pings) hwire
      have hwebsiteMem := List.mem_map_of_mem (f := Report.websites) hwire
      rw [hping] at hpingMem ⊢
      rw [hwebsite] at hwebsiteMem ⊢
      exact ⟨fun result hr => traced_current hI'.ping hI'.agent.onWire.ping hpingMem hcovered.1 hr,
        fun result hr =>
          traced_current hI'.website hI'.agent.onWire.website hwebsiteMem hcovered.2 hr⟩

/-- A policy with one TCP ping, a policy that repeats it, and a session that prepares its result. -/
def repeatedRun : List ProbingEvent :=
  [.reporter (.applyPolicy onePing), .probe (.pass 5),
    .reporter (.applyPolicy ⟨0, "v2", [⟨1, "TCP", "example.org:443", 30⟩], [], false⟩),
    .probe (.pingDone 0 7), .reporter .connect, .reporter .takeRetryReports,
    .reporter (.appendDueResults 5 none), .reporter .appendPendingReports]

/-- The ping results of the batch that is handed over. -/
def handedPings (w : ProbingAgent) : Option (List PingResult) :=
  w.reporter.handed.map fun batch => batch.flatMap fun report => report.pings.results

/-- The hypotheses are satisfiable: the result of `repeatedRun` is handed over. -/
theorem replaced_tasks_never_sent_repeated :
    ∃ w w' batch, (probingMachine Char.toLower 0).run (.start false) repeatedRun = some w ∧
      probingStep Char.toLower 0 w (.reporter .prepared) = some w' ∧
      w'.reporter.handed = some batch ∧ handedPings w' = some [⟨1, 7⟩] ∧
      ∀ report ∈ batch, ∀ result ∈ report.pings.results,
        Traced PingTask.id (samePingProbe Char.toLower) w'.pingHistory result.taskID
          (report.pings.leases.get? result.taskID) result := by
  obtain ⟨w, hrun, w', hstep, hbefore, batch, hhanded, hpings⟩ : ∃ w,
      (probingMachine Char.toLower 0).run (.start false) repeatedRun = some w ∧ ∃ w',
      probingStep Char.toLower 0 w (.reporter .prepared) = some w' ∧ w.reporter.handed = none ∧
      ∃ batch, w'.reporter.handed = some batch ∧ handedPings w' = some [⟨1, 7⟩] :=
    ⟨_, rfl, _, rfl, rfl, _, rfl, rfl⟩
  refine ⟨w, w', batch, hrun, hstep, hhanded, hpings, fun report hreport => ?_⟩
  exact (replaced_tasks_never_sent Char.toLower 0 false repeatedRun _ w w' batch hrun hstep hbefore
    hhanded report hreport).1

end CfMonitor.Agent
