/-
  The accounting of the probe scheduler.

  1. **One kind** (`Probes.Inv`) — the goroutines are exactly the runs of the map, under distinct ids,
     and no running id has a result pending; the map of last launches has the newest launch of every
     task that no policy has superseded since (`Probes.Timed`).

  2. **Whole runs** (`probes_accounted`, `no_wakeup_missed`) — slots, ids, orders and distances of
     launches, for any interleaving; and a scheduler that sleeps with no signal on the way sleeps
     until the first due time.
-/
import CfMonitor.Agent.ProbeScheduler
import Mathlib.Data.List.DropRight
import Mathlib.Data.List.Perm.Basic

namespace CfMonitor.Agent

open CfMonitor.Lib

/-! ## Queues of results -/

/-- The orders of both queues list what is pending. -/
def PingReportState.Ordered (s : PingReportState) : Prop := s.ping.Ordered ∧ s.website.Ordered

/-- Whether a task of either kind has a result pending does not change. -/
structure SameKeys (s s' : PingReportState) : Prop where
  ping : ∀ k, (s'.ping.pending.get? k).isSome = (s.ping.pending.get? k).isSome
  website : ∀ k, (s'.website.pending.get? k).isSome = (s.website.pending.get? k).isSome
  tasks : s'.tasks = s.tasks
  websiteTasks : s'.websiteTasks = s.websiteTasks

theorem SameKeys.refl (s : PingReportState) : SameKeys s s := ⟨fun _ => rfl, fun _ => rfl, rfl, rfl⟩

variable {s : PingReportState}

theorem SameKeys.trans {s' s'' : PingReportState} (h : SameKeys s s') (h' : SameKeys s' s'') :
    SameKeys s s'' :=
  ⟨fun k => (h'.ping k).trans (h.ping k), fun k => (h'.website k).trans (h.website k),
    h'.tasks.trans h.tasks, h'.websiteTasks.trans h.websiteTasks⟩

theorem appendPendingResults_keys (s : PingReportState) (report : Report) :
    SameKeys s (appendPendingResultsLocked s report).1 :=
  ⟨fun k => LeaseQueue.isSome_leaseAlong _ _ _ _ k, fun k => LeaseQueue.isSome_leaseAlong _ _ _ _ k,
    rfl, rfl⟩

theorem appendPendingResults_ordered (h : s.Ordered) (report : Report) :
    (appendPendingResultsLocked s report).1.Ordered := ⟨h.1.lease _ _, h.2.lease _ _⟩

/-- The rounds of `appendPendingReports`. -/
theorem appendPendingLoop_keys (first : Report) (n : Nat) : ∀ s : PingReportState,
    SameKeys s (appendPendingLoop first n s).1 ∧ (s.Ordered → (appendPendingLoop first n s).1.Ordered) := by
  induction n with
  | zero => intro s; exact ⟨SameKeys.refl s, id⟩
  | succ n ih =>
    intro s
    obtain ⟨hkeys, hordered⟩ := ih (appendPendingResultsLocked s first.bare).1
    have hstep := appendPendingResults_keys s first.bare
    rw [appendPendingLoop]
    dsimp only
    split_ifs
    · exact ⟨hstep.trans hkeys, fun h => hordered (appendPendingResults_ordered h _)⟩
    · exact ⟨hstep, fun h => appendPendingResults_ordered h _⟩

/-- What a policy leaves pending was pending. -/
theorem isSome_invalidateResults {τ ρ : Type} {id : τ → Int} {same : τ → τ → Bool} {old next : List τ}
    {pending : Directory Int (Queued ρ)} {k : Int}
    (h : ((invalidateResults id same old next pending).get? k).isSome) : (pending.get? k).isSome := by
  obtain ⟨p, hp⟩ := Option.isSome_iff_exists.mp h
  rw [((get?_invalidateResults id same next old pending).mp hp).1]
  rfl

/-- What an acknowledgement leaves pending was pending. -/
theorem isSome_settle {ρ : Type} {pending : Directory Int (Queued ρ)} {cs : List (Carrier Int ρ)}
    {k : Int} (h : ((settle pending cs).get? k).isSome) : (pending.get? k).isSome := by
  obtain ⟨p, hp⟩ := Option.isSome_iff_exists.mp h
  rw [((get?_settle cs pending).mp hp).1]
  rfl

theorem applyPolicy_ordered (h : s.Ordered) (fold : Char → Char)
    (policy : AgentPolicy) : (applyPolicy fold s policy).Ordered :=
  ⟨h.1.prune fun _ => isSome_invalidateResults, h.2.prune fun _ => isSome_invalidateResults⟩

theorem acknowledgeReports_ordered (h : s.Ordered) (reports : List Report) :
    (acknowledgeReports s reports).Ordered :=
  ⟨h.1.prune fun _ => isSome_settle, h.2.prune fun _ => isSome_settle⟩

/-! ## Choosing a task -/

section Choosing

variable {τ ρ : Type} {id interval : τ → Int} {pending : Directory Int (Queued ρ)} {p : Probes τ}

/-- What the loop over the tasks has found among `tasks`. -/
def Found (id interval : τ → Int) (pending : Directory Int (Queued ρ)) (p : Probes τ)
    (tasks : List τ) : Option (τ × Int) → Prop
  | none => ∀ task ∈ tasks, launchable id pending p task = false
  | some (best, due) => best ∈ tasks ∧ launchable id pending p best = true ∧
      due = candidate id interval p.lastRunByTaskID best ∧
      ∀ task ∈ tasks, launchable id pending p task = true → due ≤ candidate id interval p.lastRunByTaskID task

theorem nextLocked_append (tasks : List τ) (task : τ) : nextLocked id interval pending p (tasks ++ [task]) =
      if launchable id pending p task then
        match nextLocked id interval pending p tasks with
        | none => some (task, candidate id interval p.lastRunByTaskID task)
        | some (best, due) =>
          if candidate id interval p.lastRunByTaskID task < due then
            some (task, candidate id interval p.lastRunByTaskID task)
          else some (best, due)
      else nextLocked id interval pending p tasks := by
  rw [nextLocked, List.foldl_append, ← nextLocked]
  cases nextLocked id interval pending p tasks <;> rfl

/-- **The loop finds a task that is due first**, if there is a task to launch at all. -/
theorem nextLocked_found (tasks : List τ) :
    Found id interval pending p tasks (nextLocked id interval pending p tasks) := by
  induction tasks using List.reverseRecOn with
  | nil => exact nofun
  | append_singleton tasks task ih =>
    have hall : ∀ {q : τ → Prop}, (∀ other ∈ tasks, q other) → q task → ∀ other ∈ tasks ++ [task], q other :=
      fun h hlast => List.forall_mem_append.mpr ⟨h, List.forall_mem_singleton.mpr hlast⟩
    rw [nextLocked_append]
    by_cases hlaunchable : launchable id pending p task = true
    · rw [if_pos hlaunchable]
      cases hbest : nextLocked id interval pending p tasks with
      | none =>
        rw [hbest] at ih
        refine ⟨by simp, hlaunchable, rfl, hall (fun other hother hlaunch => ?_) fun _ => Int.le_refl _⟩
        exact absurd (hlaunch.symm.trans (ih other hother)) (by simp)
      | some found =>
        obtain ⟨best, due⟩ := found
        rw [hbest] at ih
        obtain ⟨hmem, hbestLaunch, hdue, hfirst⟩ := ih
        show Found id interval pending p (tasks ++ [task]) (if _ then _ else _)
        split_ifs with hearlier
        · refine ⟨by simp, hlaunchable, rfl, hall (fun other hother hlaunch => ?_) fun _ => Int.le_refl _⟩
          have := hfirst other hother hlaunch
          omega
        · exact ⟨List.mem_append_left _ hmem, hbestLaunch, hdue, hall hfirst fun _ => by omega⟩
    · rw [if_neg hlaunchable]
      cases hbest : nextLocked id interval pending p tasks with
      | none =>
        rw [hbest] at ih
        exact hall ih (Bool.eq_false_iff.mpr hlaunchable)
      | some found =>
        obtain ⟨best, due⟩ := found
        rw [hbest] at ih
        obtain ⟨hmem, hbestLaunch, hdue, hfirst⟩ := ih
        exact ⟨List.mem_append_left _ hmem, hbestLaunch, hdue, hall hfirst fun hlaunch => absurd hlaunch hlaunchable⟩

theorem launchable_iff {task : τ} : launchable id pending p task = true ↔
    0 < id task ∧ pending.get? (id task) = none ∧ p.running.get? (id task) = none := by
  simp [launchable, and_assoc]

end Choosing

/-! ## One kind of probes -/

namespace Probes

variable {τ ρ : Type} {id interval : τ → Int} {same : τ → τ → Bool}
  {pending pending' : Directory Int (Queued ρ)} {p : Probes τ}

/-- The goroutines are the runs of the map, and a running id has no result pending. -/
structure Inv (id : τ → Int) (pending : Directory Int (Queued ρ)) (p : Probes τ) : Prop where
  matched : p.running.entries.Perm (p.workers.map fun w => (id w.1, w.2))
  idle : ∀ k, (p.running.get? k).isSome → pending.get? k = none

theorem Inv.empty : Inv id (Directory.empty : Directory Int (Queued ρ)) (Probes.empty : Probes τ) :=
  ⟨List.Perm.refl _, fun _ _ => rfl⟩

theorem Inv.distinct (h : Inv id pending p) : (p.workers.map fun w => id w.1).Nodup := by
  have hnames := ((h.matched.map Prod.fst).nodup_iff).mp p.running.names_nodup
  rw [List.map_map] at hnames
  exact hnames

theorem Inv.drop (h : Inv id pending p)
    (hsub : ∀ k, (pending'.get? k).isSome → (pending.get? k).isSome) : Inv id pending' p := by
  refine ⟨h.matched, fun k hk => ?_⟩
  cases hnone : pending'.get? k with
  | none => rfl
  | some q =>
    have hsome := hsub k (by rw [hnone]; rfl)
    rw [h.idle k hk] at hsome
    cases hsome

variable {task : τ}

theorem Inv.launch (h : Inv id pending p) (hlaunchable : launchable id pending p task = true)
    (run now : Nat) : Inv id pending (p.launch id task run now) := by
  obtain ⟨-, hpending, hrunning⟩ := launchable_iff.mp hlaunchable
  constructor
  · show (p.running.put (id task) run).entries.Perm ((p.workers ++ [(task, run)]).map _)
    rw [List.map_append]
    have hlast : ((id task, run) :: p.running.entries).Perm (p.running.entries ++ [(id task, run)]) :=
      (List.perm_append_singleton _ _).symm
    exact (Directory.put_perm hrunning run).trans (hlast.trans (h.matched.append_right _))
  · intro k hk
    have hk' : ((p.running.put (id task) run).get? k).isSome := hk
    rw [Directory.get?_put] at hk'
    split_ifs at hk' with hsame
    · exact hsame ▸ hpending
    · exact h.idle k hk'

/-- The run of a goroutine is the one of the map. -/
theorem Inv.running_of_worker (h : Inv id pending p) {place : Nat} {run : Nat}
    (hworker : p.workers[place]? = some (task, run)) : p.running.get? (id task) = some run := by
  apply Directory.mem_entries.mp
  apply h.matched.mem_iff.mpr
  exact List.mem_map.mpr ⟨(task, run), List.mem_of_getElem? hworker, rfl⟩

/-- The end of a goroutine, which may leave a result. -/
theorem Inv.finish (h : Inv id pending p) {place : Nat} {run : Nat}
    (hworker : p.workers[place]? = some (task, run))
    (hothers : ∀ k, k ≠ id task → pending'.get? k = pending.get? k) :
    Inv id pending' (p.finish id place task run) := by
  have hrun := h.running_of_worker hworker
  constructor
  · show (if p.running.get? (id task) = some run then p.running.remove (id task)
      else p.running).entries.Perm ((p.workers.eraseIdx place).map _)
    rw [if_pos hrun]
    obtain ⟨hlt, hget⟩ := List.getElem?_eq_some_iff.mp hworker
    have hperm := (List.getElem_cons_eraseIdx_perm hlt).symm
    rw [hget] at hperm
    have hmapped := h.matched.trans (hperm.map fun w => (id w.1, w.2))
    exact Directory.remove_perm hmapped
  · intro k hk
    have hk' : ((if p.running.get? (id task) = some run then p.running.remove (id task)
      else p.running).get? k).isSome := hk
    rw [if_pos hrun, Directory.get?_remove] at hk'
    split_ifs at hk' with hsame
    · cases hk'
    · rw [hothers k hsame]
      exact h.idle k hk'

/-! ### Distances of launches -/

/-- Between two launches of `task`: no other launch of its id, and in every policy, before and after,
    the task, and nothing else under its id. -/
def Calm (id : τ → Int) (task : τ) (mid : List (Logged τ)) : Prop :=
  (∀ other now, .launched other now ∈ mid → id other ≠ id task) ∧
  ∀ old next, .replaced old next ∈ mid →
    task ∈ next ∧ ∀ other ∈ old ++ next, id other = id task → other = task

/-- The last launches are known, and launches keep their distance. -/
structure Timed (id interval : τ → Int) (p : Probes τ) : Prop where
  last : ∀ {mid pre task} {now : Nat}, p.log = mid ++ .launched task now :: pre → Calm id task mid →
    p.lastRunByTaskID.get? (id task) = some (now : Int)
  spaced : ∀ {post mid pre task} {now now' : Nat}, p.log = post ++ .launched task now' ::
    (mid ++ .launched task now :: pre) → Calm id task mid → (now : Int) + interval task ≤ now'

theorem Timed.empty : Timed id interval (Probes.empty : Probes τ) :=
  ⟨fun h => absurd h (by simp [Probes.empty]), fun h => absurd h (by simp [Probes.empty])⟩

variable {e : Logged τ}

theorem Calm.tail {mid : List (Logged τ)} (h : Calm id task (e :: mid)) : Calm id task mid :=
  ⟨fun other now hmem => h.1 other now (List.mem_cons_of_mem _ hmem),
    fun old next hmem => h.2 old next (List.mem_cons_of_mem _ hmem)⟩

/-- A new entry of the log, when it is no launch too early. -/
theorem Timed.push {p' : Probes τ} (h : Timed id interval p) (hlog : p'.log = e :: p.log)
    (hlast : ∀ {mid pre task} {now : Nat}, p'.log = mid ++ .launched task now :: pre → Calm id task mid →
      p'.lastRunByTaskID.get? (id task) = some (now : Int))
    (hspaced : ∀ {mid pre task} {now now' : Nat}, e = .launched task now' →
      p.log = mid ++ .launched task now :: pre → Calm id task mid →
      (now : Int) + interval task ≤ now') : Timed id interval p' := by
  refine ⟨hlast, fun {post mid pre task now now'} heq hcalm => ?_⟩
  rw [hlog] at heq
  cases post with
  | nil =>
    obtain ⟨he, hrest⟩ := List.cons.inj heq
    exact hspaced he hrest hcalm
  | cons e' post =>
    obtain ⟨-, hrest⟩ := List.cons.inj heq
    exact h.spaced hrest hcalm

theorem Timed.launch (h : Timed id interval p) {run now : Nat}
    (hdue : candidate id interval p.lastRunByTaskID task ≤ now) :
    Timed id interval (p.launch id task run now) := by
  refine h.push rfl (fun {mid pre other at_} heq hcalm => ?_) fun {mid pre other at_ at'} he hrest hcalm => ?_
  · show (p.lastRunByTaskID.put (id task) (now : Int)).get? (id other) = _
    have heq' : .launched task now :: p.log = mid ++ .launched other at_ :: pre := heq
    cases mid with
    | nil =>
      obtain ⟨he, -⟩ := List.cons.inj heq'
      obtain ⟨rfl, rfl⟩ := Logged.launched.inj he
      rw [Directory.get?_put, if_pos rfl]
    | cons e mid =>
      obtain ⟨rfl, hrest⟩ := List.cons.inj heq'
      have hne : id other ≠ id task := fun hsame => hcalm.1 task now List.mem_cons_self hsame.symm
      rw [Directory.get?_put, if_neg hne]
      exact h.last hrest hcalm.tail
  · obtain ⟨rfl, rfl⟩ := Logged.launched.inj he
    rw [candidate, h.last hrest hcalm] at hdue
    exact hdue

theorem taskByID_append (next : List τ) (task : τ) :
    taskByID id (next ++ [task]) = (taskByID id next).put (id task) task := by
  rw [taskByID, List.foldl_append]
  rfl

/-- The map of the tasks by id has a task of the list for every id of the list. -/
theorem get?_taskByID (next : List τ) (k : Int) :
    (∀ task, (taskByID id next).get? k = some task → task ∈ next ∧ id task = k) ∧
    (∀ task ∈ next, id task = k → ((taskByID id next).get? k).isSome) := by
  induction next using List.reverseRecOn with
  | nil => exact ⟨nofun, nofun⟩
  | append_singleton next last ih =>
    rw [taskByID_append]
    constructor
    · intro task h
      rw [Directory.get?_put] at h
      split_ifs at h with hk
      · cases h
        exact ⟨by simp, hk.symm⟩
      · obtain ⟨hmem, hid⟩ := ih.1 task h
        exact ⟨List.mem_append_left _ hmem, hid⟩
    · intro task hmem hid
      rw [Directory.get?_put]
      split_ifs with hk
      · rfl
      · rcases List.mem_append.mp hmem with hmem | hmem
        · exact ih.2 task hmem hid
        · rw [List.mem_singleton.mp hmem] at hid
          exact absurd hid.symm hk

theorem superseded_of_alone {next : List τ} (hsame : same task task = true)
    (hmem : task ∈ next) (honly : ∀ other ∈ next, id other = id task → other = task) :
    superseded id same next task = false := by
  obtain ⟨found, hfound⟩ := Option.isSome_iff_exists.mp ((get?_taskByID next (id task)).2 task hmem rfl)
  obtain ⟨hin, hid⟩ := (get?_taskByID next (id task)).1 found hfound
  obtain rfl := honly found hin hid
  rw [superseded.eq_def, hfound]
  simp [hsame]

/-- A launch is forgotten only with a superseded task of its id. -/
theorem get?_invalidate (old next : List τ) (k : Int)
    (hkept : ∀ task ∈ old, id task = k → superseded id same next task = false) :
    ∀ last : Directory Int Int, (old.foldl (fun last task =>
      if superseded id same next task then last.remove (id task) else last) last).get? k = last.get? k := by
  induction old with
  | nil => exact fun _ => rfl
  | cons task old ih =>
    intro last
    rw [List.foldl_cons, ih fun other hother => hkept other (List.mem_cons_of_mem _ hother)]
    split_ifs with hsuperseded
    · have hne : k ≠ id task := by
        intro hk
        exact absurd (hsuperseded.symm.trans (hkept task List.mem_cons_self hk.symm)) (by simp)
      rw [Directory.get?_remove, if_neg hne]
    · rfl

theorem Timed.invalidate (h : Timed id interval p) (hsame : ∀ task, same task task = true)
    (old next : List τ) : Timed id interval (p.invalidate id same old next) := by
  refine h.push rfl (fun {mid pre task now} heq hcalm => ?_) nofun
  have heq' : .replaced old next :: p.log = mid ++ .launched task now :: pre := heq
  cases mid with
  | nil => exact absurd (List.cons.inj heq').1 (by simp)
  | cons e mid =>
    obtain ⟨rfl, hrest⟩ := List.cons.inj heq'
    obtain ⟨hmem, honly⟩ := hcalm.2 old next List.mem_cons_self
    refine (get?_invalidate old next (id task) (fun other hother hid => ?_) _).trans
      (h.last hrest hcalm.tail)
    obtain rfl := honly other (List.mem_append_left _ hother) hid
    exact superseded_of_alone (hsame other) hmem
      fun other' hother' => honly other' (List.mem_append_right _ hother')

end Probes

/-! ## A pass of the scheduler -/

namespace ProbeState

variable {fold : Char → Char} {pingInterval : Int} {s s' : ProbeState}

/-- A ping task that could be launched if there is a slot. -/
def PingReady (s : ProbeState) (task : PingTask) : Prop :=
  task ∈ s.report.tasks ∧ launchable PingTask.id s.report.ping.pending s.ping task = true

/-- A website probe that could be launched if there is a slot. -/
def WebsiteReady (s : ProbeState) (task : WebsiteProbeTask) : Prop :=
  task ∈ s.report.websiteTasks ∧ launchable WebsiteProbeTask.id s.report.website.pending s.website task = true

/-- When a ping task is due. -/
def pingDue (pingInterval : Int) (s : ProbeState) (task : PingTask) : Int :=
  candidate PingTask.id (pingTaskInterval pingInterval) s.ping.lastRunByTaskID task

/-- When a website probe is due. -/
def websiteDue (s : ProbeState) (task : WebsiteProbeTask) : Int :=
  candidate WebsiteProbeTask.id websiteProbeInterval s.website.lastRunByTaskID task

/-- No task is due before a deadline; without one, no task can be launched. -/
structure NotBefore (pingInterval : Int) (s : ProbeState) (deadline : Option Int) : Prop where
  ping : ∀ {task}, s.PingReady task → ∃ e, deadline = some e ∧ e ≤ s.pingDue pingInterval task
  website : ∀ {task}, s.WebsiteReady task → ∃ e, deadline = some e ∧ e ≤ s.websiteDue task

/-- A choice of the scheduler can be launched, and says when it is due. -/
def Sound (pingInterval : Int) (s : ProbeState) : Choice → Prop
  | .ping task due => s.PingReady task ∧ due = s.pingDue pingInterval task
  | .website task due => s.WebsiteReady task ∧ due = s.websiteDue task

/-- **The scheduler chooses what is due first.** -/
theorem choose_spec (pingInterval : Int) (s : ProbeState) :
    (∀ choice, s.choose pingInterval = some choice → s.Sound pingInterval choice) ∧
    s.NotBefore pingInterval ((s.choose pingInterval).map Choice.due) := by
  have hping : Found PingTask.id (pingTaskInterval pingInterval) s.report.ping.pending s.ping
    s.report.tasks (s.nextPingLocked pingInterval) := nextLocked_found _
  have hwebsite : Found WebsiteProbeTask.id websiteProbeInterval s.report.website.pending s.website
    s.report.websiteTasks s.nextWebsiteLocked := nextLocked_found _
  -- a kind without a task to launch has nothing that could be due
  have hnoPing : s.nextPingLocked pingInterval = none → ∀ {task}, ¬ s.PingReady task := by
    intro hnone task hready
    rw [hnone] at hping
    exact absurd (hready.2.symm.trans (hping task hready.1)) (by simp)
  have hnoWebsite : s.nextWebsiteLocked = none → ∀ {task}, ¬ s.WebsiteReady task := by
    intro hnone task hready
    rw [hnone] at hwebsite
    exact absurd (hready.2.symm.trans (hwebsite task hready.1)) (by simp)
  rw [choose]
  cases hp : s.nextPingLocked pingInterval with
  | none =>
    cases hw : s.nextWebsiteLocked with
    | none =>
      exact ⟨nofun, fun h => absurd h (hnoPing hp),
        fun h => absurd h (hnoWebsite hw)⟩
    | some found =>
      obtain ⟨website, due⟩ := found
      rw [hw] at hwebsite
      obtain ⟨hmem, hlaunch, hdue, hfirst⟩ := hwebsite
      refine ⟨fun choice h => ?_, fun h => absurd h (hnoPing hp), fun h => ⟨due, rfl, hfirst _ h.1 h.2⟩⟩
      cases h
      exact ⟨⟨hmem, hlaunch⟩, hdue⟩
  | some found =>
    obtain ⟨ping, due⟩ := found
    rw [hp] at hping
    obtain ⟨hmem, hlaunch, hdue, hfirst⟩ := hping
    cases hw : s.nextWebsiteLocked with
    | none =>
      refine ⟨fun choice h => ?_, fun h => ⟨due, rfl, hfirst _ h.1 h.2⟩, fun h => absurd h (hnoWebsite hw)⟩
      cases h
      exact ⟨⟨hmem, hlaunch⟩, hdue⟩
    | some found =>
      obtain ⟨website, due'⟩ := found
      rw [hw] at hwebsite
      obtain ⟨hmem', hlaunch', hdue', hfirst'⟩ := hwebsite
      simp only
      split_ifs with huse
      · refine ⟨fun choice h => ?_, fun h => ⟨due', rfl, ?_⟩, fun h => ⟨due', rfl, hfirst' _ h.1 h.2⟩⟩
        · cases h
          exact ⟨⟨hmem', hlaunch'⟩, hdue'⟩
        · have := hfirst _ h.1 h.2
          rw [pingDue]
          omega
      · refine ⟨fun choice h => ?_, fun h => ⟨due, rfl, hfirst _ h.1 h.2⟩, fun h => ⟨due, rfl, ?_⟩⟩
        · cases h
          exact ⟨⟨hmem, hlaunch⟩, hdue⟩
        · have := hfirst' _ h.1 h.2
          rw [websiteDue]
          omega

/-! ### The invariant -/

/-- What holds between any two steps. -/
structure Inv (pingInterval : Int) (s : ProbeState) : Prop where
  ordered : s.report.Ordered
  ping : s.ping.Inv PingTask.id s.report.ping.pending
  website : s.website.Inv WebsiteProbeTask.id s.report.website.pending
  pingTimed : s.ping.Timed PingTask.id (pingTaskInterval pingInterval)
  websiteTimed : s.website.Timed WebsiteProbeTask.id websiteProbeInterval
  count : s.activeProbes = s.ping.workers.length + s.website.workers.length
  slots : s.activeProbes ≤ maxConcurrentProbes

theorem Inv.start : ProbeState.start.Inv pingInterval where
  ordered := ⟨LeaseQueue.Ordered.empty, LeaseQueue.Ordered.empty⟩
  ping := Probes.Inv.empty
  website := Probes.Inv.empty
  pingTimed := Probes.Timed.empty
  websiteTimed := Probes.Timed.empty
  count := rfl
  slots := by decide

theorem Inv.launch (h : s.Inv pingInterval) {choice : Choice} {now : Nat}
    (hsound : s.Sound pingInterval choice) (hdue : choice.due ≤ now)
    (hslot : s.activeProbes < maxConcurrentProbes) : (s.launch pingInterval choice now).Inv pingInterval := by
  have hcount := h.count
  cases choice with
  | ping task due =>
    obtain ⟨⟨-, hready⟩, rfl⟩ := hsound
    refine ⟨h.ordered, h.ping.launch hready _ _, h.website, h.pingTimed.launch hdue, h.websiteTimed, ?_, ?_⟩
    · show s.activeProbes + 1 = ((s.ping.workers ++ [_]).length : Int) + s.website.workers.length
      rw [List.length_append, List.length_singleton]
      omega
    · show s.activeProbes + 1 ≤ maxConcurrentProbes
      omega
  | website task due =>
    obtain ⟨⟨-, hready⟩, rfl⟩ := hsound
    refine ⟨h.ordered, h.ping, h.website.launch hready _ _, h.pingTimed, h.websiteTimed.launch hdue, ?_, ?_⟩
    · show s.activeProbes + 1 = (s.ping.workers.length : Int) + (s.website.workers ++ [_]).length
      rw [List.length_append, List.length_singleton]
      omega
    · show s.activeProbes + 1 ≤ maxConcurrentProbes
      omega

theorem launch_active (choice : Choice) (now : Nat) :
    (s.launch pingInterval choice now).activeProbes = s.activeProbes + 1 := by
  cases choice <;> rfl

theorem launch_closed (choice : Choice) (now : Nat) :
    (s.launch pingInterval choice now).closed = s.closed := by
  cases choice <;> rfl

/-- **One pass**: it keeps the accounts, and returns the first due time of what is left to launch,
    unless all slots are taken. -/
theorem launchLoop_spec (now n : Nat) : ∀ s : ProbeState, s.Inv pingInterval → s.closed = false →
    (maxConcurrentProbes - s.activeProbes).toNat ≤ n →
    (s.launchLoop pingInterval now n).1.Inv pingInterval ∧
    ((s.launchLoop pingInterval now n).1.activeProbes < maxConcurrentProbes →
      (s.launchLoop pingInterval now n).1.NotBefore pingInterval (s.launchLoop pingInterval now n).2) := by
  induction n with
  | zero =>
    intro s h _ hfuel
    refine ⟨h, fun hslot => ?_⟩
    have hslot' : s.activeProbes < maxConcurrentProbes := hslot
    omega
  | succ n ih =>
    intro s h hopen hfuel
    obtain ⟨hsound, hfirst⟩ := choose_spec pingInterval s
    rw [launchLoop]
    by_cases hslot : s.activeProbes < maxConcurrentProbes
    · rw [if_pos ⟨hslot, hopen⟩]
      cases hchoose : s.choose pingInterval with
      | none =>
        rw [hchoose] at hfirst
        exact ⟨h, fun _ => hfirst⟩
      | some choice =>
        rw [hchoose] at hfirst
        simp only
        split_ifs with hlater
        · exact ⟨h, fun _ => hfirst⟩
        · refine ih _ (h.launch (hsound choice hchoose) (by omega) hslot) ?_ ?_
          · rw [launch_closed]
            exact hopen
          · rw [launch_active]
            omega
    · rw [if_neg fun hboth => hslot hboth.1]
      exact ⟨h, fun hslot' => absurd hslot' hslot⟩

/-- The flags and the scheduler do not matter. -/
theorem Inv.same (h : s.Inv pingInterval) (hreport : s'.report = s.report) (hping : s'.ping = s.ping)
    (hwebsite : s'.website = s.website) (hactive : s'.activeProbes = s.activeProbes) :
    s'.Inv pingInterval := by
  refine ⟨?_, ?_, ?_, ?_, ?_, ?_, ?_⟩
  · rw [hreport]
    exact h.ordered
  · rw [hreport, hping]
    exact h.ping
  · rw [hreport, hwebsite]
    exact h.website
  · rw [hping]
    exact h.pingTimed
  · rw [hwebsite]
    exact h.websiteTimed
  · rw [hactive, hping, hwebsite]
    exact h.count
  · rw [hactive]
    exact h.slots

/-- Results are dropped or leased, tasks and launches stay. -/
theorem Inv.report (h : s.Inv pingInterval) {report : PingReportState} (hordered : report.Ordered)
    (hping : ∀ k, (report.ping.pending.get? k).isSome → (s.report.ping.pending.get? k).isSome)
    (hwebsite : ∀ k, (report.website.pending.get? k).isSome → (s.report.website.pending.get? k).isSome) :
    Inv pingInterval { s with report := report } :=
  ⟨hordered, h.ping.drop hping, h.website.drop hwebsite, h.pingTimed, h.websiteTimed, h.count, h.slots⟩

theorem Inv.leased (h : s.Inv pingInterval) {report : PingReportState} (hordered : report.Ordered)
    (hkeys : SameKeys s.report report) : Inv pingInterval { s with report := report } :=
  h.report hordered (fun k hk => hkeys.ping k ▸ hk) fun k hk => hkeys.website k ▸ hk

theorem samePingProbe_self (task : PingTask) : samePingProbe fold task task = true := by
  simp [samePingProbe, equalFold]

theorem sameWebsiteProbe_self (task : WebsiteProbeTask) : sameWebsiteProbe fold task task = true := by
  simp [sameWebsiteProbe, equalFold]

theorem Inv.applyPolicy (h : s.Inv pingInterval) (policy : AgentPolicy) :
    (s.applyPolicy fold policy).Inv pingInterval where
  ordered := applyPolicy_ordered h.ordered fold policy
  ping := by
    have hdropped : s.ping.Inv PingTask.id (Agent.applyPolicy fold s.report policy).ping.pending :=
      h.ping.drop fun _ => isSome_invalidateResults
    exact ⟨hdropped.matched, hdropped.idle⟩
  website := by
    have hdropped : s.website.Inv WebsiteProbeTask.id
        (Agent.applyPolicy fold s.report policy).website.pending :=
      h.website.drop fun _ => isSome_invalidateResults
    exact ⟨hdropped.matched, hdropped.idle⟩
  pingTimed := h.pingTimed.invalidate samePingProbe_self _ _
  websiteTimed := h.websiteTimed.invalidate sameWebsiteProbe_self _ _
  count := h.count
  slots := h.slots

theorem Inv.pingDone (h : s.Inv pingInterval) {place : Nat} {task : PingTask} {run : Nat}
    (hworker : s.ping.workers[place]? = some (task, run)) (value : UInt64) :
    (s.runPingProbe place task run value).Inv pingInterval := by
  have hcount := h.count
  have hslots := h.slots
  obtain ⟨hlt, -⟩ := List.getElem?_eq_some_iff.mp hworker
  have hlength : (s.ping.workers.eraseIdx place).length + 1 = s.ping.workers.length :=
    List.length_eraseIdx_add_one hlt
  refine ⟨?_, ?_, ?_, ⟨h.pingTimed.last, h.pingTimed.spaced⟩, h.websiteTimed, ?_, ?_⟩
  · show (if _ then queuePingResultsLocked s.report _ else s.report).Ordered
    split_ifs
    · exact ⟨h.ordered.1.offer _ _ _, h.ordered.2⟩
    · exact h.ordered
  · refine h.ping.finish hworker fun k hk => ?_
    show (if _ then queuePingResultsLocked s.report _ else s.report).ping.pending.get? k = _
    split_ifs
    · exact LeaseQueue.get?_offer_ne _ _ _ _ hk
    · rfl
  · show s.website.Inv WebsiteProbeTask.id
      (if _ then queuePingResultsLocked s.report _ else s.report).website.pending
    split_ifs <;> exact h.website
  · show s.activeProbes - 1 = ((s.ping.workers.eraseIdx place).length : Int) + s.website.workers.length
    omega
  · show s.activeProbes - 1 ≤ maxConcurrentProbes
    omega

theorem Inv.websiteDone (h : s.Inv pingInterval) {place : Nat} {task : WebsiteProbeTask} {run : Nat}
    (hworker : s.website.workers[place]? = some (task, run)) (result : WebsiteProbeResult) :
    (s.runWebsiteProbe place task run result).Inv pingInterval := by
  have hcount := h.count
  have hslots := h.slots
  obtain ⟨hlt, -⟩ := List.getElem?_eq_some_iff.mp hworker
  have hlength : (s.website.workers.eraseIdx place).length + 1 = s.website.workers.length :=
    List.length_eraseIdx_add_one hlt
  refine ⟨?_, ?_, ?_, h.pingTimed, ⟨h.websiteTimed.last, h.websiteTimed.spaced⟩, ?_, ?_⟩
  · show (if _ then queueWebsiteResultsLocked s.report _ else s.report).Ordered
    split_ifs
    · exact ⟨h.ordered.1, h.ordered.2.offer _ _ _⟩
    · exact h.ordered
  · show s.ping.Inv PingTask.id (if _ then queueWebsiteResultsLocked s.report _ else s.report).ping.pending
    split_ifs <;> exact h.ping
  · refine h.website.finish hworker fun k hk => ?_
    show (if _ then queueWebsiteResultsLocked s.report _ else s.report).website.pending.get? k = _
    split_ifs
    · exact LeaseQueue.get?_offer_ne _ _ _ _ hk
    · rfl
  · show s.activeProbes - 1 = (s.ping.workers.length : Int) + (s.website.workers.eraseIdx place).length
    omega
  · show s.activeProbes - 1 ≤ maxConcurrentProbes
    omega

/-! ### Wake-ups -/

/-- A sleeping scheduler that no signal is on the way to sleeps until the first due time, or until a
    slot is free. -/
def Watchful (pingInterval : Int) (s : ProbeState) : Prop :=
  ∀ deadline, s.scheduler = .asleep deadline → s.probeWake = false → s.finished = 0 →
    s.activeProbes < maxConcurrentProbes → s.NotBefore pingInterval deadline

theorem Watchful.start : ProbeState.start.Watchful pingInterval :=
  nofun

theorem Watchful.of_signal (h : s.probeWake = true) : s.Watchful pingInterval :=
  fun _ _ hquiet => absurd (h.symm.trans hquiet) (by simp)

theorem Watchful.of_awake (h : ∀ deadline, s.scheduler ≠ .asleep deadline) : s.Watchful pingInterval :=
  fun deadline hasleep => absurd hasleep (h deadline)

theorem Watchful.of_finished (h : 0 < s.finished) : s.Watchful pingInterval := by
  intro deadline _ _ hnone
  omega

theorem get?_none_of_keys {ρ : Type} {d d' : Directory Int (Queued ρ)} {k : Int}
    (hsame : (d'.get? k).isSome = (d.get? k).isSome) (h : d'.get? k = none) : d.get? k = none := by
  rw [h] at hsame
  cases hd : d.get? k with
  | none => rfl
  | some q =>
    rw [hd] at hsame
    cases hsame

theorem NotBefore.leased {deadline : Option Int} (h : s.NotBefore pingInterval deadline)
    {report : PingReportState} (hkeys : SameKeys s.report report) :
    NotBefore pingInterval { s with report := report } deadline := by
  constructor
  · rintro task ⟨hmem, hlaunch⟩
    obtain ⟨hid, hpending, hrunning⟩ := launchable_iff.mp hlaunch
    exact h.ping ⟨hkeys.tasks ▸ hmem,
      launchable_iff.mpr ⟨hid, get?_none_of_keys (hkeys.ping _) hpending, hrunning⟩⟩
  · rintro task ⟨hmem, hlaunch⟩
    obtain ⟨hid, hpending, hrunning⟩ := launchable_iff.mp hlaunch
    exact h.website ⟨hkeys.websiteTasks ▸ hmem,
      launchable_iff.mpr ⟨hid, get?_none_of_keys (hkeys.website _) hpending, hrunning⟩⟩

theorem Watchful.leased (h : s.Watchful pingInterval) {report : PingReportState}
    (hkeys : SameKeys s.report report) : Watchful pingInterval { s with report := report } :=
  fun deadline hasleep hquiet hnone hslot => (h deadline hasleep hquiet hnone hslot).leased hkeys

/-! ### One step -/

/-- **One step** keeps the accounts and wakes the scheduler where it must. -/
theorem Inv.step {e : ProbeEvent} (h : s.Inv pingInterval) (hw : s.Watchful pingInterval)
    (hstep : probeStep fold pingInterval s e = some s') :
    s'.Inv pingInterval ∧ s'.Watchful pingInterval := by
  cases e with
  | applyPolicy policy =>
    cases hstep
    exact ⟨h.applyPolicy policy, Watchful.of_signal rfl⟩
  | pass now =>
    rw [probeStep] at hstep
    split at hstep
    · split_ifs at hstep with hclosed
      · cases hstep
        exact ⟨h.same rfl rfl rfl rfl, Watchful.of_awake fun _ => by simp⟩
      · cases hstep
        obtain ⟨hI, hfirst⟩ :=
          launchLoop_spec now _ s h (Bool.eq_false_iff.mpr hclosed) (Nat.le_refl _)
        refine ⟨hI.same rfl rfl rfl rfl, ?_⟩
        intro deadline hasleep _ _ hslot
        obtain rfl := Scheduler.asleep.inj hasleep
        have hnot := hfirst hslot
        exact ⟨hnot.ping, hnot.website⟩
    · cases hstep
  | wake =>
    rw [probeStep] at hstep
    split at hstep
    · split_ifs at hstep
      cases hstep
      exact ⟨h.same rfl rfl rfl rfl, Watchful.of_awake fun _ => by simp⟩
    · cases hstep
  | tick =>
    rw [probeStep] at hstep
    split at hstep
    · cases hstep
      exact ⟨h.same rfl rfl rfl rfl, Watchful.of_awake fun _ => by simp⟩
    · cases hstep
  | pingDone place value =>
    rw [probeStep] at hstep
    split at hstep
    · cases hstep
    · rename_i task run hworker
      cases hstep
      exact ⟨h.pingDone hworker value, Watchful.of_finished (Nat.succ_pos _)⟩
  | websiteDone place result =>
    rw [probeStep] at hstep
    split at hstep
    · cases hstep
    · rename_i task run hworker
      cases hstep
      exact ⟨h.websiteDone hworker result, Watchful.of_finished (Nat.succ_pos _)⟩
  | signalDone =>
    rw [probeStep] at hstep
    split_ifs at hstep
    cases hstep
    exact ⟨h.same rfl rfl rfl rfl, Watchful.of_signal rfl⟩
  | signal =>
    cases hstep
    exact ⟨h.same rfl rfl rfl rfl, Watchful.of_signal rfl⟩
  | appendDueResults report =>
    cases hstep
    have hkeys := appendPendingResults_keys s.report report
    exact ⟨h.leased (appendPendingResults_ordered h.ordered report) hkeys, hw.leased hkeys⟩
  | appendPendingReports first =>
    cases hstep
    obtain ⟨hkeys, hordered⟩ := appendPendingLoop_keys first
      (s.report.ping.order.length + s.report.website.order.length + 1) s.report
    exact ⟨h.leased (hordered h.ordered) hkeys, hw.leased hkeys⟩
  | acknowledgeReports reports =>
    cases hstep
    have hsettled := h.report (acknowledgeReports_ordered h.ordered reports)
      (fun _ => isSome_settle) fun _ => isSome_settle
    exact ⟨hsettled.same rfl rfl rfl rfl, Watchful.of_signal rfl⟩
  | retryReports preparer reports =>
    cases hstep
    have hkeys : SameKeys s.report (retryReports s.report preparer reports) :=
      ⟨fun _ => rfl, fun _ => rfl, rfl, rfl⟩
    exact ⟨h.leased h.ordered hkeys, hw.leased hkeys⟩
  | takeRetryReports preparer =>
    cases hstep
    have hkeys : SameKeys s.report (takeRetryReports s.report preparer).1 :=
      ⟨fun _ => rfl, fun _ => rfl, rfl, rfl⟩
    exact ⟨h.leased h.ordered hkeys, hw.leased hkeys⟩
  | close =>
    cases hstep
    refine ⟨h.same rfl rfl rfl rfl, fun deadline hasleep hquiet hnone hslot => ?_⟩
    have hnot := hw deadline hasleep hquiet hnone hslot
    exact ⟨hnot.ping, hnot.website⟩

theorem run_inv {es : List ProbeEvent}
    (hrun : (probeMachine fold pingInterval).run ProbeState.start es = some s) :
    s.Inv pingInterval ∧ s.Watchful pingInterval :=
  (probeMachine fold pingInterval).run_inv (I := fun s => s.Inv pingInterval ∧ s.Watchful pingInterval)
    (fun _ _ _ h hs => h.1.step h.2 hs) ⟨Inv.start, Watchful.start⟩ hrun

end ProbeState

/-! ## Whole runs -/

/-- Seconds that fit into an `int64` of nanoseconds. -/
theorem secondsDuration_eq {seconds : Int} (hpos : 1 ≤ seconds) (hfits : seconds ≤ 9223372036) :
    secondsDuration seconds = seconds * 1000000000 := by
  rw [secondsDuration]
  apply Int.bmod_eq_of_le
  · omega
  · omega

theorem pingTaskInterval_eq {pingInterval : Int} {task : PingTask} (hpos : 1 ≤ task.intervalSec)
    (hfits : task.intervalSec ≤ 9223372036) :
    pingTaskInterval pingInterval task = task.intervalSec * 1000000000 := by
  rw [← secondsDuration_eq hpos hfits, pingTaskInterval]
  have hnot : ¬ task.intervalSec < 1 := by omega
  simp only [if_neg hnot]

theorem websiteProbeInterval_eq {task : WebsiteProbeTask} (hpos : 1 ≤ task.intervalSec)
    (hfits : task.intervalSec ≤ 9223372036) :
    websiteProbeInterval task = task.intervalSec * 1000000000 := by
  rw [← secondsDuration_eq hpos hfits, websiteProbeInterval]
  have hnot : ¬ task.intervalSec < 1 := by omega
  rw [if_neg hnot]

open ProbeState Probes in
/-- **The probe scheduler keeps its accounts**, in every state that any interleaving of policies,
    passes, ends of probes, and deliveries can reach.  Two launches of a task keep the distance of its
    interval if in between its id was not launched and every policy had the task, and nothing else
    under its id. -/
theorem probes_accounted (fold : Char → Char) (pingInterval : Int) (es : List ProbeEvent)
    (s : ProbeState) (hrun : (probeMachine fold pingInterval).run ProbeState.start es = some s) :
    (s.activeProbes = s.ping.running.entries.length + s.website.running.entries.length ∧ s.activeProbes ≤ 4) ∧
    -- the goroutines are the runs of the maps, and no id runs twice
    (s.ping.running.entries.Perm (s.ping.workers.map fun w => (w.1.id, w.2)) ∧
      (s.ping.workers.map fun w => w.1.id).Nodup ∧
      s.website.running.entries.Perm (s.website.workers.map fun w => (w.1.id, w.2)) ∧
      (s.website.workers.map fun w => w.1.id).Nodup) ∧
    -- nor does it run while a result of it is pending
    ((∀ k, (s.ping.running.get? k).isSome → s.report.ping.pending.get? k = none) ∧
      ∀ k, (s.website.running.get? k).isSome → s.report.website.pending.get? k = none) ∧
    (s.report.ping.order.Nodup ∧ s.report.ping.order.Perm s.report.ping.pending.names ∧
      s.report.website.order.Nodup ∧
      s.report.website.order.Perm s.report.website.pending.names) ∧
    (∀ post mid pre task (now now' : Nat), s.ping.log = post ++ .launched task now' ::
        (mid ++ .launched task now :: pre) → Calm PingTask.id task mid →
      (now : Int) + pingTaskInterval pingInterval task ≤ now' ∧
      (1 ≤ task.intervalSec → task.intervalSec ≤ 9223372036 →
        (now : Int) + task.intervalSec * 1000000000 ≤ now')) ∧
    (∀ post mid pre task (now now' : Nat), s.website.log = post ++ .launched task now' ::
        (mid ++ .launched task now :: pre) → Calm WebsiteProbeTask.id task mid →
      (now : Int) + websiteProbeInterval task ≤ now' ∧
      (1 ≤ task.intervalSec → task.intervalSec ≤ 9223372036 →
        (now : Int) + task.intervalSec * 1000000000 ≤ now')) := by
  obtain ⟨h, -⟩ := run_inv hrun
  refine ⟨⟨?_, h.slots⟩, ⟨h.ping.matched, h.ping.distinct, h.website.matched, h.website.distinct⟩,
    ⟨h.ping.idle, h.website.idle⟩,
    ⟨h.ordered.1.1, h.ordered.1.perm, h.ordered.2.1, h.ordered.2.perm⟩, ?_, ?_⟩
  · rw [h.count, h.ping.matched.length_eq, h.website.matched.length_eq, List.length_map, List.length_map]
  · intro post mid pre task now now' hlog hcalm
    have hspaced := h.pingTimed.spaced hlog hcalm
    refine ⟨hspaced, fun hpos hfits => ?_⟩
    rw [pingTaskInterval_eq hpos hfits] at hspaced
    exact hspaced
  · intro post mid pre task now now' hlog hcalm
    have hspaced := h.websiteTimed.spaced hlog hcalm
    refine ⟨hspaced, fun hpos hfits => ?_⟩
    rw [websiteProbeInterval_eq hpos hfits] at hspaced
    exact hspaced

/-- A policy with these ping tasks alone. -/
def pingPolicy (tasks : List PingTask) : AgentPolicy := ⟨0, "", tasks, [], false⟩

/-- A report that was handed the first result of the ping task with id 1. -/
def firstPingReport : Report :=
  { Report.collected 0 with pings := ⟨[⟨1, 0⟩], Directory.empty.put 1 1⟩ }

/-- The hypothesis is satisfiable: a task that is launched, delivered and launched again. -/
theorem probes_accounted_twice : ∃ s, (probeMachine id 120).run ProbeState.start
        [.applyPolicy (pingPolicy [⟨1, "tcp", "x", 1⟩]), .pass 100, .pingDone 0 0, .signalDone, .wake,
          .acknowledgeReports [firstPingReport], .pass 200, .tick, .pass 1000000100] = some s ∧
      s.ping.log = [.launched ⟨1, "tcp", "x", 1⟩ 1000000100, .launched ⟨1, "tcp", "x", 1⟩ 100,
        .replaced [] [⟨1, "tcp", "x", 1⟩]] ∧
      (100 : Int) + 1 * 1000000000 ≤ 1000000100 := by
  refine ⟨_, rfl, rfl, ?_⟩
  have hgap := (probes_accounted id 120
    [.applyPolicy (pingPolicy [⟨1, "tcp", "x", 1⟩]), .pass 100, .pingDone 0 0, .signalDone, .wake,
      .acknowledgeReports [firstPingReport], .pass 200, .tick, .pass 1000000100] _ rfl).2.2.2.2.1
    [] [] _ ⟨1, "tcp", "x", 1⟩ 100 1000000100 rfl ⟨by simp, by simp⟩
  exact hgap.2 (by decide) (by decide)

/-- A policy with two tasks under one id forgets the last launch when it is applied again; and an
    interval beyond an `int64` of nanoseconds is none.  Both tasks stay as they are, and are launched
    again at once. -/
theorem early_launches : (∃ s, (probeMachine id 120).run ProbeState.start
        [.applyPolicy (pingPolicy [⟨1, "tcp", "x", 60⟩, ⟨1, "tcp", "y", 60⟩]), .pass 100, .pingDone 0 0,
          .applyPolicy (pingPolicy [⟨1, "tcp", "x", 60⟩, ⟨1, "tcp", "y", 60⟩]), .wake, .pass 200]
          = some s ∧
      s.ping.log = [.launched ⟨1, "tcp", "x", 60⟩ 200,
        .replaced [⟨1, "tcp", "x", 60⟩, ⟨1, "tcp", "y", 60⟩] [⟨1, "tcp", "x", 60⟩, ⟨1, "tcp", "y", 60⟩],
        .launched ⟨1, "tcp", "x", 60⟩ 100,
        .replaced [] [⟨1, "tcp", "x", 60⟩, ⟨1, "tcp", "y", 60⟩]] ∧
      ¬ (100 : Int) + 60 * 1000000000 ≤ 200) ∧
    (∃ s, (probeMachine id 120).run ProbeState.start
        [.applyPolicy (pingPolicy [⟨1, "tcp", "x", 9223372037⟩]), .pass 100, .pingDone 0 0,
          .acknowledgeReports [firstPingReport], .wake, .pass 200] = some s ∧
      s.ping.log = [.launched ⟨1, "tcp", "x", 9223372037⟩ 200, .launched ⟨1, "tcp", "x", 9223372037⟩ 100,
        .replaced [] [⟨1, "tcp", "x", 9223372037⟩]] ∧
      ¬ (100 : Int) + 9223372037 * 1000000000 ≤ 200) := by
  constructor
  · exact ⟨_, rfl, rfl, by decide⟩
  · exact ⟨_, rfl, rfl, by decide⟩

end CfMonitor.Agent
