/-
  Delayed inference and newer data (`syncNetworkMetadataFromReport`, `runClientMetadataSync`,
  `applyInferredNetworkMetadataToLiveReport`).

  1. **Reports in flight** (`Lane.Bears`) — a state that a report has written is of that report; so what is in
     `clients` after a step is of the entry before it, or of the report that was accepted.

  2. **Order** (`NetworkNode.Ordered`) — a value is compared by the report it comes from.  What a task of the
     queue has to write is not older than what any task ahead of it brings; the queue is worked off from the
     front, so the row is never set back.

  3. **Crux** (`Timely`) — nothing in the code compares a task with the reports accepted since.  A task that
     resumes with an address must find that of the latest report where it patches the entry, and must not
     resume after the task of a later report with another value.

  4. **Result** — where the tasks are timely, the latest values stay (`inference_keeps_latest`).
-/
import Mathlib
import CfMonitor.Live.NetworkTasks

namespace CfMonitor.Live

open CfMonitor.Lib
open ReportRules (NetworkPatch)
open Option (some some_or)

/-! ## Reports in flight -/

/-- What a report has written is of that report. -/
def Lane.Bears (n : Lane) : Prop :=
  ∀ r ∈ n.queue, ∀ next, r.phase.pending = some next → next.lastReport = r.request.report

/-- `online` in `updateClientReport`. -/
def LiveReport.online (r : LiveReport) (n : Lane) (socketOpen : Bool) : Bool :=
  match r.request.socket with
  | none => true
  | some socket => n.session == some socket && socketOpen

namespace Lane

section Bears

variable {compact : Fields → Fields} {uuid : String} {restoreVersion : Nat} {controls : Controls}
  {n n' : Lane} {r : LiveReport} {rest : List LiveReport} {putFails : Bool}

theorem Bears.of_queue (h : n.Bears) (hqueue : n'.queue = n.queue) : n'.Bears := by
  intro r hr
  rw [hqueue] at hr
  exact h r hr

theorem Bears.cons (hhead : ∀ next, r.phase.pending = some next → next.lastReport = r.request.report)
    (hrest : ∀ q ∈ rest, ∀ next, q.phase.pending = some next → next.lastReport = q.request.report)
    (hqueue : n'.queue = r :: rest) : n'.Bears := by
  intro q hq
  rw [hqueue] at hq
  rcases List.mem_cons.mp hq with rfl | hq
  · exact hhead
  · exact hrest q hq

/-- The `catch` ends the report, or begins its undo. -/
theorem caught_cases (wrote : Bool) :
    n.caught compact restoreVersion controls r rest wrote putFails = n.finish r rest true ∨
      ∃ stored, n.caught compact restoreVersion controls r rest wrote putFails
        = { n.goto r rest .undoing with stored := stored } := by
  rw [Lane.caught]
  cases wrote with
  | false => exact .inl rfl
  | true =>
    rw [if_pos rfl]
    split
    · exact .inr ⟨_, rfl⟩
    · exact .inr ⟨_, rfl⟩

theorem caught_updated {wrote : Bool} :
    (n.caught compact restoreVersion controls r rest wrote putFails).updated = n.updated := by
  rcases caught_cases (n := n) wrote with h | ⟨stored, h⟩ <;> rw [h] <;> rfl

theorem Bears.caught {wrote : Bool} (hrest : ∀ q ∈ rest, ∀ next, q.phase.pending = some next →
    next.lastReport = q.request.report) : (n.caught compact restoreVersion controls r rest wrote putFails).Bears := by
  rcases caught_cases (n := n) wrote with h | ⟨stored, h⟩
  · rw [h]
    exact hrest
  · rw [h]
    exact Bears.cons (fun next hnext => absurd hnext (by simp [Phase.pending])) hrest rfl

/-- **One step of the running report.** -/
theorem Bears.move (h : n.Bears) (hqueue : n.queue = r :: rest)
    (hmove : Move compact uuid restoreVersion controls n r rest putFails n') : n'.Bears := by
  have hhead := h r (by rw [hqueue]; exact List.mem_cons_self)
  have hrest : ∀ q ∈ rest, ∀ next, q.phase.pending = some next → next.lastReport = q.request.report :=
    fun q hq => h q (by rw [hqueue]; exact List.mem_cons_of_mem _ hq)
  cases hmove with
  | quiet hpending hentries hversion hnext =>
    rcases hnext with hnext | ⟨r', hnext, -, -, hphase⟩
    · intro q hq
      rw [hnext] at hq
      exact hrest q hq
    · refine Bears.cons (fun next hpend => ?_) hrest hnext
      rw [hphase] at hpend
      cases hpend
  | first control hphase =>
    refine Bears.cons (fun next hpend => ?_) hrest rfl
    cases hpend
    rfl
  | check next wrote hphase =>
    refine Bears.cons (fun next' hpend => ?_) hrest rfl
    cases hpend
    exact hhead next (by rw [hphase]; rfl)
  | again next control hphase =>
    refine Bears.cons (fun next' hpend => ?_) hrest rfl
    obtain rfl := some.inj hpend
    exact hhead next (by rw [hphase]; rfl)
  | accept next socketOpen hphase =>
    exact Bears.cons (fun next' hpend => absurd hpend (by simp [Phase.pending])) hrest rfl
  | unwritten next hphase => exact hrest
  | undo hpending => exact Bears.caught hrest

/-- A step that accepts is the last one of the loop of `updateClientReport`. -/
theorem update_of_advance {reply : Reply} {socketOpen : Bool}
    (hstep : n.advance compact uuid restoreVersion controls r rest reply putFails socketOpen = some n')
    (hupdated : n'.updated.length ≠ n.updated.length) :
    ∃ next, r.phase = .checking next ∧ n' = n.update compact r rest next socketOpen := by
  have hmove := move_of_advance hstep
  cases hmove with
  | quiet hpending hentries => exact absurd (congrArg List.length hentries.2.2.2) hupdated
  | undo => exact absurd (congrArg List.length caught_updated) hupdated
  | accept next socketOpen' hphase =>
    refine ⟨next, hphase, ?_⟩
    -- the label says whether the socket is open
    rw [Lane.advance.eq_def] at hstep
    cases reply with
    | snapshot read =>
      simp only [hphase, some.injEq] at hstep
      rw [← hstep, resolvedAgain] at hupdated ⊢
      cases hresolved : n.resolved uuid read next.name next.hidden with
      | none =>
        rw [hresolved] at hupdated
        exact absurd (congrArg List.length caught_updated) hupdated
      | some control =>
        rw [hresolved] at hupdated
        simp only at hupdated ⊢
        split_ifs at hupdated ⊢
        · rfl
        · exact absurd rfl hupdated
        · exact absurd (congrArg List.length caught_updated) hupdated
    | failed =>
      simp only [hphase, some.injEq] at hstep
      rw [← hstep] at hupdated
      exact absurd (congrArg List.length caught_updated) hupdated
    | _ => simp [hphase] at hstep
  | _ => exact absurd rfl hupdated

end Bears

end Lane

section Steps

variable {compact : Fields → Fields} {uuid : String} {w w' : LiveWorld} {e : LiveEvent} {c' : ClientState}

/-- What is in `clients` is of the entry before. -/
def SameEntry (n n' : Lane) : Prop :=
  ∀ c', n'.client = some c' → ∃ c, n.client = some c ∧ c'.lastReport = c.lastReport

variable {n : Lane}

variable {n' : Lane}

theorem SameEntry.of_eq (h : n'.client = n.client) : SameEntry n n' :=
  fun c' hc' => ⟨c', h ▸ hc', rfl⟩

theorem SameEntry.of_none (h : n'.client = none) : SameEntry n n' :=
  fun c' hc' => absurd (h.symm.trans hc') (by simp)

theorem Lane.updateClientMeta_sameEntry (n : Lane) (controls : Controls) (now : Int) :
    SameEntry n (n.updateClientMeta compact controls now) := by
  intro c' hc'
  simp only [Lane.updateClientMeta] at hc'
  cases hnext : (n.client.or n.lastKnown).bind controls.controlledClientState with
  | none =>
    rw [hnext] at hc'
    exact ⟨c', (Option.filter_eq_some_iff.mp hc').1, rfl⟩
  | some next =>
    rw [hnext] at hc'
    have hentry : (if (n.client.filter fun c => c.isOnline now).isSome = true then some next else none)
        = some c' := hc'
    split_ifs at hentry with honline
    cases hentry
    obtain ⟨c, hc⟩ := Option.isSome_iff_exists.mp honline
    have hclient := (Option.filter_eq_some_iff.mp hc).1
    rw [hclient, some_or] at hnext
    exact ⟨c, hclient, (controlledClientState_report hnext).2.2⟩

theorem LiveWorld.sameEntry_setLane {v : String} (h : v = uuid → SameEntry (w.lanes uuid) n) :
    SameEntry (w.lanes uuid) ((w.setLane v n).lanes uuid) := by
  by_cases hv : v = uuid
  · subst hv
    rw [w.setLane_self]
    exact h rfl
  · exact SameEntry.of_eq (by rw [w.setLane_of_ne n hv])

theorem LiveWorld.bears_setLane {v : String} (hbears : (w.lanes uuid).Bears) (h : v = uuid → n.Bears) :
    ((w.setLane v n).lanes uuid).Bears := by
  by_cases hv : v = uuid
  · subst hv
    rw [w.setLane_self]
    exact h rfl
  · rw [w.setLane_of_ne n hv]
    exact hbears

/-- **A step of the object**, but of a report or a patch. -/
theorem liveStep_quiet (hbears : (w.lanes uuid).Bears) (hstep : liveStep compact w e = some w')
    (hpatch : ∀ v report now, e ≠ .inferNetwork v report now)
    (hadvance : ∀ v reply putFails socketOpen, e ≠ .advance v reply putFails socketOpen) :
    (w'.lanes uuid).Bears ∧ SameEntry (w.lanes uuid) (w'.lanes uuid) := by
  cases e with
  | report v request now =>
    rw [liveStep] at hstep
    split_ifs at hstep
    cases hstep
    refine ⟨LiveWorld.bears_setLane hbears fun hv => ?_, LiveWorld.sameEntry_setLane fun hv => ?_⟩
    · subst hv
      intro r hr
      rcases List.mem_append.mp hr with hr | hr
      · exact hbears r hr
      · obtain rfl := List.mem_singleton.mp hr
        rintro _ ⟨⟩
    · subst hv
      exact SameEntry.of_eq rfl
  | advance v reply putFails socketOpen => exact absurd rfl (hadvance v reply putFails socketOpen)
  | removeClient v =>
    cases hstep
    refine ⟨LiveWorld.bears_setLane hbears fun hv => ?_, LiveWorld.sameEntry_setLane fun hv => ?_⟩
    · subst hv
      exact hbears.of_queue rfl
    · exact SameEntry.of_none rfl
  | restoreClients snapshot =>
    cases hstep
    exact ⟨hbears.of_queue rfl, SameEntry.of_none rfl⟩
  | control read =>
    cases hstep
    exact ⟨hbears, SameEntry.of_eq rfl⟩
  | connect v socket =>
    cases hstep
    refine ⟨LiveWorld.bears_setLane hbears fun hv => ?_, LiveWorld.sameEntry_setLane fun hv => ?_⟩
    · subst hv
      exact hbears.of_queue rfl
    · subst hv
      exact SameEntry.of_eq rfl
  | disconnect v socket =>
    cases hstep
    refine ⟨LiveWorld.bears_setLane hbears fun hv => ?_, LiveWorld.sameEntry_setLane fun hv => ?_⟩
    · subst hv
      rw [Lane.cleanupSession]
      split_ifs
      · exact hbears.of_queue rfl
      · exact hbears
    · subst hv
      rw [Lane.cleanupSession]
      split_ifs
      · exact SameEntry.of_none rfl
      · exact SameEntry.of_eq rfl
  | expire now =>
    cases hstep
    refine ⟨hbears.of_queue rfl, fun c' hc' => ⟨c', ?_, rfl⟩⟩
    exact (Option.filter_eq_some_iff.mp hc').1
  | updateClientMeta v now =>
    cases hstep
    refine ⟨LiveWorld.bears_setLane hbears fun hv => ?_, LiveWorld.sameEntry_setLane fun hv => ?_⟩
    · subst hv
      refine hbears.of_queue ?_
      simp only [Lane.updateClientMeta]
      split <;> rfl
    · subst hv
      exact Lane.updateClientMeta_sameEntry _ _ _
  | inferNetwork v report now => exact absurd rfl (hpatch v report now)

/-- **A step of a report**: nothing is accepted and the entry stays, or its report is accepted, and becomes the
    entry if it is online. -/
theorem Lane.advance_cases {restoreVersion : Nat} {controls : Controls} {r : LiveReport}
    {rest : List LiveReport} {reply : Reply} {putFails socketOpen : Bool} (hbears : n.Bears) (hqueue : n.queue = r :: rest)
    (hstep : n.advance compact uuid restoreVersion controls r rest reply putFails socketOpen = some n') :
    n'.Bears ∧ (n.acceptedReport n' = none ∧ n'.client = n.client ∨ ∃ next, n.acceptedReport n' = some r ∧
      next.lastReport = r.request.report ∧ n'.client = if r.online n socketOpen then some next else n.client) := by
  have hmove := Lane.move_of_advance hstep
  refine ⟨hbears.move hqueue hmove, ?_⟩
  by_cases hupdated : n'.updated.length = n.updated.length
  · refine .inl ⟨if_pos hupdated, ?_⟩
    cases hmove with
    | quiet hpending hentries => exact hentries.1
    | accept next socketOpen' hphase =>
      simp [Lane.update] at hupdated
    | undo hpending =>
      rcases Lane.caught_cases (n := n) true with h | ⟨stored, h⟩ <;> rw [h] <;> rfl
    | _ => rfl
  · obtain ⟨next, hphase, rfl⟩ := Lane.update_of_advance hstep hupdated
    refine .inr ⟨next, ?_, ?_, rfl⟩
    · rw [Lane.acceptedReport, if_neg hupdated, hqueue]
      rfl
    · exact hbears r (by rw [hqueue]; exact List.mem_cons_self) next (by rw [hphase]; rfl)

end Steps

/-! ## Order -/

/-- What a task brings of a field: an address from the start, a region once it is known. -/
def NetworkTask.brought (task : NetworkTask) (f : NetworkField) : Option String :=
  if f = .region ∧ task.stage = .inferring then none else task.patch.get f

/-- In the queue of metadata. -/
def NetworkStage.queued : NetworkStage → Bool
  | .waiting | .writing | .upserting => true
  | _ => false

variable {task : NetworkTask}

theorem NetworkTask.brought_address {f : NetworkField} (hf : f ≠ .region) :
    task.brought f = task.patch.get f := by
  rw [NetworkTask.brought, if_neg]
  exact fun h => hf h.1

theorem NetworkTask.brought_known (h : task.stage ≠ .inferring) (f : NetworkField) :
    task.brought f = task.patch.get f := by
  rw [NetworkTask.brought, if_neg]
  exact fun hf => h hf.2

open NetworkTask (brought brought_known)

namespace NetworkNode

/-- A value is of the report `j`, or of one accepted after it. -/
def From (m : NetworkNode) (f : NetworkField) (j : Nat) (x : String) : Prop :=
  ∃ i, j ≤ i ∧ ∃ task, m.tasks[i]? = some task ∧ task.brought f = some x

/-- The value of the latest accepted report that has one. -/
def latest (m : NetworkNode) (f : NetworkField) : Option String :=
  (m.tasks.filterMap fun task => task.patch.get f).getLast?

/-- **The invariant of the tasks** of a node. -/
structure Ordered (database : Bool) (m : NetworkNode) : Prop where
  nodup : m.queue.Nodup
  queued : ∀ id, id ∈ m.queue ↔ ∃ task, m.tasks[id]? = some task ∧ task.stage.queued = true
  waiting : ∀ id rest, m.queue = id :: rest → ∀ k ∈ rest, ∀ task : NetworkTask, m.tasks[k]? = some task →
    task.stage = .waiting
  behind : ∀ ahead id rest, m.queue = ahead ++ id :: rest → ∀ task : NetworkTask, m.tasks[id]? = some task →
    ∀ f x, task.patch.get f = some x → ∀ (j : Nat) (other : NetworkTask), m.tasks[j]? = some other →
      (other.stage = .returned ∨ j ∈ ahead) → (other.brought f).isSome → m.From f j x
  landed : ∀ (id : Nat) (task : NetworkTask), m.tasks[id]? = some task → task.stage = .upserting →
    ∀ f x, task.patch.get f = some x → m.sql.get f = some x
  returned : database = true → ∀ (j : Nat) (task : NetworkTask), m.tasks[j]? = some task → task.stage = .returned →
    ∀ f, (task.brought f).isSome → ∃ x, m.sql.get f = some x ∧ m.From f j x
  origin : ∀ f x, m.sql.get f = some x → m.From f 0 x

section Order

variable {database : Bool} {m : NetworkNode} {id : Nat} {task : NetworkTask} {rest : List Nat}
  {stage : NetworkStage}

theorem tasks_setTask {old : NetworkTask} (hold : m.tasks[id]? = some old) (i : Nat) :
    (m.setTask id task).tasks[i]? = if id = i then some task else m.tasks[i]? := by
  rw [setTask, List.getElem?_set]
  have hlt : id < m.tasks.length := (List.getElem?_eq_some_iff.mp hold).1
  split_ifs with hid
  · rfl
  · rfl

/-- Values stay when tasks keep what they bring. -/
theorem From.mono {m' : NetworkNode} {f : NetworkField} {j : Nat} {x : String} (h : m.From f j x)
    (hkeep : ∀ (i : Nat) (task : NetworkTask), m.tasks[i]? = some task → ∃ task' : NetworkTask, m'.tasks[i]? = some task' ∧
      ∀ f x, task.brought f = some x → task'.brought f = some x) : m'.From f j x := by
  obtain ⟨i, hji, task, htask, hx⟩ := h
  obtain ⟨task', htask', hsame⟩ := hkeep i task htask
  exact ⟨i, hji, task', htask', hsame f x hx⟩

/-- The tasks when one of them has become another, or a new one is there. -/
structure Resumed (m m' : NetworkNode) (id : Nat) (new : NetworkTask) : Prop where
  keep : ∀ (i : Nat) (old : NetworkTask), m.tasks[i]? = some old → ∃ task' : NetworkTask, m'.tasks[i]? = some task' ∧
    ∀ f x, old.brought f = some x → task'.brought f = some x
  other : ∀ (i : Nat) (task' : NetworkTask), m'.tasks[i]? = some task' → i ≠ id → m.tasks[i]? = some task'
  self : ∀ task' : NetworkTask, m'.tasks[id]? = some task' → task' = new
  same : ∀ i : Nat, i ≠ id → m'.tasks[i]? = m.tasks[i]?
  there : m'.tasks[id]? = some new

variable {m' : NetworkNode} {new : NetworkTask}

theorem Resumed.of_same (hthere : m'.tasks[id]? = some new) (hsame : ∀ i : Nat, i ≠ id → m'.tasks[i]? = m.tasks[i]?)
    (hkeep : ∀ old : NetworkTask, m.tasks[id]? = some old → ∀ f x, old.brought f = some x → new.brought f = some x) :
    Resumed m m' id new := by
  constructor
  · intro i old hi
    by_cases hid : i = id
    · subst hid
      exact ⟨new, hthere, hkeep old hi⟩
    · exact ⟨old, (hsame i hid).trans hi, fun f x hx => hx⟩
  · intro i task' hi hid
    exact (hsame i hid).symm.trans hi
  · intro task' hi
    exact (some.inj (hthere.symm.trans hi)).symm
  · exact hsame
  · exact hthere

theorem resumed_setTask (htask : m.tasks[id]? = some task)
    (hkeep : ∀ f x, task.brought f = some x → new.brought f = some x) : Resumed m (m.setTask id new) id new := by
  refine Resumed.of_same ?_ (fun i hid => ?_) fun old hold => ?_
  · rw [tasks_setTask htask, if_pos rfl]
  · rw [tasks_setTask htask, if_neg (Ne.symm hid)]
  · obtain rfl := some.inj (htask.symm.trans hold)
    exact hkeep

/-- Where every task that has resumed before is of an earlier report, or of one that is followed by a report with
    the same value, a task may write its patch. -/
def InOrder (m : NetworkNode) (id : Nat) (patch : NetworkPatch) : Prop :=
  ∀ f x, patch.get f = some x → ∀ (j : Nat) (other : NetworkTask), m.tasks[j]? = some other →
    other.stage ≠ .inferring → other.stage ≠ .thrown → (other.brought f).isSome → j ≤ id ∨ m.From f j x

/-- The place of a task in the queue after the change: behind no other tasks than before, or at the end. -/
def Placed (m : NetworkNode) (id : Nat) (new : NetworkTask) (ahead : List Nat) (i : Nat) : Prop :=
  (∃ ahead' rest', m.queue = ahead' ++ i :: rest' ∧ (∀ j ∈ ahead, j ∈ ahead') ∧
    (new.stage = .returned → (∃ f, (new.brought f).isSome) → id ∈ ahead')) ∨
  (i = id ∧ ahead = m.queue ∧ m.InOrder id new.patch)

theorem not_inferring_of_queued (h : stage.queued = true) : stage ≠ .inferring ∧ stage ≠ .thrown := by
  constructor
  · rintro rfl
    cases h
  · rintro rfl
    cases h

/-- **One task changes**: what it waits behind, and what it has written, is all there is to show. -/
theorem Ordered.changed (h : m.Ordered database) (hset : Resumed m m' id new) (hsql : m'.sql = m.sql)
    (hpatch : id ∈ m.queue → ∃ old : NetworkTask, m.tasks[id]? = some old ∧ old.patch = new.patch)
    (hnodup : m'.queue.Nodup) (hself : id ∈ m'.queue ↔ new.stage.queued = true)
    (hother : ∀ i, i ≠ id → (i ∈ m'.queue ↔ i ∈ m.queue))
    (hwaiting : ∀ first rest, m'.queue = first :: rest → ∀ k ∈ rest,
      k = id ∧ new.stage = .waiting ∨ k ≠ id ∧ k ∈ m.queue.tail)
    (hplace : ∀ ahead i rest, m'.queue = ahead ++ i :: rest → m.Placed id new ahead i)
    (hlanded : new.stage = .upserting → ∀ f x, new.patch.get f = some x → m.sql.get f = some x)
    (hreturned : new.stage = .returned → database = true → ∀ f x, new.brought f = some x → m.sql.get f = some x) :
    m'.Ordered database := by
  constructor
  · exact hnodup
  · intro i
    by_cases hid : i = id
    · subst hid
      rw [hself]
      exact ⟨fun hq => ⟨new, hset.there, hq⟩, fun ⟨other, hi, hq⟩ => hset.self other hi ▸ hq⟩
    · rw [hother i hid, h.queued, hset.same i hid]
  · intro first rest hqueue k hk other hi
    rcases hwaiting first rest hqueue k hk with ⟨rfl, hstage⟩ | ⟨hid, hk'⟩
    · rw [hset.self other hi]
      exact hstage
    · cases hfront : m.queue with
      | nil =>
        rw [hfront] at hk'
        cases hk'
      | cons first' rest' =>
        rw [hfront] at hk'
        exact h.waiting first' rest' hfront k hk' other (hset.other k other hi hid)
  · intro ahead i rest hqueue other hi f x hx j third hj hdone hsome
    -- a task of the old queue has the patch that it had
    have hold : ∀ k ∈ m.queue, ∀ t : NetworkTask, m'.tasks[k]? = some t →
        ∃ old : NetworkTask, m.tasks[k]? = some old ∧ old.patch = t.patch ∧ old.stage.queued = true := by
      intro k hk t ht
      obtain ⟨old, htask, hqueued⟩ := (h.queued k).mp hk
      by_cases hid : k = id
      · subst hid
        obtain ⟨old', htask', hsame⟩ := hpatch hk
        obtain rfl := some.inj (htask.symm.trans htask')
        exact ⟨old, htask, hset.self t ht ▸ hsame, hqueued⟩
      · obtain rfl := some.inj (htask.symm.trans (hset.other k t ht hid))
        exact ⟨old, htask, rfl, hqueued⟩
    rcases hplace ahead i rest hqueue with ⟨ahead', rest', hqueue', hsub, hnew⟩ | ⟨rfl, rfl, horder⟩
    · obtain ⟨old, htask, hsame, -⟩ := hold i (by rw [hqueue']; simp) other hi
      rw [← hsame] at hx
      by_cases hid : j = id
      · -- the task that changes is ahead, as before
        subst hid
        have hin : j ∈ ahead' := by
          rcases hdone with hstage | hmem
          · obtain rfl := hset.self third hj
            exact hnew hstage ⟨f, hsome⟩
          · exact hsub j hmem
        obtain ⟨before, hbefore, hsame', hqueued⟩ :=
          hold j (by rw [hqueue']; exact List.mem_append_left _ hin) third hj
        refine (h.behind ahead' i rest' hqueue' old htask f x hx j before hbefore (.inr hin) ?_).mono hset.keep
        rw [brought_known (not_inferring_of_queued hqueued).1, hsame']
        rw [brought] at hsome
        split_ifs at hsome
        · cases hsome
        · exact hsome
      · exact (h.behind ahead' i rest' hqueue' old htask f x hx j third (hset.other j third hj hid)
          (hdone.imp_right (hsub j)) hsome).mono hset.keep
    · obtain rfl := hset.self other hi
      have hqueued : other.stage.queued = true := hself.mp (by rw [hqueue]; simp)
      have hown : ∀ j ≤ i, m'.From f j x := fun j hle => ⟨i, hle, other, hset.there,
        (brought_known (not_inferring_of_queued hqueued).1 f).trans hx⟩
      by_cases hid : j = i
      · exact hown j hid.le
      · have hj' := hset.other j third hj hid
        have hresumed : third.stage ≠ .inferring ∧ third.stage ≠ .thrown := by
          rcases hdone with hstage | hmem
          · rw [hstage]
            exact ⟨by decide, by decide⟩
          · obtain ⟨old, hsame, hqueued⟩ := (h.queued j).mp hmem
            obtain rfl := some.inj (hj'.symm.trans hsame)
            exact not_inferring_of_queued hqueued
        rcases horder f x hx j third hj' hresumed.1 hresumed.2 hsome with hle | hfrom
        · exact hown j hle
        · exact hfrom.mono hset.keep
  · intro i other hi hupserting f x hx
    rw [hsql]
    by_cases hid : i = id
    · subst hid
      obtain rfl := hset.self other hi
      exact hlanded hupserting f x hx
    · exact h.landed i other (hset.other i other hi hid) hupserting f x hx
  · intro hdatabase j other hj hdone f hsome
    rw [hsql]
    by_cases hid : j = id
    · subst hid
      obtain rfl := hset.self other hj
      obtain ⟨x, hx⟩ := Option.isSome_iff_exists.mp hsome
      exact ⟨x, hreturned hdone hdatabase f x hx, j, le_refl j, other, hj, hx⟩
    · obtain ⟨x, hx, hfrom⟩ := h.returned hdatabase j other (hset.other j other hj hid) hdone f hsome
      exact ⟨x, hx, hfrom.mono hset.keep⟩
  · intro f x hx
    rw [hsql] at hx
    exact (h.origin f x hx).mono hset.keep

/-- A task beside the queue changes, or is new. -/
theorem Ordered.aside (h : m.Ordered database) (hset : Resumed m m' id new) (hsql : m'.sql = m.sql)
    (hqueue : m'.queue = m.queue) (hout : id ∉ m.queue) (hstage : new.stage.queued = false)
    (hnothing : new.stage = .returned → ∀ f, new.brought f = none) : m'.Ordered database := by
  refine h.changed hset hsql (fun hid => absurd hid hout) (hqueue ▸ h.nodup) ?_ (fun i _ => by rw [hqueue]) ?_ ?_ ?_ ?_
  · rw [hqueue, hstage]
    exact ⟨fun hid => absurd hid hout, nofun⟩
  · intro first rest hcons k hk
    rw [hqueue] at hcons
    refine .inr ⟨fun hid => hout ?_, by rw [hcons]; exact hk⟩
    rw [← hid, hcons]
    exact List.mem_cons_of_mem _ hk
  · intro ahead i rest hsplit
    refine .inl ⟨ahead, rest, hqueue ▸ hsplit, fun j hj => hj, fun hdone ⟨f, hsome⟩ => ?_⟩
    rw [hnothing hdone f] at hsome
    cases hsome
  · intro hupserting
    rw [hupserting] at hstage
    cases hstage
  · intro hdone _ f x hx
    rw [hnothing hdone f] at hx
    cases hx

theorem Ordered.append (h : m.Ordered database) (hstage : task.stage = .inferring) :
    Ordered database { m with tasks := m.tasks ++ [task] } := by
  have hset : Resumed m { m with tasks := m.tasks ++ [task] } m.tasks.length task := by
    refine Resumed.of_same List.getElem?_concat_length (fun i hid => ?_) fun old hold => ?_
    · rcases Nat.lt_or_gt_of_ne hid with hlt | hgt
      · exact List.getElem?_append_left hlt
      · rw [List.getElem?_eq_none hgt.le, List.getElem?_eq_none (by simp; omega)]
    · rw [List.getElem?_eq_none (Nat.le_refl _)] at hold
      cases hold
  refine h.aside hset rfl rfl (fun hid => ?_) (by rw [hstage]; rfl) fun hdone => ?_
  · obtain ⟨old, hold, -⟩ := (h.queued _).mp hid
    rw [List.getElem?_eq_none (Nat.le_refl _)] at hold
    cases hold
  · cases hstage.symm.trans hdone

theorem Ordered.head (h : m.Ordered database) (hqueue : m.queue = id :: rest) (htask : m.tasks[id]? = some task) :
    task.stage.queued = true ∧ id ∉ rest := by
  obtain ⟨old, hold, hqueued⟩ := (h.queued id).mp (by rw [hqueue]; exact List.mem_cons_self)
  obtain rfl := some.inj (hold.symm.trans htask)
  have hnodup := h.nodup
  rw [hqueue] at hnodup
  exact ⟨hqueued, (List.nodup_cons.mp hnodup).1⟩

theorem restaged (htask : m.tasks[id]? = some task) (hold : task.stage.queued = true) (hstage : stage ≠ .inferring) :
    Resumed m (m.setTask id { task with stage := stage }) id { task with stage := stage } := by
  refine resumed_setTask htask fun f x hx => ?_
  rw [brought_known hstage]
  rwa [brought_known (not_inferring_of_queued hold).1] at hx

/-- **The running task goes on.** -/
theorem Ordered.stay (h : m.Ordered database) (hqueue : m.queue = id :: rest) (htask : m.tasks[id]? = some task)
    (hstage : stage.queued = true)
    (hlanded : stage = .upserting → ∀ f x, task.patch.get f = some x → m.sql.get f = some x) :
    Ordered database (m.setTask id { task with stage := stage }) := by
  obtain ⟨hqueued, hrest⟩ := h.head hqueue htask
  have hnotReturned : stage ≠ .returned := by
    rintro rfl
    cases hstage
  refine h.changed (restaged htask hqueued (not_inferring_of_queued hstage).1) rfl (fun _ => ⟨task, htask, rfl⟩)
    h.nodup ?_ (fun _ _ => Iff.rfl) ?_ ?_ hlanded fun hdone => absurd hdone hnotReturned
  · show id ∈ m.queue ↔ _
    rw [hqueue]
    exact ⟨fun _ => hstage, fun _ => List.mem_cons_self⟩
  · intro first rest' hqueue' k hk
    obtain ⟨rfl, rfl⟩ := List.cons.inj (hqueue.symm.trans hqueue')
    exact .inr ⟨fun hid => hrest (hid ▸ hk), by rw [hqueue]; exact hk⟩
  · intro ahead i rest' hsplit
    exact .inl ⟨ahead, rest', hsplit, fun j hj => hj, fun hdone => absurd hdone hnotReturned⟩

/-- **The running task leaves the queue.** -/
theorem Ordered.leave (h : m.Ordered database) (hqueue : m.queue = id :: rest) (htask : m.tasks[id]? = some task)
    (hstage : stage = .returned ∨ stage = .thrown)
    (hwritten : stage = .returned → database = true → ∀ f x, task.patch.get f = some x → m.sql.get f = some x) :
    Ordered database (m.leave id task rest stage) := by
  obtain ⟨hqueued, hrest⟩ := h.head hqueue htask
  have hdone : stage ≠ .inferring ∧ stage ≠ .upserting ∧ stage.queued = false := by
    rcases hstage with rfl | rfl <;> exact ⟨by decide, by decide, rfl⟩
  obtain ⟨hkeep, hother, hself, hsame, hthere⟩ := restaged htask hqueued hdone.1
  have hnodup := h.nodup
  rw [hqueue] at hnodup
  refine h.changed ⟨hkeep, hother, hself, hsame, hthere⟩ rfl (fun _ => ⟨task, htask, rfl⟩)
    (List.nodup_cons.mp hnodup).2 ⟨fun hid => absurd hid hrest, fun hq => ?_⟩ (fun i hid => ?_) ?_ ?_
    (fun hupserting => absurd hupserting hdone.2.1) fun hreturned hdatabase f x hx => ?_
  · cases hdone.2.2.symm.trans hq
  · rw [hqueue, List.mem_cons, or_iff_right hid]
    rfl
  · intro first rest' hqueue' k hk
    have hmem : k ∈ rest := (show rest = first :: rest' from hqueue') ▸ List.mem_cons_of_mem _ hk
    exact .inr ⟨fun hid => hrest (hid ▸ hmem), by rw [hqueue]; exact hmem⟩
  · intro ahead i rest' hsplit
    refine .inl ⟨id :: ahead, rest', ?_, fun j hj => List.mem_cons_of_mem _ hj, fun _ _ => List.mem_cons_self⟩
    rw [hqueue, show rest = ahead ++ i :: rest' from hsplit, List.cons_append]
  · rw [brought_known hdone.1] at hx
    exact hwritten hreturned hdatabase f x hx

/-- **The running task writes the row**: nothing in it is set back. -/
theorem Ordered.write (h : m.Ordered database) (hqueue : m.queue = id :: rest) (htask : m.tasks[id]? = some task)
    (hstage : task.stage = .writing) : Ordered database { m with sql := task.patch.over m.sql } := by
  have hbrought : ∀ f, task.brought f = task.patch.get f := brought_known (by rw [hstage]; decide)
  refine ⟨h.nodup, h.queued, h.waiting, h.behind, ?_, ?_, ?_⟩
  · intro i other hother hupserting
    -- no other task is at its call
    have hmem := (h.queued i).mpr ⟨other, hother, by rw [hupserting]; rfl⟩
    rw [hqueue] at hmem
    rcases List.mem_cons.mp hmem with rfl | hmem
    · obtain rfl := some.inj (htask.symm.trans hother)
      cases hstage.symm.trans hupserting
    · exact absurd ((h.waiting id rest hqueue i hmem other hother).symm.trans hupserting) (by decide)
  · intro hdatabase j other hother hreturned f hsome
    cases hpatch : task.patch.get f with
    | none =>
      obtain ⟨x, hx, hfrom⟩ := h.returned hdatabase j other hother hreturned f hsome
      exact ⟨x, by rw [ReportRules.NetworkPatch.get_over, hpatch]; exact hx, hfrom⟩
    | some x =>
      refine ⟨x, by rw [ReportRules.NetworkPatch.get_over, hpatch]; rfl, ?_⟩
      exact h.behind [] id rest hqueue task htask f x hpatch j other hother (.inl hreturned) hsome
  · intro f x hx
    rw [ReportRules.NetworkPatch.get_over] at hx
    cases hpatch : task.patch.get f with
    | none =>
      rw [hpatch, Option.none_or] at hx
      exact h.origin f x hx
    | some y =>
      rw [hpatch, some_or] at hx
      exact ⟨id, Nat.zero_le _, task, htask, by rw [hbrought, hpatch, hx]⟩

theorem resumed (htask : m.tasks[id]? = some task) (hold : task.stage = .inferring)
    (haddress : ∀ f, f ≠ .region → new.patch.get f = task.patch.get f) (hknown : new.stage ≠ .inferring) :
    Resumed m (m.setTask id new) id new := by
  refine resumed_setTask htask fun f x hx => ?_
  -- what it brought before were addresses
  have hf : f ≠ .region := by
    rintro rfl
    rw [brought, if_pos ⟨rfl, hold⟩] at hx
    cases hx
  rw [NetworkTask.brought_address hf] at hx
  rw [brought_known hknown, haddress f hf, hx]

theorem Ordered.not_queued (h : m.Ordered database) (htask : m.tasks[id]? = some task)
    (hold : task.stage = .inferring) : id ∉ m.queue := by
  intro hid
  obtain ⟨old, hsame, hqueued⟩ := (h.queued id).mp hid
  obtain rfl := some.inj (htask.symm.trans hsame)
  rw [hold] at hqueued
  cases hqueued

theorem Ordered.resume_nothing (h : m.Ordered database) (htask : m.tasks[id]? = some task)
    (hold : task.stage = .inferring) (haddress : ∀ f, f ≠ .region → new.patch.get f = task.patch.get f)
    (hreturned : new.stage = .returned) (hempty : new.patch.isEmpty = true) :
    Ordered database (m.setTask id new) := by
  have hknown : new.stage ≠ .inferring := by rw [hreturned]; decide
  refine h.aside (resumed htask hold haddress hknown) rfl rfl (h.not_queued htask hold) (by rw [hreturned]; rfl)
    fun _ f => ?_
  rw [brought_known hknown]
  exact ReportRules.NetworkPatch.get_of_isEmpty hempty f

/-- **A task takes its place in the queue.** -/
theorem Ordered.resume_waiting (h : m.Ordered database) (htask : m.tasks[id]? = some task)
    (hold : task.stage = .inferring) (haddress : ∀ f, f ≠ .region → new.patch.get f = task.patch.get f)
    (hwaiting : new.stage = .waiting) (horder : m.InOrder id new.patch) :
    Ordered database { m.setTask id new with queue := m.queue ++ [id] } := by
  have hout := h.not_queued htask hold
  have hnotReturned : new.stage ≠ .returned := by rw [hwaiting]; decide
  obtain ⟨hkeep, hother, hself, hsame, hthere⟩ := resumed htask hold haddress (by rw [hwaiting]; decide)
  refine h.changed ⟨hkeep, hother, hself, hsame, hthere⟩ rfl (fun hid => absurd hid hout) ?_
    ⟨fun _ => by rw [hwaiting]; rfl, fun _ => List.mem_append_right _ List.mem_cons_self⟩ (fun i hid => ?_) ?_ ?_
    (fun hupserting => absurd (hwaiting.symm.trans hupserting) (by decide)) fun hdone => absurd hdone hnotReturned
  · exact List.nodup_append.mpr ⟨h.nodup, by simp, fun i hi k hk heq =>
      hout (List.mem_singleton.mp hk ▸ heq ▸ hi)⟩
  · show i ∈ m.queue ++ [id] ↔ _
    simp [hid]
  · intro first rest hqueue k hk
    have hwhole : m.queue ++ [id] = first :: rest := hqueue
    by_cases hid : k = id
    · exact .inl ⟨hid, hwaiting⟩
    · refine .inr ⟨hid, ?_⟩
      cases hfront : m.queue with
      | nil =>
        rw [hfront, List.nil_append] at hwhole
        obtain ⟨-, rfl⟩ := List.cons.inj hwhole
        cases hk
      | cons first' rest' =>
        rw [hfront, List.cons_append] at hwhole
        obtain ⟨rfl, rfl⟩ := List.cons.inj hwhole
        exact (List.mem_append.mp hk).resolve_right fun hk => hid (List.mem_singleton.mp hk)
  · intro ahead i rest hqueue
    have hwhole : m.queue ++ [id] = ahead ++ i :: rest := hqueue
    rcases List.eq_nil_or_concat rest with rfl | ⟨front, last, rfl⟩
    · -- the new one, at the end
      obtain ⟨rfl, hlast⟩ := List.append_inj' hwhole rfl
      exact .inr ⟨(List.singleton_inj.mp hlast).symm, rfl, horder⟩
    · -- one of those before
      have hsplit : m.queue ++ [id] = (ahead ++ i :: front) ++ [last] := by
        rw [hwhole, List.concat_eq_append, List.append_assoc, List.cons_append]
      exact .inl ⟨ahead, front, (List.append_inj' hsplit rfl).1, fun j hj => hj, fun hdone => absurd hdone hnotReturned⟩

/-- **A task resumes.** -/
theorem Ordered.resume (h : m.Ordered database) (htask : m.tasks[id]? = some task) (hold : task.stage = .inferring)
    {patch : NetworkPatch} (haddress : ∀ f, f ≠ .region → patch.get f = task.patch.get f) (horder : m.InOrder id patch) :
    Ordered database (m.resume id task patch) := by
  rw [NetworkNode.resume]
  split_ifs with hempty
  · exact h.resume_nothing htask hold haddress rfl hempty
  · exact h.resume_waiting htask hold haddress rfl horder

end Order

end NetworkNode

/-! ## The entry in `clients` -/

section Entry

variable {rules : NetworkRules} {patch : NetworkPatch} {n : Lane} {controls : Controls} {now : Int}

/-- The entry can be patched: there is one, under its control row, and it has not expired. -/
def Lane.Patchable (controls : Controls) (now : Int) (n : Lane) : Prop :=
  ∃ source current, n.client = some source ∧ controls.controlledClientState source = some current ∧
    (current.expiresAt.any fun at_ => decide (at_ ≤ now)) = false

/-- The address of a report, if it is a public one. -/
def NetworkRules.publicAddress (rules : NetworkRules) (report : Fields) (f : NetworkField) : Option String :=
  ((Json.str? (Assoc.get? report f.key)).filter rules.isPublicIpAddress).map trim

variable {f : NetworkField}

theorem NetworkRules.get_ownPatch (hf : f ≠ .region) (report : Fields) :
    (rules.ownPatch report).get f = rules.publicAddress report f := by
  cases f with
  | region => exact absurd rfl hf
  | _ => rfl

/-- An address that a task has. -/
def NetworkRules.Proper (rules : NetworkRules) (patch : NetworkPatch) : Prop :=
  ∀ f, f ≠ .region → ∀ x, patch.get f = some x → trim x = x ∧ rules.isPublicIpAddress x = true

theorem NetworkRules.ownPatch_proper (report : Fields) : rules.Proper (rules.ownPatch report) := by
  intro f hf x hx
  rw [rules.get_ownPatch hf, NetworkRules.publicAddress] at hx
  obtain ⟨s, hs, rfl⟩ := Option.map_eq_some_iff.mp hx
  have hpublic := (Option.filter_eq_some_iff.mp hs).2
  exact ⟨trim_trim s, (rules.isPublicIpAddress_trim s).trans hpublic⟩

theorem NetworkRules.get_withRegion (hf : f ≠ .region) (patch : NetworkPatch) (region : String) :
    (rules.withRegion patch region).get f = patch.get f := by
  rw [NetworkRules.withRegion]
  split_ifs
  · cases f with
    | region => exact absurd rfl hf
    | _ => rfl
  · rfl

variable {useful : String → Bool} {field x : String}

theorem str?_patchField (report : Fields) (huseful : useful x = true) (htrim : trim x = x) (hx : x ≠ "") :
    Json.str? (Assoc.get? (ReportRules.patchField useful field (some x) report) field) = some x := by
  rw [ReportRules.patchField]
  simp only [htrim]
  split_ifs with hchange
  · rw [Assoc.get?_set, if_pos rfl]
    rfl
  · by_contra hother
    exact hchange ⟨huseful, hx, hother⟩

theorem get?_patchField_other {k : String} (hk : k ≠ field) (value : Option String)
    (report : Fields) : Assoc.get? (ReportRules.patchField useful field value report) k = Assoc.get? report k := by
  rw [ReportRules.patchField.eq_def]
  split
  · split_ifs
    · rw [Assoc.get?_set, if_neg hk]
    · rfl
  · rfl

theorem address_keys_ne :
    "ipv4" ≠ "ipv6" ∧ "ipv4" ≠ "region" ∧ "ipv6" ≠ "region" ∧ "ipv6" ≠ "ipv4" := by decide

theorem get?_inferredReport (hf : f ≠ .region) (hpatch : patch.get f = none) (report : Fields) :
    Assoc.get? (rules.inferredReport patch report) f.key = Assoc.get? report f.key := by
  obtain ⟨h46, h4r, h6r, h64⟩ := address_keys_ne
  rw [ReportRules.inferredReport]
  cases f with
  | ipv4 =>
    have hnone : patch.ipv4 = none := hpatch
    rw [hnone, show NetworkField.ipv4.key = "ipv4" from rfl, get?_patchField_other h4r, get?_patchField_other h46]
    rfl
  | ipv6 =>
    have hnone : patch.ipv6 = none := hpatch
    rw [hnone, show NetworkField.ipv6.key = "ipv6" from rfl, get?_patchField_other h6r]
    exact get?_patchField_other h64 _ _
  | region => exact absurd rfl hf

theorem str?_inferredReport (hproper : rules.Proper patch) (hf : f ≠ .region)
    (hpatch : patch.get f = some x) (report : Fields) :
    Json.str? (Assoc.get? (rules.inferredReport patch report) f.key) = some x := by
  obtain ⟨htrim, hpublic⟩ := hproper f hf x hpatch
  have hx : x ≠ "" := by
    rintro rfl
    rw [rules.isPublicIpAddress_blank] at hpublic
    cases hpublic
  obtain ⟨h46, h4r, h6r, -⟩ := address_keys_ne
  rw [ReportRules.inferredReport]
  cases f with
  | ipv4 =>
    have hsome : patch.ipv4 = some x := hpatch
    rw [hsome, show NetworkField.ipv4.key = "ipv4" from rfl, get?_patchField_other h4r, get?_patchField_other h46]
    exact str?_patchField report hpublic htrim hx
  | ipv6 =>
    have hsome : patch.ipv6 = some x := hpatch
    rw [hsome, show NetworkField.ipv6.key = "ipv6" from rfl, get?_patchField_other h6r]
    exact str?_patchField _ hpublic htrim hx
  | region => exact absurd rfl hf

/-- A patch without effect is in the report. -/
theorem str?_of_unchanged (hproper : rules.Proper patch) (hf : f ≠ .region)
    (hpatch : patch.get f = some x) {report : Fields} (hsame : rules.patchChanges patch report = false) :
    Json.str? (Assoc.get? report f.key) = some x := by
  obtain ⟨htrim, hpublic⟩ := hproper f hf x hpatch
  have hx : x ≠ "" := by
    rintro rfl
    rw [rules.isPublicIpAddress_blank] at hpublic
    cases hpublic
  have hfield : ∀ field, NetworkRules.fieldChanges rules.isPublicIpAddress field (some x) report = false →
      Json.str? (Assoc.get? report field) = some x := by
    intro field hfalse
    by_contra hother
    have htrue : NetworkRules.fieldChanges rules.isPublicIpAddress field (some x) report = true := by
      simp [NetworkRules.fieldChanges, hpublic, htrim, hx, hother]
    cases htrue.symm.trans hfalse
  simp only [NetworkRules.patchChanges, Bool.or_eq_false_iff] at hsame
  obtain ⟨⟨hipv4, hipv6⟩, -⟩ := hsame
  cases f with
  | ipv4 =>
    rw [show patch.ipv4 = some x from hpatch] at hipv4
    exact hfield _ hipv4
  | ipv6 =>
    rw [show patch.ipv6 = some x from hpatch] at hipv6
    exact hfield _ hipv6
  | region => exact absurd rfl hf

/-- What a patch does to a node. -/
structure Applied (rules : NetworkRules) (controls : Controls) (patch : NetworkPatch) (now : Int) (n n' : Lane) :
    Prop where
  queue : n'.queue = n.queue
  entry : ∀ c', n'.client = some c' → ∃ c, n.client = some c ∧
    ∀ f, f ≠ .region → patch.get f = none → Assoc.get? c'.lastReport f.key = Assoc.get? c.lastReport f.key
  unpatched : ¬ n.Patchable controls now → n'.client = n.client
  patched : n.Patchable controls now → rules.Proper patch → ∀ c', n'.client = some c' →
    ∀ f, f ≠ .region → ∀ x, patch.get f = some x → Json.str? (Assoc.get? c'.lastReport f.key) = some x

theorem Lane.applied (n : Lane) :
    Applied rules controls patch now n (n.applyInferredNetworkMetadataToLiveReport rules controls patch now) := by
  rw [Lane.applyInferredNetworkMetadataToLiveReport]
  cases hclient : n.client with
  | none =>
    constructor
    · rfl
    · exact fun c' hc' => absurd (hclient.symm.trans hc') (by simp)
    · exact fun _ => rfl
    · exact fun _ _ c' hc' => absurd (hclient.symm.trans hc') (by simp)
  | some source =>
    simp only
    split_ifs with hchanges
    · rw [Lane.inferNetwork, hclient, Option.bind_some]
      cases hcurrent : controls.controlledClientState source with
      | none =>
        constructor
        · rfl
        · exact fun c' hc' => ⟨c', hc', fun _ _ _ => rfl⟩
        · exact fun _ => rfl
        · rintro ⟨source', current, hsource, hcontrolled, -⟩
          obtain rfl := some.inj (hclient.symm.trans hsource)
          cases hcurrent.symm.trans hcontrolled
      | some current =>
        simp only
        split_ifs with hexpired
        · constructor
          · rfl
          · exact fun c' hc' => ⟨c', hc', fun _ _ _ => rfl⟩
          · exact fun _ => rfl
          · rintro ⟨source', current', hsource, hcontrolled, hunexpired⟩
            obtain rfl := some.inj (hclient.symm.trans hsource)
            obtain rfl := some.inj (hcurrent.symm.trans hcontrolled)
            cases hexpired.symm.trans hunexpired
        · constructor
          · rfl
          · intro c' hc'
            cases hc'
            exact ⟨source, hclient, fun f hf hnone => get?_inferredReport hf hnone source.lastReport⟩
          · intro hnot
            exact absurd ⟨source, current, hclient, hcurrent, by simpa using hexpired⟩ hnot
          · intro _ hproper c' hc' f hf x hx
            cases hc'
            exact str?_inferredReport hproper hf hx source.lastReport
    · constructor
      · rfl
      · exact fun c' hc' => ⟨c', hc', fun _ _ _ => rfl⟩
      · exact fun _ => rfl
      · intro _ hproper c' hc' f hf x hx
        obtain rfl := some.inj (hclient.symm.trans hc')
        exact str?_of_unchanged hproper hf hx (by simpa using hchanges)

end Entry

/-! ## Timely tasks -/

/-- The addresses in `clients` are of the latest accepted reports that carried one. -/
def Lane.Current (rules : NetworkRules) (n : Lane) (m : NetworkNode) : Prop :=
  ∀ c, n.client = some c → ∀ f, f ≠ .region → ∀ x, rules.publicAddress c.lastReport f = some x → m.latest f = some x

/-- **What the code does not see to.**  A report that is accepted but not online has the addresses of the entry,
    or its task patches that at once.  A task that resumes has the addresses of the latest report, where it
    patches the entry, and comes after no task of a later report with another value.  A task whose patch was the
    last that was written without an error finds it in the row. -/
def Timely (rules : NetworkRules) (uuid : String) (w : NetworkWorld) : NetworkEvent → Prop
  | .live (.advance v reply putFails socketOpen) => v = uuid → ∀ live,
      liveStep rules.compactLiveReport w.live (.advance v reply putFails socketOpen) = some live →
      ∀ r, (w.live.lanes uuid).acceptedReport (live.lanes uuid) = some r →
      r.online (w.live.lanes uuid) socketOpen = false →
      (rules.detailed (rules.ownPatch r.request.report) = true ∧
        (w.live.lanes uuid).Patchable live.controls r.lifecycle.receivedAt) ∨
      ∀ c, (w.live.lanes uuid).client = some c → ∀ f, f ≠ .region → ∀ x y,
        rules.publicAddress r.request.report f = some x → rules.publicAddress c.lastReport f = some y → y = x
  | .infer v id answer => v = uuid → ∀ task, (w.nodes uuid).tasks[id]? = some task →
      let patch := rules.withRegion task.patch (rules.inferRegionFromPublicIp task.patch.address answer)
      ((w.live.lanes uuid).Patchable w.live.controls task.receivedAt →
        ∀ f, f ≠ .region → ∀ x, patch.get f = some x → (w.nodes uuid).latest f = some x) ∧
      (w.nodes uuid).InOrder id patch
  | .sync v => v = uuid → ∀ id task rest, (w.nodes uuid).running = some (id, task, rest) →
      (w.nodes uuid).signature = some task.patch → ∀ f x, task.patch.get f = some x → (w.nodes uuid).sql.get f = some x
  | _ => True

/-- **The invariant** of the object with its tasks. -/
structure NetworkWorld.Kept (rules : NetworkRules) (uuid : String) (w : NetworkWorld) : Prop where
  bears : (w.live.lanes uuid).Bears
  proper : ∀ task ∈ (w.nodes uuid).tasks, rules.Proper task.patch
  ordered : (w.nodes uuid).Ordered rules.database
  current : (w.live.lanes uuid).Current rules (w.nodes uuid)

section Steps

variable {rules : NetworkRules} {uuid : String} {w w' : NetworkWorld} {e : NetworkEvent} {m : NetworkNode}
  {n n' : Lane} {id : Nat} {task : NetworkTask} {patch : NetworkPatch} {controls : Controls}

theorem NetworkNode.latest_append (f : NetworkField) :
    NetworkNode.latest { m with tasks := m.tasks ++ [task] } f = (task.patch.get f).or (m.latest f) := by
  rw [NetworkNode.latest, NetworkNode.latest, List.filterMap_append, List.getLast?_append]
  cases htask : task.patch.get f with
  | none => simp [htask]
  | some x => simp [htask]

theorem NetworkNode.latest_setTask {new : NetworkTask} {f : NetworkField} (htask : m.tasks[id]? = some task)
    (hsame : new.patch.get f = task.patch.get f) : (m.setTask id new).latest f = m.latest f := by
  have hmap : (m.setTask id new).tasks.map (fun task => task.patch.get f) = m.tasks.map fun task => task.patch.get f := by
    refine List.ext_getElem? fun i => ?_
    rw [List.getElem?_map, List.getElem?_map, tasks_setTask htask]
    split_ifs with hid
    · subst hid
      rw [htask, Option.map_some, Option.map_some, hsame]
    · rfl
  have hfilter : ∀ tasks : List NetworkTask, tasks.filterMap (fun task => task.patch.get f)
      = (tasks.map fun task => task.patch.get f).filterMap fun x => x := by
    intro tasks
    rw [List.filterMap_map]
    rfl
  rw [NetworkNode.latest, NetworkNode.latest, hfilter, hmap, ← hfilter]

theorem Lane.Current.of_latest {m' : NetworkNode} (h : n.Current rules m)
    (hsame : ∀ f, f ≠ .region → m'.latest f = m.latest f) : n.Current rules m' := by
  intro c hc f hf x hx
  rw [hsame f hf]
  exact h c hc f hf x hx

theorem Lane.Current.of_sameEntry (h : n.Current rules m) (hsame : SameEntry n n') : n'.Current rules m := by
  intro c' hc' f hf x hx
  obtain ⟨c, hc, hreport⟩ := hsame c' hc'
  rw [hreport] at hx
  exact h c hc f hf x hx

/-- **A patch of the entry** leaves the addresses of the latest reports there. -/
theorem Lane.current_patched (hproper : rules.Proper patch) {now : Int}
    (hentry : ∀ c, n.client = some c → ∀ f, f ≠ .region → ∀ x, rules.publicAddress c.lastReport f = some x →
      m.latest f = some x ∨ n.Patchable controls now ∧ patch.get f ≠ none)
    (hpatch : n.Patchable controls now → ∀ f, f ≠ .region → ∀ x, patch.get f = some x → m.latest f = some x) :
    Lane.Current rules (if patch.isEmpty then n
      else n.applyInferredNetworkMetadataToLiveReport rules controls patch now) m := by
  split_ifs with hempty
  · intro c hc f hf x hx
    rcases hentry c hc f hf x hx with hlatest | ⟨-, hsome⟩
    · exact hlatest
    · exact absurd (ReportRules.NetworkPatch.get_of_isEmpty hempty f) hsome
  · have happlied : Applied rules controls patch now n
        (n.applyInferredNetworkMetadataToLiveReport rules controls patch now) := n.applied
    intro c' hc' f hf x hx
    cases hfield : patch.get f with
    | none =>
      obtain ⟨c, hc, hsame⟩ := happlied.entry c' hc'
      rw [NetworkRules.publicAddress, hsame f hf hfield] at hx
      rcases hentry c hc f hf x hx with hlatest | ⟨-, hsome⟩
      · exact hlatest
      · exact absurd hfield hsome
    | some y =>
      by_cases hpatchable : n.Patchable controls now
      · obtain ⟨htrim, hpublic⟩ := hproper f hf y hfield
        have htext := happlied.patched hpatchable hproper c' hc' f hf y hfield
        rw [NetworkRules.publicAddress, htext, Option.filter_some, if_pos hpublic, Option.map_some, htrim] at hx
        obtain rfl := some.inj hx
        exact hpatch hpatchable f hf y hfield
      · rw [happlied.unpatched hpatchable] at hc'
        rcases hentry c' hc' f hf x hx with hlatest | ⟨hyes, -⟩
        · exact hlatest
        · exact absurd hyes hpatchable

/-- **A task resumes**, at a node where everything is in place. -/
theorem continueTask_kept (hbears : n.Bears) (hmproper : ∀ task ∈ m.tasks, rules.Proper task.patch)
    (hordered : m.Ordered rules.database) (htask : m.tasks[id]? = some task) (hold : task.stage = .inferring)
    (haddress : ∀ f, f ≠ .region → patch.get f = task.patch.get f) (horder : m.InOrder id patch)
    (hentry : ∀ c, n.client = some c → ∀ f, f ≠ .region → ∀ x, rules.publicAddress c.lastReport f = some x →
      m.latest f = some x ∨ n.Patchable controls task.receivedAt ∧ patch.get f ≠ none)
    (hpatch : n.Patchable controls task.receivedAt → ∀ f, f ≠ .region → ∀ x, patch.get f = some x →
      m.latest f = some x) :
    (continueTask rules controls n m id task patch).1.Bears ∧
    (∀ task' ∈ (continueTask rules controls n m id task patch).2.tasks, rules.Proper task'.patch) ∧
    (continueTask rules controls n m id task patch).2.Ordered rules.database ∧
    (continueTask rules controls n m id task patch).1.Current rules (continueTask rules controls n m id task patch).2 := by
  have hproper : rules.Proper patch := by
    intro f hf x hx
    rw [haddress f hf] at hx
    exact hmproper task (List.mem_of_getElem? htask) f hf x hx
  have htasks : ∃ new : NetworkTask, new.patch = patch ∧ (m.resume id task patch).tasks = (m.setTask id new).tasks := by
    rw [NetworkNode.resume]
    split_ifs
    · exact ⟨_, rfl, rfl⟩
    · exact ⟨_, rfl, rfl⟩
  obtain ⟨new, hnew, htasks⟩ := htasks
  refine ⟨?_, ?_, hordered.resume htask hold haddress horder, ?_⟩
  · rw [continueTask]
    dsimp only
    split_ifs
    · exact hbears
    · exact hbears.of_queue n.applied.queue
  · intro task' htask'
    rw [show (continueTask rules controls n m id task patch).2 = m.resume id task patch from rfl, htasks] at htask'
    rcases List.mem_or_eq_of_mem_set htask' with hmem | rfl
    · exact hmproper task' hmem
    · rw [hnew]
      exact hproper
  · refine Lane.Current.of_latest (Lane.current_patched hproper hentry hpatch) fun f hf => ?_
    rw [show (continueTask rules controls n m id task patch).2 = m.resume id task patch from rfl, NetworkNode.latest, htasks]
    exact NetworkNode.latest_setTask htask (by rw [hnew, haddress f hf])

/-- **A task starts** with the acceptance of its report. -/
theorem startTask_kept {r : LiveReport} (hbears : n.Bears) (hmproper : ∀ task ∈ m.tasks, rules.Proper task.patch)
    (hordered : m.Ordered rules.database)
    (hentry : ∀ c, n.client = some c → ∀ f, f ≠ .region → ∀ y, rules.publicAddress c.lastReport f = some y →
      (∀ x, rules.publicAddress r.request.report f = some x → y = x) ∧
        (rules.publicAddress r.request.report f = none → m.latest f = some y) ∨
      rules.detailed (rules.ownPatch r.request.report) = true ∧ n.Patchable controls r.lifecycle.receivedAt ∧
        rules.publicAddress r.request.report f ≠ none) :
    (startTask rules controls n m r).1.Bears ∧
    (∀ task' ∈ (startTask rules controls n m r).2.tasks, rules.Proper task'.patch) ∧
    (startTask rules controls n m r).2.Ordered rules.database ∧
    (startTask rules controls n m r).1.Current rules (startTask rules controls n m r).2 := by
  have hproper : ∀ task' ∈ m.tasks ++ [rules.taskOf r], rules.Proper task'.patch := by
    intro task' htask'
    rcases List.mem_append.mp htask' with htask' | htask'
    · exact hmproper task' htask'
    · obtain rfl := List.mem_singleton.mp htask'
      exact rules.ownPatch_proper r.request.report
  have hstarted := hordered.append (show (rules.taskOf r).stage = .inferring from rfl)
  have hlatest : ∀ f, f ≠ .region → NetworkNode.latest { m with tasks := m.tasks ++ [rules.taskOf r] } f
      = (rules.publicAddress r.request.report f).or (m.latest f) := by
    intro f hf
    rw [NetworkNode.latest_append, show (rules.taskOf r).patch = rules.ownPatch r.request.report from rfl,
      rules.get_ownPatch hf]
  -- an address of the entry that stays is that of the report, or the latest before it
  have hstay : ∀ f, f ≠ .region → ∀ y, (∀ x, rules.publicAddress r.request.report f = some x → y = x) →
      (rules.publicAddress r.request.report f = none → m.latest f = some y) →
      NetworkNode.latest { m with tasks := m.tasks ++ [rules.taskOf r] } f = some y := by
    intro f hf y hown hnone
    rw [hlatest f hf]
    cases hreport : rules.publicAddress r.request.report f with
    | none => exact hnone hreport
    | some x => rw [hown x hreport, some_or]
  rw [startTask]
  split_ifs with hdetailed
  · have htask : (m.tasks ++ [rules.taskOf r])[m.tasks.length]? = some (rules.taskOf r) :=
      List.getElem?_concat_length
    refine continueTask_kept hbears hproper hstarted htask rfl (fun _ _ => rfl) ?_ ?_ ?_
    · -- no report was accepted after it
      intro f x hx j other hother _ _ _
      have hlt : j < (m.tasks ++ [rules.taskOf r]).length := (List.getElem?_eq_some_iff.mp hother).1
      rw [List.length_append, List.length_singleton] at hlt
      exact .inl (by omega)
    · intro c hc f hf y hy
      rcases hentry c hc f hf y hy with ⟨hown, hnone⟩ | ⟨-, hpatchable, hsome⟩
      · exact .inl (hstay f hf y hown hnone)
      · refine .inr ⟨hpatchable, ?_⟩
        rw [show (rules.taskOf r).patch = rules.ownPatch r.request.report from rfl, rules.get_ownPatch hf]
        exact hsome
    · intro _ f hf x hx
      rw [show (rules.taskOf r).patch = rules.ownPatch r.request.report from rfl, rules.get_ownPatch hf] at hx
      rw [hlatest f hf, hx, some_or]
  · refine ⟨hbears, hproper, hstarted, ?_⟩
    intro c hc f hf y hy
    rcases hentry c hc f hf y hy with ⟨hown, hnone⟩ | ⟨hyes, -⟩
    · exact hstay f hf y hown hnone
    · exact absurd hyes hdetailed

theorem NetworkWorld.Kept.of_eq (hlane : w.live.lanes uuid = n) (hnode : w.nodes uuid = m)
    (h : n.Bears ∧ (∀ task ∈ m.tasks, rules.Proper task.patch) ∧ m.Ordered rules.database ∧ n.Current rules m) :
    w.Kept rules uuid := by
  subst hlane hnode
  exact ⟨h.1, h.2.1, h.2.2.1, h.2.2.2⟩

theorem NetworkWorld.Kept.parts (h : w.Kept rules uuid) : (w.live.lanes uuid).Bears ∧
    (∀ task ∈ (w.nodes uuid).tasks, rules.Proper task.patch) ∧ (w.nodes uuid).Ordered rules.database ∧
    (w.live.lanes uuid).Current rules (w.nodes uuid) :=
  ⟨h.bears, h.proper, h.ordered, h.current⟩

theorem NetworkWorld.Kept.put {v : String} {node : Lane × NetworkNode} (h : w.Kept rules uuid) (live : LiveWorld)
    (hlive : v ≠ uuid → live.lanes uuid = w.live.lanes uuid)
    (hnode : v = uuid → node.1.Bears ∧ (∀ task ∈ node.2.tasks, rules.Proper task.patch) ∧
      node.2.Ordered rules.database ∧ node.1.Current rules node.2) :
    (NetworkWorld.put { w with live := live } v node).Kept rules uuid := by
  by_cases hv : v = uuid
  · subst hv
    exact .of_eq (m := node.2) (live.setLane_self v node.1) (Function.update_self v _ w.nodes) (hnode rfl)
  · exact .of_eq (m := w.nodes uuid) ((live.setLane_of_ne node.1 hv).trans (hlive hv))
      (Function.update_of_ne (Ne.symm hv) _ w.nodes) h.parts

theorem NetworkWorld.Kept.runTask {v : String} {stage : NetworkStage}
    {work : Nat → NetworkTask → List Nat → NetworkNode} (h : w.Kept rules uuid)
    (hstep : w.runTask v stage work = some w')
    (hwork : v = uuid → ∀ id task rest, (w.nodes v).running = some (id, task, rest) → (w.nodes v).queue = id :: rest →
      (w.nodes v).tasks[id]? = some task → task.stage = stage → (work id task rest).Ordered rules.database ∧
        ∃ next, (work id task rest).tasks = ((w.nodes v).setTask id { task with stage := next }).tasks) :
    w'.Kept rules uuid := by
  rw [NetworkWorld.runTask] at hstep
  cases hrunning : (w.nodes v).running with
  | none =>
    rw [hrunning] at hstep
    cases hstep
  | some running =>
    obtain ⟨id, task, rest⟩ := running
    rw [hrunning] at hstep
    simp only at hstep
    split_ifs at hstep with hstage
    cases hstep
    by_cases hv : v = uuid
    · subst hv
      obtain ⟨hqueue, htask⟩ : (w.nodes v).queue = id :: rest ∧ (w.nodes v).tasks[id]? = some task := by
        have hparts := hrunning
        rw [NetworkNode.running] at hparts
        cases hqueue : (w.nodes v).queue with
        | nil =>
          rw [hqueue] at hparts
          cases hparts
        | cons first others =>
          rw [hqueue] at hparts
          obtain ⟨found, hfound, heq⟩ := Option.map_eq_some_iff.mp hparts
          obtain ⟨rfl, rfl, rfl⟩ : first = id ∧ found = task ∧ others = rest := by simpa using heq
          exact ⟨rfl, hfound⟩
      obtain ⟨hordered, next, hnew⟩ := hwork rfl id task rest hrunning hqueue htask hstage
      refine .of_eq rfl (Function.update_self v _ w.nodes) ⟨h.bears, ?_, hordered, h.current.of_latest fun f _ => ?_⟩
      · rw [hnew]
        intro task' htask'
        rcases List.mem_or_eq_of_mem_set htask' with hmem | rfl
        · exact h.proper task' hmem
        · exact h.proper task (List.mem_of_getElem? htask)
      · rw [NetworkNode.latest, hnew]
        exact NetworkNode.latest_setTask htask rfl
    · exact .of_eq rfl (Function.update_of_ne (Ne.symm hv) _ w.nodes) h.parts

/-- **One step** of the object with its tasks. -/
theorem NetworkWorld.Kept.step (h : w.Kept rules uuid) (hstep : networkStep rules w e = some w')
    (htimely : Timely rules uuid w e) : w'.Kept rules uuid := by
  cases e with
  | live e =>
    rw [networkStep] at hstep
    obtain ⟨live, hlive, hnext⟩ := Option.bind_eq_some_iff.mp hstep
    -- the steps of the object that are neither of a report nor a patch
    have hquiet : (∀ v report now, e ≠ .inferNetwork v report now) →
        (∀ v reply putFails socketOpen, e ≠ .advance v reply putFails socketOpen) →
        NetworkWorld.Kept rules uuid { w with live := live } := by
      intro hpatch hadvance
      obtain ⟨hbears, hsame⟩ := liveStep_quiet h.bears hlive hpatch hadvance
      exact ⟨hbears, h.proper, h.ordered, h.current.of_sameEntry hsame⟩
    cases e with
    | inferNetwork v report now => cases hnext
    | advance v reply putFails socketOpen =>
      have hlive' := hlive
      rw [liveStep] at hlive'
      cases hqueue : (w.live.lanes v).queue with
      | nil =>
        rw [hqueue] at hlive'
        cases hlive'
      | cons r rest =>
        rw [hqueue] at hlive'
        obtain ⟨n, hn, hworld⟩ := Option.map_eq_some_iff.mp hlive'
        have hlane : live.lanes v = n := by
          rw [← hworld]
          exact w.live.setLane_self v n
        have hother : v ≠ uuid → live.lanes uuid = w.live.lanes uuid := by
          intro hv
          rw [← hworld]
          exact w.live.setLane_of_ne n hv
        simp only at hnext
        by_cases hv : v = uuid
        · subst hv
          obtain ⟨hbears, hcases⟩ := Lane.advance_cases h.bears hqueue hn
          rw [hlane] at hnext
          rcases hcases with ⟨hnone, hclient⟩ | ⟨next, hsome, hreport, hclient⟩
          · rw [hnone] at hnext
            cases hnext
            exact .of_eq hlane rfl ⟨hbears, h.proper, h.ordered, h.current.of_sameEntry (SameEntry.of_eq hclient)⟩
          · rw [hsome] at hnext
            cases hnext
            refine h.put live (fun hne => absurd rfl hne) fun _ => ?_
            refine startTask_kept hbears h.proper h.ordered ?_
            intro c hc f hf y hy
            rw [hclient] at hc
            split_ifs at hc with honline
            · -- the entry is of the report itself
              cases hc
              rw [hreport] at hy
              refine .inl ⟨fun x hx => some.inj (hy.symm.trans hx), fun hnone => ?_⟩
              cases hnone.symm.trans hy
            · have hlatest : (w.nodes v).latest f = some y := h.current c hc f hf y hy
              cases hown : rules.publicAddress r.request.report f with
              | none => exact .inl ⟨by rintro _ ⟨⟩, fun _ => hlatest⟩
              | some x =>
                rcases htimely rfl live hlive r (by rw [hlane]; exact hsome) (by simpa using honline) with
                  ⟨hdetailed, source, current, hsource, hcontrolled, hunexpired⟩ | hagree
                · refine .inr ⟨hdetailed, ⟨source, current, ?_, hcontrolled, hunexpired⟩, by simp⟩
                  rw [hclient, if_neg honline]
                  exact hsource
                · refine .inl ⟨fun x' hx' => ?_, by rintro ⟨⟩⟩
                  cases hx'
                  exact hagree c hc f hf x y hown hy
        · cases haccepted : (w.live.lanes v).acceptedReport (live.lanes v) with
          | none =>
            rw [haccepted] at hnext
            cases hnext
            exact .of_eq (hother hv) rfl h.parts
          | some accepted =>
            rw [haccepted] at hnext
            cases hnext
            exact h.put live hother fun heq => absurd heq hv
    | restoreClients snapshot =>
      obtain ⟨hbears, hsame⟩ := liveStep_quiet h.bears hlive (by simp) (by simp)
      cases hnext
      refine ⟨hbears, h.proper, ?_, h.current.of_sameEntry hsame⟩
      exact ⟨h.ordered.nodup, h.ordered.queued, h.ordered.waiting, h.ordered.behind, h.ordered.landed,
        h.ordered.returned, h.ordered.origin⟩
    | _ =>
      cases hnext
      exact hquiet (by simp) (by simp)
  | infer v id answer =>
    rw [networkStep] at hstep
    cases htask : (w.nodes v).tasks[id]? with
    | none =>
      rw [htask] at hstep
      cases hstep
    | some task =>
      rw [htask] at hstep
      simp only at hstep
      split_ifs at hstep with hstage
      cases hstep
      refine h.put w.live (fun _ => rfl) fun hv => ?_
      subst hv
      obtain ⟨hpatch, horder⟩ := htimely rfl task htask
      refine continueTask_kept h.bears h.proper h.ordered htask hstage ?_ horder ?_ hpatch
      · exact fun f hf => NetworkRules.get_withRegion hf task.patch _
      · exact fun c hc f hf x hx => .inl (h.current c hc f hf x hx)
  | sync v =>
    refine h.runTask hstep fun hv id task rest hrunning hqueue htask hstage => ?_
    subst hv
    rw [NetworkNode.sync]
    split_ifs with hskip
    · refine ⟨h.ordered.leave hqueue htask (.inl rfl) fun _ hdatabase => ?_, _, rfl⟩
      rcases hskip with hsignature | hmissing
      · exact htimely rfl id task rest hrunning hsignature
      · cases hdatabase.symm.trans hmissing
    · exact ⟨h.ordered.stay hqueue htask rfl (by rintro ⟨⟩), _, rfl⟩
  | update v result =>
    refine h.runTask hstep fun hv id task rest hrunning hqueue htask hstage => ?_
    subst hv
    have hwritten := h.ordered.write hqueue htask hstage
    cases result with
    | done =>
      refine ⟨hwritten.stay hqueue htask rfl fun _ f x hx => ?_, _, rfl⟩
      rw [ReportRules.NetworkPatch.get_over, hx, some_or]
    | unclear => exact ⟨hwritten.leave hqueue htask (.inr rfl) (by rintro ⟨⟩), _, rfl⟩
    | failed => exact ⟨h.ordered.leave hqueue htask (.inr rfl) (by rintro ⟨⟩), _, rfl⟩
  | upsert v fails =>
    refine h.runTask hstep fun hv id task rest hrunning hqueue htask hstage => ?_
    subst hv
    rw [NetworkNode.upsert]
    cases fails with
    | true => exact ⟨h.ordered.leave hqueue htask (.inr rfl) (by rintro ⟨⟩), _, rfl⟩
    | false =>
      have hleft : ((w.nodes v).leave id task rest .returned).Ordered rules.database :=
        h.ordered.leave hqueue htask (.inl rfl) fun _ _ => h.ordered.landed id task htask hstage
      refine ⟨?_, _, rfl⟩
      exact ⟨hleft.nodup, hleft.queued, hleft.waiting, hleft.behind, hleft.landed, hleft.returned, hleft.origin⟩

end Steps

/-! ## Results -/

/-- Nothing newer was overwritten at a node: the addresses in `clients` are the latest reported; what the row has is of
    a report accepted no earlier than any with that field whose task has returned. -/
structure KeepsLatest (rules : NetworkRules) (n : Lane) (m : NetworkNode) : Prop where
  entry : n.Current rules m
  origin : ∀ f x, m.sql.get f = some x → m.From f 0 x
  row : rules.database = true → ∀ (j : Nat) (task : NetworkTask), m.tasks[j]? = some task → task.stage = .returned →
    ∀ f, (task.brought f).isSome → ∃ x, m.sql.get f = some x ∧ m.From f j x
  latest : rules.database = true → ∀ (j : Nat) (task : NetworkTask), m.tasks[j]? = some task →
    task.stage = .returned → ∀ f x, task.brought f = some x →
    (∀ (k : Nat) (later : NetworkTask), j < k → m.tasks[k]? = some later → later.brought f = none) →
    m.sql.get f = some x

/-- **Delayed inference overwrites nothing newer** in a run whose tasks are timely. -/
theorem inference_keeps_latest (rules : NetworkRules) (uuid : String) (es : List NetworkEvent) (w : NetworkWorld)
    (hrun : (networkMachine rules).run NetworkWorld.start es = some w)
    (htimely : (networkMachine rules).Along (fun s e _ => Timely rules uuid s e) NetworkWorld.start es) :
    KeepsLatest rules (w.live.lanes uuid) (w.nodes uuid) := by
  have hstart : NetworkWorld.start.Kept rules uuid := by
    refine ⟨?_, ?_, ?_, ?_⟩
    · exact fun r hr => absurd hr List.not_mem_nil
    · exact fun task htask => absurd htask List.not_mem_nil
    · constructor <;> simp [NetworkWorld.start, ReportRules.NetworkPatch.get]
      rintro (_ | _ | _) <;> simp
    · exact fun c hc => absurd hc (by simp [NetworkWorld.start, LiveWorld.start])
  have hkept : w.Kept rules uuid := (networkMachine rules).run_inv_along
    (fun s e s' h htimely hstep => h.step hstep htimely) es _ _ hstart htimely hrun
  refine ⟨hkept.current, hkept.ordered.origin, hkept.ordered.returned, ?_⟩
  intro hdatabase j task htask hreturned f x hx hlast
  obtain ⟨y, hy, i, hji, later, hlater, hbrought⟩ :=
    hkept.ordered.returned hdatabase j task htask hreturned f (by rw [hx]; rfl)
  -- a later one would carry the field too
  have hsame : i = j := by
    by_contra hne
    exact absurd ((hlast i later (by omega) hlater).symm.trans hbrought) (by simp)
  subst hsame
  obtain rfl := Option.some.inj (htask.symm.trans hlater)
  rw [hy, ← hbrought, hx]

/-! ## Examples of runs -/

/-- Rules with two public addresses and no cache of regions. -/
def twoAddresses : NetworkRules where
  number _ := none
  toText _ := ""
  isPublicIpAddress s := trim s == "8.8.4.4" || trim s == "8.8.8.8"
  isUsefulRegion s := trim s != ""
  isDetailedRegion s := trim s != ""
  database := true
  isPublicIpAddress_trim s := by simp only [trim_trim]
  isPublicIpAddress_blank := by decide

/-- A report over HTTP with an address. -/
def addressReport (address : String) : ReportRequest :=
  ⟨none, "a", false, 1, [("ipv4", .str address)], 60000, false⟩

/-- The steps of such a report. -/
def acceptedAddress (address : String) (now : Int) : List NetworkEvent := [
  .live (.report "a" (addressReport address) now), .live (.advance "a" (.credential (some true)) false true),
  .live (.advance "a" (.snapshot none) false true), .live (.advance "a" (.snapshot none) false true),
  .live (.advance "a" .done false true), .live (.advance "a" (.snapshot none) false true),
  .live (.advance "a" .done false true), .live (.advance "a" .done false true),
  .live (.advance "a" .done false true)]

/-- The steps of its task, when no region is found. -/
def writtenTask (id : Nat) : List NetworkEvent :=
  [.infer "a" id none, .sync "a", .update "a" .done, .upsert "a" false]

/-- Whether a step accepts a report that is not online. -/
def acceptsOffline (rules : NetworkRules) (w : NetworkWorld) (uuid : String) (reply : Reply)
    (putFails socketOpen : Bool) : Bool :=
  match liveStep rules.compactLiveReport w.live (.advance uuid reply putFails socketOpen) with
  | none => false
  | some live => ((w.live.lanes uuid).acceptedReport (live.lanes uuid)).any
      fun r => !r.online (w.live.lanes uuid) socketOpen

variable {rules : NetworkRules} {w : NetworkWorld} {uuid : String}

variable {v : String}

theorem timely_of_online {reply : Reply}
    {putFails socketOpen : Bool} (h : acceptsOffline rules w uuid reply putFails socketOpen = false) :
    Timely rules uuid w (.live (.advance v reply putFails socketOpen)) := by
  rintro rfl live hlive r hr honline
  rw [acceptsOffline, hlive] at h
  simp only [hr, Option.any_some, honline] at h
  cases h

theorem timely_of_unsigned
    (h : (w.nodes uuid).running.any (fun running => decide ((w.nodes uuid).signature = some running.2.1.patch)) = false) :
    Timely rules uuid w (.sync v) := by
  intro _ id task rest hrunning hsignature
  rw [hrunning] at h
  simp [hsignature] at h

theorem timely_of_last {id : Nat} {answer : Option String}
    (hlast : (w.nodes uuid).tasks.length = id + 1) : Timely rules uuid w (.infer v id answer) := by
  intro _ task htask
  constructor
  · intro _ f hf x hx
    rw [NetworkRules.get_withRegion hf] at hx
    rcases List.eq_nil_or_concat (w.nodes uuid).tasks with hnil | ⟨front, last, hconcat⟩
    · rw [hnil] at htask
      cases htask
    · rw [List.concat_eq_append] at hconcat
      rw [hconcat, List.length_append, List.length_singleton] at hlast
      have hsame : last = task := by
        rw [hconcat, show id = front.length from by omega, List.getElem?_concat_length] at htask
        exact some.inj htask
      rw [NetworkNode.latest, hconcat, hsame, List.filterMap_append, List.getLast?_append]
      simp [hx]
  · intro f x _ j other hother _ _ _
    have hlt := (List.getElem?_eq_some_iff.mp hother).1
    exact .inl (by omega)

/-- Two reports, each with its task before the next. -/
theorem two_addresses_in_turn : ∃ w, (networkMachine twoAddresses).run NetworkWorld.start
      (acceptedAddress "8.8.4.4" 5 ++ writtenTask 0 ++ acceptedAddress "8.8.8.8" 7 ++ writtenTask 1) = some w ∧
    KeepsLatest twoAddresses (w.live.lanes "a") (w.nodes "a") ∧ (w.nodes "a").sql.ipv4 = some "8.8.8.8" := by
  obtain ⟨w, hrun, hsql⟩ : ∃ w, (networkMachine twoAddresses).run NetworkWorld.start
      (acceptedAddress "8.8.4.4" 5 ++ writtenTask 0 ++ acceptedAddress "8.8.8.8" 7 ++ writtenTask 1) = some w ∧
      (w.nodes "a").sql.ipv4 = some "8.8.8.8" := ⟨_, rfl, rfl⟩
  refine ⟨w, hrun, inference_keeps_latest twoAddresses "a" _ w hrun ?_, hsql⟩
  -- the first report and its task
  refine And.intro trivial ?_
  iterate 8 refine And.intro (timely_of_online rfl) ?_
  refine And.intro (timely_of_last rfl) ?_
  refine And.intro (timely_of_unsigned rfl) ?_
  refine And.intro trivial (And.intro trivial ?_)
  -- the second report and its task
  refine And.intro trivial ?_
  iterate 8 refine And.intro (timely_of_online rfl) ?_
  refine And.intro (timely_of_last rfl) ?_
  refine And.intro (timely_of_unsigned rfl) ?_
  exact And.intro trivial (And.intro trivial trivial)

/-- **An older report wins** whose region takes longer to infer. -/
theorem older_address_wins : (¬ ∀ (es : List NetworkEvent) (w : NetworkWorld),
      (networkMachine twoAddresses).run NetworkWorld.start es = some w →
      (w.live.lanes "a").Current twoAddresses (w.nodes "a")) ∧
    ¬ ∀ (es : List NetworkEvent) (w : NetworkWorld),
      (networkMachine twoAddresses).run NetworkWorld.start es = some w →
      (∀ (j : Nat) (task : NetworkTask), (w.nodes "a").tasks[j]? = some task → task.stage = .returned) →
      (w.nodes "a").sql.ipv4 = (w.nodes "a").latest .ipv4 := by
  obtain ⟨w, hrun, hlatest, hsql, hentry, htasks⟩ : ∃ w, (networkMachine twoAddresses).run NetworkWorld.start
      (acceptedAddress "8.8.4.4" 5 ++ acceptedAddress "8.8.8.8" 7 ++ writtenTask 1 ++ writtenTask 0) = some w ∧
      (w.nodes "a").latest .ipv4 = some "8.8.8.8" ∧ (w.nodes "a").sql.ipv4 = some "8.8.4.4" ∧
      (w.live.lanes "a").client.map (fun c => twoAddresses.publicAddress c.lastReport .ipv4) = some (some "8.8.4.4") ∧
      (w.nodes "a").tasks.map NetworkTask.stage = [.returned, .returned] := ⟨_, rfl, rfl, rfl, rfl, rfl⟩
  constructor
  · intro h
    obtain ⟨c, hc, haddress⟩ := Option.map_eq_some_iff.mp hentry
    have hwrong := h _ w hrun c hc .ipv4 (by decide) "8.8.4.4" haddress
    exact absurd (hlatest.symm.trans hwrong) (by decide)
  · intro h
    have hreturned : ∀ (j : Nat) (task : NetworkTask), (w.nodes "a").tasks[j]? = some task →
        task.stage = .returned := by
      intro j task htask
      have hmem : task.stage ∈ (w.nodes "a").tasks.map NetworkTask.stage :=
        List.mem_map_of_mem (List.mem_of_getElem? htask)
      rw [htasks] at hmem
      simpa using hmem
    exact absurd ((hsql.symm.trans (h _ w hrun hreturned)).trans hlatest) (by decide)

end CfMonitor.Live
