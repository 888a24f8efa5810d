/-
  The queue of website rechecks (`queueWebsiteRecheck`, `processWebsiteRechecks`).

  1. **Program** — a failed check of an agent is stored as a task under its monitor and revision; an
     alarm takes copies of at most two tasks that are due, works on them across database and HTTP
     awaits, and then deletes the task or puts it back with a later time, if the stored task still
     has the id of the copy.  Between these points anything can run.

  2. **Results** — no newer check is lost (`recheck_queue_keeps_newer`).
-/
import CfMonitor.Lib.Directory
import CfMonitor.Lib.Machine
import Mathlib.Algebra.Group.Int.Defs
import Mathlib.Data.List.Sort
import Mathlib.Data.String.Basic

namespace CfMonitor.Live

open CfMonitor.Lib
open Directory (get?_put get?_remove length_put)

/-! ## Data -/

/-- What decides about a check: the monitor, the revision and the time. -/
structure WebsiteCheckInput where
  monitorId : Int
  configRevision : String
  checkedAt : Int

structure WebsiteRecheckTask where
  id : Nat
  check : WebsiteCheckInput
  retryAt : Int
  attempts : Nat

def WEBSITE_RECHECK_MAX_PENDING : Nat := 256

/-- The stored tasks, how many ids `crypto.randomUUID` has drawn, and the copies that attempts work
    on. -/
structure Rechecks where
  tasks : Directory String WebsiteRecheckTask
  issued : Nat
  running : List (String × WebsiteRecheckTask)

namespace Rechecks

/-! ## Program -/

/-- The key of a check, after the prefix. -/
def recheckKey (check : WebsiteCheckInput) : String :=
  toString check.monitorId ++ ":" ++ check.configRevision

/-- `storage.list` with the limit of the queue. -/
def listed (s : Rechecks) : List (String × WebsiteRecheckTask) :=
  s.tasks.entries.take WEBSITE_RECHECK_MAX_PENDING

/-- `queueWebsiteRecheck` up to its alarm: none when it throws because the queue is full. -/
def queueWebsiteRecheck (s : Rechecks) (check : WebsiteCheckInput) (now : Int) : Option Rechecks :=
  let key := recheckKey check
  let stored : Rechecks := { s with
    tasks := s.tasks.put key ⟨s.issued, check, now + 1000, 0⟩
    issued := s.issued + 1 }
  match s.tasks.get? key with
  | some previous => some (if previous.check.checkedAt < check.checkedAt then stored else s)
  | none => if WEBSITE_RECHECK_MAX_PENDING ≤ s.listed.length then none else some stored

/-- The tasks that an alarm takes. -/
def due (s : Rechecks) (now : Int) : List (String × WebsiteRecheckTask) :=
  ((s.listed.filter fun p => decide (p.2.retryAt ≤ now)).insertionSort
    fun a b => a.2.retryAt ≤ b.2.retryAt).take 2

/-- Take copies of the tasks that are due. -/
def processWebsiteRechecks (s : Rechecks) (now : Int) : Rechecks :=
  { s with running := s.running ++ s.due now }

/-- The time after which a failed attempt is repeated. -/
def retryDelay (attempts : Nat) : Int := min 300000 (2000 * 2 ^ min attempts 8)

/-- The end of an attempt at the copy `task` of the task under `key`. -/
def settle (tasks : Directory String WebsiteRecheckTask) (key : String) (task : WebsiteRecheckTask)
    (ok : Bool) (now : Int) : Directory String WebsiteRecheckTask :=
  if (tasks.get? key).map WebsiteRecheckTask.id = some task.id then
    if ok then tasks.remove key
    else tasks.put key { task with
      attempts := task.attempts + 1, retryAt := now + retryDelay task.attempts }
  else tasks

end Rechecks

/-- What happens next.  An attempt is named by its place among the running ones. -/
inductive RecheckEvent where
  | queue (check : WebsiteCheckInput) (now : Int)
  | process (now : Int)
  | finish (place : Nat) (ok : Bool) (now : Int)

/-- One step. -/
def recheckStep (s : Rechecks) : RecheckEvent → Option Rechecks
  | .queue check now => s.queueWebsiteRecheck check now
  | .process now => some (s.processWebsiteRechecks now)
  | .finish place ok now =>
    match s.running[place]? with
    | none => none
    | some (key, task) => some { s with
        tasks := Rechecks.settle s.tasks key task ok now
        running := s.running.eraseIdx place }

/-- The queue as a machine. -/
def recheckMachine : Machine Rechecks RecheckEvent := ⟨recheckStep⟩

/-- No tasks. -/
def Rechecks.start : Rechecks := ⟨Directory.empty, 0, []⟩

/-! ## The invariant -/

namespace Rechecks

variable {s s' : Rechecks}

/-- Ids are used once: a stored task has an id of its own, and a copy with its id has its check. -/
structure Inv (s : Rechecks) : Prop where
  bounded : s.tasks.entries.length ≤ WEBSITE_RECHECK_MAX_PENDING
  stored : ∀ {k t}, s.tasks.get? k = some t → t.id < s.issued
  copied : ∀ {k c}, (k, c) ∈ s.running → c.id < s.issued
  unique : ∀ {k k' t t'}, s.tasks.get? k = some t → s.tasks.get? k' = some t' → t.id = t'.id → k = k'
  same : ∀ {k k' t c}, s.tasks.get? k = some t → (k', c) ∈ s.running → t.id = c.id →
    k = k' ∧ t.check = c.check

theorem Inv.start : Rechecks.start.Inv where
  bounded := Nat.zero_le _
  stored h := absurd h (by simp [Rechecks.start])
  copied h := absurd h (by simp [Rechecks.start])
  unique h := absurd h (by simp [Rechecks.start])
  same h := absurd h (by simp [Rechecks.start])

variable {task : WebsiteRecheckTask}

/-- A task with a new id under a key. -/
theorem Inv.store (hI : s.Inv) {key : String} (hid : task.id = s.issued)
    (hroom : (s.tasks.get? key).isSome ∨ s.tasks.entries.length < WEBSITE_RECHECK_MAX_PENDING) :
    ({ s with tasks := s.tasks.put key task, issued := s.issued + 1 } : Rechecks).Inv where
  bounded := by
    show (s.tasks.put key task).entries.length ≤ _
    rw [length_put]
    split_ifs with hsome
    · exact hI.bounded
    · rcases hroom with h | h
      · exact absurd h hsome
      · exact h
  stored {k t} hk := by
    show t.id < s.issued + 1
    rw [get?_put] at hk
    split_ifs at hk
    · cases hk
      omega
    · have := hI.stored hk
      omega
  copied hc := Nat.lt_succ_of_lt (hI.copied hc)
  unique {k k' t t'} hk hk' heq := by
    rw [get?_put] at hk hk'
    split_ifs at hk hk' with h h'
    · exact h.trans h'.symm
    · cases hk
      have := hI.stored hk'
      omega
    · cases hk'
      have := hI.stored hk
      omega
    · exact hI.unique hk hk' heq
  same {k k' t c} hk hc heq := by
    rw [get?_put] at hk
    split_ifs at hk
    · -- a new id is no copy's id
      cases hk
      have := hI.copied hc
      omega
    · exact hI.same hk hc heq

variable {now : Int}

theorem queue_cases {check : WebsiteCheckInput} (h : s.queueWebsiteRecheck check now = some s') :
    s' = s ∨ (s' = { s with
        tasks := s.tasks.put (recheckKey check) ⟨s.issued, check, now + 1000, 0⟩
        issued := s.issued + 1 } ∧
      (∀ t, s.tasks.get? (recheckKey check) = some t → t.check.checkedAt < check.checkedAt) ∧
      ((s.tasks.get? (recheckKey check)).isSome ∨ s.tasks.entries.length < WEBSITE_RECHECK_MAX_PENDING)) := by
  rw [queueWebsiteRecheck] at h
  cases hprevious : s.tasks.get? (recheckKey check) with
  | some previous =>
    simp only [hprevious] at h
    cases h
    by_cases hnewer : previous.check.checkedAt < check.checkedAt
    · rw [if_pos hnewer]
      refine .inr ⟨rfl, fun t ht => ?_, .inl rfl⟩
      cases ht
      exact hnewer
    · exact .inl (if_neg hnewer)
  | none =>
    simp only [hprevious] at h
    split_ifs at h with hfull
    cases h
    refine .inr ⟨rfl, nofun, .inr ?_⟩
    rw [listed, List.length_take] at hfull
    omega

theorem mem_due {p : String × WebsiteRecheckTask} (h : p ∈ s.due now) : s.tasks.get? p.1 = some p.2 := by
  have hmem : p ∈ (s.listed.filter fun p => decide (p.2.retryAt ≤ now)) :=
    (List.mem_insertionSort _).mp (List.mem_of_mem_take h)
  exact Directory.mem_entries.mp (List.mem_of_mem_take (List.mem_filter.mp hmem).1)

theorem Inv.process (hI : s.Inv) (now : Int) : (s.processWebsiteRechecks now).Inv where
  bounded := hI.bounded
  stored := hI.stored
  copied {k c} hc := by
    rcases List.mem_append.mp hc with hc | hc
    · exact hI.copied hc
    · exact hI.stored (mem_due hc)
  unique := hI.unique
  same {k k' t c} hk hc heq := by
    rcases List.mem_append.mp hc with hc | hc
    · exact hI.same hk hc heq
    · -- a new copy is the stored task itself
      have hkey := hI.unique hk (mem_due hc) heq
      subst hkey
      exact ⟨rfl, congrArg _ (Option.some.inj (hk.symm.trans (mem_due hc)))⟩

/-- The end of an attempt: the tasks under other keys or with other ids stay; the task of the attempt
    goes or comes back with its id and check. -/
theorem settle_cases (tasks : Directory String WebsiteRecheckTask) (key : String)
    (task : WebsiteRecheckTask) (ok : Bool) (now : Int) :
    ((tasks.get? key).map WebsiteRecheckTask.id ≠ some task.id ∧ settle tasks key task ok now = tasks) ∨
    (∃ t, tasks.get? key = some t ∧ t.id = task.id ∧ ok = true ∧
      settle tasks key task ok now = tasks.remove key) ∨
    (∃ t t', tasks.get? key = some t ∧ t.id = task.id ∧ t'.id = task.id ∧ t'.check = task.check ∧
      ok = false ∧ settle tasks key task ok now = tasks.put key t') := by
  rw [settle]
  by_cases hid : (tasks.get? key).map WebsiteRecheckTask.id = some task.id
  · obtain ⟨t, ht, hsame⟩ := Option.map_eq_some_iff.mp hid
    rw [if_pos hid]
    cases ok with
    | true => exact .inr (.inl ⟨t, ht, hsame, rfl, rfl⟩)
    | false =>
      exact .inr (.inr ⟨t, { task with
        attempts := task.attempts + 1, retryAt := now + retryDelay task.attempts },
        ht, hsame, rfl, rfl, rfl, rfl⟩)
  · rw [if_neg hid]
    exact .inl ⟨hid, rfl⟩

theorem Inv.settle (hI : s.Inv) {place : Nat} {key : String} {ok : Bool}
    (hrunning : s.running[place]? = some (key, task)) :
    ({ s with
      tasks := Rechecks.settle s.tasks key task ok now
      running := s.running.eraseIdx place } : Rechecks).Inv := by
  have hmem : (key, task) ∈ s.running := List.mem_of_getElem? hrunning
  have hleft : ∀ p ∈ s.running.eraseIdx place, p ∈ s.running :=
    fun p hp => (List.eraseIdx_sublist _ _).subset hp
  rcases settle_cases s.tasks key task ok now with ⟨-, h⟩ | ⟨t, -, -, -, h⟩ |
    ⟨t, t', ht, hid, hid', hcheck, -, h⟩
  · rw [h]
    exact ⟨hI.bounded, hI.stored, fun hc => hI.copied (hleft _ hc), hI.unique,
      fun hk hc => hI.same hk (hleft _ hc)⟩
  · rw [h]
    have hget : ∀ {k u}, (s.tasks.remove key).get? k = some u → s.tasks.get? k = some u := by
      intro k u hk
      rw [get?_remove] at hk
      split_ifs at hk
      exact hk
    exact ⟨Nat.le_trans (Directory.length_remove_le _ _) hI.bounded, fun hk => hI.stored (hget hk),
      fun hc => hI.copied (hleft _ hc), fun hk hk' => hI.unique (hget hk) (hget hk'),
      fun hk hc => hI.same (hget hk) (hleft _ hc)⟩
  · rw [h]
    -- the task that comes back stands for the one that was there
    have hget : ∀ {k u}, (s.tasks.put key t').get? k = some u →
        ∃ v, s.tasks.get? k = some v ∧ v.id = u.id ∧ v.check = u.check := by
      intro k u hk
      rw [get?_put] at hk
      split_ifs at hk with hkey
      · cases hk
        refine ⟨t, hkey ▸ ht, hid.trans hid'.symm, ?_⟩
        exact (hI.same ht hmem hid).2.trans hcheck.symm
      · exact ⟨u, hk, rfl, rfl⟩
    refine ⟨?_, ?_, fun hc => hI.copied (hleft _ hc), ?_, ?_⟩
    · rw [length_put, ht]
      exact hI.bounded
    · intro k u hk
      obtain ⟨v, hv, hvid, -⟩ := hget hk
      exact hvid ▸ hI.stored hv
    · intro k k' u u' hk hk' heq
      obtain ⟨v, hv, hvid, -⟩ := hget hk
      obtain ⟨v', hv', hvid', -⟩ := hget hk'
      exact hI.unique hv hv' (by omega)
    · intro k k' u c hk hc heq
      obtain ⟨v, hv, hvid, hvcheck⟩ := hget hk
      obtain ⟨hkey, hsame⟩ := hI.same hv (hleft _ hc) (hvid.trans heq)
      exact ⟨hkey, hvcheck.symm.trans hsame⟩

/-- **One step.** -/
theorem Inv.step {e : RecheckEvent} (hI : s.Inv) (hstep : recheckStep s e = some s') : s'.Inv := by
  cases e with
  | queue check now =>
    rcases queue_cases hstep with rfl | ⟨rfl, -, hroom⟩
    · exact hI
    · exact hI.store rfl hroom
  | process now =>
    cases hstep
    exact hI.process now
  | finish place ok now =>
    rw [recheckStep] at hstep
    cases hrunning : s.running[place]? with
    | none =>
      rw [hrunning] at hstep
      cases hstep
    | some p =>
      rw [hrunning] at hstep
      cases hstep
      exact hI.settle hrunning

/-! ## What a step does to one key -/

variable {t : WebsiteRecheckTask}

/-- The check under a key does not get older, and a task goes only when an attempt at it has
    succeeded. -/
theorem step_at {e : RecheckEvent} (hI : s.Inv) (hstep : recheckStep s e = some s') {key : String}
    (ht : s.tasks.get? key = some t) :
    (∃ t', s'.tasks.get? key = some t' ∧ t.check.checkedAt ≤ t'.check.checkedAt) ∨
    (s'.tasks.get? key = none ∧ ∃ place copy now, e = .finish place true now ∧
      s.running[place]? = some (key, copy) ∧ copy.id = t.id) := by
  cases e with
  | queue check now =>
    rcases queue_cases hstep with rfl | ⟨rfl, hnewer, -⟩
    · exact .inl ⟨t, ht, Int.le_refl _⟩
    · left
      show ∃ t', (s.tasks.put _ _).get? key = some t' ∧ _
      rw [get?_put]
      split_ifs with hkey
      · subst hkey
        exact ⟨_, rfl, Int.le_of_lt (hnewer t ht)⟩
      · exact ⟨t, ht, Int.le_refl _⟩
  | process now =>
    cases hstep
    exact .inl ⟨t, ht, Int.le_refl _⟩
  | finish place ok now =>
    rw [recheckStep] at hstep
    cases hrunning : s.running[place]? with
    | none =>
      rw [hrunning] at hstep
      cases hstep
    | some p =>
      obtain ⟨k, copy⟩ := p
      rw [hrunning] at hstep
      cases hstep
      show (∃ t', (Rechecks.settle s.tasks k copy ok now).get? key = some t' ∧ _) ∨
        ((Rechecks.settle s.tasks k copy ok now).get? key = none ∧ _)
      rcases settle_cases s.tasks k copy ok now with ⟨-, h⟩ | ⟨u, hu, hid, rfl, h⟩ |
        ⟨u, u', hu, hid, -, hcheck, -, h⟩
      · rw [h]
        exact .inl ⟨t, ht, Int.le_refl _⟩
      · rw [h, get?_remove]
        split_ifs with hkey
        · subst hkey
          obtain rfl := Option.some.inj (hu.symm.trans ht)
          exact .inr ⟨rfl, place, copy, now, rfl, hrunning, hid.symm⟩
        · exact .inl ⟨t, ht, Int.le_refl _⟩
      · rw [h, get?_put]
        split_ifs with hkey
        · subst hkey
          obtain rfl := Option.some.inj (hu.symm.trans ht)
          have hsame := (hI.same ht (List.mem_of_getElem? hrunning) hid).2
          refine .inl ⟨u', rfl, ?_⟩
          rw [hcheck, hsame]
        · exact .inl ⟨t, ht, Int.le_refl _⟩

theorem newer_kept (hI : s.Inv) {place : Nat} {ok : Bool} {key k : String}
    {copy : WebsiteRecheckTask} (hstep : recheckStep s (.finish place ok now) = some s')
    (hrunning : s.running[place]? = some (k, copy)) (ht : s.tasks.get? key = some t)
    (hnewer : copy.check.checkedAt < t.check.checkedAt) : s'.tasks.get? key = some t := by
  rw [recheckStep, hrunning] at hstep
  cases hstep
  have hother : t.id ≠ copy.id := by
    intro hid
    have hsame := (hI.same ht (List.mem_of_getElem? hrunning) hid).2
    rw [hsame] at hnewer
    exact absurd hnewer (Int.lt_irrefl _)
  show (Rechecks.settle s.tasks k copy ok now).get? key = some t
  rw [Rechecks.settle]
  split_ifs with hid hok
  · rw [get?_remove]
    split_ifs with hkey
    · subst hkey
      rw [ht] at hid
      exact absurd (Option.some.inj hid) hother
    · exact ht
  · rw [get?_put]
    split_ifs with hkey
    · subst hkey
      rw [ht] at hid
      exact absurd (Option.some.inj hid) hother
    · exact ht
  · exact ht

end Rechecks

open Rechecks in
/-- **The recheck queue never loses newer work**, in every state that any order of queueing, alarms
    and ends of attempts can reach. -/
theorem recheck_queue_keeps_newer (es : List RecheckEvent) (s : Rechecks)
    (hrun : recheckMachine.run Rechecks.start es = some s) :
    s.tasks.entries.length ≤ 256 ∧
    (∀ e s' key t, recheckStep s e = some s' → s.tasks.get? key = some t →
      -- the check under a key does not get older while the key exists
      (∀ t', s'.tasks.get? key = some t' → t.check.checkedAt ≤ t'.check.checkedAt) ∧
      -- a task goes only when an attempt at that task has succeeded
      (s'.tasks.get? key = none → ∃ place copy now, e = .finish place true now ∧
        s.running[place]? = some (key, copy) ∧ copy.id = t.id)) ∧
    -- the end of an attempt, good or bad, leaves a task with a newer check alone
    (∀ place ok now s' k copy key t, recheckStep s (.finish place ok now) = some s' →
      s.running[place]? = some (k, copy) → s.tasks.get? key = some t →
      copy.check.checkedAt < t.check.checkedAt → s'.tasks.get? key = some t) := by
  have hI : s.Inv := recheckMachine.run_inv (fun _ _ _ h hs => Inv.step h hs) Inv.start hrun
  refine ⟨hI.bounded, ?_, fun place ok now s' k copy key t hstep hrunning ht hnewer =>
    newer_kept hI hstep hrunning ht hnewer⟩
  intro e s' key t hstep ht
  rcases step_at hI hstep ht with ⟨t', ht', hle⟩ | ⟨hgone, hfinish⟩
  · refine ⟨fun u hu => ?_, fun hgone => absurd (ht'.symm.trans hgone) (by simp)⟩
    obtain rfl := Option.some.inj (ht'.symm.trans hu)
    exact hle
  · exact ⟨fun u hu => absurd (hgone.symm.trans hu) (by simp), fun _ => hfinish⟩

/-- The hypothesis is satisfiable: a newer check that arrives during an attempt outlives it. -/
theorem recheck_queue_keeps_newer_check : ∃ s s', recheckMachine.run Rechecks.start
        [.queue ⟨1, "r", 5⟩ 10, .process 2000, .queue ⟨1, "r", 7⟩ 2500] = some s ∧
      recheckStep s (.finish 0 true 3000) = some s' ∧
      s'.tasks.get? "1:r" = some ⟨1, ⟨1, "r", 7⟩, 3500, 0⟩ := by
  refine ⟨_, _, rfl, rfl, ?_⟩
  exact (recheck_queue_keeps_newer [.queue ⟨1, "r", 5⟩ 10, .process 2000, .queue ⟨1, "r", 7⟩ 2500] _ rfl).2.2
    0 true 3000 _ "1:r" ⟨0, ⟨1, "r", 5⟩, 1010, 0⟩ "1:r" _ rfl rfl rfl (by decide)

end CfMonitor.Live
