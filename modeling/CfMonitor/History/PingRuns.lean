/-
  The spacing of the ping history, and what a retried batch adds to it.

  1. **Runs** — the batches of a client one after the other, each with the outcome of its writes; the
     object can start cold between any two of them, and a write it waits for may be its last.

  2. **Specification** (`Spaced`) — of two batches whose state was put for a task, the later one is at
     least the clamped interval later.  A put that landed without an answer can be counted or not.

  3. **Invariant** (`PingWorld.Bounded`) — the times that are stored and remembered are not before the
     batches that count.  What breaks it is a time of 0, which the program reads as "never" (`Judged`);
     and for puts without an answer a memory that the storage has left behind.

  4. **Retry** (`process_again`) — needs no condition: after a row landed, the same batch finds due what
     was due then, or nothing.
-/
import CfMonitor.History.PingEffects
import CfMonitor.Lib.Machine

namespace CfMonitor.History

open CfMonitor.Lib
open PingResultState (clean lastAcceptedMs)

/-! ## Runs -/

/-- A batch: its time, the setting of the moment, and its results. -/
structure PingBatch where
  nowMs : ℚ
  setting : Option ℚ
  results : List PingPersistenceResult

/-- What happens next. -/
inductive PingEvent where
  | batch (b : PingBatch) (plan : PingPlan)
  | coldStart

/-- The results of a batch whose state was put, with whether the put was answered. -/
structure PingCommit where
  nowMs : ℚ
  setting : Option ℚ
  results : List (PingPersistenceResult × Bool)

/-- The store, and (not read by the program) the puts so far, newest first. -/
structure PingWorld (η : Type) where
  store : PingStore η
  commits : List PingCommit

section Runs

variable {η : Type} [DecidableEq η] (hash : Directory Int Int → η)

/-- Process a batch. -/
def PingBatch.process (b : PingBatch) (plan : PingPlan) (s : PingStore η) : Processed η :=
  persistPingBatch hash b.setting b.nowMs b.results plan s

def pingRunStep (w : PingWorld η) : PingEvent → Option (PingWorld η)
  | .batch b plan => some {
      store := (b.process hash plan w.store).store
      commits := ⟨b.nowMs, b.setting, (b.process hash plan w.store).commits⟩ :: w.commits }
  | .coldStart => some { w with store := w.store.coldStart }

/-- The history of a client as a machine. -/
def pingMachine : Machine (PingWorld η) PingEvent := ⟨pingRunStep hash⟩

/-- Nothing is known, stored or written. -/
def PingWorld.start : PingWorld η := ⟨PingStore.empty, []⟩

end Runs

/-! ## Specification -/

/-- Whether a put counts: it was answered, or those without an answer count too. -/
def Counts (lost : Bool) (c : PingPersistenceResult × Bool) : Prop := c.2 = true ∨ lost = true

/-- A later batch keeps its distance from an earlier one, for every task of both. -/
def Apart (lost : Bool) (later earlier : PingCommit) : Prop :=
  ∀ c ∈ later.results, ∀ c' ∈ earlier.results, Counts lost c → Counts lost c' → c'.1.taskId = c.1.taskId →
    earlier.nowMs < later.nowMs ∧
      earlier.nowMs + pingResultIntervalMs later.setting c.1.intervalSec ≤ later.nowMs

/-- All batches keep their distances. -/
def Spaced (lost : Bool) (commits : List PingCommit) : Prop := commits.Pairwise (Apart lost)

/-- The times to judge a task by are not those of the batches that count: the time of the task is read as
    0, which means never; or puts without an answer count, and the object remembers another time than
    the storage. -/
def Misread {η : Type} (lost : Bool) (s : PingStore η) (taskId : Int) : Prop :=
  (s.read taskId).lastAcceptedMs = 0
    ∨ lost = true ∧ (s.read taskId).lastAcceptedMs ≠ (s.stored taskId).lastAcceptedMs

/-- A result which is due by a time that is misread comes the interval after the batches that count. -/
def Judged {η : Type} (lost : Bool) (w : PingWorld η) : PingEvent → Prop
  | .batch b _ => ∀ r ∈ b.results, Misread lost w.store r.taskId →
      tooEarly b.setting r (w.store.read r.taskId) b.nowMs = false →
      ∀ commit ∈ w.commits, ∀ c ∈ commit.results, Counts lost c → c.1.taskId = r.taskId →
        commit.nowMs + pingResultIntervalMs b.setting r.intervalSec ≤ b.nowMs
  | .coldStart => True

/-! ## Every run -/

/-- A time that a state carries is not negative, and not before the time of its value. -/
structure PingResultState.Sane (state : PingResultState) : Prop where
  nonneg : 0 ≤ state.lastAcceptedMs
  persisted : ∀ at_ ∈ state.clean.persistedAt, at_ ≤ state.lastAcceptedMs

def PingStore.Sane {η : Type} (s : PingStore η) : Prop :=
  ∀ k, (s.read k).Sane ∧ (s.stored k).Sane

/-- The batches that count are not after the time which is stored, nor after the one which is remembered
    if only answered puts count. -/
def PingWorld.Bounded {η : Type} (lost : Bool) (w : PingWorld η) : Prop :=
  ∀ commit ∈ w.commits, ∀ c ∈ commit.results, Counts lost c →
    commit.nowMs ≤ (w.store.stored c.1.taskId).lastAcceptedMs ∧
      (lost = false → commit.nowMs ≤ (w.store.read c.1.taskId).lastAcceptedMs)

section Invariants

variable {η : Type} {s : PingStore η} {nowMs : ℚ} {setting : Option ℚ}

variable {state : PingResultState}

theorem clean_persistedAt {at_ : ℚ} (h : at_ ∈ state.clean.persistedAt) :
    state.persistedAt = some at_ ∧ 0 < at_ := by
  obtain ⟨hsome, hpos⟩ := Option.mem_filter_iff.mp h
  exact ⟨hsome, by simpa using hpos⟩

theorem PingResultState.Sane.clean (h : state.Sane) : state.clean.Sane :=
  ⟨h.nonneg, by rw [clean_clean]; exact h.persisted⟩

variable {r : PingPersistenceResult}

/-- What is not worth a row has a value whose time is positive. -/
theorem shouldPersist_false
    (h : shouldPersistPingResult r state nowMs = false) : ∃ at_, at_ ∈ state.clean.persistedAt := by
  rw [shouldPersistPingResult] at h
  split at h
  · rename_i value at_ _ hat
    exact ⟨at_, hat⟩
  · cases h

theorem NewState.sane {accepted : List PingPersistenceResult} {k : Int}
    (h : NewState s nowMs accepted k state) (hsane : (s.read k).Sane)
    (hdue : tooEarly setting r (s.read k) nowMs = false)
    (hquiet : accepted = [] → shouldPersistPingResult r (s.read k) nowMs = false) : state.Sane := by
  cases h with
  | persisted value h =>
    refine ⟨le_max_of_le_left hsane.nonneg, fun at_ hat => ?_⟩
    obtain rfl := Option.some.inj (clean_persistedAt hat).1
    exact le_max_right _ _
  | moved h =>
    obtain ⟨at_, hat⟩ := shouldPersist_false (hquiet h)
    have hpos : 0 < (s.read k).lastAcceptedMs := (clean_persistedAt hat).2.trans_le (hsane.persisted at_ hat)
    have hlate := not_tooEarly hdue hpos.ne'
    have hinterval := pingResultIntervalMs_pos setting r.intervalSec
    have hafter : (s.read k).lastAcceptedMs ≤ nowMs := by linarith
    exact ⟨hsane.nonneg.trans hafter, fun p hp => (hsane.persisted p hp).trans hafter⟩

/-- **A result that is due comes the interval after the batches that count.** -/
theorem due_spaced {w : PingWorld η} {b : PingBatch} {plan : PingPlan} {lost : Bool}
    (hbounded : w.Bounded lost)
    (hjudged : Judged lost w (.batch b plan)) (hr : r ∈ dueOf b.setting b.nowMs b.results w.store) :
    ∀ commit ∈ w.commits, ∀ c ∈ commit.results, Counts lost c → c.1.taskId = r.taskId →
      commit.nowMs + pingResultIntervalMs b.setting r.intervalSec ≤ b.nowMs := by
  intro commit hcommit c hc hcounts hid
  obtain ⟨hmem, hdue⟩ := List.mem_filter.mp hr
  have hdue : tooEarly b.setting r (w.store.read r.taskId) b.nowMs = false := by simpa using hdue
  by_cases hmisread : Misread lost w.store r.taskId
  · exact hjudged r hmem hmisread hdue commit hcommit c hc hcounts hid
  · have hzero : (w.store.read r.taskId).lastAcceptedMs ≠ 0 := fun hzero => hmisread (.inl hzero)
    have hlate := not_tooEarly hdue hzero
    -- the time that the result was judged by is not before the batch
    have hread : commit.nowMs ≤ (w.store.read r.taskId).lastAcceptedMs := by
      obtain ⟨hstored, hanswered⟩ := hbounded commit hcommit c hc hcounts
      rw [hid] at hstored hanswered
      cases lost with
      | false => exact hanswered rfl
      | true =>
        by_cases hsame : (w.store.read r.taskId).lastAcceptedMs = (w.store.stored r.taskId).lastAcceptedMs
        · exact hsame ▸ hstored
        · exact absurd (.inr ⟨rfl, hsame⟩) hmisread
    linarith

end Invariants

section Steps

variable {η : Type} [DecidableEq η] {hash : Directory Int Int → η} {s : PingStore η} {w w' : PingWorld η}
  {b : PingBatch} {plan : PingPlan} {lost : Bool} {e : PingEvent}

theorem process_sane (hsane : s.Sane) : (b.process hash plan s).store.Sane := by
  have heffect := persistPingBatch_effect hash s b.setting b.nowMs b.results plan
  have hnew : ∀ k state, (∃ r ∈ dueOf b.setting b.nowMs b.results s, r.taskId = k) →
      NewState s b.nowMs (persistPingBatch hash b.setting b.nowMs b.results plan s).accepted k state →
      state.Sane := by
    rintro k state ⟨r, hr, rfl⟩ h
    have hlate : tooEarly b.setting r (s.read r.taskId) b.nowMs = false := by
      simpa using (List.mem_filter.mp hr).2
    exact h.sane (hsane r.taskId).1 hlate fun hnone =>
      persistPingBatch_quiet hash s b.setting b.nowMs b.results plan hnone r hr
  intro k
  constructor
  · rcases heffect.read k with hsame | ⟨hk, h⟩
    · exact hsame ▸ (hsane k).1
    · exact hnew k _ hk h
  · rcases heffect.stored k with hsame | ⟨hk, state, h, heq⟩
    · exact hsame ▸ (hsane k).2
    · exact heq ▸ (hnew k state hk h).clean

theorem step_sane (h : pingRunStep hash w e = some w') (hsane : w.store.Sane) : w'.store.Sane := by
  cases e with
  | batch b plan =>
    cases h
    exact process_sane hsane
  | coldStart =>
    cases h
    exact fun k => ⟨(hsane k).2, (hsane k).2⟩

/-- **One step keeps the bounds.** -/
theorem step_bounded (h : pingRunStep hash w e = some w') (hbounded : w.Bounded lost)
    (hjudged : Judged lost w e) : w'.Bounded lost := by
  cases e with
  | coldStart =>
    cases h
    intro commit hcommit c hc hcounts
    have hstored := (hbounded commit hcommit c hc hcounts).1
    exact ⟨hstored, fun _ => hstored⟩
  | batch b plan =>
    cases h
    have heffect := persistPingBatch_effect hash w.store b.setting b.nowMs b.results plan
    intro commit hcommit c hc hcounts
    rcases List.mem_cons.mp hcommit with rfl | hcommit
    · obtain ⟨-, ⟨state, hnew, hstored⟩, hanswered⟩ := heffect.put c hc
      refine ⟨?_, fun hlost => (hanswered ?_).le⟩
      · show _ ≤ (PingStore.stored _ c.1.taskId).lastAcceptedMs
        rw [PingBatch.process, hstored]
        exact hnew.le
      · rcases hcounts with hanswered | hcounted
        · exact hanswered
        · cases hcounted.symm.trans hlost
    · -- an earlier batch: what is new for its task is due, and comes later
      obtain ⟨hstored, hread⟩ := hbounded commit hcommit c hc hcounts
      have hafter : (∃ r ∈ dueOf b.setting b.nowMs b.results w.store, r.taskId = c.1.taskId) →
          commit.nowMs ≤ b.nowMs := by
        rintro ⟨r, hr, hid⟩
        have hspaced := due_spaced hbounded hjudged hr commit hcommit c hc hcounts hid.symm
        have hinterval := pingResultIntervalMs_pos b.setting r.intervalSec
        linarith
      constructor
      · rcases heffect.stored c.1.taskId with hsame | ⟨hdue, state, hnew, heq⟩
        · exact hstored.trans_eq (congrArg lastAcceptedMs hsame.symm)
        · refine (hafter hdue).trans (hnew.le.trans_eq ?_)
          exact (congrArg lastAcceptedMs heq).symm
      · intro hlost
        rcases heffect.read c.1.taskId with hsame | ⟨hdue, hnew⟩
        · exact (hread hlost).trans_eq (congrArg lastAcceptedMs hsame.symm)
        · exact (hafter hdue).trans hnew.le

/-- **One step keeps the distances.** -/
theorem step_spaced (h : pingRunStep hash w e = some w') (hbounded : w.Bounded lost)
    (hjudged : Judged lost w e) (hspaced : Spaced lost w.commits) : Spaced lost w'.commits := by
  cases e with
  | coldStart =>
    cases h
    exact hspaced
  | batch b plan =>
    cases h
    refine List.Pairwise.cons ?_ hspaced
    intro commit hcommit c hc c' hc' _ hcounts' hid
    have hdue := (persistPingBatch_effect hash w.store b.setting b.nowMs b.results plan).put c hc
    have hlate := due_spaced hbounded hjudged hdue.1 commit hcommit c' hc' hcounts' hid
    have hinterval := pingResultIntervalMs_pos b.setting c.1.intervalSec
    exact ⟨by dsimp only; linarith, hlate⟩

end Steps

/-! ## Retry -/

section Retry

variable {η : Type} {s t : PingStore η} {nowMs : ℚ} {setting : Option ℚ}
  {results due : List PingPersistenceResult}

variable {state : PingResultState}

theorem NewState.last {accepted : List PingPersistenceResult} {k : Int}
    (h : NewState s nowMs accepted k state) (hsome : accepted ≠ []) :
    state.lastAcceptedMs = max (s.read k).lastAcceptedMs nowMs := by
  cases h with
  | persisted value h => rfl
  | moved h => exact absurd h hsome

/-- What is due depends on the times only. -/
theorem tooEarly_congr {r : PingPersistenceResult} {other : PingResultState}
    (h : other.lastAcceptedMs = state.lastAcceptedMs) :
    tooEarly setting r other nowMs = tooEarly setting r state nowMs := by
  rw [tooEarly, tooEarly, h]

theorem dueOf_congr (h : ∀ r ∈ results, (t.read r.taskId).lastAcceptedMs = (s.read r.taskId).lastAcceptedMs) :
    dueOf setting nowMs results t = dueOf setting nowMs results s :=
  List.filter_congr fun r hr => by rw [tooEarly_congr (h r hr)]

/-- When all that was due is moved on, nothing is due any more, or still all of it (where the times of the
    batch are not positive, and so mean never). -/
theorem dueOf_moved (hsane : s.Sane) (hnew : ∀ r ∈ dueOf setting nowMs results s,
      (t.read r.taskId).lastAcceptedMs = max (s.read r.taskId).lastAcceptedMs nowMs)
    (hold : ∀ r ∈ results, (∀ q ∈ dueOf setting nowMs results s, q.taskId ≠ r.taskId) →
      (t.read r.taskId).lastAcceptedMs = (s.read r.taskId).lastAcceptedMs) :
    dueOf setting nowMs results t = [] ∨ dueOf setting nowMs results t = dueOf setting nowMs results s := by
  have hdue : ∀ {r}, r ∈ results →
      (r ∉ dueOf setting nowMs results s ↔ tooEarly setting r (s.read r.taskId) nowMs = true) := by
    intro r hr
    rw [dueOf, List.mem_filter]
    simp [hr]
  by_cases hpos : 0 < nowMs
  · left
    refine List.filter_eq_nil_iff.mpr fun r hr => ?_
    have hearly : tooEarly setting r (t.read r.taskId) nowMs = true := by
      by_cases htask : ∃ q ∈ dueOf setting nowMs results s, q.taskId = r.taskId
      · obtain ⟨q, hq, hid⟩ := htask
        have hlast : nowMs ≤ (t.read r.taskId).lastAcceptedMs := by
          rw [← hid, hnew q hq]
          exact le_max_right _ _
        have hinterval := pingResultIntervalMs_pos setting r.intervalSec
        exact decide_eq_true ⟨(hpos.trans_le hlast).ne', by linarith⟩
      · have hnone : ∀ q ∈ dueOf setting nowMs results s, q.taskId ≠ r.taskId :=
          fun q hq hid => htask ⟨q, hq, hid⟩
        rw [tooEarly_congr (hold r hr hnone)]
        exact (hdue hr).mp fun hmem => hnone r hmem rfl
    simp [hearly]
  · right
    -- what is due at such a time has no time yet, and it gets none
    have hzero : ∀ r ∈ dueOf setting nowMs results s, (s.read r.taskId).lastAcceptedMs = 0 := by
      intro r hr
      by_contra hne
      have hlate : tooEarly setting r (s.read r.taskId) nowMs = false := by
        simpa using (List.mem_filter.mp hr).2
      have hafter := not_tooEarly hlate hne
      have hinterval := pingResultIntervalMs_pos setting r.intervalSec
      have hnonneg := (hsane r.taskId).1.nonneg
      linarith
    refine dueOf_congr fun r hr => ?_
    by_cases htask : ∃ q ∈ dueOf setting nowMs results s, q.taskId = r.taskId
    · obtain ⟨q, hq, hid⟩ := htask
      rw [← hid, hnew q hq, hzero q hq]
      exact max_eq_left (not_lt.mp hpos)
    · exact hold r hr fun q hq hid => htask ⟨q, hq, hid⟩

variable [DecidableEq η] {hash : Directory Int Int → η}

theorem insertPingSnapshot_again (rows : List (PingSnapshot η)) :
    insertPingSnapshot hash (insertPingSnapshot hash rows nowMs due) nowMs due
      = insertPingSnapshot hash rows nowMs due := by
  rw [insertPingSnapshot]
  refine if_pos ?_
  rw [insertPingSnapshot]
  split_ifs with hany
  · exact hany
  · simp [snapshotOf]

/-- Results of which the same are due, or none, add no row to one that is there. -/
theorem rows_again (plan : PingPlan)
    (hrows : t.rows = insertPingSnapshot hash s.rows nowMs (dueOf setting nowMs results s))
    (hdue : dueOf setting nowMs results t = [] ∨ dueOf setting nowMs results t = dueOf setting nowMs results s) :
    (persistPingBatch hash setting nowMs results plan t).store.rows = t.rows := by
  rw [persistPingBatch_rows]
  split_ifs with hlanded
  · rcases hdue with hnone | hsame
    · -- without a result that is due no row is written
      obtain ⟨t', -, ⟨-, heq⟩ | ⟨⟨r, hr, -⟩, -⟩⟩ := persistPingBatch_cases hash t setting nowMs results plan
      · rw [heq] at hlanded
        cases hlanded
      · rw [hnone] at hr
        cases hr
    · rw [hsame, hrows, insertPingSnapshot_again]
  · rfl

variable {b : PingBatch} {plan : PingPlan}

/-- **The same batch again, after its row landed**: by the object that is there, and, where its memory
    was not behind the storage, by a new one. -/
theorem process_again (again : PingPlan) (hsane : s.Sane) (hlanded : (b.process hash plan s).landed = true) :
    (b.process hash again (b.process hash plan s).store).store.rows = (b.process hash plan s).store.rows ∧
    ((∀ r ∈ b.results, s.stored r.taskId = (s.read r.taskId).clean) →
      (b.process hash again (b.process hash plan s).store.coldStart).store.rows
        = (b.process hash plan s).store.rows) := by
  have heffect := persistPingBatch_effect hash s b.setting b.nowMs b.results plan
  have hrows := persistPingBatch_rows hash s b.setting b.nowMs b.results plan
  obtain ⟨hread, hstored⟩ := persistPingBatch_landed hash s b.setting b.nowMs b.results plan hlanded
  have hlast : ∀ {r : PingPersistenceResult} {state : PingResultState}, r ∈ dueOf b.setting b.nowMs b.results s →
      NewState s b.nowMs (dueOf b.setting b.nowMs b.results s) r.taskId state →
      state.lastAcceptedMs = max (s.read r.taskId).lastAcceptedMs b.nowMs :=
    fun hr hnew => hnew.last (List.ne_nil_of_mem hr)
  rw [PingBatch.process] at hlanded
  rw [if_pos hlanded] at hrows
  constructor
  · refine rows_again again hrows ?_
    rcases hread with hsame | hnew
    · exact .inr (dueOf_congr fun r _ => congrArg lastAcceptedMs (hsame r.taskId))
    · refine dueOf_moved hsane (fun r hr => ?_) fun r _ hnone => ?_
      · obtain ⟨state, hstate, heq⟩ := hnew r hr
        exact (congrArg lastAcceptedMs heq).trans (hlast hr hstate)
      · rcases heffect.read r.taskId with hsame | ⟨⟨q, hq, hid⟩, -⟩
        · exact congrArg lastAcceptedMs hsame
        · exact absurd hid (hnone q hq)
  · intro hmemory
    have hold : ∀ r ∈ b.results, (s.stored r.taskId).lastAcceptedMs = (s.read r.taskId).lastAcceptedMs := by
      intro r hr
      rw [hmemory r hr]
      rfl
    refine rows_again (t := (b.process hash plan s).store.coldStart) again hrows ?_
    rcases hstored with hsame | hnew
    · refine .inr (dueOf_congr fun r hr => ?_)
      exact (congrArg lastAcceptedMs (hsame r.taskId)).trans (hold r hr)
    · refine dueOf_moved hsane (fun r hr => ?_) fun r hr hnone => ?_
      · obtain ⟨state, hstate, heq⟩ := hnew r hr
        have hmoved := hlast hr hstate
        exact (congrArg lastAcceptedMs heq).trans hmoved
      · rcases heffect.stored r.taskId with hsame | ⟨⟨q, hq, hid⟩, -⟩
        · exact (congrArg lastAcceptedMs hsame).trans (hold r hr)
        · exact absurd hid (hnone q hq)

/-- After a failure the object that is there computes the same subset. -/
theorem process_again_accepted (again : PingPlan)
    (hlanded : (b.process hash plan s).landed = true) (hthrew : (b.process hash plan s).threw = true) :
    (b.process hash again (b.process hash plan s).store).accepted = (b.process hash plan s).accepted := by
  have hread := persistPingBatch_failed hash s b.setting b.nowMs b.results plan hlanded hthrew
  have hdue : dueOf b.setting b.nowMs b.results (b.process hash plan s).store
      = dueOf b.setting b.nowMs b.results s :=
    dueOf_congr fun r _ => congrArg lastAcceptedMs (hread r.taskId)
  rw [PingBatch.process, persistPingBatch_accepted, hdue, PingBatch.process, persistPingBatch_accepted]
  simp only [hread]

end Retry

theorem never_sane : (⟨0, none, none⟩ : PingResultState).Sane := by
  refine ⟨le_refl 0, fun at_ hat => ?_⟩
  simp [clean] at hat

/-- **The ping history of a client keeps its distances**, where what is due by a misread time comes late
    enough, **and a batch whose row landed adds no second one**. -/
theorem ping_history_spaced {η : Type} [DecidableEq η] (hash : Directory Int Int → η) (lost : Bool)
    (events : List PingEvent) (w : PingWorld η)
    (hrun : (pingMachine hash).run PingWorld.start events = some w) :
    ((pingMachine hash).Along (fun w e _ => Judged lost w e) PingWorld.start events →
      Spaced lost w.commits) ∧
    ∀ (b : PingBatch) (plan again : PingPlan), (b.process hash plan w.store).landed = true →
      (b.process hash again (b.process hash plan w.store).store).store.rows
          = (b.process hash plan w.store).store.rows ∧
      ((b.process hash plan w.store).threw = true →
        (b.process hash again (b.process hash plan w.store).store).accepted
          = (b.process hash plan w.store).accepted) ∧
      ((∀ r ∈ b.results, w.store.stored r.taskId = (w.store.read r.taskId).clean) →
        (b.process hash again (b.process hash plan w.store).store.coldStart).store.rows
          = (b.process hash plan w.store).store.rows) := by
  have hstart : (PingWorld.start : PingWorld η).store.Sane := fun k => ⟨never_sane, never_sane⟩
  have hsane : w.store.Sane :=
    (pingMachine hash).run_inv (I := fun w => w.store.Sane) (fun _ _ _ hI h => step_sane h hI) hstart hrun
  refine ⟨fun hjudged => ?_, fun b plan again hlanded => ?_⟩
  · have hinv := (pingMachine hash).run_inv_along (I := fun w => w.Bounded lost ∧ Spaced lost w.commits)
      (fun _ _ _ hI hP h => ⟨step_bounded h hI.1 hP, step_spaced h hI.1 hP hI.2⟩) events
      PingWorld.start w
      ⟨nofun, List.Pairwise.nil⟩ hjudged hrun
    exact hinv.2
  · obtain ⟨hkept, hcold⟩ := process_again again hsane hlanded
    exact ⟨hkept, process_again_accepted again hlanded, hcold⟩

/-- A batch with one result. -/
def batchAt (nowMs value : ℚ) : PingBatch := ⟨nowMs, none, [⟨1, value, some 60⟩]⟩

/-- The hypotheses are satisfiable: two batches two minutes apart, and a third one whose put fails. -/
theorem two_batches_spaced : ∃ w : PingWorld (List (Int × Int)), (pingMachine entriesHash).run PingWorld.start
      [.batch (batchAt 1000000 20) {}, .batch (batchAt 1120000 40) {}] = some w ∧
    Spaced true w.commits ∧
    ((batchAt 1240000 60).process entriesHash {}
        ((batchAt 1240000 60).process entriesHash ⟨.answered, .failed, []⟩ w.store).store).store.rows
      = ((batchAt 1240000 60).process entriesHash ⟨.answered, .failed, []⟩ w.store).store.rows := by
  have htheorem := ping_history_spaced entriesHash true
    [.batch (batchAt 1000000 20) {}, .batch (batchAt 1120000 40) {}] _ rfl
  refine ⟨_, rfl, htheorem.1 ⟨?_, ?_, trivial⟩, (htheorem.2 (batchAt 1240000 60) _ {} (by decide +kernel)).1⟩
  · intro r _ _ _ commit hcommit
    simp [PingWorld.start] at hcommit
  · intro r hr hmisread
    rw [List.mem_singleton.mp hr] at hmisread
    rcases hmisread with hzero | ⟨-, hbehind⟩
    · exact absurd hzero (by decide +kernel)
    · exact absurd (by decide +kernel) hbehind

/-- Two batches at the time 0. -/
theorem batches_at_zero_not_spaced : ¬ ∀ (events : List PingEvent) (w : PingWorld (List (Int × Int))),
      (pingMachine entriesHash).run PingWorld.start events = some w → Spaced false w.commits := by
  intro h
  have hspaced := h [.batch (batchAt 0 20) {}, .batch (batchAt 0 40) {}] _ rfl
  obtain ⟨hfirst, -⟩ := List.pairwise_cons.mp hspaced
  obtain ⟨hbefore, -⟩ := hfirst _ List.mem_cons_self (⟨1, 40, some 60⟩, true) (by decide +kernel)
    (⟨1, 20, some 60⟩, true) (by decide +kernel) (.inl rfl) (.inl rfl) rfl
  exact absurd hbefore (lt_irrefl _)

end CfMonitor.History
