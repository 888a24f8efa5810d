/-
  What a batch of ping results does: to the states of the tasks, and to the rows.

  1. **States** (`Effect`) — only tasks of results that are due get a new state, in the storage or in both
     places; a new state carries the time of the batch or a later one.

  2. **Two kinds of batches** (`persistPingBatch_cases`) — no result that is due is worth a row, and their
     times are moved on one after the other; or one is, and all are written in one row and one put.

  3. **Rows** (`persistPingBatch_rows`) — a row has all results that were due.
-/
import Mathlib
import CfMonitor.History.PingResults
import CfMonitor.Lib.Split

namespace CfMonitor.History

open CfMonitor.Lib
open Directory (get?_put get?_putEach)

/-! ## What a batch does to the states -/

/-- The state of a task as a new object would read it. -/
def PingStore.stored {η : Type} (s : PingStore η) (taskId : Int) : PingResultState :=
  normalizePingResultState (s.storage.get? taskId)

/-- A new object on the same storage. -/
def PingStore.coldStart {η : Type} (s : PingStore η) : PingStore η := { s with cache := Directory.empty }

section Effects

variable {η : Type} {s s' : PingStore η} {nowMs : ℚ} {setting : Option ℚ}
  {results due : List PingPersistenceResult}

/-- A store after a cold start reads what is stored. -/
@[simp] theorem coldStart_read (k : Int) : s.coldStart.read k = s.stored k := rfl

@[simp] theorem coldStart_stored (k : Int) : s.coldStart.stored k = s.stored k := rfl

@[simp] theorem clean_lastAcceptedMs (state : PingResultState) :
    state.clean.lastAcceptedMs = state.lastAcceptedMs := rfl

theorem clean_clean (state : PingResultState) : state.clean.clean = state.clean := by
  simp [PingResultState.clean, Option.filter_filter]

variable {r : PingPersistenceResult} {state : PingResultState}

/-- A result is due if its task has no time, or if the interval is over. -/
theorem not_tooEarly (h : tooEarly setting r state nowMs = false) (hzero : state.lastAcceptedMs ≠ 0) :
    state.lastAcceptedMs + pingResultIntervalMs setting r.intervalSec ≤ nowMs := by
  have hlate : ¬ (state.lastAcceptedMs ≠ 0 ∧
      nowMs - state.lastAcceptedMs < pingResultIntervalMs setting r.intervalSec) :=
    of_decide_eq_false h
  by_contra hearly
  exact hlate ⟨hzero, by linarith⟩

/-- The new state of a task: its row was written, or only its time was moved on. -/
inductive NewState (s : PingStore η) (nowMs : ℚ) (accepted : List PingPersistenceResult) (k : Int) :
    PingResultState → Prop
  | persisted (value : ℚ) (h : accepted ≠ []) :
      NewState s nowMs accepted k ⟨max (s.read k).lastAcceptedMs nowMs, some value, some nowMs⟩
  | moved (h : accepted = []) : NewState s nowMs accepted k { s.read k with lastAcceptedMs := nowMs }

theorem NewState.le {accepted : List PingPersistenceResult} {k : Int}
    (h : NewState s nowMs accepted k state) : nowMs ≤ state.lastAcceptedMs := by
  cases h with
  | persisted value h => exact le_max_right _ _
  | moved h => exact le_refl _

theorem NewState.last_due {accepted : List PingPersistenceResult}
    (h : NewState s nowMs accepted r.taskId state) (hnow : 0 ≤ nowMs)
    (hdue : tooEarly setting r (s.read r.taskId) nowMs = false) : state.lastAcceptedMs = nowMs := by
  cases h with
  | persisted value h =>
    refine max_eq_right ?_
    by_cases hzero : (s.read r.taskId).lastAcceptedMs = 0
    · rw [hzero]
      exact hnow
    · have hlate := not_tooEarly hdue hzero
      have hinterval := pingResultIntervalMs_pos setting r.intervalSec
      linarith
  | moved h => rfl

/-- What is new in `s'`: the tasks of results that are due, in the storage or in both places. -/
structure Effect (s : PingStore η) (nowMs : ℚ) (due accepted : List PingPersistenceResult)
    (commits : List (PingPersistenceResult × Bool)) (s' : PingStore η) : Prop where
  stored : ∀ k, s'.stored k = s.stored k ∨ (∃ r ∈ due, r.taskId = k) ∧
    ∃ state, NewState s nowMs accepted k state ∧ s'.stored k = state.clean
  read : ∀ k, s'.read k = s.read k ∨ (∃ r ∈ due, r.taskId = k) ∧ NewState s nowMs accepted k (s'.read k)
  put : ∀ c ∈ commits, c.1 ∈ due ∧
    (∃ state, NewState s nowMs accepted c.1.taskId state ∧ s'.stored c.1.taskId = state.clean) ∧
    (c.2 = true → NewState s nowMs accepted c.1.taskId (s'.read c.1.taskId))

theorem Effect.nothing (hstored : ∀ k, s'.stored k = s.stored k) (hread : ∀ k, s'.read k = s.read k)
    (accepted : List PingPersistenceResult) : Effect s nowMs due accepted [] s' :=
  ⟨fun k => .inl (hstored k), fun k => .inl (hread k), by simp⟩

/-- The states by task after a put that landed; `answered` says whether the object remembers it. -/
structure PutOne (s : PingStore η) (k : Int) (state : PingResultState) (answered : Bool)
    (s' : PingStore η) : Prop where
  stored : ∀ j, s'.stored j = if j = k then state.clean else s.stored j
  read : ∀ j, s'.read j = if answered = true ∧ j = k then state else s.read j

theorem putOne_answered (s : PingStore η) (k : Int) (state : PingResultState) :
    PutOne s k state true { s.remember k with
      storage := s.storage.put k (.state state), cache := (s.remember k).cache.put k state } where
  stored := by
    intro j
    show normalizePingResultState ((s.storage.put k _).get? j) = _
    rw [get?_put]
    split_ifs <;> rfl
  read := by
    intro j
    rw [PingStore.read]
    dsimp only
    rw [get?_put, remember_cache, get?_put]
    by_cases hj : j = k
    · simp [hj]
    · simp only [hj, if_false, and_false]
      rfl

theorem putOne_lost (s : PingStore η) (k : Int) (state : PingResultState) :
    PutOne s k state false { s.remember k with storage := s.storage.put k (.state state) } where
  stored := by
    intro j
    show normalizePingResultState ((s.storage.put k _).get? j) = _
    rw [get?_put]
    split_ifs <;> rfl
  read := by
    intro j
    rw [PingStore.read]
    dsimp only
    rw [remember_cache, get?_put]
    by_cases hj : j = k
    · simp [hj]
    · simp only [hj, if_false, and_false]
      rfl

variable {commits : List (PingPersistenceResult × Bool)}

/-- Moving the time of a task on twice is moving it on once. -/
theorem Effect.moved_again {accepted : List PingPersistenceResult}
    (h : Effect s nowMs due accepted commits s')
    (hnone : accepted = []) (k : Int) :
    NewState s nowMs accepted k { s'.read k with lastAcceptedMs := nowMs } := by
  have hmoved : { s'.read k with lastAcceptedMs := nowMs } = { s.read k with lastAcceptedMs := nowMs } := by
    rcases h.read k with heq | ⟨-, hnew⟩
    · rw [heq]
    · generalize s'.read k = state at hnew ⊢
      cases hnew with
      | persisted value hsome => exact absurd hnone hsome
      | moved _ => rfl
  rw [hmoved]
  exact NewState.moved hnone

theorem Effect.putOne {accepted : List PingPersistenceResult} {answered : Bool} {s'' : PingStore η}
    (h : Effect s nowMs due accepted commits s') (hnone : accepted = []) (hr : r ∈ due)
    (hput : PutOne s' r.taskId { s'.read r.taskId with lastAcceptedMs := nowMs } answered s'') :
    Effect s nowMs due accepted (commits ++ [(r, answered)]) s'' := by
  have hnew := h.moved_again hnone r.taskId
  refine ⟨fun k => ?_, fun k => ?_, fun c hc => ?_⟩
  · rw [hput.stored]
    by_cases hk : k = r.taskId
    · rw [if_pos hk, hk]
      exact .inr ⟨⟨r, hr, rfl⟩, _, hnew, rfl⟩
    · rw [if_neg hk]
      exact h.stored k
  · rw [hput.read]
    by_cases hk : answered = true ∧ k = r.taskId
    · rw [if_pos hk, hk.2]
      exact .inr ⟨⟨r, hr, rfl⟩, hnew⟩
    · rw [if_neg hk]
      exact h.read k
  · rw [hput.stored, hput.read]
    rcases List.mem_append.mp hc with hc | hc
    · obtain ⟨hdue, hstored, hread⟩ := h.put c hc
      by_cases hk : c.1.taskId = r.taskId
      · rw [if_pos hk]
        refine ⟨hdue, ⟨_, hk ▸ hnew, rfl⟩, fun hanswered => ?_⟩
        split_ifs
        · exact hk ▸ hnew
        · exact hread hanswered
      · rw [if_neg hk, if_neg fun hboth => hk hboth.2]
        exact ⟨hdue, hstored, hread⟩
    · obtain rfl := List.mem_singleton.mp hc
      refine ⟨hr, ?_, fun hanswered => ?_⟩
      · rw [if_pos rfl]
        exact ⟨_, hnew, rfl⟩
      · rw [if_pos ⟨hanswered, rfl⟩]
        exact hnew

theorem Effect.remember {accepted : List PingPersistenceResult}
    (h : Effect s nowMs due accepted commits s') (k : Int) :
    Effect s nowMs due accepted commits (s'.remember k) := by
  refine ⟨h.stored, fun j => ?_, fun c hc => ?_⟩
  · rw [read_remember]
    exact h.read j
  · rw [read_remember]
    exact h.put c hc

/-- **The second loop.** -/
theorem compressLoop_effect (rest : List PingPersistenceResult) :
    ∀ (answers : List Answer) (commits : List (PingPersistenceResult × Bool)) (s' : PingStore η),
      (∀ r ∈ rest, r ∈ due) → Effect s nowMs due [] commits s' →
      Effect s nowMs due [] (commits ++ (compressLoop nowMs rest answers s').2.1)
        (compressLoop nowMs rest answers s').1 := by
  induction rest with
  | nil =>
    intro answers commits s' _ h
    rw [compressLoop, List.append_nil]
    exact h
  | cons r rest ih =>
    intro answers commits s' hrest h
    rw [compressLoop]
    dsimp only
    have hr : r ∈ due := hrest r List.mem_cons_self
    cases answers.headD .answered with
    | answered =>
      have hput := h.putOne rfl hr (putOne_answered s' r.taskId _)
      have hloop := ih answers.tail _ _ (fun q hq => hrest q (List.mem_cons_of_mem _ hq)) hput
      rw [List.append_assoc] at hloop
      exact hloop
    | lost => exact h.putOne rfl hr (putOne_lost s' r.taskId _)
    | failed =>
      rw [List.append_nil]
      exact h.remember r.taskId

theorem compressLoop_rows (rest : List PingPersistenceResult) : ∀ (answers : List Answer) (s' : PingStore η),
    (compressLoop nowMs rest answers s').1.rows = s'.rows := by
  induction rest with
  | nil => exact fun answers s' => rfl
  | cons r rest ih =>
    intro answers s'
    rw [compressLoop]
    dsimp only
    cases answers.headD .answered with
    | answered => exact ih _ _
    | lost => rfl
    | failed => rfl

theorem compressLoop_answered (rest : List PingPersistenceResult) : ∀ s' : PingStore η,
    (compressLoop nowMs rest [] s').2.2 = false := by
  induction rest with
  | nil => exact fun s' => rfl
  | cons r rest ih => exact fun s' => ih _

/-- The states that a row brings. -/
theorem updatesOf_get? (nowMs : ℚ) (s : PingStore η) (due : List PingPersistenceResult) (k : Int) :
    ((∃ r ∈ due, r.taskId = k) → ∃ value, (updatesOf s nowMs due).get? k
      = some ⟨max ((s.cache.get? k).getD ⟨nowMs, none, none⟩).lastAcceptedMs nowMs, some value, some nowMs⟩) ∧
    ((∀ r ∈ due, r.taskId ≠ k) → (updatesOf s nowMs due).get? k = none) := by
  induction due using List.reverseRecOn with
  | nil => exact ⟨nofun, fun _ => rfl⟩
  | append_singleton due r ih =>
    rw [updatesOf, List.foldl_append]
    show (_ → ∃ value, ((updatesOf s nowMs due).put r.taskId _).get? k = _)
      ∧ (_ → ((updatesOf s nowMs due).put r.taskId _).get? k = none)
    rw [get?_put]
    by_cases hk : k = r.taskId
    · rw [if_pos hk]
      refine ⟨fun _ => ⟨r.value, by rw [hk]⟩, fun hnone => absurd hk.symm (hnone r (by simp))⟩
    · rw [if_neg hk]
      refine ⟨?_, fun hnone => ih.2 fun q hq => hnone q (List.mem_append_left _ hq)⟩
      rintro ⟨q, hq, hid⟩
      rcases List.mem_append.mp hq with hq | hq
      · exact ih.1 ⟨q, hq, hid⟩
      · rw [List.mem_singleton.mp hq] at hid
        exact absurd hid.symm hk

end Effects

/-! ## What a batch does -/

section Batches

variable {η : Type} [DecidableEq η] (hash : Directory Int Int → η) {s : PingStore η} {nowMs : ℚ}
  {setting : Option ℚ} {results due : List PingPersistenceResult} {plan : PingPlan}

/-- A store that remembers the states of the tasks that are due. -/
structure Looked (s : PingStore η) (due : List PingPersistenceResult) (s' : PingStore η) : Prop where
  rows : s'.rows = s.rows
  storage : s'.storage = s.storage
  read : ∀ k, s'.read k = s.read k
  cached : ∀ r ∈ due, s'.cache.get? r.taskId = some (s.read r.taskId)

/-- **Two kinds of batches**: none of the results that are due is worth a row, or one is, and all of
    them are written. -/
theorem persistPingBatch_cases (s : PingStore η) (setting : Option ℚ) (nowMs : ℚ)
    (results : List PingPersistenceResult) (plan : PingPlan) :
    ∃ s', Looked s (dueOf setting nowMs results s) s' ∧
      (((∀ r ∈ dueOf setting nowMs results s, shouldPersistPingResult r (s.read r.taskId) nowMs = false) ∧
        persistPingBatch hash setting nowMs results plan s
          = ⟨(compressLoop nowMs (dueOf setting nowMs results s) plan.puts s').1, [],
            (compressLoop nowMs (dueOf setting nowMs results s) plan.puts s').2.1, false,
            (compressLoop nowMs (dueOf setting nowMs results s) plan.puts s').2.2⟩) ∨
      ((∃ r ∈ dueOf setting nowMs results s, shouldPersistPingResult r (s.read r.taskId) nowMs = true) ∧
        persistPingBatch hash setting nowMs results plan s
          = writeDueResults hash nowMs (dueOf setting nowMs results s) plan s')) := by
  obtain ⟨hrows, hstorage, hread, hcached, -, hdue, haccepted⟩ := filterLoop_spec setting nowMs results s
  have hdue' : dueOf setting nowMs results s = (filterLoop setting nowMs results s).2.2 := hdue.symm
  have haccepted' : (filterLoop setting nowMs results s).2.1 = (dueOf setting nowMs results s).filter
      fun r => shouldPersistPingResult r (s.read r.taskId) nowMs := haccepted
  rw [hdue'] at haccepted' ⊢
  refine ⟨(filterLoop setting nowMs results s).1, ⟨hrows, hstorage, hread, fun r hr => ?_⟩, ?_⟩
  · rw [← hdue'] at hr
    exact hcached _ ⟨r, (List.mem_filter.mp hr).1, rfl⟩
  · rw [persistPingBatch]
    rcases hout : filterLoop setting nowMs results s with ⟨s₁, accepted, due⟩
    rw [hout] at haccepted'
    dsimp only at haccepted' ⊢
    by_cases hquiet : accepted.isEmpty = true
    · rw [if_pos hquiet]
      refine .inl ⟨fun r hr => ?_, rfl⟩
      rw [List.isEmpty_iff.mp hquiet] at haccepted'
      have hnone := List.filter_eq_nil_iff.mp haccepted'.symm r hr
      simpa using hnone
    · rw [if_neg hquiet]
      refine .inr ⟨?_, rfl⟩
      obtain ⟨r, hr⟩ := List.exists_mem_of_ne_nil accepted fun hnil => hquiet (by rw [hnil]; rfl)
      rw [haccepted'] at hr
      exact ⟨r, (List.mem_filter.mp hr).1, (List.mem_filter.mp hr).2⟩

theorem writeDueResults_effect {s' : PingStore η} (hlooked : Looked s due s') (hsome : due ≠ [])
    (plan : PingPlan) :
    Effect s nowMs due due (writeDueResults hash nowMs due plan s').commits
      (writeDueResults hash nowMs due plan s').store := by
  have hsame : ∀ rows : List (PingSnapshot η), Effect s nowMs due due [] ⟨s'.cache, s'.storage, rows⟩ := by
    intro rows
    refine Effect.nothing (fun k => ?_) (fun k => ?_) due
    · rw [PingStore.stored, hlooked.storage]
      rfl
    · exact hlooked.read k
  -- the updates of the tasks that are due
  have hupdates : ∀ k, ((∃ r ∈ due, r.taskId = k) →
      ∃ state, (updatesOf s' nowMs due).get? k = some state ∧ NewState s nowMs due k state) ∧
      ((∀ r ∈ due, r.taskId ≠ k) → (updatesOf s' nowMs due).get? k = none) := by
    intro k
    refine ⟨?_, (updatesOf_get? nowMs s' due k).2⟩
    rintro ⟨r, hr, rfl⟩
    obtain ⟨value, hvalue⟩ := (updatesOf_get? nowMs s' due r.taskId).1 ⟨r, hr, rfl⟩
    rw [hlooked.cached r hr] at hvalue
    exact ⟨_, hvalue, NewState.persisted value hsome⟩
  have hstored : ∀ k, (∃ r ∈ due, r.taskId = k) → ∃ state, NewState s nowMs due k state ∧
      normalizePingResultState ((s'.storage.putEach StoredPing.state (updatesOf s' nowMs due)).get? k)
        = state.clean := by
    intro k hk
    obtain ⟨state, hget, hnew⟩ := (hupdates k).1 hk
    exact ⟨state, hnew, by rw [get?_putEach, hget]; rfl⟩
  have hkept : ∀ k, (∀ r ∈ due, r.taskId ≠ k) →
      (s'.storage.putEach StoredPing.state (updatesOf s' nowMs due)).get? k = s.storage.get? k := by
    intro k hk
    rw [get?_putEach, (hupdates k).2 hk, hlooked.storage]
  have hdecide : ∀ k, (∃ r ∈ due, r.taskId = k) ∨ ∀ r ∈ due, r.taskId ≠ k := by
    intro k
    by_cases hk : ∃ r ∈ due, r.taskId = k
    · exact .inl hk
    · exact .inr fun r hr heq => hk ⟨r, hr, heq⟩
  have hstoredAll : ∀ k, normalizePingResultState
      ((s'.storage.putEach StoredPing.state (updatesOf s' nowMs due)).get? k) = s.stored k ∨
      (∃ r ∈ due, r.taskId = k) ∧ ∃ state, NewState s nowMs due k state ∧
        normalizePingResultState ((s'.storage.putEach StoredPing.state (updatesOf s' nowMs due)).get? k)
          = state.clean := by
    intro k
    rcases hdecide k with hk | hk
    · exact .inr ⟨hk, hstored k hk⟩
    · exact .inl (by rw [hkept k hk]; rfl)
  rw [writeDueResults]
  dsimp only
  cases plan.insert with
  | failed => exact hsame _
  | lost => exact hsame _
  | answered =>
    cases plan.put with
    | failed => exact hsame _
    | lost =>
      refine ⟨hstoredAll, fun k => .inl ?_, fun c hc => ?_⟩
      · -- what is due is remembered, and of the rest nothing was stored
        rw [PingStore.read]
        dsimp only
        rcases hdecide k with ⟨r, hr, rfl⟩ | hk
        · rw [hlooked.cached r hr]
        · rw [hkept k hk, ← hlooked.storage]
          exact hlooked.read k
      · obtain ⟨r, hr, rfl⟩ := List.mem_map.mp hc
        exact ⟨hr, hstored _ ⟨r, hr, rfl⟩, by rintro ⟨⟩⟩
    | answered =>
      have hread : ∀ k, PingStore.read ⟨s'.cache.putEach (fun state => state) (updatesOf s' nowMs due),
          s'.storage.putEach StoredPing.state (updatesOf s' nowMs due),
          insertPingSnapshot hash s'.rows nowMs due⟩ k = s.read k ∨
          (∃ r ∈ due, r.taskId = k) ∧ NewState s nowMs due k
            (PingStore.read ⟨s'.cache.putEach (fun state => state) (updatesOf s' nowMs due),
              s'.storage.putEach StoredPing.state (updatesOf s' nowMs due),
              insertPingSnapshot hash s'.rows nowMs due⟩ k) := by
        intro k
        rw [PingStore.read]
        dsimp only
        rw [get?_putEach]
        rcases hdecide k with hk | hk
        · obtain ⟨state, hget, hnew⟩ := (hupdates k).1 hk
          rw [hget]
          exact .inr ⟨hk, hnew⟩
        · rw [(hupdates k).2 hk, hkept k hk, ← hlooked.storage]
          exact .inl (hlooked.read k)
      refine ⟨hstoredAll, hread, fun c hc => ?_⟩
      obtain ⟨r, hr, rfl⟩ := List.mem_map.mp hc
      refine ⟨hr, hstored _ ⟨r, hr, rfl⟩, fun _ => ?_⟩
      obtain ⟨state, hget, hnew⟩ := (hupdates r.taskId).1 ⟨r, hr, rfl⟩
      rw [PingStore.read]
      dsimp only
      rw [get?_putEach, hget]
      exact hnew

theorem writeDueResults_accepted (plan : PingPlan) (s' : PingStore η) :
    (writeDueResults hash nowMs due plan s').accepted = due := by
  rw [writeDueResults]
  dsimp only
  cases plan.insert <;> cases plan.put <;> rfl

/-- The row of a batch that lands; and a batch that fails leaves the object as it was. -/
theorem writeDueResults_rows (plan : PingPlan) (s' : PingStore η) :
    ((writeDueResults hash nowMs due plan s').store.rows
        = if (writeDueResults hash nowMs due plan s').landed then insertPingSnapshot hash s'.rows nowMs due
          else s'.rows) ∧
      ((writeDueResults hash nowMs due plan s').threw = true →
        (writeDueResults hash nowMs due plan s').store.cache = s'.cache) := by
  rw [writeDueResults]
  dsimp only
  cases plan.insert <;> cases plan.put <;> simp

/-- **What a batch does to the states.** -/
theorem persistPingBatch_effect (s : PingStore η) (setting : Option ℚ) (nowMs : ℚ)
    (results : List PingPersistenceResult) (plan : PingPlan) :
    Effect s nowMs (dueOf setting nowMs results s) (persistPingBatch hash setting nowMs results plan s).accepted
      (persistPingBatch hash setting nowMs results plan s).commits
      (persistPingBatch hash setting nowMs results plan s).store := by
  obtain ⟨s', hlooked, ⟨-, heq⟩ | ⟨⟨r, hr, -⟩, heq⟩⟩ := persistPingBatch_cases hash s setting nowMs results plan
  · rw [heq]
    have hnothing : Effect s nowMs (dueOf setting nowMs results s) [] [] s' :=
      Effect.nothing (fun k => by rw [PingStore.stored, hlooked.storage]; rfl) hlooked.read []
    exact compressLoop_effect _ plan.puts [] s' (fun r hr => hr) hnothing
  · rw [heq, writeDueResults_accepted]
    exact writeDueResults_effect hash hlooked (List.ne_nil_of_mem hr) plan

theorem persistPingBatch_answered (s : PingStore η) (setting : Option ℚ) (nowMs : ℚ)
    (results : List PingPersistenceResult) :
    (persistPingBatch hash setting nowMs results {} s).commits
      = (dueOf setting nowMs results s).map fun r => (r, true) := by
  obtain ⟨s', -, ⟨-, heq⟩ | ⟨-, heq⟩⟩ := persistPingBatch_cases hash s setting nowMs results {}
  · rw [heq]
    exact compressLoop_all _ [] s' (compressLoop_answered _ s')
  · rw [heq]
    rfl

theorem persistPingBatch_times (s : PingStore η) (setting : Option ℚ) (hnow : 0 ≤ nowMs)
    (results : List PingPersistenceResult) (k : Int) :
    ((∃ r ∈ dueOf setting nowMs results s, r.taskId = k) →
      ((persistPingBatch hash setting nowMs results {} s).store.read k).lastAcceptedMs = nowMs ∧
      ((persistPingBatch hash setting nowMs results {} s).store.stored k).lastAcceptedMs = nowMs) ∧
    ((∀ r ∈ dueOf setting nowMs results s, r.taskId ≠ k) →
      (persistPingBatch hash setting nowMs results {} s).store.read k = s.read k ∧
      (persistPingBatch hash setting nowMs results {} s).store.stored k = s.stored k) := by
  have heffect := persistPingBatch_effect hash s setting nowMs results {}
  constructor
  · rintro ⟨r, hr, rfl⟩
    have hdue : tooEarly setting r (s.read r.taskId) nowMs = false := by
      simpa using (List.mem_filter.mp hr).2
    have hcommit : (r, true) ∈ (persistPingBatch hash setting nowMs results {} s).commits := by
      rw [persistPingBatch_answered]
      exact List.mem_map_of_mem hr
    obtain ⟨-, ⟨state, hnew, hstored⟩, hread⟩ := heffect.put _ hcommit
    refine ⟨(hread rfl).last_due hnow hdue, ?_⟩
    rw [hstored]
    exact hnew.last_due hnow hdue
  · intro hnone
    refine ⟨(heffect.read k).resolve_right ?_, (heffect.stored k).resolve_right ?_⟩
    · rintro ⟨⟨r, hr, hid⟩, -⟩
      exact hnone r hr hid
    · rintro ⟨⟨r, hr, hid⟩, -⟩
      exact hnone r hr hid

theorem persistPingBatch_rows (s : PingStore η) (setting : Option ℚ) (nowMs : ℚ)
    (results : List PingPersistenceResult) (plan : PingPlan) :
    (persistPingBatch hash setting nowMs results plan s).store.rows
      = if (persistPingBatch hash setting nowMs results plan s).landed
        then insertPingSnapshot hash s.rows nowMs (dueOf setting nowMs results s) else s.rows := by
  obtain ⟨s', hlooked, ⟨-, heq⟩ | ⟨-, heq⟩⟩ := persistPingBatch_cases hash s setting nowMs results plan
  · rw [heq]
    dsimp only
    rw [compressLoop_rows, hlooked.rows]
    rfl
  · rw [heq, (writeDueResults_rows hash plan s').1, hlooked.rows]

/-- If no row was to be written, no result that is due was worth one. -/
theorem persistPingBatch_quiet (s : PingStore η) (setting : Option ℚ) (nowMs : ℚ)
    (results : List PingPersistenceResult) (plan : PingPlan)
    (hnone : (persistPingBatch hash setting nowMs results plan s).accepted = []) :
    ∀ r ∈ dueOf setting nowMs results s, shouldPersistPingResult r (s.read r.taskId) nowMs = false := by
  obtain ⟨s', -, ⟨hquiet, -⟩ | ⟨⟨r, hr, -⟩, heq⟩⟩ := persistPingBatch_cases hash s setting nowMs results plan
  · exact hquiet
  · rw [heq, writeDueResults_accepted] at hnone
    exact absurd hnone (List.ne_nil_of_mem hr)

theorem persistPingBatch_failed (s : PingStore η) (setting : Option ℚ) (nowMs : ℚ)
    (results : List PingPersistenceResult) (plan : PingPlan)
    (hlanded : (persistPingBatch hash setting nowMs results plan s).landed = true)
    (hthrew : (persistPingBatch hash setting nowMs results plan s).threw = true) (k : Int) :
    (persistPingBatch hash setting nowMs results plan s).store.read k = s.read k := by
  rcases (persistPingBatch_effect hash s setting nowMs results plan).read k with hsame | ⟨⟨r, hr, rfl⟩, -⟩
  · exact hsame
  · obtain ⟨s', hlooked, ⟨-, heq⟩ | ⟨-, heq⟩⟩ := persistPingBatch_cases hash s setting nowMs results plan
    · rw [heq] at hlanded
      cases hlanded
    · rw [heq] at hthrew ⊢
      rw [PingStore.read, (writeDueResults_rows hash plan s').2 hthrew, hlooked.cached r hr]

theorem writeDueResults_commits (plan : PingPlan) (s' : PingStore η) :
    ((writeDueResults hash nowMs due plan s').threw = true ∧
        (writeDueResults hash nowMs due plan s').store.storage = s'.storage) ∨
      ∃ answered, (writeDueResults hash nowMs due plan s').commits = due.map (fun r => (r, answered)) ∧
        ((writeDueResults hash nowMs due plan s').threw = false → answered = true) := by
  rw [writeDueResults]
  dsimp only
  cases plan.insert with
  | failed => exact .inl ⟨rfl, rfl⟩
  | lost => exact .inl ⟨rfl, rfl⟩
  | answered =>
    cases plan.put with
    | failed => exact .inl ⟨rfl, rfl⟩
    | lost => exact .inr ⟨false, rfl, by rintro ⟨⟩⟩
    | answered => exact .inr ⟨true, rfl, fun _ => rfl⟩

theorem persistPingBatch_landed (s : PingStore η) (setting : Option ℚ) (nowMs : ℚ)
    (results : List PingPersistenceResult) (plan : PingPlan)
    (hlanded : (persistPingBatch hash setting nowMs results plan s).landed = true) :
    ((∀ k, (persistPingBatch hash setting nowMs results plan s).store.read k = s.read k) ∨
      ∀ r ∈ dueOf setting nowMs results s, ∃ state,
        NewState s nowMs (dueOf setting nowMs results s) r.taskId state ∧
          (persistPingBatch hash setting nowMs results plan s).store.read r.taskId = state) ∧
    ((∀ k, (persistPingBatch hash setting nowMs results plan s).store.stored k = s.stored k) ∨
      ∀ r ∈ dueOf setting nowMs results s, ∃ state,
        NewState s nowMs (dueOf setting nowMs results s) r.taskId state ∧
          (persistPingBatch hash setting nowMs results plan s).store.stored r.taskId = state.clean) := by
  have hfailed := persistPingBatch_failed hash s setting nowMs results plan hlanded
  have heffect := persistPingBatch_effect hash s setting nowMs results plan
  obtain ⟨s', hlooked, ⟨-, heq⟩ | ⟨-, heq⟩⟩ := persistPingBatch_cases hash s setting nowMs results plan
  · rw [heq] at hlanded
    cases hlanded
  · rw [heq] at hfailed heffect ⊢
    rw [writeDueResults_accepted] at heffect
    rcases writeDueResults_commits hash plan s' with ⟨hthrew, hstorage⟩ | ⟨answered, hcommits, hanswered⟩
    · refine ⟨.inl (hfailed hthrew), .inl fun k => ?_⟩
      rw [PingStore.stored, hstorage, hlooked.storage]
      rfl
    · have hput : ∀ r ∈ dueOf setting nowMs results s,
          (r, answered) ∈ (writeDueResults hash nowMs (dueOf setting nowMs results s) plan s').commits := by
        intro r hr
        rw [hcommits]
        exact List.mem_map_of_mem hr
      refine ⟨?_, .inr fun r hr => (heffect.put _ (hput r hr)).2.1⟩
      cases hthrew : (writeDueResults hash nowMs (dueOf setting nowMs results s) plan s').threw with
      | true => exact .inl (hfailed hthrew)
      | false => exact .inr fun r hr => ⟨_, (heffect.put _ (hput r hr)).2.2 (hanswered hthrew), rfl⟩

/-- The results that are to be inserted: all that are due, or none. -/
theorem persistPingBatch_accepted (s : PingStore η) (setting : Option ℚ) (nowMs : ℚ)
    (results : List PingPersistenceResult) (plan : PingPlan) :
    (persistPingBatch hash setting nowMs results plan s).accepted
      = if ∃ r ∈ dueOf setting nowMs results s, shouldPersistPingResult r (s.read r.taskId) nowMs = true
        then dueOf setting nowMs results s else [] := by
  obtain ⟨s', -, ⟨hquiet, heq⟩ | ⟨hsome, heq⟩⟩ := persistPingBatch_cases hash s setting nowMs results plan
  · rw [heq, if_neg]
    rintro ⟨r, hr, htrue⟩
    exact absurd ((hquiet r hr).symm.trans htrue) (by simp)
  · rw [heq, if_pos hsome, writeDueResults_accepted]

end Batches

end CfMonitor.History
