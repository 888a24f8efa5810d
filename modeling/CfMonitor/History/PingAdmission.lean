/-
  What becomes of the ping results of an acknowledged report.

  1. **Program** — `validatePingResults` refuses all results of a report for one that it refuses, and
     for one too many; `persistQueuedPingResult` then returns, and the report is acknowledged.

  2. **Specification** (`AllHandled`) — every result that passes on its own and is due is inserted, or
     its time is moved on.

  3. **Result** — when every due result is handled (`due_results_handled_iff`).
-/
import CfMonitor.History.PingResults

namespace CfMonitor.History

open CfMonitor.Lib

/-! ## Validation -/

section Validation

variable {tasks : List PingTask} {clientUuid : String}

theorem validateLoop_ok (raws : List RawPingResult) : ∀ (deduped final : List (Int × ValidatedPingResult)),
      validateLoop tasks clientUuid raws deduped = .ok final →
      (∀ raw ∈ raws, ∃ v, validateOne tasks clientUuid raw = .ok v) ∧
      (∀ p ∈ final, p ∈ deduped ∨ p.1 = p.2.taskId ∧
        ∃ raw ∈ raws, validateOne tasks clientUuid raw = .ok p.2) ∧
      (∀ k, k ∈ Assoc.keys deduped ∨
        (∃ raw ∈ raws, ∃ v, validateOne tasks clientUuid raw = .ok v ∧ v.taskId = k) →
        k ∈ Assoc.keys final) ∧
      ((Assoc.keys deduped).Nodup → (Assoc.keys final).Nodup) := by
  induction raws with
  | nil =>
    intro deduped final h
    cases h
    refine ⟨by simp, fun p hp => .inl hp, fun k hk => ?_, fun h => h⟩
    rcases hk with hk | ⟨raw, hraw, -⟩
    · exact hk
    · cases hraw
  | cons raw rest ih =>
    intro deduped final h
    rw [validateLoop] at h
    cases hone : validateOne tasks clientUuid raw with
    | error refusal => rw [hone] at h; cases h
    | ok v =>
      rw [hone] at h
      obtain ⟨hall, hfrom, hkeys, hnodup⟩ := ih _ _ h
      refine ⟨?_, fun p hp => ?_, fun k hk => ?_, fun hd => hnodup (Assoc.keys_set_nodup hd)⟩
      · intro other hother
        rcases List.mem_cons.mp hother with rfl | hother
        · exact ⟨v, hone⟩
        · exact hall other hother
      · rcases hfrom p hp with hp | ⟨hkey, other, hother, hok⟩
        · rcases Assoc.mem_set hp with rfl | hp
          · exact .inr ⟨rfl, raw, List.mem_cons_self, hone⟩
          · exact .inl hp
        · exact .inr ⟨hkey, other, List.mem_cons_of_mem _ hother, hok⟩
      · apply hkeys
        rcases hk with hk | ⟨other, hother, w, hok, rfl⟩
        · exact .inl (Assoc.mem_keys_set.mpr (.inr hk))
        · rcases List.mem_cons.mp hother with rfl | hother
          · obtain rfl := Except.ok.inj (hone.symm.trans hok)
            exact .inl (Assoc.mem_keys_set.mpr (.inl rfl))
          · exact .inr ⟨other, hother, w, hok, rfl⟩

theorem validateLoop_total (raws : List RawPingResult)
    (hall : ∀ raw ∈ raws, ∃ v, validateOne tasks clientUuid raw = .ok v) :
    ∀ deduped : List (Int × ValidatedPingResult), ∃ final,
      validateLoop tasks clientUuid raws deduped = .ok final := by
  induction raws with
  | nil => exact fun deduped => ⟨deduped, rfl⟩
  | cons raw rest ih =>
    intro deduped
    obtain ⟨v, hv⟩ := hall raw List.mem_cons_self
    obtain ⟨final, hfinal⟩ := ih (fun other h => hall other (List.mem_cons_of_mem _ h))
      (Assoc.set deduped v.taskId v)
    exact ⟨final, by rw [validateLoop, hv]; exact hfinal⟩

theorem validate_single (raw : RawPingResult) (v : ValidatedPingResult) :
    validatePingResults [raw] tasks clientUuid = .ok [v] ↔ validateOne tasks clientUuid raw = .ok v := by
  rw [validatePingResults, if_neg (by simp), if_neg (by simp [MAX_PING_RESULTS_PER_REPORT]),
    validateLoop]
  cases validateOne tasks clientUuid raw with
  | error refusal => simp
  | ok w => simp [validateLoop, Assoc.set]

/-- **What passes**: at most fifty results, and each of them on its own. -/
theorem validate_isOk_iff (raws : List RawPingResult) :
    (∃ results, validatePingResults raws tasks clientUuid = .ok results) ↔
      raws ≠ [] ∧ raws.length ≤ MAX_PING_RESULTS_PER_REPORT ∧
        ∀ raw ∈ raws, ∃ v, validateOne tasks clientUuid raw = .ok v := by
  rw [validatePingResults]
  by_cases hnone : raws.length = 0
  · rw [if_pos hnone]
    simp [List.length_eq_zero_iff.mp hnone]
  · rw [if_neg hnone]
    by_cases hmany : MAX_PING_RESULTS_PER_REPORT < raws.length
    · rw [if_pos hmany]
      constructor
      · rintro ⟨results, h⟩
        cases h
      · rintro ⟨-, hlength, -⟩
        omega
    · rw [if_neg hmany]
      constructor
      · rintro ⟨results, h⟩
        cases hloop : validateLoop tasks clientUuid raws [] with
        | error refusal => rw [hloop] at h; cases h
        | ok final =>
          exact ⟨fun hnil => hnone (by rw [hnil]; rfl), by omega, (validateLoop_ok raws [] final hloop).1⟩
      · rintro ⟨-, -, hall⟩
        obtain ⟨final, hfinal⟩ := validateLoop_total raws hall []
        exact ⟨final.map Prod.snd, by rw [hfinal]⟩

/-- What `validatePingResults` returns: results of the report, one for each task. -/
theorem validate_results {raws : List RawPingResult} {results : List ValidatedPingResult}
    (h : validatePingResults raws tasks clientUuid = .ok results) :
    (∀ v ∈ results, ∃ raw ∈ raws, validateOne tasks clientUuid raw = .ok v) ∧
    (∀ raw ∈ raws, ∀ v, validateOne tasks clientUuid raw = .ok v → ∃ w ∈ results, w.taskId = v.taskId) ∧
    ∀ v ∈ results, ∀ w ∈ results, v.taskId = w.taskId → v = w := by
  rw [validatePingResults] at h
  split_ifs at h
  cases hloop : validateLoop tasks clientUuid raws [] with
  | error refusal => rw [hloop] at h; cases h
  | ok final =>
    rw [hloop] at h
    cases h
    obtain ⟨-, hfrom, hkeys, hnodup⟩ := validateLoop_ok raws [] final hloop
    have hpair : ∀ p ∈ final, p.1 = p.2.taskId ∧ ∃ raw ∈ raws, validateOne tasks clientUuid raw = .ok p.2 :=
      fun p hp => (hfrom p hp).resolve_left (by simp)
    refine ⟨fun v hv => ?_, fun raw hraw v hv => ?_, fun v hv w hw heq => ?_⟩
    · obtain ⟨p, hp, rfl⟩ := List.mem_map.mp hv
      exact (hpair p hp).2
    · have hkey := hkeys v.taskId (.inr ⟨raw, hraw, v, hv, rfl⟩)
      obtain ⟨p, hp, hid⟩ := List.mem_map.mp hkey
      exact ⟨p.2, List.mem_map_of_mem hp, (hpair p hp).1.symm.trans hid⟩
    · obtain ⟨p, hp, rfl⟩ := List.mem_map.mp hv
      obtain ⟨q, hq, rfl⟩ := List.mem_map.mp hw
      have hp' := Assoc.get?_of_mem (hnodup List.nodup_nil) hp
      have hq' := Assoc.get?_of_mem (hnodup List.nodup_nil) hq
      rw [(hpair p hp).1, heq, ← (hpair q hq).1, hq'] at hp'
      exact (Option.some.inj hp').symm

end Validation

/-! ## Reports -/

section Reports

variable {η : Type} [DecidableEq η] (hash : Directory Int Int → η) (setting : Option ℚ)
  (tasks : List PingTask) (clientId : String) (nowMs : ℚ) (s : PingStore η)

/-- A result as the loop over the intervals sees it. -/
def timed (v : ValidatedPingResult) : PingPersistenceResult :=
  ⟨v.taskId, v.value, ((taskMap tasks).get? v.taskId).bind PingTask.interval_sec⟩

/-- The result passes `validatePingResults` on its own, and its task is due. -/
def PassesAndDue (raw : RawPingResult) (v : ValidatedPingResult) : Prop :=
  validatePingResults [raw] tasks clientId = .ok [v] ∧
    tooEarly setting (timed tasks v) (s.read v.taskId) nowMs = false

/-- The result is among those inserted with the row of its report, or its time was moved on. -/
def Handled (p : Option (Processed η)) (v : ValidatedPingResult) : Prop :=
  ∃ q, p = some q ∧ ((q.landed = true ∧ timed tasks v ∈ q.accepted) ∨
    (q.accepted = [] ∧ (timed tasks v, true) ∈ q.commits))

/-- Every result of a report that passes on its own and is due is handled. -/
def AllHandled (raws : List RawPingResult) (p : Option (Processed η)) : Prop :=
  ∀ raw ∈ raws, ∀ v, PassesAndDue setting tasks clientId nowMs s raw v → Handled tasks p v

/-- The report has at most fifty results, each passes on its own, and those for a task that is due
    carry the same value. -/
def WhollyCurrent (raws : List RawPingResult) : Prop :=
  raws.length ≤ MAX_PING_RESULTS_PER_REPORT ∧
  (∀ raw ∈ raws, ∃ v, validatePingResults [raw] tasks clientId = .ok [v]) ∧
  ∀ raw ∈ raws, ∀ raw' ∈ raws, ∀ v v', PassesAndDue setting tasks clientId nowMs s raw v →
    PassesAndDue setting tasks clientId nowMs s raw' v' → v.taskId = v'.taskId → v.value = v'.value

variable {hash setting tasks clientId nowMs s}

theorem withIntervals_eq (results : List ValidatedPingResult) :
    withIntervals tasks results = results.map (timed tasks) := rfl

variable {raws : List RawPingResult} {plan : PingPlan}

/-- A report whose results are not all current is refused as a whole. -/
theorem handled_only_if_valid {v : ValidatedPingResult}
    (h : Handled tasks (persistQueuedPingResult hash setting tasks clientId nowMs raws plan s) v) :
    ∃ results, validatePingResults raws tasks clientId = .ok results ∧ v ∈ results := by
  obtain ⟨q, hsome, hwritten⟩ := h
  rw [persistQueuedPingResult] at hsome
  cases hvalid : validatePingResults raws tasks clientId with
  | error refusal => rw [hvalid] at hsome; cases hsome
  | ok results =>
    rw [hvalid] at hsome
    cases hsome
    obtain ⟨haccepted, hcommits, -⟩ :=
      persistPingBatch_due hash setting nowMs s (withIntervals tasks results) plan
    have hmem : timed tasks v ∈ withIntervals tasks results := by
      rcases hwritten with ⟨-, hin⟩ | ⟨-, hin⟩
      · exact (List.mem_filter.mp (haccepted _ hin)).1
      · exact (List.mem_filter.mp (hcommits _ hin)).1
    obtain ⟨w, hw, heq⟩ := List.mem_map.mp hmem
    refine ⟨results, rfl, ?_⟩
    have hid : w.taskId = v.taskId := congrArg PingPersistenceResult.taskId heq
    have hvalue : w.value = v.value := congrArg PingPersistenceResult.value heq
    obtain ⟨wid, wvalue⟩ := w
    obtain ⟨vid, vvalue⟩ := v
    obtain rfl : wid = vid := hid
    obtain rfl : wvalue = vvalue := hvalue
    exact hw

/-- **When an acknowledged report loses no result**: exactly when none of its results passes on its own
    and is due, or it is wholly current. -/
theorem due_results_handled_iff {η : Type} [DecidableEq η] (hash : Directory Int Int → η)
    (setting : Option ℚ) (tasks : List PingTask) (clientId : String) (nowMs : ℚ) (s : PingStore η)
    (raws : List RawPingResult) (plan : PingPlan)
    (hack : ∀ q, persistQueuedPingResult hash setting tasks clientId nowMs raws plan s = some q →
      q.threw = false) :
    AllHandled setting tasks clientId nowMs s raws
        (persistQueuedPingResult hash setting tasks clientId nowMs raws plan s) ↔
      (∀ raw ∈ raws, ∀ v, ¬ PassesAndDue setting tasks clientId nowMs s raw v) ∨
        WhollyCurrent setting tasks clientId nowMs s raws := by
  constructor
  · intro hall
    by_cases hsome : ∃ raw ∈ raws, ∃ v, PassesAndDue setting tasks clientId nowMs s raw v
    · right
      obtain ⟨raw, hraw, v, hv⟩ := hsome
      obtain ⟨results, hvalid, -⟩ := handled_only_if_valid (hall raw hraw v hv)
      obtain ⟨-, hlength, hpass⟩ := (validate_isOk_iff raws).mp ⟨results, hvalid⟩
      refine ⟨hlength, fun other hother => ?_, ?_⟩
      · obtain ⟨w, hw⟩ := hpass other hother
        exact ⟨w, (validate_single other w).mpr hw⟩
      · intro raw₁ hraw₁ raw₂ hraw₂ v₁ v₂ hv₁ hv₂ hsame
        -- both are among the results that were validated, and there is one for a task
        obtain ⟨r₁, hr₁, hmem₁⟩ := handled_only_if_valid (hall raw₁ hraw₁ v₁ hv₁)
        obtain ⟨r₂, hr₂, hmem₂⟩ := handled_only_if_valid (hall raw₂ hraw₂ v₂ hv₂)
        obtain rfl := Except.ok.inj (hr₁.symm.trans hr₂)
        rw [(validate_results hr₁).2.2 v₁ hmem₁ v₂ hmem₂ hsame]
    · exact .inl fun raw hraw v hv => hsome ⟨raw, hraw, v, hv⟩
  · rintro (hnone | ⟨hlength, hpass, hvalues⟩)
    · exact fun raw hraw v hv => absurd hv (hnone raw hraw v)
    · intro raw hraw v hv
      have hone := (validate_single raw v).mp hv.1
      obtain ⟨results, hvalid⟩ := (validate_isOk_iff raws).mpr
        ⟨fun hnil => absurd (hnil ▸ hraw) (by simp), hlength, fun other hother => by
          obtain ⟨w, hw⟩ := hpass other hother
          exact ⟨w, (validate_single other w).mp hw⟩⟩
      obtain ⟨hfrom, hkept, -⟩ := validate_results hvalid
      -- the result that was kept for the task carries the same value
      obtain ⟨w, hw, hid⟩ := hkept raw hraw v hone
      obtain ⟨raw', hraw', hone'⟩ := hfrom w hw
      have hdue : PassesAndDue setting tasks clientId nowMs s raw' w := by
        refine ⟨(validate_single raw' w).mpr hone', ?_⟩
        have hsame : tooEarly setting (timed tasks w) (s.read w.taskId) nowMs
            = tooEarly setting (timed tasks v) (s.read v.taskId) nowMs := by
          rw [timed, timed, hid]
          rfl
        rw [hsame]
        exact hv.2
      have hvalue := hvalues raw' hraw' raw hraw w v hdue hv hid
      have hprocessed : persistQueuedPingResult hash setting tasks clientId nowMs raws plan s
          = some (persistPingBatch hash setting nowMs (withIntervals tasks results) plan s) := by
        rw [persistQueuedPingResult, hvalid]
      have htimed : timed tasks v = timed tasks w := by
        rw [timed, timed, hid, hvalue]
      rw [hprocessed]
      refine ⟨_, rfl, ?_⟩
      rw [htimed]
      refine (persistPingBatch_due hash setting nowMs s (withIntervals tasks results) plan).2.2 (hack _ hprocessed) _ ?_
      refine List.mem_filter.mpr ⟨List.mem_map_of_mem hw, ?_⟩
      have hearly := hdue.2
      show (!tooEarly setting (timed tasks w) (s.read w.taskId) nowMs) = true
      rw [hearly]
      rfl

end Reports

/-- A task that every client has. -/
def everyonesTask : PingTask := ⟨some 1, [], true, some 60⟩

/-- The hypothesis is satisfiable: a report with one result for the task. -/
theorem due_results_handled_once :
    AllHandled none [everyonesTask] "node" 1788696000000 (PingStore.empty : PingStore (List (Int × Int)))
      [⟨some 1, some 20⟩]
      (persistQueuedPingResult entriesHash none [everyonesTask] "node" 1788696000000
        [⟨some 1, some 20⟩] {} PingStore.empty) := by
  have hack : ∀ q, persistQueuedPingResult entriesHash none [everyonesTask] "node" 1788696000000
      [⟨some 1, some 20⟩] {} PingStore.empty = some q → q.threw = false := by
    intro q hq
    obtain ⟨q', hq', hthrew⟩ : ∃ q', persistQueuedPingResult entriesHash none [everyonesTask] "node"
        1788696000000 [⟨some 1, some 20⟩] {} PingStore.empty = some q' ∧ q'.threw = false :=
      ⟨_, rfl, by decide +kernel⟩
    obtain rfl := Option.some.inj (hq.symm.trans hq')
    exact hthrew
  refine (due_results_handled_iff entriesHash none [everyonesTask] "node" 1788696000000
    PingStore.empty [⟨some 1, some 20⟩] {} hack).mpr (.inr ⟨by decide, fun raw hraw => ?_, ?_⟩)
  · rw [List.mem_singleton.mp hraw]
    exact ⟨⟨1, 20⟩, rfl⟩
  · intro raw hraw raw' hraw' v v' hv hv' _
    rw [List.mem_singleton.mp hraw] at hv
    rw [List.mem_singleton.mp hraw'] at hv'
    obtain ⟨rfl⟩ := Except.ok.inj (hv.1.symm.trans hv'.1)
    rfl

/-- A result of a deleted task takes a due result of another task with it, in a report that is
    acknowledged. -/
theorem obsolete_result_discards_others : ¬ ∀ (tasks : List PingTask) (raws : List RawPingResult),
      (∀ q, persistQueuedPingResult entriesHash none tasks "node" 1788696000000 raws {} PingStore.empty
        = some q → q.threw = false) →
      AllHandled none tasks "node" 1788696000000 (PingStore.empty : PingStore (List (Int × Int))) raws
        (persistQueuedPingResult entriesHash none tasks "node" 1788696000000 raws {} PingStore.empty) := by
  intro h
  have hrefused : persistQueuedPingResult entriesHash none [everyonesTask] "node" 1788696000000
      [⟨some 1, some 20⟩, ⟨some 2, some 20⟩] {} PingStore.empty = none := rfl
  have hdue : PassesAndDue none [everyonesTask] "node" 1788696000000
      (PingStore.empty : PingStore (List (Int × Int))) ⟨some 1, some 20⟩ ⟨1, 20⟩ :=
    ⟨rfl, by decide +kernel⟩
  obtain ⟨q, hq, -⟩ := h [everyonesTask] [⟨some 1, some 20⟩, ⟨some 2, some 20⟩]
    (fun q hq => absurd (hrefused.symm.trans hq) (by simp)) _ List.mem_cons_self _ hdue
  cases hrefused.symm.trans hq

end CfMonitor.History
