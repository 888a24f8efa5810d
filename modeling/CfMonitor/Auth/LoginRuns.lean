/-
  Every failed login counts, and no lock opens early.

  1. **Counting** (`LoginWorld.Counts`) — a row has the number of failures of its window, up to the greatest
     integer of its column.

  2. **Clearing** (`LoginWorld.Fresh`) — every recorded failure draws a new revision, so a loaded state has the
     revision of the row only if nothing was recorded since.

  3. **Crux** (`Attempts.Open`) — the ninth failure of a window comes 450 seconds after the first at the
     earliest, and locks the bucket for 480 more: a tenth would be outside the window.

  4. **Result** (`login_lockout`).
-/
import CfMonitor.Auth.LoginLimits
import Mathlib.Order.Lattice

namespace CfMonitor.Auth

open CfMonitor.Lib

/-! ## A recorded failure -/

section Record

variable {limits : LoginRateLimit} {failedAt : Int} {revision : Nat}

@[simp] theorem recordFailure_revision (before : Option LoginRateLimit) :
    (recordFailure before failedAt revision).failureRevision = revision := by
  rw [recordFailure]
  cases before with
  | none => rfl
  | some limits =>
    show (countFailure (some limits) failedAt revision).failureRevision = revision
    rw [countFailure]
    split_ifs <;> rfl

/-- **A failure in the window.** -/
theorem recordFailure_within (h : max failedAt limits.lastFailedAt - limits.firstFailedAt ≤ failureWindow) :
    recordFailure (some limits) failedAt revision =
      { failures := min limits.failures 2147483646 + 1
        firstFailedAt := limits.firstFailedAt
        lastFailedAt := max failedAt limits.lastFailedAt
        lockedUntil := lockAfter (countFailure (some limits) failedAt revision)
        failureRevision := revision } := by
  rw [recordFailure, countFailure]
  simp only [if_pos h]

/-- **A failure after the window** begins another one. -/
theorem recordFailure_after (h : ¬ max failedAt limits.lastFailedAt - limits.firstFailedAt ≤ failureWindow) :
    recordFailure (some limits) failedAt revision =
      { failures := 1
        firstFailedAt := max failedAt limits.lastFailedAt
        lastFailedAt := max failedAt limits.lastFailedAt
        lockedUntil := lockAfter (countFailure (some limits) failedAt revision)
        failureRevision := revision } := by
  rw [recordFailure, countFailure]
  simp only [if_neg h]

theorem recordFailure_last : (recordFailure (some limits) failedAt revision).lastFailedAt
    = max failedAt limits.lastFailedAt := by
  by_cases h : max failedAt limits.lastFailedAt - limits.firstFailedAt ≤ failureWindow
  · rw [recordFailure_within h]
  · rw [recordFailure_after h]

theorem le_greatest_right {a : Option Int} {x : Int} : ∃ y, greatest a (some x) = some y ∧ x ≤ y := by
  cases a with
  | none => exact ⟨x, rfl, by omega⟩
  | some z => exact ⟨max z x, rfl, by omega⟩

/-- **A recorded failure keeps a lock** that ends after the last failure. -/
theorem recordFailure_lock {lockedUntil : Int} (h : limits.lockedUntil = some lockedUntil)
    (hlast : (recordFailure (some limits) failedAt revision).lastFailedAt < lockedUntil) :
    ∃ later, (recordFailure (some limits) failedAt revision).lockedUntil = some later ∧ lockedUntil ≤ later := by
  rw [recordFailure_last] at hlast
  have hsaved : (countFailure (some limits) failedAt revision).lockedUntil = some lockedUntil ∧
      (countFailure (some limits) failedAt revision).lastFailedAt = max failedAt limits.lastFailedAt := by
    rw [countFailure]
    split_ifs
    · exact ⟨h, rfl⟩
    · exact ⟨h, rfl⟩
  show ∃ later, lockAfter (countFailure (some limits) failedAt revision) = some later ∧ lockedUntil ≤ later
  have hfilter : (some lockedUntil).filter (fun at_ => decide (max failedAt limits.lastFailedAt < at_))
      = some lockedUntil := by
    rw [Option.filter_some, if_pos (by simpa using hlast)]
  rw [lockAfter, hsaved.1, hsaved.2, hfilter]
  exact le_greatest_right

end Record

/-! ## The invariant of the calls -/

namespace LoginWorld

/-- A row has the failures of its window. -/
def Counts (w : LoginWorld) : Prop :=
  ∀ bucket row, w.rows bucket = some row → row.failures = min (w.window bucket) 2147483647

/-- Revisions are those that were drawn, and a loaded state with the one of the row is the latest. -/
structure Fresh (w : LoginWorld) : Prop where
  row : ∀ bucket row, w.rows bucket = some row → row.failureRevision < w.revisions
  loaded : ∀ o ∈ w.loaded, o.state.failureRevision < w.revisions
  latest : ∀ o ∈ w.loaded, ∀ row, w.rows o.bucket = some row → o.state.failureRevision = row.failureRevision →
    w.recorded o.bucket = o.recorded

variable {w : LoginWorld} {bucket : String} {failedAt : Int}

theorem rows_recordOne (b : String) : (w.recordOne failedAt bucket).rows b =
    if b = bucket then some (recordFailure (w.rows bucket) failedAt w.revisions) else w.rows b := by
  show Function.update w.rows bucket _ b = _
  rw [Function.update_apply]

theorem window_recordOne (b : String) : (w.recordOne failedAt bucket).window b =
    if b = bucket then windowAfter (w.rows bucket) (recordFailure (w.rows bucket) failedAt w.revisions)
      (w.window bucket) else w.window b := by
  show Function.update w.window bucket _ b = _
  rw [Function.update_apply]

theorem recorded_recordOne (b : String) : (w.recordOne failedAt bucket).recorded b =
    if b = bucket then w.recorded bucket + 1 else w.recorded b := by
  show Function.update w.recorded bucket _ b = _
  rw [Function.update_apply]

theorem Counts.recordOne (h : w.Counts) : (w.recordOne failedAt bucket).Counts := by
  intro b row hrow
  rw [rows_recordOne] at hrow
  rw [window_recordOne]
  split_ifs at hrow ⊢ with hb
  · cases hrow
    cases hbefore : w.rows bucket with
    | none => rfl
    | some limits =>
      have hcount := h bucket limits hbefore
      by_cases hwithin : max failedAt limits.lastFailedAt - limits.firstFailedAt ≤ failureWindow
      · rw [recordFailure_within hwithin, windowAfter, if_pos rfl]
        show min limits.failures 2147483646 + 1 = _
        omega
      · rw [recordFailure_after hwithin, windowAfter, if_neg]
        · rfl
        · -- the new window begins later
          show ¬ limits.firstFailedAt = max failedAt limits.lastFailedAt
          rw [failureWindow] at hwithin
          omega
  · exact h b row hrow

theorem Fresh.recordOne (h : w.Fresh) : (w.recordOne failedAt bucket).Fresh := by
  constructor
  · intro b row hrow
    rw [rows_recordOne] at hrow
    show row.failureRevision < w.revisions + 1
    split_ifs at hrow with hb
    · cases hrow
      rw [recordFailure_revision]
      omega
    · have hold := h.row b row hrow
      omega
  · intro o ho
    have hold := h.loaded o ho
    show o.state.failureRevision < w.revisions + 1
    omega
  · intro o ho row hrow hsame
    rw [rows_recordOne] at hrow
    rw [recorded_recordOne]
    split_ifs at hrow ⊢ with hb
    · -- the new revision was never loaded
      cases hrow
      rw [recordFailure_revision] at hsame
      have hold := h.loaded o ho
      omega
    · exact h.latest o ho row hrow hsame

theorem record_keeps {P : LoginWorld → Prop} (hone : ∀ w bucket failedAt, P w → P (w.recordOne failedAt bucket))
    (h : P w) (buckets : List String) (failedAt : Option Int) : P (w.recordLoginFailures buckets failedAt) := by
  cases failedAt with
  | none => exact h
  | some failedAt =>
    show P ((failureBuckets buckets).foldl (LoginWorld.recordOne failedAt) w)
    generalize failureBuckets buckets = names
    induction names generalizing w with
    | nil => exact h
    | cons name names ih => exact ih (hone w name failedAt h)

/-- **One step** of the calls. -/
theorem step_inv {w' : LoginWorld} {e : LoginEvent} (hcounts : w.Counts) (hfresh : w.Fresh)
    (hstep : loginStep w e = some w') : w'.Counts ∧ w'.Fresh := by
  cases e with
  | recordLoginFailures buckets failedAt =>
    cases hstep
    exact ⟨record_keeps (fun _ _ _ => Counts.recordOne) hcounts buckets failedAt,
      record_keeps (fun _ _ _ => Fresh.recordOne) hfresh buckets failedAt⟩
  | loadLoginRateLimitStates buckets =>
    cases hstep
    have hnew : ∀ o, o ∈ (w.states buckets).filterMap (fun state =>
        state.2.map fun row => (⟨state.1, row, w.recorded state.1⟩ : LoadedState)) →
        w.rows o.bucket = some o.state ∧ o.recorded = w.recorded o.bucket := by
      intro o ho
      obtain ⟨state, hstate, hsome⟩ := List.mem_filterMap.mp ho
      obtain ⟨b, -, rfl⟩ := List.mem_map.mp hstate
      obtain ⟨row, hrow, rfl⟩ := Option.map_eq_some_iff.mp hsome
      exact ⟨hrow, rfl⟩
    refine ⟨hcounts, hfresh.row, ?_, ?_⟩
    · intro o ho
      rcases List.mem_append.mp ho with ho | ho
      · exact hfresh.loaded o ho
      · exact hfresh.row o.bucket o.state (hnew o ho).1
    · intro o ho row hrow hsame
      rcases List.mem_append.mp ho with ho | ho
      · exact hfresh.latest o ho row hrow hsame
      · exact (hnew o ho).2.symm
  | clearObservedLoginFailures states =>
    cases hstep
    have hback : ∀ b row, (w.clearObserved (w.observed states)).rows b = some row → w.rows b = some row :=
      fun b row hrow => (Option.filter_eq_some_iff.mp hrow).1
    refine ⟨fun b row hrow => hcounts b row (hback b row hrow), ?_, hfresh.loaded, ?_⟩
    · exact fun b row hrow => hfresh.row b row (hback b row hrow)
    · exact fun o ho row hrow hsame => hfresh.latest o ho row (hback o.bucket row hrow) hsame

/-- **Every run** of the calls. -/
theorem run_inv {es : List LoginEvent} (hrun : loginMachine.run LoginWorld.start es = some w) : w.Counts ∧ w.Fresh := by
  refine loginMachine.run_inv (fun s e s' h hstep => step_inv h.1 h.2 hstep) ⟨?_, ?_⟩ hrun
  · exact nofun
  · constructor <;> simp [LoginWorld.start]

end LoginWorld

/-! ## The attempts -/

/-- How long the locks after fewer failures last in all. -/
def spentSeconds : Nat → Nat
  | 0 => 0
  | n + 1 => spentSeconds n + if 5 ≤ n then lockSeconds n else 0

/-- An attempt that belongs to a window: recorded since its first failure, and admitted before its end. -/
def inWindow (first : Int) (attempt : Int × Int) : Bool :=
  decide (first ≤ 1000 * attempt.2) && decide (1000 * attempt.1 ≤ first + failureWindow)

/-- The attempts of a window. -/
def Attempts.count (s : Attempts) (first : Int) : Nat := (s.admitted.filter (inWindow first)).length

/-- **The invariant of the attempts** while a window is open. -/
structure Attempts.Open (s : Attempts) (row : LoginRateLimit) : Prop where
  clock : row.lastFailedAt ≤ 1000 * s.clock
  exact : ∃ at_, row.lastFailedAt = 1000 * at_
  within : row.firstFailedAt ≤ row.lastFailedAt ∧ row.lastFailedAt ≤ row.firstFailedAt + failureWindow
  failures : 1 ≤ row.failures ∧ row.failures ≤ 9
  count : s.count row.firstFailedAt = row.failures
  recorded : ∀ attempt ∈ s.admitted, 1000 * attempt.2 ≤ row.lastFailedAt
  lock : row.lockedUntil =
    if 5 ≤ row.failures then some (row.lastFailedAt + 1000000 * (lockSeconds row.failures : Int)) else none
  spaced : row.firstFailedAt + 1000000 * (spentSeconds row.failures : Int) ≤ row.lastFailedAt

/-- A window that is over. -/
def Attempts.Closed (s : Attempts) (first : Int) : Prop :=
  s.count first ≤ 9 ∧ first + failureWindow < 1000 * s.clock

section Attempts

variable {bucket : String} {s s' : Attempts} {row : LoginRateLimit} {nowMs failedAt : Int}

theorem lock_over {states : List (String × Option LoginRateLimit)} (h : getLoginRetryAfterSeconds states nowMs = 0)
    {state : String × Option LoginRateLimit} (hstate : state ∈ states) :
    parseTimeMs (state.2.bind LoginRateLimit.lockedUntil) ≤ nowMs := by
  have hfold : ∀ (states : List (String × Option LoginRateLimit)) (lockedUntilMs : Int),
      lockedUntilMs ≤ states.foldl (fun lockedUntilMs state =>
        max lockedUntilMs (parseTimeMs (state.2.bind LoginRateLimit.lockedUntil))) lockedUntilMs ∧
      ∀ state ∈ states, parseTimeMs (state.2.bind LoginRateLimit.lockedUntil) ≤ states.foldl (fun lockedUntilMs state =>
        max lockedUntilMs (parseTimeMs (state.2.bind LoginRateLimit.lockedUntil))) lockedUntilMs := by
    intro states
    induction states with
    | nil => exact fun lockedUntilMs => ⟨le_refl _, nofun⟩
    | cons first states ih =>
      intro lockedUntilMs
      obtain ⟨hle, hmem⟩ := ih (max lockedUntilMs (parseTimeMs (first.2.bind LoginRateLimit.lockedUntil)))
      rw [List.foldl_cons]
      refine ⟨by omega, fun state hstate => ?_⟩
      rcases List.mem_cons.mp hstate with rfl | hstate
      · omega
      · exact hmem state hstate
  have hle := (hfold states 0).2 state hstate
  rw [getLoginRetryAfterSeconds] at h
  split_ifs at h with hover
  · omega
  · omega

/-- The loop leaves the buckets that are not its own. -/
theorem rows_foldl_other {names : List String} (hout : bucket ∉ names) (w : LoginWorld) :
    (names.foldl (LoginWorld.recordOne failedAt) w).rows bucket = w.rows bucket := by
  induction names generalizing w with
  | nil => rfl
  | cons name names ih =>
    rw [List.mem_cons, not_or] at hout
    rw [List.foldl_cons, ih hout.2, LoginWorld.rows_recordOne, if_neg hout.1]

variable {w : LoginWorld}

/-- **One call leaves one failure** in each of its buckets. -/
theorem rows_recordLoginFailures {buckets : List String} (failedAt : Int)
    (hmem : bucket ∈ failureBuckets buckets) :
    ∃ revision, (w.recordLoginFailures buckets (some failedAt)).rows bucket
      = some (recordFailure (w.rows bucket) failedAt revision) := by
  have hfold : ∀ (names : List String) (w : LoginWorld), names.Nodup → bucket ∈ names →
      ∃ revision, (names.foldl (LoginWorld.recordOne failedAt) w).rows bucket
        = some (recordFailure (w.rows bucket) failedAt revision) := by
    intro names
    induction names with
    | nil => exact nofun
    | cons name names ih =>
      intro w hnodup hmem
      rw [List.foldl_cons]
      rw [List.nodup_cons] at hnodup
      by_cases hname : bucket = name
      · subst hname
        exact ⟨w.revisions, by rw [rows_foldl_other hnodup.1, LoginWorld.rows_recordOne, if_pos rfl]⟩
      · obtain ⟨revision, hrow⟩ := ih (w.recordOne failedAt name) hnodup.2 ((List.mem_cons.mp hmem).resolve_left hname)
        refine ⟨revision, ?_⟩
        rw [hrow, LoginWorld.rows_recordOne, if_neg hname]
  exact hfold _ w (List.nodup_dedup _) hmem

theorem rows_elsewhere {w' : LoginWorld} {e : LoginEvent} (hspares : e.spares w bucket = true)
    (hstep : loginStep w e = some w') : w'.rows bucket = w.rows bucket := by
  cases e with
  | recordLoginFailures buckets failedAt =>
    cases hstep
    have hout : bucket ∉ failureBuckets buckets := by simpa [LoginEvent.spares] using hspares
    cases failedAt with
    | none => rfl
    | some failedAt => exact rows_foldl_other hout w
  | loadLoginRateLimitStates buckets =>
    cases hstep
    rfl
  | clearObservedLoginFailures states =>
    cases hstep
    have hnone : (w.observed states).all (fun o => o.bucket != bucket) = true := hspares
    show (w.rows bucket).filter _ = _
    cases hrow : w.rows bucket with
    | none => rfl
    | some row =>
      rw [Option.filter_some, if_pos]
      simp only [Bool.not_eq_true', List.any_eq_false, Bool.and_eq_true, beq_iff_eq, not_and]
      intro o ho hbucket
      have hdiffers := List.all_eq_true.mp hnone o ho
      exact absurd hbucket (by simpa using hdiffers)

theorem lockAfter_over {saved : LoginRateLimit} (h : ∀ at_, saved.lockedUntil = some at_ → at_ ≤ saved.lastFailedAt) :
    lockAfter saved = if 5 ≤ saved.failures then
      some (saved.lastFailedAt + 1000000 * (lockSeconds saved.failures : Int)) else none := by
  have hnone : saved.lockedUntil.filter (fun lockedUntil => decide (saved.lastFailedAt < lockedUntil)) = none := by
    rw [Option.filter_eq_none_iff]
    intro at_ hat
    have hle := h at_ hat
    simpa using hle
  rw [lockAfter, hnone]
  split_ifs <;> rfl

/-- The state after an attempt that was admitted. -/
def Attempts.failed (s : Attempts) (w : LoginWorld) (nowMs failedAt : Int) : Attempts :=
  ⟨w, failedAt, (nowMs, failedAt) :: s.admitted⟩

theorem Attempts.count_failed (w : LoginWorld) (first : Int) :
    (s.failed w nowMs failedAt).count first = s.count first + if inWindow first (nowMs, failedAt) then 1 else 0 := by
  rw [Attempts.count, Attempts.failed, List.filter_cons]
  split_ifs
  · rfl
  · rfl

theorem Attempts.open_first (w : LoginWorld) (revision : Nat) (hnone : s.admitted = []) (hle : nowMs ≤ failedAt) :
    (s.failed w nowMs failedAt).Open (recordFailure none (1000 * failedAt) revision) := by
  have hin : inWindow (1000 * failedAt) (nowMs, failedAt) = true := by
    rw [inWindow, failureWindow, Bool.and_eq_true, decide_eq_true_eq, decide_eq_true_eq]
    omega
  constructor
  · exact le_refl _
  · exact ⟨failedAt, rfl⟩
  · constructor
    · exact le_refl _
    · show 1000 * failedAt ≤ 1000 * failedAt + failureWindow
      rw [failureWindow]
      omega
  · show 1 ≤ 1 ∧ 1 ≤ 9
    omega
  · rw [Attempts.count_failed, Attempts.count, hnone]
    show 0 + (if inWindow (1000 * failedAt) (nowMs, failedAt) then 1 else 0) = 1
    rw [if_pos hin]
  · intro attempt hattempt
    rw [Attempts.failed, hnone] at hattempt
    obtain rfl := List.mem_singleton.mp hattempt
    exact le_refl _
  · rfl
  · show 1000 * failedAt + 1000000 * ((0 : Nat) : Int) ≤ 1000 * failedAt
    omega

/-- **An admitted attempt**, when a window is open: it is counted in it, or it closes it and begins another. -/
theorem Attempts.Open.attempt (h : s.Open row) (w : LoginWorld) (revision : Nat) (hclock : s.clock ≤ nowMs)
    (hle : nowMs ≤ failedAt) (hover : parseTimeMs row.lockedUntil ≤ nowMs) :
    (s.failed w nowMs failedAt).Open (recordFailure (some row) (1000 * failedAt) revision) ∧
    ((recordFailure (some row) (1000 * failedAt) revision).firstFailedAt = row.firstFailedAt ∨
      (s.failed w nowMs failedAt).Closed row.firstFailedAt) := by
  obtain ⟨hfirst, hwindow⟩ := h.within
  obtain ⟨hone, hnine⟩ := h.failures
  obtain ⟨at_, hat⟩ := h.exact
  have hlast := h.clock
  have hmax : max (1000 * failedAt) row.lastFailedAt = 1000 * failedAt := by omega
  -- the lock is over when the attempt is admitted
  have hlocked : 5 ≤ row.failures → row.lastFailedAt + 1000000 * (lockSeconds row.failures : Int) ≤ 1000 * nowMs := by
    intro hfive
    have hlock := h.lock
    rw [if_pos hfive] at hlock
    rw [hlock, parseTimeMs, hat] at hover
    omega
  have hunlocked : ∀ saved : LoginRateLimit, saved.lockedUntil = row.lockedUntil →
      saved.lastFailedAt = 1000 * failedAt → ∀ until_, saved.lockedUntil = some until_ → until_ ≤ saved.lastFailedAt := by
    intro saved hsame hsaved until_ huntil
    rw [hsame, h.lock] at huntil
    split_ifs at huntil with hfive
    have hend := hlocked hfive
    cases huntil
    omega
  -- the ninth failure locks the bucket beyond the end of the window
  have hninth : row.failures = 9 → row.firstFailedAt + failureWindow < 1000 * nowMs := by
    intro hnine
    have hend := hlocked (by omega)
    have hspaced := h.spaced
    rw [hnine] at hend hspaced
    have hlock : lockSeconds 9 = 480 := by decide
    have hspent : spentSeconds 9 = 450 := by decide
    rw [hlock] at hend
    rw [hspent] at hspaced
    rw [failureWindow]
    omega
  by_cases hwithin : max (1000 * failedAt) row.lastFailedAt - row.firstFailedAt ≤ failureWindow
  · have hless : row.failures ≤ 8 := by
      by_contra hmore
      have hout := hninth (by omega)
      omega
    have hin : inWindow row.firstFailedAt (nowMs, failedAt) = true := by
      simp only [inWindow, Bool.and_eq_true, decide_eq_true_eq]
      omega
    have hfailures : min row.failures 2147483646 + 1 = row.failures + 1 := by omega
    have hlock : lockAfter (countFailure (some row) (1000 * failedAt) revision) =
        if 5 ≤ row.failures + 1 then
          some (1000 * failedAt + 1000000 * (lockSeconds (row.failures + 1) : Int)) else none := by
      have hsaved : countFailure (some row) (1000 * failedAt) revision
          = ⟨row.failures + 1, row.firstFailedAt, 1000 * failedAt, row.lockedUntil, revision⟩ := by
        rw [countFailure]
        simp only [if_pos hwithin]
        rw [hfailures, hmax]
      rw [hsaved]
      exact lockAfter_over (hunlocked _ rfl rfl)
    rw [recordFailure_within hwithin, hmax, hfailures, hlock]
    refine ⟨?_, .inl rfl⟩
    constructor
    · exact le_refl _
    · exact ⟨failedAt, rfl⟩
    · show row.firstFailedAt ≤ 1000 * failedAt ∧ 1000 * failedAt ≤ row.firstFailedAt + failureWindow
      omega
    · show 1 ≤ row.failures + 1 ∧ row.failures + 1 ≤ 9
      omega
    · show (s.failed w nowMs failedAt).count row.firstFailedAt = row.failures + 1
      rw [Attempts.count_failed, if_pos hin, h.count]
    · intro attempt hattempt
      show 1000 * attempt.2 ≤ 1000 * failedAt
      rcases List.mem_cons.mp hattempt with rfl | hold
      · exact le_refl _
      · have hbefore := h.recorded attempt hold
        omega
    · rfl
    · show row.firstFailedAt + 1000000 * (spentSeconds (row.failures + 1) : Int) ≤ 1000 * failedAt
      have hspaced := h.spaced
      rw [spentSeconds]
      split_ifs with hfive
      · have hend := hlocked hfive
        push_cast
        omega
      · push_cast
        omega
  · have hlock : lockAfter (countFailure (some row) (1000 * failedAt) revision) = none := by
      have hsaved : countFailure (some row) (1000 * failedAt) revision
          = ⟨1, 1000 * failedAt, 1000 * failedAt, row.lockedUntil, revision⟩ := by
        rw [countFailure]
        simp only [if_neg hwithin]
        rw [hmax]
      rw [hsaved]
      exact lockAfter_over (hunlocked _ rfl rfl)
    rw [recordFailure_after hwithin, hmax, hlock]
    constructor
    · have hin : inWindow (1000 * failedAt) (nowMs, failedAt) = true := by
        rw [inWindow, failureWindow, Bool.and_eq_true, decide_eq_true_eq, decide_eq_true_eq]
        omega
      -- the attempts before are of other windows
      have hbefore : s.count (1000 * failedAt) = 0 := by
        rw [Attempts.count, List.length_eq_zero_iff, List.filter_eq_nil_iff]
        intro attempt hattempt
        have hearlier := h.recorded attempt hattempt
        simp only [inWindow, Bool.and_eq_true, decide_eq_true_eq, not_and]
        omega
      constructor
      · exact le_refl _
      · exact ⟨failedAt, rfl⟩
      · show 1000 * failedAt ≤ 1000 * failedAt ∧ 1000 * failedAt ≤ 1000 * failedAt + failureWindow
        rw [failureWindow]
        omega
      · show 1 ≤ 1 ∧ 1 ≤ 9
        omega
      · show (s.failed w nowMs failedAt).count (1000 * failedAt) = 1
        rw [Attempts.count_failed, if_pos hin, hbefore]
      · intro attempt hattempt
        show 1000 * attempt.2 ≤ 1000 * failedAt
        rcases List.mem_cons.mp hattempt with rfl | hold
        · exact le_refl _
        · have hearlier := h.recorded attempt hold
          omega
      · rfl
      · show 1000 * failedAt + 1000000 * ((0 : Nat) : Int) ≤ 1000 * failedAt
        omega
    · refine .inr ⟨?_, ?_⟩
      · rw [Attempts.count_failed, h.count]
        split_ifs with hin
        · simp only [inWindow, Bool.and_eq_true, decide_eq_true_eq] at hin
          by_contra hmore
          have hout := hninth (by omega)
          omega
        · omega
      · show row.firstFailedAt + failureWindow < 1000 * failedAt
        omega

/-- A window that is over stays as it is. -/
theorem Attempts.Closed.attempt {first : Int} (h : s.Closed first) (w : LoginWorld) (hclock : s.clock ≤ nowMs)
    (hle : nowMs ≤ failedAt) : (s.failed w nowMs failedAt).Closed first := by
  obtain ⟨hcount, hover⟩ := h
  have hout : inWindow first (nowMs, failedAt) = false := by
    simp only [inWindow, Bool.and_eq_false_iff, decide_eq_false_iff_not]
    right
    omega
  constructor
  · rw [Attempts.count_failed, hout]
    exact hcount
  · show first + failureWindow < 1000 * failedAt
    omega

/-- The attempts and the row of their bucket. -/
def Attempts.Kept (bucket : String) (s : Attempts) : Prop :=
  match s.world.rows bucket with
  | none => s.admitted = []
  | some row => s.Open row

/-- A window is open or over. -/
def Attempts.Bounded (bucket : String) (first : Int) (s : Attempts) : Prop :=
  (∃ row, s.world.rows bucket = some row ∧ row.firstFailedAt = first) ∨ s.Closed first

/-- **One step of the attempts.** -/
theorem Attempts.step_inv {e : AttemptEvent} (first : Int) (h : s.Kept bucket)
    (hstep : attemptStep bucket s e = some s') :
    s'.Kept bucket ∧ (s.Bounded bucket first → s'.Bounded bucket first) := by
  cases e with
  | elsewhere e =>
    rw [attemptStep] at hstep
    split_ifs at hstep with hspares
    obtain ⟨w, hw, rfl⟩ := Option.map_eq_some_iff.mp hstep
    have hrow : w.rows bucket = s.world.rows bucket := rows_elsewhere hspares hw
    constructor
    · rw [Attempts.Kept] at h ⊢
      show match w.rows bucket with
        | none => s.admitted = []
        | some row => Attempts.Open { s with world := w } row
      rw [hrow]
      cases hold : s.world.rows bucket with
      | none =>
        rw [hold] at h
        exact h
      | some row =>
        rw [hold] at h
        exact ⟨h.clock, h.exact, h.within, h.failures, h.count, h.recorded, h.lock, h.spaced⟩
    · rintro (⟨row, hsome, hfirst⟩ | hclosed)
      · exact .inl ⟨row, hrow.trans hsome, hfirst⟩
      · exact .inr hclosed
  | attempt buckets nowMs failedAt =>
    rw [attemptStep] at hstep
    split_ifs at hstep with hattempt hadmitted
    · cases hstep
      obtain ⟨hbucket, hclock, hle⟩ := hattempt
      have hmem : bucket ∈ failureBuckets buckets := by simpa using hbucket
      obtain ⟨revision, hrow⟩ := rows_recordLoginFailures (w := s.world) (1000 * failedAt) hmem
      have hover : parseTimeMs ((s.world.rows bucket).bind LoginRateLimit.lockedUntil) ≤ nowMs := by
        have hlisted : (bucket, s.world.rows bucket) ∈ s.world.states buckets :=
          List.mem_map_of_mem (List.mem_of_mem_filter (List.mem_dedup.mp hmem))
        exact lock_over hadmitted hlisted
      rw [Attempts.Kept] at h ⊢
      cases hold : s.world.rows bucket with
      | none =>
        rw [hold] at h hrow
        constructor
        · rw [hrow]
          exact Attempts.open_first _ revision h hle
        · rintro (⟨row, hsome, -⟩ | hclosed)
          · cases hold.symm.trans hsome
          · exact .inr (hclosed.attempt _ hclock hle)
      | some row =>
        rw [hold] at h hrow hover
        obtain ⟨hopen, hnext⟩ := Attempts.Open.attempt h
          (s.world.recordLoginFailures buckets (some (1000 * failedAt))) revision hclock hle hover
        constructor
        · rw [hrow]
          exact hopen
        · rintro (⟨row', hsome, rfl⟩ | hclosed)
          · obtain rfl := Option.some.inj (hold.symm.trans hsome)
            rcases hnext with hsame | hclosed
            · exact .inl ⟨_, hrow, hsame⟩
            · exact .inr hclosed
          · exact .inr (hclosed.attempt _ hclock hle)
    · -- the attempt is turned away: the clock goes on
      cases hstep
      obtain ⟨-, hclock, -⟩ := hattempt
      constructor
      · rw [Attempts.Kept] at h ⊢
        show match s.world.rows bucket with
          | none => s.admitted = []
          | some row => Attempts.Open { s with clock := nowMs } row
        cases hold : s.world.rows bucket with
        | none =>
          rw [hold] at h
          exact h
        | some row =>
          rw [hold] at h
          have hlast := h.clock
          refine ⟨?_, h.exact, h.within, h.failures, h.count, h.recorded, h.lock, h.spaced⟩
          show row.lastFailedAt ≤ 1000 * nowMs
          omega
      · rintro (hopen | ⟨hcount, hover⟩)
        · exact .inl hopen
        · refine .inr ⟨hcount, ?_⟩
          show first + failureWindow < 1000 * nowMs
          omega

theorem Attempts.count_le {es rest : List AttemptEvent} {clock : Int} {mid : Attempts}
    (hnone : w.rows bucket = none) (hmid : (attemptMachine bucket).run ⟨w, clock, []⟩ es = some mid)
    (hrow : mid.world.rows bucket = some row) (hrun : (attemptMachine bucket).run mid rest = some s) :
    s.count row.firstFailedAt ≤ 9 := by
  have hstart : Attempts.Kept bucket ⟨w, clock, []⟩ := by
    rw [Attempts.Kept]
    show match w.rows bucket with
      | none => ([] : List (Int × Int)) = []
      | some row => Attempts.Open ⟨w, clock, []⟩ row
    rw [hnone]
  have hkept : mid.Kept bucket :=
    (attemptMachine bucket).run_inv (fun s e s' h hstep => (Attempts.step_inv 0 h hstep).1) hstart hmid
  have hend : s.Kept bucket ∧ s.Bounded bucket row.firstFailedAt :=
    (attemptMachine bucket).run_inv (I := fun s => s.Kept bucket ∧ s.Bounded bucket row.firstFailedAt)
      (fun s e s' h hstep => ⟨(Attempts.step_inv 0 h.1 hstep).1, (Attempts.step_inv _ h.1 hstep).2 h.2⟩)
      ⟨hkept, .inl ⟨row, hrow, rfl⟩⟩ hrun
  obtain ⟨hkept', ⟨row', hrow', hfirst⟩ | hclosed⟩ := hend
  · rw [Attempts.Kept, hrow'] at hkept'
    have hopen : s.Open row' := hkept'
    rw [← hfirst, hopen.count]
    exact hopen.failures.2
  · exact hclosed.1

end Attempts

/-! ## Results -/

namespace LoginWorld

/-- Recording a failure never moves a lock that ends after the last failure to an earlier time. -/
def KeepsLocks (w : LoginWorld) : Prop :=
  ∀ buckets failedAt w', loginStep w (.recordLoginFailures buckets failedAt) = some w' →
    ∀ bucket row lockedUntil, w.rows bucket = some row → row.lockedUntil = some lockedUntil →
      ∃ row', w'.rows bucket = some row' ∧ (row'.lastFailedAt < lockedUntil →
        ∃ later, row'.lockedUntil = some later ∧ lockedUntil ≤ later)

/-- A clear removes a row only if one of the loads it has observed came after the last recorded failure. -/
def ClearsObserved (w : LoginWorld) : Prop :=
  ∀ states w', loginStep w (.clearObservedLoginFailures states) = some w' →
    ∀ bucket row, w.rows bucket = some row → w'.rows bucket = none →
      ∃ o ∈ w.observed states, o.bucket = bucket ∧ o.recorded = w.recorded bucket

/-- Attempts one after another at a bucket without a row: at most nine are admitted in any window that begins
    with a first failure. -/
def LocksInTime (w : LoginWorld) : Prop :=
  ∀ bucket clock es rest mid row s, w.rows bucket = none → (attemptMachine bucket).run ⟨w, clock, []⟩ es = some mid →
    mid.world.rows bucket = some row → (attemptMachine bucket).run mid rest = some s → s.count row.firstFailedAt ≤ 9

theorem keepsLocks (w : LoginWorld) : w.KeepsLocks := by
  intro buckets failedAt w' hstep bucket row lockedUntil hrow hlock
  cases hstep
  have hsame : row.lastFailedAt < lockedUntil → ∃ later, row.lockedUntil = some later ∧ lockedUntil ≤ later :=
    fun _ => ⟨lockedUntil, hlock, le_refl lockedUntil⟩
  cases failedAt with
  | none => exact ⟨row, hrow, hsame⟩
  | some failedAt =>
    by_cases hmem : bucket ∈ failureBuckets buckets
    · obtain ⟨revision, hrecorded⟩ := rows_recordLoginFailures (w := w) failedAt hmem
      rw [hrow] at hrecorded
      exact ⟨_, hrecorded, recordFailure_lock hlock⟩
    · exact ⟨row, (rows_foldl_other hmem w).trans hrow, hsame⟩

theorem Fresh.clearsObserved {w : LoginWorld} (h : w.Fresh) : w.ClearsObserved := by
  intro states w' hstep bucket row hrow hgone
  cases hstep
  have hfilter : (w.rows bucket).filter (fun row => !(w.observed states).any fun o =>
      o.bucket == bucket && o.state.failureRevision == row.failureRevision) = none := hgone
  rw [hrow, Option.filter_some] at hfilter
  split_ifs at hfilter with hkept
  simp only [Bool.not_eq_true', Bool.not_eq_false, List.any_eq_true, Bool.and_eq_true, beq_iff_eq] at hkept
  obtain ⟨o, ho, rfl, hsame⟩ := hkept
  obtain ⟨i, -, hi⟩ := List.mem_filterMap.mp ho
  exact ⟨o, ho, rfl, (h.latest o (List.mem_of_getElem? hi) row hrow hsame).symm⟩

end LoginWorld

/-- **Failed logins** in every run of the calls: they are counted up to the greatest integer, locks are kept, only
    what was observed is cleared, and at most nine attempts one after another are admitted in a window. -/
theorem login_lockout (es : List LoginEvent) (w : LoginWorld) (hrun : loginMachine.run LoginWorld.start es = some w) :
    w.Counts ∧ w.KeepsLocks ∧ w.ClearsObserved ∧ w.LocksInTime := by
  obtain ⟨hcounts, hfresh⟩ := LoginWorld.run_inv hrun
  refine ⟨hcounts, w.keepsLocks, hfresh.clearsObserved, ?_⟩
  intro bucket clock es rest mid row s hnone hmid hrow hend
  exact Attempts.count_le hnone hmid hrow hend

/-- A failure, its load, another failure, and the clear that came too late. -/
theorem late_clear_keeps_row : ∃ w, loginMachine.run LoginWorld.start [.recordLoginFailures ["a"] (some 0),
      .loadLoginRateLimitStates ["a"], .recordLoginFailures ["a"] (some 5),
      .clearObservedLoginFailures [0]] = some w ∧ (w.rows "a").map LoginRateLimit.failures = some 2 ∧
    w.Counts ∧ w.KeepsLocks ∧ w.ClearsObserved ∧ w.LocksInTime := by
  obtain ⟨w, hrun, hrow⟩ : ∃ w, loginMachine.run LoginWorld.start [.recordLoginFailures ["a"] (some 0),
      .loadLoginRateLimitStates ["a"], .recordLoginFailures ["a"] (some 5),
      .clearObservedLoginFailures [0]] = some w ∧ (w.rows "a").map LoginRateLimit.failures = some 2 := ⟨_, rfl, rfl⟩
  exact ⟨w, hrun, hrow, login_lockout _ w hrun⟩

/-- Failures at one time are all of one window. -/
theorem run_replicate (n : Nat) :
    ∃ w row, loginMachine.run LoginWorld.start (List.replicate (n + 1) (.recordLoginFailures ["a"] (some 0))) = some w ∧
      w.rows "a" = some row ∧ row.firstFailedAt = 0 ∧ row.lastFailedAt = 0 ∧ w.window "a" = n + 1 := by
  induction n with
  | zero => exact ⟨_, _, rfl, rfl, rfl, rfl, rfl⟩
  | succ n ih =>
    obtain ⟨w, row, hrun, hrow, hfirst, hlast, hwindow⟩ := ih
    have hwithin : max 0 row.lastFailedAt - row.firstFailedAt ≤ failureWindow := by
      rw [hfirst, hlast, failureWindow]
      omega
    refine ⟨w.recordOne 0 "a", recordFailure (some row) 0 w.revisions, ?_, ?_, ?_, ?_, ?_⟩
    · rw [List.replicate_succ', loginMachine.run_concat]
      exact ⟨w, hrun, rfl⟩
    · rw [LoginWorld.rows_recordOne, if_pos rfl, hrow]
    · rw [recordFailure_within hwithin]
      exact hfirst
    · rw [recordFailure_last, hlast]
      rfl
    · rw [LoginWorld.window_recordOne, if_pos rfl, hrow, recordFailure_within hwithin, windowAfter, if_pos rfl, hwindow]

/-- **The count stops** at the greatest integer of its column. -/
theorem failures_saturate : ¬ ∀ (es : List LoginEvent) (w : LoginWorld),
    loginMachine.run LoginWorld.start es = some w →
    ∀ bucket row, w.rows bucket = some row → row.failures = w.window bucket := by
  intro h
  obtain ⟨w, row, hrun, hrow, -, -, hwindow⟩ := run_replicate 2147483647
  have hcount := (LoginWorld.run_inv hrun).1 "a" row hrow
  have hequal := h _ w hrun "a" row hrow
  omega

end CfMonitor.Auth
