/-
  The last report that was accepted is the one that is kept (`updateClientReport`,
  `persistClientSnapshot`, `hydrateHttpClients`).

  1. **Steps** (`Lane.Move`) — what a step of the running report does to the record, the entries and the
     queue of its node, said once.

  2. **Observation** (`observe`) — the machine of the object, with the last report of a node whose
     `updateClientReport` returned.

  3. **Crux** (`Lane.Kept`) — the entry in `lastKnownClients` is of that report; so is the record, unless
     the running report has written and has not been accepted yet.  Two steps break this: an undo that
     fails, and a change of the entry from one in `clients` that is older (`Orderly`).

  4. **Result** — without such a step the last accepted report stays (`last_report_kept`).
-/
import Mathlib
import CfMonitor.Live.CompactReport
import CfMonitor.Live.ReportRuns

namespace CfMonitor.Live

open CfMonitor.Lib

/-- A state that a report has written or is about to check. -/
def Phase.pending : Phase → Option ClientState
  | .putting next _ _ => some next
  | .checking next => some next
  | _ => none

namespace Lane

/-! ## Steps of a report -/

section Steps

variable (compact : Fields → Fields) (uuid : String) (restoreVersion : Nat) (controls : Controls)

/-- **What a step of the running report can do.**  `putFails` is about the write of the step. -/
inductive Move (n : Lane) (r : LiveReport) (rest : List LiveReport) (putFails : Bool) : Lane → Prop where
  /-- Outside of `updateClientReport`, before its first write, or after its undo. -/
  | quiet {n' : Lane} (hpending : r.phase.pending = none) (hentries : n'.client = n.client ∧
      n'.lastKnown = n.lastKnown ∧ n'.stored = n.stored ∧ n'.updated = n.updated)
      (hversion : n'.queue ≠ [] → n'.removalVersion = n.removalVersion)
      (hqueue : n'.queue = rest ∨ ∃ r', n'.queue = r' :: rest ∧ r'.request = r.request ∧
        r'.lifecycle = r.lifecycle ∧ r'.phase.pending = none) : Move n r rest putFails n'
  | first (control : String × Bool) (hphase : r.phase = .resolving) :
      Move n r rest putFails (n.persist compact r rest (nextState uuid r control) false putFails)
  | check (next : ClientState) (wrote : Bool) (hphase : r.phase = .putting next true wrote) :
      Move n r rest putFails (n.goto r rest (.checking next))
  | again (next : ClientState) (control : String × Bool) (hphase : r.phase = .checking next) :
      Move n r rest putFails
        (n.persist compact r rest { next with name := control.1, hidden := control.2 } true putFails)
  | accept (next : ClientState) (socketOpen : Bool) (hphase : r.phase = .checking next) :
      Move n r rest putFails (n.update compact r rest next socketOpen)
  /-- Thrown before anything was written. -/
  | unwritten (next : ClientState) (hphase : r.phase = .putting next false false) :
      Move n r rest putFails (n.finish r rest true)
  | undo (hpending : r.phase.pending.isSome) :
      Move n r rest putFails (n.caught compact restoreVersion controls r rest true putFails)

variable {compact uuid restoreVersion controls} {n n' : Lane} {r : LiveReport} {rest : List LiveReport}
  {putFails : Bool}

variable {r' : LiveReport}

section

variable (hpending : r.phase.pending = none)

include hpending

theorem Move.finish {thrown : Bool} :
    Move compact uuid restoreVersion controls n r rest putFails (n.finish r' rest thrown) := by
  refine .quiet hpending ⟨rfl, rfl, rfl, rfl⟩ (fun hne => ?_) (.inl rfl)
  -- with a report left in the queue, the removal version stays
  have hrest : rest ≠ [] := hne
  exact if_neg (by simpa using hrest)

theorem Move.goto {phase : Phase}
    (hsame : r'.request = r.request ∧ r'.lifecycle = r.lifecycle) (hphase : phase.pending = none) :
    Move compact uuid restoreVersion controls n r rest putFails (n.goto r' rest phase) :=
  .quiet hpending ⟨rfl, rfl, rfl, rfl⟩ (fun _ => rfl) (.inr ⟨_, rfl, hsame.1, hsame.2, hphase⟩)

theorem Move.guarded {next : Lane}
    (hnext : Move compact uuid restoreVersion controls n r rest putFails next) :
    Move compact uuid restoreVersion controls n r rest putFails (n.guarded restoreVersion r' rest next) := by
  rw [Lane.guarded]
  split_ifs
  · exact hnext
  · exact Move.finish hpending

theorem Move.afterAlarm (hsame : r'.request = r.request ∧ r'.lifecycle = r.lifecycle) :
    Move compact uuid restoreVersion controls n r rest putFails (n.afterAlarm restoreVersion r' rest) := by
  rw [Lane.afterAlarm]
  split_ifs
  · exact Move.goto hpending hsame rfl
  · exact Move.guarded hpending (Move.finish hpending)

theorem Move.loop (hsame : r'.request = r.request ∧ r'.lifecycle = r.lifecycle) (todo : Nat) :
    Move compact uuid restoreVersion controls n r rest putFails (n.loop restoreVersion r' rest todo) := by
  match todo with
  | 0 =>
    rw [Lane.loop]
    split_ifs
    · exact Move.goto hpending hsame rfl
    · exact Move.afterAlarm hpending hsame
  | 1 => exact Move.guarded hpending (Move.goto hpending hsame rfl)
  | todo + 2 => exact Move.guarded hpending (Move.goto hpending hsame rfl)

end

/-- **One step of the running report** is one of the moves. -/
theorem move_of_advance {reply : Reply} {socketOpen : Bool}
    (hstep : n.advance compact uuid restoreVersion controls r rest reply putFails socketOpen = some n') :
    Move compact uuid restoreVersion controls n r rest putFails n' := by
  have hfree : ∀ {phase : Phase}, r.phase = phase → phase.pending = none → r.phase.pending = none := fun h hnone => h ▸ hnone
  have hheld : ∀ {phase : Phase}, r.phase = phase → phase.pending.isSome → r.phase.pending.isSome := fun h hsome => h ▸ hsome
  rw [Lane.advance.eq_def] at hstep
  split at hstep
  · -- the credential
    rename_i current hphase
    cases hstep
    refine Move.guarded (hfree hphase rfl) ?_
    split_ifs
    · exact Move.goto (hfree hphase rfl) ⟨rfl, rfl⟩ rfl
    · rcases current with _ | _ | _
      · exact Move.finish (hfree hphase rfl)
      · exact Move.finish (hfree hphase rfl)
      · exact Move.goto (hfree hphase rfl) ⟨rfl, rfl⟩ rfl
  · -- no control row
    rename_i hphase
    cases hstep
    exact Move.finish (hfree hphase rfl)
  · -- the control row
    rename_i read hphase
    cases hstep
    cases n.resolved uuid read r.request.name r.request.hidden with
    | none => exact Move.finish (hfree hphase rfl)
    | some control =>
      have hloop : ∀ r' : LiveReport, r'.request = r.request ∧ r'.lifecycle = r.lifecycle →
          Move compact uuid restoreVersion controls n r rest putFails (n.loop restoreVersion r' rest r.request.reports) :=
        fun r' hsame => Move.loop (hfree hphase rfl) hsame r.request.reports
      exact Move.guarded (hfree hphase rfl) (hloop _ ⟨rfl, rfl⟩)
  · -- ping results are not stored
    rename_i hphase
    cases hstep
    exact Move.finish (hfree hphase rfl)
  · rename_i todo hphase
    cases hstep
    exact Move.guarded (hfree hphase rfl) (Move.goto (hfree hphase rfl) ⟨rfl, rfl⟩ rfl)
  · -- website results are not stored
    rename_i hphase
    cases hstep
    exact Move.finish (hfree hphase rfl)
  · rename_i todo hphase
    cases hstep
    exact Move.guarded (hfree hphase rfl) (Move.loop (hfree hphase rfl) ⟨rfl, rfl⟩ todo)
  · -- no snapshot
    rename_i hphase
    cases hstep
    exact Move.finish (hfree hphase rfl)
  · rename_i read hphase
    cases hstep
    rw [resolvedFirst]
    cases n.resolved uuid read r.name r.hidden with
    | none => exact Move.finish (hfree hphase rfl)
    | some control => exact Move.guarded (hfree hphase rfl) (.first control hphase)
  · -- the entry was not written, or is taken back
    rename_i next wrote hphase
    cases hstep
    cases wrote with
    | false => exact .unwritten next hphase
    | true => exact .undo (hheld hphase rfl)
  · -- the entry was written
    rename_i next wrote hphase
    cases hstep
    split_ifs
    · exact .check next wrote hphase
    · exact .undo (hheld hphase rfl)
  · rename_i next hphase
    cases hstep
    exact .undo (hheld hphase rfl)
  · -- the control row is read again
    rename_i next read hphase
    cases hstep
    rw [resolvedAgain]
    cases n.resolved uuid read next.name next.hidden with
    | none => exact .undo (hheld hphase rfl)
    | some control =>
      simp only
      split_ifs
      · exact .accept next socketOpen hphase
      · exact .again next control hphase
      · exact .undo (hheld hphase rfl)
  · -- the entry was taken back
    rename_i hphase
    cases hstep
    exact Move.finish (hfree hphase rfl)
  · -- the alarm is set
    rename_i hphase
    cases hstep
    exact Move.guarded (hfree hphase rfl) (Move.afterAlarm (hfree hphase rfl) ⟨rfl, rfl⟩)
  · -- the basic information
    rename_i hphase
    cases hstep
    exact Move.finish (hfree hphase rfl)
  · rename_i hphase
    cases hstep
    exact Move.guarded (hfree hphase rfl) (Move.finish (hfree hphase rfl))
  · cases hstep

end Steps

end Lane

/-! ## What is kept -/

theorem controlledClientState_report {controls : Controls} {client current : ClientState}
    (h : controls.controlledClientState client = some current) :
    current.uuid = client.uuid ∧ current.lastReportTime = client.lastReportTime ∧
      current.lastReport = client.lastReport := by
  simp only [Controls.controlledClientState] at h
  split_ifs at h
  cases hrow : Assoc.get? controls.adminClientMetadata client.uuid with
  | none =>
    rw [hrow] at h
    cases h
    exact ⟨rfl, rfl, rfl⟩
  | some row =>
    rw [hrow] at h
    cases h
    exact ⟨rfl, rfl, rfl⟩

/-- A node that the controls do not disown. -/
def Controls.Retains (controls : Controls) (uuid : String) : Prop :=
  ∀ c : ClientState, c.uuid = uuid → ∃ current, controls.controlledClientState c = some current

/-- A report and when it was received. -/
structure Accepted where
  time : Int
  report : Fields

/-- An entry or a record of a report; the addresses and the region may be others. -/
structure Accepted.Shown (rules : ReportRules) (uuid : String) (a : Accepted) (c : ClientState) : Prop where
  uuid_eq : c.uuid = uuid
  time_eq : c.lastReportTime = a.time
  report_same : SameReport c.lastReport (rules.compactLiveReport a.report)

/-- An entry or a record is of the last accepted report; there is none as long as none was accepted. -/
def KeptIn (rules : ReportRules) (uuid : String) (accepted : Option Accepted) (c : Option ClientState) : Prop :=
  match accepted with
  | none => c = none
  | some a => ∃ k, c = some k ∧ a.Shown rules uuid k

namespace Lane

section Kept

variable {rules : ReportRules} {uuid : String} {restoreVersion : Nat} {controls : Controls} {n n' : Lane}
  {r : LiveReport} {rest : List LiveReport} {accepted : Option Accepted} {putFails : Bool}

/-- What holds while a report is pending. -/
structure Pending (rules : ReportRules) (uuid : String) (n : Lane) (r : LiveReport) : Prop where
  next : ∀ next, r.phase.pending = some next → next.uuid = uuid ∧
    next.lastReportTime = r.lifecycle.receivedAt ∧ next.lastReport = r.request.report
  landed : ∀ next, (r.phase = .checking next ∨ ∃ wrote, r.phase = .putting next true wrote) →
    n.stored = some (compacted rules.compactLiveReport next)

/-- **The invariant of a node** between removals. -/
structure Kept (rules : ReportRules) (uuid : String) (restoreVersion : Nat) (n : Lane)
    (accepted : Option Accepted) : Prop where
  normalised : ∀ a, accepted = some a → Normalised a.report
  entry : KeptIn rules uuid accepted n.lastKnown
  record : (∃ r rest, n.queue = r :: rest ∧ r.phase.wrote = true) ∨ KeptIn rules uuid accepted n.stored
  client : ∀ c, n.client = some c → c.uuid = uuid
  queue : ∀ r ∈ n.queue, Normalised r.request.report ∧ n.isReportCurrent restoreVersion r = true
  waiting : ∀ r rest, n.queue = r :: rest → ∀ q ∈ rest, q.phase = .queued
  running : ∀ r rest, n.queue = r :: rest → Pending rules uuid n r

/-- The last accepted report after a step. -/
def acceptedAfter (n n' : Lane) (accepted : Option Accepted) : Option Accepted :=
  if n'.updated.length = n.updated.length then accepted
  else n.queue.head?.map fun r => ⟨r.lifecycle.receivedAt, r.request.report⟩

/-- The write of an undo, where there is something to write, does not fail. -/
def UndoLands (n n' : Lane) (putFails : Bool) : Prop :=
  putFails = true → (∃ r rest, n'.queue = r :: rest ∧ r.phase = .undoing) → n.lastKnown = none

variable {phase : Phase}

theorem pending_of_wrote (h : phase.wrote = true) : phase.pending.isSome := by
  cases phase with
  | putting => rfl
  | checking => rfl
  | _ => simp [Phase.wrote] at h

theorem Kept.same (hupdated : n'.updated = n.updated) (h : Kept rules uuid restoreVersion n' accepted) :
    Kept rules uuid restoreVersion n' (acceptedAfter n n' accepted) := by
  rw [acceptedAfter, hupdated, if_pos rfl]
  exact h

theorem Pending.of_none (h : r.phase.pending = none) : Pending rules uuid n r where
  next next hnext := absurd (h.symm.trans hnext) (by simp)
  landed next hnext := by
    rcases hnext with hphase | ⟨wrote, hphase⟩ <;> rw [hphase] at h <;> simp [Phase.pending] at h

theorem Kept.record_of (h : Kept rules uuid restoreVersion n accepted) (hqueue : n.queue = r :: rest)
    (hwrote : r.phase.wrote = false) : KeptIn rules uuid accepted n.stored := by
  rcases h.record with ⟨r', rest', hqueue', hwrote'⟩ | hrecord
  · obtain ⟨rfl, -⟩ := List.cons.inj (hqueue.symm.trans hqueue')
    cases hwrote.symm.trans hwrote'
  · exact hrecord

/-- The running report goes on, and has written a record or not. -/
theorem Kept.await {stored : Option ClientState}
    (h : Kept rules uuid restoreVersion n accepted) (hqueue : n.queue = r :: rest)
    (hrecord : phase.wrote = true ∨ KeptIn rules uuid accepted stored)
    (hpending : Pending rules uuid { n with stored := stored } { r with phase := phase }) :
    Kept rules uuid restoreVersion { n.goto r rest phase with stored := stored } accepted where
  normalised := h.normalised
  entry := h.entry
  record := hrecord.imp_left fun hwrote => ⟨_, _, rfl, hwrote⟩
  client := h.client
  queue q hq := by
    rcases List.mem_cons.mp hq with rfl | hq
    · exact h.queue r (by rw [hqueue]; exact List.mem_cons_self)
    · exact h.queue q (by rw [hqueue]; exact List.mem_cons_of_mem _ hq)
  waiting r' rest' hqueue' q hq := by
    obtain ⟨-, rfl⟩ := List.cons.inj hqueue'
    exact h.waiting r rest hqueue q hq
  running r' rest' hqueue' := by
    obtain ⟨rfl, -⟩ := List.cons.inj hqueue'
    exact ⟨hpending.next, hpending.landed⟩

/-- A state is written, unless the write fails. -/
theorem Pending.put {next : ClientState} {putFails wrote : Bool}
    (hnext : next.uuid = uuid ∧ next.lastReportTime = r.lifecycle.receivedAt ∧ next.lastReport = r.request.report) :
    Pending rules uuid
      { n with stored := if putFails then n.stored else some (compacted rules.compactLiveReport next) }
      { r with phase := .putting next (!putFails) wrote } where
  next next' h := by
    cases h
    exact hnext
  landed next' h := by
    rcases h with hfalse | ⟨wrote, hlanded⟩
    · cases hfalse
    · simp only [Phase.putting.injEq, Bool.not_eq_true'] at hlanded
      obtain ⟨rfl, hputFails, -⟩ := hlanded
      rw [hputFails]
      rfl

theorem Kept.finish {thrown : Bool} (h : Kept rules uuid restoreVersion n accepted) (hqueue : n.queue = r :: rest)
    (hrecord : KeptIn rules uuid accepted n.stored) :
    Kept rules uuid restoreVersion (n.finish r rest thrown) accepted where
  normalised := h.normalised
  entry := h.entry
  record := .inr hrecord
  client := h.client
  queue q hq := by
    have hq' : q ∈ rest := hq
    obtain ⟨hnormal, hcurrent⟩ := h.queue q (by rw [hqueue]; exact List.mem_cons_of_mem _ hq')
    have hversion : (n.finish r rest thrown).removalVersion = n.removalVersion :=
      if_neg (by simpa using List.ne_nil_of_mem hq')
    refine ⟨hnormal, ?_⟩
    rw [isReportCurrent, hversion]
    exact hcurrent
  waiting r' rest' hqueue' q hq := by
    have hrest : rest = r' :: rest' := hqueue'
    exact h.waiting r rest hqueue q (by rw [hrest]; exact List.mem_cons_of_mem _ hq)
  running r' rest' hqueue' := by
    have hrest : rest = r' :: rest' := hqueue'
    have hphase := h.waiting r rest hqueue r' (by rw [hrest]; exact List.mem_cons_self)
    exact Pending.of_none (by rw [hphase]; rfl)

theorem shown_compacted {a : Accepted} {c d : ClientState} (hc : a.Shown rules uuid c)
    (hnormal : Normalised a.report) (hd : d.uuid = c.uuid ∧ d.lastReportTime = c.lastReportTime ∧
      d.lastReport = c.lastReport) : a.Shown rules uuid (compacted rules.compactLiveReport d) where
  uuid_eq := hd.1.trans hc.uuid_eq
  time_eq := hd.2.1.trans hc.time_eq
  report_same := by
    have hcompact := compactLiveReport_congr rules hc.report_same
    rw [← hd.2.2] at hcompact
    exact hcompact.trans (compactLiveReport_compact rules hnormal)

/-- **One step of the running report** keeps the invariant, if no undo fails. -/
theorem Kept.move (h : Kept rules uuid restoreVersion n accepted) (hcontrols : controls.Retains uuid)
    (hqueue : n.queue = r :: rest)
    (hmove : Move rules.compactLiveReport uuid restoreVersion controls n r rest putFails n')
    (hundo : UndoLands n n' putFails) :
    Kept rules uuid restoreVersion n' (acceptedAfter n n' accepted) := by
  have hrunning := h.running r rest hqueue
  obtain ⟨hnormal, hcurrent⟩ := h.queue r (by rw [hqueue]; exact List.mem_cons_self)
  cases hmove with
  | quiet hpending hentries hversion hnext =>
    obtain ⟨hclient, hknown, hstored, hupdated⟩ := hentries
    refine Kept.same hupdated ?_
    have hwrote : r.phase.wrote = false := by
      by_contra hwrote
      have hsome := pending_of_wrote (by simpa using hwrote)
      rw [hpending] at hsome
      cases hsome
    -- the reports of the queue are the same, and so is the version they are compared with
    have hold : ∀ q ∈ n'.queue, ∃ q' ∈ n.queue, q.request = q'.request ∧ q.lifecycle = q'.lifecycle := by
      intro q hq
      rw [hqueue]
      rcases hnext with hrest | ⟨r', hr', hrequest, hlifecycle, -⟩
      · rw [hrest] at hq
        exact ⟨q, List.mem_cons_of_mem _ hq, rfl, rfl⟩
      · rw [hr'] at hq
        rcases List.mem_cons.mp hq with rfl | hq
        · exact ⟨r, List.mem_cons_self, hrequest, hlifecycle⟩
        · exact ⟨q, List.mem_cons_of_mem _ hq, rfl, rfl⟩
    have hwaiting := h.waiting r rest hqueue
    constructor
    · exact h.normalised
    · rw [hknown]
      exact h.entry
    · rw [hstored]
      exact .inr (h.record_of hqueue hwrote)
    · rw [hclient]
      exact h.client
    · intro q hq
      obtain ⟨q', hq', hrequest, hlifecycle⟩ := hold q hq
      obtain ⟨hnormal', hcurrent'⟩ := h.queue q' hq'
      refine ⟨hrequest ▸ hnormal', ?_⟩
      rw [isReportCurrent, hlifecycle, hversion (List.ne_nil_of_mem hq)]
      exact hcurrent'
    · intro r' rest' hqueue' q hq
      rcases hnext with hrest | ⟨r'', hr'', -⟩
      · exact hwaiting q (by rw [← hrest, hqueue']; exact List.mem_cons_of_mem _ hq)
      · obtain ⟨-, rfl⟩ := List.cons.inj (hr''.symm.trans hqueue')
        exact hwaiting q hq
    · intro r' rest' hqueue'
      rcases hnext with hrest | ⟨r'', hr'', -, -, hphase⟩
      · have hphase := hwaiting r' (by rw [← hrest, hqueue']; exact List.mem_cons_self)
        exact Pending.of_none (by rw [hphase]; rfl)
      · obtain ⟨rfl, -⟩ := List.cons.inj (hr''.symm.trans hqueue')
        exact Pending.of_none hphase
  | first control hphase =>
    refine Kept.same rfl ?_
    have hrecord := h.record_of hqueue (by rw [hphase]; rfl)
    refine h.await hqueue ?_ (Pending.put ⟨rfl, rfl, rfl⟩)
    cases putFails with
    | true => exact .inr hrecord
    | false => exact .inl rfl
  | check next wrote hphase =>
    refine Kept.same rfl ?_
    refine h.await hqueue (.inl rfl) ⟨fun next' hnext => ?_, fun next' hnext => ?_⟩
    · exact hrunning.next next' (by rw [hphase]; exact hnext)
    · rcases hnext with hchecking | ⟨wrote, hfalse⟩
      · obtain rfl := Phase.checking.inj hchecking
        exact hrunning.landed next (.inr ⟨wrote, hphase⟩)
      · cases hfalse
  | again next control hphase =>
    refine Kept.same rfl ?_
    exact h.await hqueue (.inl (by simp [Phase.wrote])) (Pending.put (hrunning.next next (by rw [hphase]; rfl)))
  | accept next socketOpen hphase =>
    obtain ⟨huuid, htime, hreport⟩ := hrunning.next next (by rw [hphase]; rfl)
    have hstored := hrunning.landed next (.inl hphase)
    have haccepted : acceptedAfter n (n.update rules.compactLiveReport r rest next socketOpen) accepted
        = some ⟨r.lifecycle.receivedAt, r.request.report⟩ := by
      have hlonger : (n.update rules.compactLiveReport r rest next socketOpen).updated.length
          ≠ n.updated.length := by
        rw [Lane.update]
        simp
      rw [acceptedAfter, if_neg hlonger, hqueue]
      rfl
    have hshown : (⟨r.lifecycle.receivedAt, r.request.report⟩ : Accepted).Shown rules uuid
        (compacted rules.compactLiveReport next) := by
      refine ⟨huuid, htime, ?_⟩
      show SameReport (rules.compactLiveReport next.lastReport) _
      rw [hreport]
      exact SameReport.refl _
    rw [haccepted]
    constructor
    · rintro a ha
      cases ha
      exact hnormal
    · exact ⟨_, rfl, hshown⟩
    · exact .inr ⟨_, hstored, hshown⟩
    · intro c hc
      rw [update] at hc
      dsimp only at hc
      split_ifs at hc
      · cases hc
        exact huuid
      · exact h.client c hc
    · intro q hq
      rcases List.mem_cons.mp hq with rfl | hq
      · exact ⟨hnormal, hcurrent⟩
      · exact h.queue q (by rw [hqueue]; exact List.mem_cons_of_mem _ hq)
    · intro r' rest' hqueue' q hq
      obtain ⟨-, rfl⟩ := List.cons.inj hqueue'
      exact h.waiting r rest hqueue q hq
    · intro r' rest' hqueue'
      obtain ⟨rfl, -⟩ := List.cons.inj hqueue'
      exact Pending.of_none rfl
  | unwritten next hphase =>
    refine Kept.same rfl ?_
    exact h.finish hqueue (h.record_of hqueue (by rw [hphase]; rfl))
  | undo hpending =>
    obtain ⟨next, hnext⟩ := Option.isSome_iff_exists.mp hpending
    rw [Lane.caught, if_pos rfl, if_pos hcurrent] at hundo ⊢
    cases accepted with
    | none =>
      have hnone : n.lastKnown = none := h.entry
      rw [hnone]
      refine Kept.same rfl (h.await hqueue (.inr rfl) (Pending.of_none rfl))
    | some a =>
      obtain ⟨k, hk, hshown⟩ := h.entry
      obtain ⟨retained, hretained⟩ := hcontrols k hshown.uuid_eq
      have hbind : n.lastKnown.bind controls.controlledClientState = some retained := by
        rw [hk]
        exact hretained
      rw [hbind] at hundo ⊢
      have hlands : putFails = false := by
        cases putFails with
        | false => rfl
        | true => exact absurd (hundo rfl ⟨_, _, rfl, rfl⟩) (by simp [hk])
      subst hlands
      have hrecord := shown_compacted hshown (h.normalised a rfl) (controlledClientState_report hretained)
      exact Kept.same rfl (h.await hqueue (.inr ⟨_, rfl, hrecord⟩) (Pending.of_none rfl))

/-- The entry in `clients`, where there is one, is of the report of the entry in `lastKnownClients`. -/
def Fresh (rules : ReportRules) (n : Lane) : Prop :=
  ∀ c, n.client = some c → ∃ k, n.lastKnown = some k ∧ c.lastReportTime = k.lastReportTime ∧
    SameReport (rules.compactLiveReport c.lastReport) k.lastReport

section

variable (h : Kept rules uuid restoreVersion n accepted)

include h

theorem Kept.entries
    (hrest : n'.stored = n.stored ∧ n'.queue = n.queue ∧ n'.removalVersion = n.removalVersion)
    (hclient : ∀ c, n'.client = some c → c.uuid = uuid) (hentry : KeptIn rules uuid accepted n'.lastKnown) :
    Kept rules uuid restoreVersion n' accepted := by
  obtain ⟨hstored, hqueue, hversion⟩ := hrest
  constructor
  · exact h.normalised
  · exact hentry
  · rw [hqueue, hstored]
    exact h.record
  · exact hclient
  · intro r hr
    rw [hqueue] at hr
    rw [isReportCurrent, hversion]
    exact h.queue r hr
  · rw [hqueue]
    exact h.waiting
  · intro r rest hr
    rw [hqueue] at hr
    have hrunning := h.running r rest hr
    refine ⟨hrunning.next, ?_⟩
    rw [hstored]
    exact hrunning.landed

theorem Kept.enqueue (request : ReportRequest) (now : Int) (hnormal : Normalised request.report) :
    Kept rules uuid restoreVersion (n.enqueue restoreVersion request now) accepted := by
  obtain ⟨added, hadded⟩ : ∃ added : LiveReport, (n.enqueue restoreVersion request now).queue = n.queue ++ [added] ∧
      added.request = request ∧ added.phase = .queued ∧ n.isReportCurrent restoreVersion added = true :=
    ⟨_, rfl, rfl, rfl, by simp [isReportCurrent]⟩
  obtain ⟨hqueue, hrequest, hphase, hcurrent⟩ := hadded
  constructor
  · exact h.normalised
  · exact h.entry
  · rcases h.record with ⟨r, rest, hr, hwrote⟩ | hrecord
    · exact .inl ⟨r, rest ++ [added], by rw [hqueue, hr, List.cons_append], hwrote⟩
    · exact .inr hrecord
  · exact h.client
  · intro q hq
    rw [hqueue] at hq
    rcases List.mem_append.mp hq with hq | hq
    · exact h.queue q hq
    · obtain rfl := List.mem_singleton.mp hq
      exact ⟨hrequest ▸ hnormal, hcurrent⟩
  · intro r rest hr q hq
    rw [hqueue] at hr
    cases hold : n.queue with
    | nil =>
      rw [hold, List.nil_append] at hr
      obtain ⟨-, rfl⟩ := List.cons.inj hr
      cases hq
    | cons r' rest' =>
      rw [hold, List.cons_append] at hr
      obtain ⟨rfl, rfl⟩ := List.cons.inj hr
      rcases List.mem_append.mp hq with hq | hq
      · exact h.waiting _ _ hold q hq
      · obtain rfl := List.mem_singleton.mp hq
        exact hphase
  · intro r rest hr
    rw [hqueue] at hr
    cases hold : n.queue with
    | nil =>
      rw [hold, List.nil_append] at hr
      obtain ⟨rfl, -⟩ := List.cons.inj hr
      exact Pending.of_none (by rw [hphase]; rfl)
    | cons r' rest' =>
      rw [hold, List.cons_append] at hr
      obtain ⟨rfl, -⟩ := List.cons.inj hr
      have hrunning := h.running _ _ hold
      exact ⟨hrunning.next, hrunning.landed⟩

/-- **A change of name or visibility** keeps the invariant, if it does not take an older entry. -/
theorem Kept.updateClientMeta (now : Int) (hfresh : Fresh rules n) :
    Kept rules uuid restoreVersion (n.updateClientMeta rules.compactLiveReport controls now) accepted := by
  have hfilter : ∀ c, (n.client.filter fun c => c.isOnline now) = some c → c.uuid = uuid :=
    fun c hc => h.client c (Option.filter_eq_some_iff.mp hc).1
  simp only [Lane.updateClientMeta]
  cases hnext : (n.client.or n.lastKnown).bind controls.controlledClientState with
  | none => exact h.entries ⟨rfl, rfl, rfl⟩ hfilter h.entry
  | some next =>
    obtain ⟨c, hc, hcontrolled⟩ := Option.bind_eq_some_iff.mp hnext
    have hcontrol := controlledClientState_report hcontrolled
    -- the entry that is taken is of the last accepted report
    obtain ⟨a, rfl, huuid, hshown⟩ : ∃ a, accepted = some a ∧ c.uuid = uuid ∧
        a.Shown rules uuid (compacted rules.compactLiveReport next) := by
      cases accepted with
      | none =>
        have hknown : n.lastKnown = none := h.entry
        rw [hknown, Option.or_none] at hc
        obtain ⟨k, hk, -⟩ := hfresh c hc
        cases hknown.symm.trans hk
      | some a =>
        obtain ⟨k, hk, hshown⟩ := h.entry
        refine ⟨a, rfl, ?_⟩
        cases hclient : n.client with
        | none =>
          rw [hclient, Option.none_or, hk] at hc
          obtain rfl := Option.some.inj hc
          exact ⟨hshown.uuid_eq, shown_compacted hshown (h.normalised a rfl) hcontrol⟩
        | some c' =>
          rw [hclient, Option.some_or] at hc
          obtain rfl := Option.some.inj hc
          obtain ⟨k', hk', htime, hreport⟩ := hfresh c' hclient
          obtain rfl : k = k' := Option.some.inj (hk.symm.trans hk')
          refine ⟨h.client c' hclient, hcontrol.1.trans (h.client c' hclient), ?_, ?_⟩
          · exact hcontrol.2.1.trans (htime.trans hshown.time_eq)
          · show SameReport (rules.compactLiveReport next.lastReport) _
            rw [hcontrol.2.2]
            exact hreport.trans hshown.report_same
    refine h.entries ⟨rfl, rfl, rfl⟩ (fun c' hc' => ?_) ⟨_, rfl, hshown⟩
    have hentry : (if (n.client.filter fun c => c.isOnline now).isSome = true then some next else none)
        = some c' := hc'
    split_ifs at hentry
    obtain rfl := Option.some.inj hentry
    exact hcontrol.1.trans huuid

/-- **A patch of the network** keeps the invariant, if it does not take an older entry. -/
theorem Kept.inferNetwork (report : Fields) (now : Int)
    (hpatch : ∃ patch, ∀ c, n.client = some c → report = rules.inferredReport patch c.lastReport)
    (hfresh : (∀ c, n.client = some c → (c.expiresAt.any fun at_ => decide (at_ ≤ now)) = false) → Fresh rules n) :
    Kept rules uuid restoreVersion (n.inferNetwork rules.compactLiveReport controls report now) accepted := by
  rw [Lane.inferNetwork]
  cases hcurrent : n.client.bind controls.controlledClientState with
  | none => exact h
  | some current =>
    obtain ⟨c, hc, hcontrolled⟩ := Option.bind_eq_some_iff.mp hcurrent
    have hcontrol := controlledClientState_report hcontrolled
    have hexpires := (controlledClientState_keeps hcontrolled).2
    dsimp only
    split_ifs with hexpired
    · exact h
    · obtain ⟨patch, hpatch⟩ := hpatch
      have hunexpired : ∀ c, n.client = some c → (c.expiresAt.any fun at_ => decide (at_ ≤ now)) = false := by
        intro c' hc'
        obtain rfl : c = c' := Option.some.inj (hc.symm.trans hc')
        rw [← hexpires]
        simpa using hexpired
      obtain ⟨k, hk, htime, hreport⟩ := hfresh hunexpired c hc
      obtain ⟨a, rfl, hshown⟩ : ∃ a, accepted = some a ∧ a.Shown rules uuid k := by
        cases accepted with
        | none => cases h.entry.symm.trans hk
        | some a =>
          obtain ⟨k', hk', hshown⟩ := h.entry
          obtain rfl : k = k' := Option.some.inj (hk.symm.trans hk')
          exact ⟨a, rfl, hshown⟩
      refine h.entries ⟨rfl, rfl, rfl⟩ (fun c' hc' => ?_) ⟨_, rfl, ?_, ?_, ?_⟩
      · cases hc'
        exact hcontrol.1.trans (h.client c hc)
      · exact hcontrol.1.trans (h.client c hc)
      · exact hcontrol.2.1.trans (htime.trans hshown.time_eq)
      · show SameReport (rules.compactLiveReport report) _
        rw [hpatch c hc]
        exact (compactLiveReport_congr rules (inferredReport_same rules patch c.lastReport)).trans
          (hreport.trans hshown.report_same)

end

end Kept

end Lane

/-! ## Runs -/

/-- The object, and the last accepted report of a node. -/
structure Observed where
  world : LiveWorld
  accepted : Option Accepted

/-- The machine of the object, observed at a node: a report is accepted when its `updateClientReport`
    returns. -/
def observe (compact : Fields → Fields) (uuid : String) : Machine Observed LiveEvent where
  step o e := (liveStep compact o.world e).map fun w =>
    ⟨w, (o.world.lanes uuid).acceptedAfter (w.lanes uuid) o.accepted⟩

/-- The steps of a node that is neither removed nor restored: its reports are normalised and sanitised,
    the management snapshot does not disown it, and a patch is about its network. -/
def Admitted (rules : ReportRules) (uuid : String) (w : LiveWorld) : LiveEvent → Prop
  | .report _ request _ => ∃ data network,
      request.report = rules.sanitizeReport (rules.normalizeMonitorReport data) network
  | .advance _ reply _ _ => ∀ read, reply = .snapshot read → (Controls.ofRead read).Retains uuid
  | .removeClient v => v ≠ uuid
  | .restoreClients _ => False
  | .control read => (Controls.ofRead read).Retains uuid
  | .inferNetwork v report _ => ∃ patch, ∀ c, (w.lanes v).client = some c →
      report = rules.inferredReport patch c.lastReport
  | _ => True

/-- The write that undoes a report does not fail; and a change of name or visibility, and a patch of the
    network that is not too late, do not find an entry in `clients` that is older than the one in
    `lastKnownClients`. -/
def Orderly (rules : ReportRules) (uuid : String) (w : LiveWorld) (e : LiveEvent) (w' : LiveWorld) : Prop :=
  match e with
  | .advance v _ putFails _ => v = uuid → (w.lanes uuid).UndoLands (w'.lanes uuid) putFails
  | .updateClientMeta v _ => v = uuid → (w.lanes uuid).Fresh rules
  | .inferNetwork v _ now => v = uuid →
      (∀ c, (w.lanes uuid).client = some c → (c.expiresAt.any fun at_ => decide (at_ ≤ now)) = false) →
      (w.lanes uuid).Fresh rules
  | _ => True

/-- What `hydrateHttpClients` makes of a record. -/
def restoredClient (compact : Fields → Fields) (controls : Controls) (stored : ClientState) : Option ClientState :=
  controls.controlledClientState (Lane.compacted compact stored)

/-- The last accepted report is in its place: in the record exactly if in the memory, the same in both,
    and in what a new object restores. -/
structure InPlace (rules : ReportRules) (uuid : String) (n : Lane) (accepted : Option Accepted) : Prop where
  exists_iff : n.stored.isSome ↔ n.lastKnown.isSome
  same : ∀ s k, n.stored = some s → n.lastKnown = some k →
    s.lastReportTime = k.lastReportTime ∧ SameReport s.lastReport k.lastReport
  last : KeptIn rules uuid accepted n.lastKnown
  restored : ∀ a s controls c, accepted = some a → n.stored = some s →
    restoredClient rules.compactLiveReport controls s = some c → a.Shown rules uuid c

/-- No report of the node has begun: none is in flight, or the next one waits. -/
def Lane.Between (n : Lane) : Prop := ∀ r rest, n.queue = r :: rest → r.phase = .queued

/-- A node between two reports, with its last accepted one in place. -/
structure Observed.Rested (rules : ReportRules) (uuid : String) (o : Observed) : Prop where
  idle : (o.world.lanes uuid).queue = []
  retained : o.world.controls.Retains uuid
  entry : KeptIn rules uuid o.accepted (o.world.lanes uuid).lastKnown
  record : KeptIn rules uuid o.accepted (o.world.lanes uuid).stored
  client : ∀ c, (o.world.lanes uuid).client = some c → c.uuid = uuid
  normalised : ∀ a, o.accepted = some a → Normalised a.report

/-- The invariant of the observed object. -/
def Observed.Kept (rules : ReportRules) (uuid : String) (o : Observed) : Prop :=
  (o.world.lanes uuid).Kept rules uuid o.world.restoreVersion o.accepted ∧ o.world.controls.Retains uuid

section Runs

variable {rules : ReportRules} {uuid : String} {o o' : Observed} {e : LiveEvent} {n : Lane}
  {accepted : Option Accepted}

theorem Observed.Rested.kept (h : o.Rested rules uuid) : o.Kept rules uuid := by
  refine ⟨?_, h.retained⟩
  constructor
  · exact h.normalised
  · exact h.entry
  · exact .inr h.record
  · exact h.client
  · intro r hr
    rw [h.idle] at hr
    cases hr
  · intro r rest hr
    cases h.idle.symm.trans hr
  · intro r rest hr
    cases h.idle.symm.trans hr

theorem Lane.Kept.inPlace {restoreVersion : Nat} (h : n.Kept rules uuid restoreVersion accepted)
    (hbetween : n.Between) : InPlace rules uuid n accepted := by
  have hrecord : KeptIn rules uuid accepted n.stored := by
    rcases h.record with ⟨r, rest, hqueue, hwrote⟩ | hrecord
    · rw [hbetween r rest hqueue] at hwrote
      simp [Phase.wrote] at hwrote
    · exact hrecord
  have hentry := h.entry
  cases accepted with
  | none =>
    have hstored : n.stored = none := hrecord
    have hknown : n.lastKnown = none := hentry
    constructor
    · rw [hstored, hknown]
    · intro s k hs
      cases hstored.symm.trans hs
    · exact hknown
    · intro a s controls c ha
      cases ha
  | some a =>
    obtain ⟨s, hs, hshownS⟩ := hrecord
    obtain ⟨k, hk, hshownK⟩ := hentry
    constructor
    · rw [hs, hk]
      exact Iff.rfl
    · intro s' k' hs' hk'
      obtain rfl : s = s' := Option.some.inj (hs.symm.trans hs')
      obtain rfl : k = k' := Option.some.inj (hk.symm.trans hk')
      exact ⟨hshownS.time_eq.trans hshownK.time_eq.symm, hshownS.report_same.trans hshownK.report_same.symm⟩
    · exact ⟨k, hk, hshownK⟩
    · intro a' s' controls c ha hs' hrestored
      cases ha
      obtain rfl : s = s' := Option.some.inj (hs.symm.trans hs')
      obtain ⟨huuid, htime, hreport⟩ := controlledClientState_report hrestored
      have hcompact := Lane.shown_compacted hshownS (h.normalised a rfl) ⟨rfl, rfl, rfl⟩
      exact ⟨huuid.trans hcompact.uuid_eq, htime.trans hcompact.time_eq, by rw [hreport]; exact hcompact.report_same⟩

theorem LiveWorld.setLane_self (w : LiveWorld) (v : String) (n : Lane) : (w.setLane v n).lanes v = n := by
  show Function.update w.lanes v n v = n
  rw [Function.update_apply, if_pos rfl]

variable {v : String}

theorem LiveWorld.setLane_of_ne (w : LiveWorld) (n : Lane) (hv : v ≠ uuid) :
    (w.setLane v n).lanes uuid = w.lanes uuid := by
  show Function.update w.lanes v n uuid = w.lanes uuid
  rw [Function.update_apply, if_neg (Ne.symm hv)]

theorem acceptedAfter_other {w : LiveWorld} {n : Lane} (hv : v ≠ uuid) :
    (w.lanes uuid).acceptedAfter ((w.setLane v n).lanes uuid) accepted = accepted := by
  rw [w.setLane_of_ne n hv, Lane.acceptedAfter, if_pos rfl]

theorem Observed.Kept.setLane {controls : Controls} (h : o.Kept rules uuid)
    (hcontrols : controls.Retains uuid)
    (hn : v = uuid → n.Kept rules uuid o.world.restoreVersion
      ((o.world.lanes uuid).acceptedAfter n o.accepted)) :
    Observed.Kept rules uuid ⟨{ o.world.setLane v n with controls := controls },
      (o.world.lanes uuid).acceptedAfter ((o.world.setLane v n).lanes uuid) o.accepted⟩ := by
  refine ⟨?_, hcontrols⟩
  by_cases hv : v = uuid
  · subst hv
    show Lane.Kept rules v o.world.restoreVersion ((o.world.setLane v n).lanes v) _
    rw [o.world.setLane_self]
    exact hn rfl
  · show Lane.Kept rules uuid o.world.restoreVersion ((o.world.setLane v n).lanes uuid) _
    rw [acceptedAfter_other hv, o.world.setLane_of_ne n hv]
    exact h.1

/-- **One step** of the observed object. -/
theorem Observed.Kept.step (h : o.Kept rules uuid)
    (hstep : (observe rules.compactLiveReport uuid).step o e = some o')
    (hadmitted : Admitted rules uuid o.world e) (horderly : Orderly rules uuid o.world e o'.world) :
    o'.Kept rules uuid := by
  obtain ⟨w, hw, rfl⟩ := Option.map_eq_some_iff.mp hstep
  cases e with
  | report v request now =>
    rw [liveStep] at hw
    split_ifs at hw
    cases hw
    refine h.setLane h.2 fun hv => ?_
    subst hv
    obtain ⟨data, network, hrequest⟩ := hadmitted
    refine Lane.Kept.same rfl (h.1.enqueue request now ?_)
    rw [hrequest]
    exact (normalizeMonitorReport_normalised rules data).congr fun f hf => sanitizeReport_public rules _ network hf
  | advance v reply putFails socketOpen =>
    rw [liveStep] at hw
    have hcontrols : (reply.controls o.world.controls).Retains uuid := by
      cases reply with
      | snapshot read => exact hadmitted read rfl
      | _ => exact h.2
    cases hqueue : (o.world.lanes v).queue with
    | nil =>
      rw [hqueue] at hw
      cases hw
    | cons r rest =>
      rw [hqueue] at hw
      obtain ⟨n, hn, rfl⟩ := Option.map_eq_some_iff.mp hw
      refine h.setLane hcontrols fun hv => ?_
      subst hv
      have hundo : (o.world.lanes v).UndoLands ((o.world.setLane v n).lanes v) putFails := horderly rfl
      rw [o.world.setLane_self] at hundo
      exact h.1.move hcontrols hqueue (Lane.move_of_advance hn) hundo
  | removeClient v =>
    cases hw
    exact h.setLane h.2 fun hv => absurd hv hadmitted
  | restoreClients snapshot => exact absurd hadmitted id
  | control read =>
    cases hw
    exact ⟨Lane.Kept.same rfl h.1, hadmitted⟩
  | connect v socket =>
    cases hw
    refine h.setLane h.2 fun hv => ?_
    subst hv
    exact Lane.Kept.same rfl (h.1.entries ⟨rfl, rfl, rfl⟩ h.1.client h.1.entry)
  | disconnect v socket =>
    cases hw
    refine h.setLane h.2 fun hv => ?_
    subst hv
    rw [Lane.cleanupSession]
    split_ifs
    · exact Lane.Kept.same rfl (h.1.entries ⟨rfl, rfl, rfl⟩ (by rintro _ ⟨⟩) h.1.entry)
    · exact Lane.Kept.same rfl h.1
  | expire now =>
    cases hw
    refine ⟨Lane.Kept.same rfl (h.1.entries ⟨rfl, rfl, rfl⟩ (fun c hc => ?_) h.1.entry), h.2⟩
    exact h.1.client c (Option.filter_eq_some_iff.mp hc).1
  | updateClientMeta v now =>
    cases hw
    refine h.setLane h.2 fun hv => ?_
    subst hv
    refine Lane.Kept.same ?_ (h.1.updateClientMeta now (horderly rfl))
    simp only [Lane.updateClientMeta]
    split <;> rfl
  | inferNetwork v report now =>
    cases hw
    refine h.setLane h.2 fun hv => ?_
    subst hv
    refine Lane.Kept.same ?_ (h.1.inferNetwork report now hadmitted (horderly rfl))
    rw [Lane.inferNetwork]
    split
    · rfl
    · split_ifs <;> rfl

/-- **The last accepted report is kept**, whatever fails in the reports after it: in every run between
    removals and restores in which no undo fails and no older entry is taken, after each report. -/
theorem last_report_kept (rules : ReportRules) (uuid : String) (es : List LiveEvent) (o o' : Observed)
    (hrested : o.Rested rules uuid) (hrun : (observe rules.compactLiveReport uuid).run o es = some o')
    (hsteps : (observe rules.compactLiveReport uuid).Along (fun s e s' =>
      Admitted rules uuid s.world e ∧ Orderly rules uuid s.world e s'.world) o es)
    (hbetween : (o'.world.lanes uuid).Between) :
    InPlace rules uuid (o'.world.lanes uuid) o'.accepted := by
  have hkept : o'.Kept rules uuid := (observe rules.compactLiveReport uuid).run_inv_along
    (fun s e s' h hstep hs => h.step hs hstep.1 hstep.2) es o o' hrested.kept hsteps hrun
  exact hkept.1.inPlace hbetween

end Runs

/-! ## Examples of runs -/

/-- Rules under which no text is a number, an address or a region. -/
def bareRules : ReportRules := ⟨fun _ => none, fun _ => "", fun _ => false, fun _ => false⟩

/-- A report of one sample over the socket 1. -/
def socketReport : ReportRequest :=
  ⟨some 1, "a", false, 1, bareRules.sanitizeReport (bareRules.normalizeMonitorReport none) none, 60000, false⟩

/-- The steps of such a report up to the write of its record. -/
def writingSteps (now : Int) : List LiveEvent := [
  .report "a" socketReport now, .advance "a" (.credential none) false true,
  .advance "a" (.snapshot none) false true, .advance "a" (.snapshot none) false true,
  .advance "a" .done false true]

/-- The steps of such a report that is accepted. -/
def acceptedSteps (now : Int) : List LiveEvent := writingSteps now ++ [
  .advance "a" (.snapshot none) false true, .advance "a" .done false true, .advance "a" .done false true]

/-- The steps of such a report that cannot read the management snapshot after its write. -/
def rejectedSteps (now : Int) (undoFails : Bool) : List LiveEvent := writingSteps now ++ [
  .advance "a" .failed undoFails true, .advance "a" .done false true]

theorem absent_retains (uuid : String) : Controls.absent.Retains uuid := fun c _ => ⟨c, rfl⟩

theorem start_rested : (⟨LiveWorld.start, none⟩ : Observed).Rested bareRules "a" where
  idle := rfl
  retained := absent_retains "a"
  entry := rfl
  record := rfl
  client c hc := absurd hc (by simp [LiveWorld.start])
  normalised a ha := absurd ha (by simp)

theorem admitted_of_plain {w : LiveWorld} {e : LiveEvent} (h : (∃ now, e = .report "a" socketReport now) ∨
      (∃ reply putFails socketOpen, e = .advance "a" reply putFails socketOpen ∧
        ∀ read, reply = .snapshot read → read = none) ∨ (∃ socket, e = .connect "a" socket) ∨
      ∃ now, e = .updateClientMeta "a" now) : Admitted bareRules "a" w e := by
  rcases h with ⟨now, rfl⟩ | ⟨reply, putFails, socketOpen, rfl, hreply⟩ | ⟨socket, rfl⟩ | ⟨now, rfl⟩
  · exact ⟨none, none, rfl⟩
  · intro read hread
    rw [hreply read hread]
    exact absent_retains "a"
  · trivial
  · trivial

/-- A report that is rejected after its write leaves the one before it. -/
theorem rejected_report_undone : ∃ o', (observe bareRules.compactLiveReport "a").run ⟨LiveWorld.start, none⟩
      (acceptedSteps 5 ++ rejectedSteps 7 false) = some o' ∧ o'.accepted.map Accepted.time = some 5 ∧
      InPlace bareRules "a" (o'.world.lanes "a") o'.accepted := by
  obtain ⟨o', hrun, htime, hidle⟩ : ∃ o', (observe bareRules.compactLiveReport "a").run ⟨LiveWorld.start, none⟩
      (acceptedSteps 5 ++ rejectedSteps 7 false) = some o' ∧ o'.accepted.map Accepted.time = some 5 ∧
      (o'.world.lanes "a").queue = [] := ⟨_, rfl, rfl, rfl⟩
  refine ⟨o', hrun, htime, ?_⟩
  refine last_report_kept bareRules "a" (acceptedSteps 5 ++ rejectedSteps 7 false) _ _ start_rested hrun ?_ ?_
  · have hplain : ∀ e ∈ acceptedSteps 5 ++ rejectedSteps 7 false, (∃ now, e = .report "a" socketReport now) ∨
        ∃ reply socketOpen, e = .advance "a" reply false socketOpen ∧
          ∀ read, reply = .snapshot read → read = none := by
      simp [acceptedSteps, rejectedSteps, writingSteps]
    refine Machine.along_of_forall _ _ _ fun e he s s' => ?_
    rcases hplain e he with ⟨now, rfl⟩ | ⟨reply, socketOpen, rfl, hread⟩
    · exact ⟨admitted_of_plain (.inl ⟨now, rfl⟩), trivial⟩
    · exact ⟨admitted_of_plain (.inr (.inl ⟨reply, false, socketOpen, rfl, hread⟩)), nofun⟩
  · intro r rest hqueue
    cases hidle.symm.trans hqueue

/-- A report is accepted; the next one comes over a socket that another has replaced, and the node is
    renamed after it. -/
def replacedSteps : List LiveEvent :=
  .connect "a" 1 :: acceptedSteps 5 ++ .connect "a" 2 :: acceptedSteps 7 ++ [.updateClientMeta "a" 9]

theorem not_inPlace {o' : Observed} (hstored : (o'.world.lanes "a").stored.map ClientState.lastReportTime = some 7)
    (hknown : (o'.world.lanes "a").lastKnown.map ClientState.lastReportTime = some 5) :
    ¬ InPlace bareRules "a" (o'.world.lanes "a") o'.accepted := by
  intro hinPlace
  obtain ⟨s, hs, hstime⟩ := Option.map_eq_some_iff.mp hstored
  obtain ⟨k, hk, hktime⟩ := Option.map_eq_some_iff.mp hknown
  have htimes := (hinPlace.same s k hs hk).1
  omega

/-- **The last accepted report is lost** when the write that undoes a rejected one fails; and, although
    nothing fails, when a node is renamed whose entry in `clients` is older than its last report. -/
theorem last_report_lost : (¬ ∀ (es : List LiveEvent) (o' : Observed),
      (observe bareRules.compactLiveReport "a").run ⟨LiveWorld.start, none⟩ es = some o' →
      (observe bareRules.compactLiveReport "a").Along (fun s e _ => Admitted bareRules "a" s.world e)
        ⟨LiveWorld.start, none⟩ es → (o'.world.lanes "a").Between →
      InPlace bareRules "a" (o'.world.lanes "a") o'.accepted) ∧
    ¬ ∀ (es : List LiveEvent) (o' : Observed),
      (∀ uuid reply putFails socketOpen, LiveEvent.advance uuid reply putFails socketOpen ∈ es →
        putFails = false ∧ reply ≠ .failed) →
      (observe bareRules.compactLiveReport "a").run ⟨LiveWorld.start, none⟩ es = some o' →
      (observe bareRules.compactLiveReport "a").Along (fun s e _ => Admitted bareRules "a" s.world e)
        ⟨LiveWorld.start, none⟩ es → (o'.world.lanes "a").Between →
      InPlace bareRules "a" (o'.world.lanes "a") o'.accepted := by
  constructor
  · intro h
    obtain ⟨o', hrun, hidle, hstored, hknown⟩ : ∃ o', (observe bareRules.compactLiveReport "a").run
        ⟨LiveWorld.start, none⟩ (acceptedSteps 5 ++ rejectedSteps 7 true) = some o' ∧
        (o'.world.lanes "a").queue = [] ∧
        (o'.world.lanes "a").stored.map ClientState.lastReportTime = some 7 ∧
        (o'.world.lanes "a").lastKnown.map ClientState.lastReportTime = some 5 := ⟨_, rfl, rfl, rfl, rfl⟩
    refine not_inPlace hstored hknown (h _ o' hrun (Machine.along_of_forall _ _ _ fun e he s s' =>
      admitted_of_plain ?_) fun r rest hqueue => absurd (hidle.symm.trans hqueue) (by simp))
    revert e
    simp [acceptedSteps, rejectedSteps, writingSteps]
  · intro h
    obtain ⟨o', hrun, hidle, hstored, hknown⟩ : ∃ o', (observe bareRules.compactLiveReport "a").run
        ⟨LiveWorld.start, none⟩ replacedSteps = some o' ∧ (o'.world.lanes "a").queue = [] ∧
        (o'.world.lanes "a").stored.map ClientState.lastReportTime = some 7 ∧
        (o'.world.lanes "a").lastKnown.map ClientState.lastReportTime = some 5 := ⟨_, rfl, rfl, rfl, rfl⟩
    have hdone : ∀ e ∈ replacedSteps, ∀ uuid reply putFails socketOpen,
        e = .advance uuid reply putFails socketOpen → putFails = false ∧ reply ≠ .failed := by
      simp [replacedSteps, acceptedSteps, writingSteps]
    refine not_inPlace hstored hknown (h replacedSteps o' (fun _ _ _ _ he => hdone _ he _ _ _ _ rfl) hrun
      (Machine.along_of_forall _ _ _ fun e he s s' => admitted_of_plain ?_)
      fun r rest hqueue => absurd (hidle.symm.trans hqueue) (by simp))
    revert e
    simp [replacedSteps, acceptedSteps, writingSteps]

end CfMonitor.Live
