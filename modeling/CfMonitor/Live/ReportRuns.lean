/-
  A report that was in flight when its node was removed or the configuration was restored leaves no
  trace.

  1. **Invariant** (`Lane.Inv`) — a report of the queue is current exactly if its lifecycle was
     captured in the present epoch; a node has entries only if the live update of a report of the
     present epoch was made; and it has a stored record only then, or while the running report still
     has to settle what it wrote.

  2. **Results** — reports in flight leave no trace (`reports_leave_no_trace`).
-/
import CfMonitor.Live.ReportLifecycle

namespace CfMonitor.Live

open CfMonitor.Lib

/-- The running report has written a record that it has not settled yet. -/
def Phase.wrote : Phase → Bool
  | .putting _ landed wroteSnapshot => landed || wroteSnapshot
  | .checking _ => true
  | _ => false

namespace Lane

variable {compactLiveReport : Fields → Fields} {uuid : String} {restoreVersion : Nat}
  {controls : Controls} {n : Lane} {r : LiveReport} {rest : List LiveReport}

/-! ## The invariant -/

/-- The versions of a report in flight tell its epoch. -/
structure Dated (restoreVersion : Nat) (n : Lane) (r : LiveReport) : Prop where
  removal : r.lifecycle.removalVersion ≤ n.removalVersion.getD 0
  restore : r.lifecycle.restoreVersion ≤ restoreVersion
  captured : r.captured ≤ n.epoch
  current : n.isReportCurrent restoreVersion r = true ↔ r.captured = n.epoch

/-- What holds whatever the running report has written. -/
structure Base (restoreVersion : Nat) (n : Lane) (queue : List LiveReport) : Prop where
  dated : ∀ r ∈ queue, Dated restoreVersion n r
  entries : n.client.isSome ∨ n.lastKnown.isSome → n.epoch ∈ n.updated
  ended : ∀ f ∈ n.ended, f.thrown = false → f.captured = f.ended

/-- No record without a live update of the present epoch. -/
def Clean (n : Lane) : Prop := n.stored.isSome → n.epoch ∈ n.updated

/-- The invariant of a lane. -/
structure Inv (restoreVersion : Nat) (n : Lane) : Prop extends Base restoreVersion n n.queue where
  record : n.Clean ∨ ∃ r rest, n.queue = r :: rest ∧ r.phase.wrote = true

variable {n' : Lane}

variable {r' : LiveReport}

theorem Dated.of_eq (h : Dated restoreVersion n r)
    (hversion : n'.removalVersion = n.removalVersion) (hepoch : n'.epoch = n.epoch)
    (hlifecycle : r'.lifecycle = r.lifecycle) (hcaptured : r'.captured = r.captured) :
    Dated restoreVersion n' r' := by
  refine ⟨?_, ?_, ?_, ?_⟩
  · rw [hlifecycle, hversion]
    exact h.removal
  · rw [hlifecycle]
    exact h.restore
  · rw [hcaptured, hepoch]
    exact h.captured
  · rw [isReportCurrent, hlifecycle, hversion, hcaptured, hepoch]
    exact h.current

/-- The running report under another name or at another await. -/
theorem Base.head (h : Base restoreVersion n (r :: rest))
    (hlifecycle : r'.lifecycle = r.lifecycle) (hcaptured : r'.captured = r.captured) :
    Base restoreVersion n (r' :: rest) where
  dated q hq := by
    rcases List.mem_cons.mp hq with rfl | hq
    · exact (h.dated r List.mem_cons_self).of_eq rfl rfl hlifecycle hcaptured
    · exact h.dated q (List.mem_cons_of_mem _ hq)
  entries := h.entries
  ended := h.ended

variable {stored : Option ClientState}

/-- Another record, another queue. -/
theorem Base.store {queue queue' : List LiveReport} (h : Base restoreVersion n queue) :
    Base restoreVersion { n with stored := stored, queue := queue' } queue :=
  ⟨fun q hq => (h.dated q hq).of_eq rfl rfl rfl rfl, h.entries, h.ended⟩

/-! ## The ways a report goes on -/

variable {phase : Phase}

section

variable (h : Base restoreVersion n (r :: rest))

include h

theorem Base.await (hrecord : (stored.isSome → n.epoch ∈ n.updated) ∨ phase.wrote = true) :
    ({ n.goto r rest phase with stored := stored } : Lane).Inv restoreVersion := by
  have hhead : Base restoreVersion n ({ r with phase := phase } :: rest) := h.head rfl rfl
  refine ⟨hhead.store, ?_⟩
  rcases hrecord with hclean | hwrote
  · exact .inl hclean
  · exact .inr ⟨_, _, rfl, hwrote⟩

theorem Base.goto (hclean : n.Clean) : (n.goto r rest phase).Inv restoreVersion := h.await (.inl hclean)

theorem Base.finish {thrown : Bool} (hclean : n.Clean) (hthrown : thrown = false → r.captured = n.epoch) :
    (n.finish r rest thrown).Inv restoreVersion where
  dated q hq := by
    have hq' : q ∈ rest := hq
    -- with a report left in the queue, the removal version stays
    have hversion : (n.finish r rest thrown).removalVersion = n.removalVersion :=
      if_neg (by simpa using List.ne_nil_of_mem hq')
    exact (h.dated q (List.mem_cons_of_mem _ hq')).of_eq hversion rfl rfl rfl
  entries := h.entries
  ended f hf := by
    rcases List.mem_cons.mp hf with rfl | hf
    · exact hthrown
    · exact h.ended f hf
  record := .inl hclean

theorem Base.throw (hclean : n.Clean) : (n.finish r rest true).Inv restoreVersion :=
  h.finish hclean nofun

theorem Base.guarded {next : Lane} (hclean : n.Clean)
    (hnext : r.captured = n.epoch → next.Inv restoreVersion) :
    (n.guarded restoreVersion r rest next).Inv restoreVersion := by
  rw [Lane.guarded]
  by_cases hcurrent : n.isReportCurrent restoreVersion r = true
  · rw [if_pos hcurrent]
    exact hnext ((h.dated r List.mem_cons_self).current.mp hcurrent)
  · rw [if_neg hcurrent]
    exact h.throw hclean

theorem Base.afterAlarm (hclean : n.Clean) : (n.afterAlarm restoreVersion r rest).Inv restoreVersion := by
  rw [Lane.afterAlarm]
  split_ifs
  · exact h.goto hclean
  · exact h.guarded hclean fun hcaptured => h.finish hclean fun _ => hcaptured

theorem Base.loop (hclean : n.Clean) (todo : Nat) :
    (n.loop restoreVersion r rest todo).Inv restoreVersion := by
  match todo with
  | 0 =>
    rw [Lane.loop]
    split_ifs
    · exact h.goto hclean
    · exact h.afterAlarm hclean
  | 1 => exact h.guarded hclean fun _ => h.goto hclean
  | todo + 2 => exact h.guarded hclean fun _ => h.goto hclean

variable {putFails : Bool}

variable {wroteSnapshot : Bool}

theorem Base.persist {next : ClientState} (hrecord : wroteSnapshot = false → n.Clean) :
    (n.persist compactLiveReport r rest next wroteSnapshot putFails).Inv restoreVersion := by
  refine h.await ?_
  cases putFails with
  | false => exact .inr rfl
  | true =>
    cases wroteSnapshot with
    | false => exact .inl (hrecord rfl)
    | true => exact .inr rfl

theorem Base.caught (hrecord : wroteSnapshot = false → n.Clean) :
    (n.caught compactLiveReport restoreVersion controls r rest wroteSnapshot putFails).Inv
      restoreVersion := by
  cases wroteSnapshot with
  | false => exact h.throw (hrecord rfl)
  | true =>
    rw [Lane.caught, if_pos rfl]
    cases hretained : (if n.isReportCurrent restoreVersion r then
        n.lastKnown.bind controls.controlledClientState else none) with
    | none => exact h.await (.inl nofun)
    | some retained =>
      -- something is retained, so the node has an entry
      have hknown : n.lastKnown.isSome := by
        split_ifs at hretained
        obtain ⟨previous, hprevious, -⟩ := Option.bind_eq_some_iff.mp hretained
        rw [hprevious]
        rfl
      exact h.await (.inl fun _ => h.entries (.inr hknown))

theorem Base.update {next : ClientState} {socketOpen : Bool} (hcaptured : r.captured = n.epoch) :
    (n.update compactLiveReport r rest next socketOpen).Inv restoreVersion := by
  have hhead : Base restoreVersion n ({ r with phase := .ping 0 } :: rest) := h.head rfl rfl
  have hupdated : n.epoch ∈ r.captured :: n.updated := hcaptured ▸ List.mem_cons_self
  exact ⟨⟨fun q hq => (hhead.dated q hq).of_eq rfl rfl rfl rfl, fun _ => hupdated, h.ended⟩,
    .inl fun _ => hupdated⟩

end

/-- **One step of the running report.** -/
theorem Inv.advance {reply : Reply} {socketOpen : Bool}
    (hI : n.Inv restoreVersion) (hqueue : n.queue = r :: rest)
    (hstep : n.advance compactLiveReport uuid restoreVersion controls r rest reply putFails socketOpen
      = some n') : n'.Inv restoreVersion := by
  have h : Base restoreVersion n (r :: rest) := hqueue ▸ hI.toBase
  -- unless the report has written, there is nothing to settle
  have hclean : r.phase.wrote = false → n.Clean := by
    intro hphase
    rcases hI.record with hclean | ⟨r', rest', hqueue', hwrote⟩
    · exact hclean
    · obtain ⟨rfl, -⟩ := List.cons.inj (hqueue.symm.trans hqueue')
      cases hphase.symm.trans hwrote
  have hfree : ∀ {phase : Phase}, r.phase = phase → phase.wrote = false → n.Clean := fun hphase hnot => hclean (hphase ▸ hnot)
  rw [Lane.advance.eq_def] at hstep
  split at hstep
  · -- the credential
    rename_i current hphase
    have hc := hfree hphase rfl
    cases hstep
    refine h.guarded hc fun hcaptured => ?_
    split_ifs
    · exact h.goto hc
    · match current with
      | none => exact h.throw hc
      | some false => exact h.finish hc fun _ => hcaptured
      | some true => exact h.goto hc
  · rename_i hphase
    cases hstep
    exact h.throw (hfree hphase rfl)
  · -- the control row
    rename_i read hphase
    have hc := hfree hphase rfl
    cases hstep
    cases n.resolved uuid read r.request.name r.request.hidden with
    | none => exact h.throw hc
    | some control =>
      refine h.guarded hc fun _ => ?_
      have hnamed : Base restoreVersion n ({ r with name := control.1, hidden := control.2 } :: rest) := h.head rfl rfl
      exact hnamed.loop hc r.request.reports
  · -- ping results
    rename_i hphase
    cases hstep
    exact h.throw (hfree hphase rfl)
  · rename_i todo hphase
    cases hstep
    exact h.guarded (hfree hphase rfl) fun _ => h.goto (hfree hphase rfl)
  · -- website results
    rename_i hphase
    cases hstep
    exact h.throw (hfree hphase rfl)
  · rename_i todo hphase
    cases hstep
    exact h.guarded (hfree hphase rfl) fun _ => h.loop (hfree hphase rfl) todo
  · -- the snapshot
    rename_i hphase
    cases hstep
    exact h.throw (hfree hphase rfl)
  · rename_i read hphase
    have hc := hfree hphase rfl
    cases hstep
    rw [resolvedFirst]
    cases n.resolved uuid read r.name r.hidden with
    | none => exact h.throw hc
    | some control => exact h.guarded hc fun _ => h.persist fun _ => hc
  · -- the entry was not written, or is taken back
    rename_i next wrote hphase
    cases hstep
    exact h.caught fun hwrote => hfree hphase hwrote
  · cases hstep
    split_ifs
    · exact h.await (.inr rfl)
    · exact h.caught nofun
  · -- the entry is looked at again
    cases hstep
    exact h.caught nofun
  · rename_i next read hphase
    cases hstep
    rw [resolvedAgain]
    cases n.resolved uuid read next.name next.hidden with
    | none => exact h.caught nofun
    | some control =>
      simp only
      split_ifs with hcurrent
      · exact h.update ((h.dated r List.mem_cons_self).current.mp hcurrent)
      · exact h.persist nofun
      · exact h.caught nofun
  · rename_i hphase
    cases hstep
    exact h.throw (hfree hphase rfl)
  · -- the alarm
    rename_i hphase
    cases hstep
    exact h.guarded (hfree hphase rfl) fun _ => h.afterAlarm (hfree hphase rfl)
  · -- the basic information
    rename_i hphase
    cases hstep
    exact h.throw (hfree hphase rfl)
  · rename_i hphase
    cases hstep
    exact h.guarded (hfree hphase rfl) fun hcaptured => h.finish (hfree hphase rfl) fun _ => hcaptured
  · cases hstep

/-! ## The other steps -/

section

variable (hI : n.Inv restoreVersion)

include hI

theorem Inv.enqueue (request : ReportRequest) (now : Int) :
    (n.enqueue restoreVersion request now).Inv restoreVersion where
  dated q hq := by
    rcases List.mem_append.mp hq with hq | hq
    · exact (hI.dated q hq).of_eq rfl rfl rfl rfl
    · obtain rfl := List.mem_singleton.mp hq
      refine ⟨Nat.le_refl _, Nat.le_refl _, Nat.le_refl _, ?_⟩
      simp [isReportCurrent, Lane.enqueue]
  entries := hI.entries
  ended := hI.ended
  record := by
    rcases hI.record with hclean | ⟨r, rest, hqueue, hwrote⟩
    · exact .inl hclean
    · have hlonger : ∃ rest', (n.enqueue restoreVersion request now).queue = r :: rest' := by
        rw [Lane.enqueue, hqueue]
        exact ⟨_, List.cons_append⟩
      obtain ⟨rest', hqueue'⟩ := hlonger
      exact .inr ⟨r, rest', hqueue', hwrote⟩

theorem Inv.nextEpoch {restoreVersion' : Nat}
    (hentries : n'.client = none ∧ n'.lastKnown = none ∧ n'.stored = none)
    (hepoch : n'.epoch = n.epoch + 1) (hqueue : n'.queue = n.queue) (hended : n'.ended = n.ended)
    (hversion : n.removalVersion.getD 0 ≤ n'.removalVersion.getD 0)
    (hrestore : restoreVersion ≤ restoreVersion')
    (hnew : n.queue ≠ [] → n.removalVersion.getD 0 < n'.removalVersion.getD 0 ∨
      restoreVersion < restoreVersion') : n'.Inv restoreVersion' where
  dated q hq := by
    rw [hqueue] at hq
    obtain ⟨hremoval, hrest, hcaptured, -⟩ := hI.dated q hq
    have hsep := hnew (List.ne_nil_of_mem hq)
    refine ⟨by omega, by omega, by omega, ?_⟩
    constructor
    · intro hcurrent
      have hsame : q.lifecycle.removalVersion = n'.removalVersion.getD 0 ∧
          q.lifecycle.restoreVersion = restoreVersion' := by
        simpa [isReportCurrent] using hcurrent
      omega
    · intro hsame
      omega
  entries hsome := by
    rw [hentries.1, hentries.2.1] at hsome
    exact absurd hsome (by simp)
  ended := hended ▸ hI.ended
  record := .inl fun hsome => by
    rw [hentries.2.2] at hsome
    exact absurd hsome (by simp)

theorem Inv.removeClient : n.removeClient.Inv restoreVersion := by
  have hversion : n.queue ≠ [] → n.removeClient.removalVersion = some (n.removalVersion.getD 0 + 1) :=
    fun hne => if_neg (by simpa using hne)
  refine hI.nextEpoch ⟨rfl, rfl, rfl⟩ rfl rfl rfl ?_ (Nat.le_refl _) ?_
  · by_cases hempty : n.queue = []
    · have hsame : n.removeClient.removalVersion = n.removalVersion := if_pos (by simp [hempty])
      rw [hsame]
    · rw [hversion hempty]
      exact Nat.le_succ _
  · intro hne
    rw [hversion hne]
    exact .inl (Nat.lt_succ_self _)

theorem Inv.restoreClients : n.restoreClients.Inv (restoreVersion + 1) :=
  hI.nextEpoch ⟨rfl, rfl, rfl⟩ rfl rfl rfl (Nat.le_refl _) (Nat.le_succ _)
    fun _ => .inr (Nat.lt_succ_self _)

theorem Inv.entries_of
    (hentries : n'.client.isSome ∨ n'.lastKnown.isSome → n.client.isSome ∨ n.lastKnown.isSome)
    (hrest : n'.stored = n.stored ∧ n'.removalVersion = n.removalVersion ∧ n'.queue = n.queue ∧
      n'.epoch = n.epoch ∧ n'.updated = n.updated ∧ n'.ended = n.ended) :
    n'.Inv restoreVersion := by
  obtain ⟨hstored, hversion, hqueue, hepoch, hupdated, hended⟩ := hrest
  refine ⟨⟨fun q hq => ?_, fun hsome => ?_, hended ▸ hI.ended⟩, ?_⟩
  · rw [hqueue] at hq
    exact (hI.dated q hq).of_eq hversion hepoch rfl rfl
  · rw [hepoch, hupdated]
    exact hI.entries (hentries hsome)
  · rw [Clean, hstored, hepoch, hupdated, hqueue]
    exact hI.record

theorem Inv.cleanupSession (socket : Nat) : (n.cleanupSession socket).Inv restoreVersion := by
  rw [Lane.cleanupSession]
  split_ifs
  · exact hI.entries_of (fun h => .inr (by simpa using h)) ⟨rfl, rfl, rfl, rfl, rfl, rfl⟩
  · exact hI

theorem Inv.removeExpired (now : Int) : (n.removeExpired now).Inv restoreVersion := by
  refine hI.entries_of ?_ ⟨rfl, rfl, rfl, rfl, rfl, rfl⟩
  rintro (h | h)
  · obtain ⟨c, hc⟩ := Option.isSome_iff_exists.mp h
    have hold : n.client = some c := (Option.filter_eq_some_iff.mp hc).1
    exact .inl (by rw [hold]; rfl)
  · exact .inr h

end

theorem isSome_of_controlled {client : Option ClientState} {next : ClientState}
    (h : client.bind controls.controlledClientState = some next) : client.isSome := by
  obtain ⟨c, hc, -⟩ := Option.bind_eq_some_iff.mp h
  rw [hc]
  rfl

theorem Inv.updateClientMeta (hI : n.Inv restoreVersion) (now : Int) :
    (n.updateClientMeta compactLiveReport controls now).Inv restoreVersion := by
  simp only [Lane.updateClientMeta]
  cases hnext : (n.client.or n.lastKnown).bind controls.controlledClientState with
  | none => exact hI.removeExpired now
  | some next =>
    refine hI.entries_of (fun _ => ?_) ⟨rfl, rfl, rfl, rfl, rfl, rfl⟩
    simpa using isSome_of_controlled hnext

theorem Inv.inferNetwork (hI : n.Inv restoreVersion) (report : Fields) (now : Int) :
    (n.inferNetwork compactLiveReport controls report now).Inv restoreVersion := by
  rw [Lane.inferNetwork]
  cases hcurrent : n.client.bind controls.controlledClientState with
  | none => exact hI
  | some current =>
    simp only
    split_ifs
    · exact hI
    · exact hI.entries_of (fun _ => .inl (isSome_of_controlled hcurrent))
        ⟨rfl, rfl, rfl, rfl, rfl, rfl⟩

end Lane

/-! ## Runs -/

/-- The invariant of the object. -/
def LiveWorld.Inv (w : LiveWorld) : Prop := ∀ uuid, (w.lanes uuid).Inv w.restoreVersion

theorem LiveWorld.Inv.start : LiveWorld.start.Inv := fun _ =>
  ⟨⟨fun _ hr => absurd hr (by simp [LiveWorld.start]),
    fun h => absurd h (by simp [LiveWorld.start]),
    fun _ hf => absurd hf (by simp [LiveWorld.start])⟩,
    .inl fun h => absurd h (by simp [LiveWorld.start])⟩

section Runs

variable {compactLiveReport : Fields → Fields} {w w' : LiveWorld} {e : LiveEvent}

theorem LiveWorld.Inv.setLane {uuid : String} {n : Lane} (hI : w.Inv)
    (hn : n.Inv w.restoreVersion) : (w.setLane uuid n).Inv := by
  intro v
  show (Function.update w.lanes uuid n v).Inv w.restoreVersion
  rw [Function.update_apply]
  split_ifs
  · exact hn
  · exact hI v

/-- **One step.** -/
theorem LiveWorld.Inv.step (hI : w.Inv) (hstep : liveStep compactLiveReport w e = some w') : w'.Inv := by
  cases e with
  | report uuid request now =>
    rw [liveStep] at hstep
    split_ifs at hstep
    cases hstep
    exact hI.setLane ((hI uuid).enqueue request now)
  | advance uuid reply putFails socketOpen =>
    rw [liveStep] at hstep
    cases hqueue : (w.lanes uuid).queue with
    | nil =>
      rw [hqueue] at hstep
      cases hstep
    | cons r rest =>
      rw [hqueue] at hstep
      obtain ⟨n, hn, rfl⟩ := Option.map_eq_some_iff.mp hstep
      exact hI.setLane ((hI uuid).advance hqueue hn)
  | removeClient uuid =>
    cases hstep
    exact hI.setLane (hI uuid).removeClient
  | restoreClients snapshot =>
    cases hstep
    exact fun uuid => (hI uuid).restoreClients
  | control read =>
    cases hstep
    exact hI
  | connect uuid socket =>
    cases hstep
    exact hI.setLane ((hI uuid).entries_of id ⟨rfl, rfl, rfl, rfl, rfl, rfl⟩)
  | disconnect uuid socket =>
    cases hstep
    exact hI.setLane ((hI uuid).cleanupSession socket)
  | expire now =>
    cases hstep
    exact fun uuid => (hI uuid).removeExpired now
  | updateClientMeta uuid now =>
    cases hstep
    exact hI.setLane ((hI uuid).updateClientMeta now)
  | inferNetwork uuid report now =>
    cases hstep
    exact hI.setLane ((hI uuid).inferNetwork report now)

/-- **Reports leave no trace across a removal or a restore.**  In every run: a report that ended
    without throwing ended in the epoch of its capture, so one that was captured before a removal or
    restore ended before it or threw; and when no report of a node is in flight, the node has an
    entry or a record only if the live update of a report captured in the present epoch was made. -/
theorem reports_leave_no_trace (compactLiveReport : Fields → Fields) (es : List LiveEvent)
    (w : LiveWorld) (hrun : (liveMachine compactLiveReport).run LiveWorld.start es = some w)
    (uuid : String) :
    (∀ f ∈ (w.lanes uuid).ended, f.thrown = false → f.captured = f.ended) ∧
    ((w.lanes uuid).queue = [] → (w.lanes uuid).client.isSome ∨ (w.lanes uuid).lastKnown.isSome ∨
        (w.lanes uuid).stored.isSome →
      (w.lanes uuid).epoch ∈ (w.lanes uuid).updated) := by
  have hI : w.Inv := (liveMachine compactLiveReport).run_inv
    (fun _ _ _ h hs => LiveWorld.Inv.step h hs) LiveWorld.Inv.start hrun
  refine ⟨(hI uuid).ended, fun hqueue hsome => ?_⟩
  rcases hsome with h | h | h
  · exact (hI uuid).entries (.inl h)
  · exact (hI uuid).entries (.inr h)
  · rcases (hI uuid).record with hclean | ⟨r, rest, hrunning, -⟩
    · exact hclean h
    · cases hqueue.symm.trans hrunning

end Runs

/-- An HTTP report of one sample that carries basic information. -/
def oneReport : ReportRequest := ⟨none, "a", false, 1, [], 60000, true⟩

/-- The steps of an HTTP report up to its basic information. -/
def reportSteps : List LiveEvent := [
  .report "a" oneReport 5, .advance "a" (.credential (some true)) false false,
  .advance "a" (.snapshot none) false false, .advance "a" (.snapshot none) false false,
  .advance "a" .done false false, .advance "a" (.snapshot none) false false,
  .advance "a" .done false false, .advance "a" .done false false, .advance "a" .done false false]

/-- The hypothesis is satisfiable: after a report that went through, the node has its entries. -/
theorem reports_leave_no_trace_accepted :
    ∃ w, (liveMachine id).run LiveWorld.start (reportSteps ++ [.advance "a" .done false false])
        = some w ∧ (w.lanes "a").queue = [] ∧ (w.lanes "a").client.isSome ∧
      (w.lanes "a").epoch ∈ (w.lanes "a").updated := by
  refine ⟨_, rfl, rfl, rfl, ?_⟩
  exact (reports_leave_no_trace id (reportSteps ++ [.advance "a" .done false false]) _ rfl "a").2 rfl
    (.inl rfl)

/-- A report that throws after its live update leaves its entries behind, although it was not
    accepted: here the basic information cannot be stored. -/
theorem rejected_report_leaves_entry :
    ¬ ∀ (compactLiveReport : Fields → Fields) (es : List LiveEvent) (w : LiveWorld) (uuid : String),
      (liveMachine compactLiveReport).run LiveWorld.start es = some w →
      (w.lanes uuid).queue = [] → (w.lanes uuid).client.isSome →
      ∃ f ∈ (w.lanes uuid).ended, f.thrown = false ∧ f.captured = (w.lanes uuid).epoch := by
  intro h
  obtain ⟨f, hf, hthrown, -⟩ :=
    h id (reportSteps ++ [.advance "a" .failed false false]) _ "a" rfl rfl rfl
  obtain rfl := List.mem_singleton.mp hf
  cases hthrown

end CfMonitor.Live
