/-
  The outbox of client controls loses no change.

  1. **Segments** — a segment of a synchronisation moves the mark of its own node alone, to the
     revision it applies (`sync_marks`, `resume_marks`).

  2. **Invariant** (`OutboxWorld.Inv`) — for each uuid, the two ends of the outbox are a
     `Lib.Outbox`: what the batches carry was read, what they have applied or a worker has
     acknowledged is covered by the mark.  The object knows a uuid without the blanks around it, so
     this needs uuids that stay apart when they are trimmed.

  3. **Steps** (`OutboxWorld.Effect`, `step_cases`) — what a step can do, with what it has found; the
     invariant and the part of the database (`step_effect`) have one case for each.

  4. **Results** — `outbox_loses_nothing`, and where it fails `trimmed_uuids_collide`.
-/
import CfMonitor.Lib.Outbox
import CfMonitor.Live.ClientOutbox
import Mathlib.Data.Set.Function

namespace CfMonitor.Live

open CfMonitor.Lib SyncRules
open Option (bind_eq_some_iff map_some some)
open Assoc (get? get?_set)

theorem update_eq_some {α β : Type} [DecidableEq α] {f : α → Option β} {a b : α} {x y : β}
    (h : Function.update f a (some x) b = some y) : b = a ∧ x = y ∨ b ≠ a ∧ f b = some y := by
  by_cases hb : b = a
  · subst hb
    rw [Function.update_self] at h
    exact .inl ⟨rfl, some.inj h⟩
  · rw [Function.update_of_ne hb] at h
    exact .inr ⟨hb, h⟩

/-! ## Segments -/

section Segments

variable {rules : SyncRules} {owner : String → String} {key : String} {R : Nat} {s s₀ : SyncStore}

/-- The mark of `key` is `mark`, and the other marks are as they were. -/
def MarkAt (s₀ : SyncStore) (key : String) (mark : Nat × Bool) (s : SyncStore) : Prop :=
  s.syncRevision = Function.update s₀.syncRevision key (some mark)

theorem alreadyApplied_iff : alreadyApplied s key R = true ↔ Outbox.Covers (s.syncRevision key) R := by
  rw [alreadyApplied, Outbox.Covers]
  cases s.syncRevision key with
  | none => simp
  | some mark =>
    obtain ⟨m, b⟩ := mark
    simp only [Bool.or_eq_true, decide_eq_true_eq, Bool.and_eq_true, some.injEq, Prod.mk.injEq]
    constructor
    · rintro (hlt | ⟨rfl, hb⟩)
      · exact ⟨m, b, ⟨rfl, rfl⟩, .inl hlt⟩
      · exact ⟨m, b, ⟨rfl, rfl⟩, .inr ⟨rfl, hb⟩⟩
    · rintro ⟨m', b', ⟨rfl, rfl⟩, hlt | ⟨rfl, hb⟩⟩
      · exact .inl hlt
      · exact .inr ⟨rfl, hb⟩

/-- How a segment that has marked its revision ends. -/
def EndsAt (s₀ : SyncStore) (key : String) (R : Nat) : SyncOutcome → SyncStore → Prop
  | .waits _, s => MarkAt s₀ key (R, false) s
  | .answered applied, s => applied = true ∧ MarkAt s₀ key (R, true) s

/-- Where a segment that has marked its revision may be cut off. -/
def CutAt (s₀ : SyncStore) (key : String) (R : Nat) (s : SyncStore) : Prop :=
  ∃ b, MarkAt s₀ key (R, b) s

/-- A segment that starts after its revision is marked. -/
def Marks (s₀ : SyncStore) (key : String) (R : Nat) (p : Prog SyncStore Refusal SyncOutcome) : Prop :=
  Triple (MarkAt s₀ key (R, false)) p (CutAt s₀ key R) (EndsAt s₀ key R) (CutAt s₀ key R)

variable {p : Prog SyncStore Refusal SyncOutcome}

theorem Marks.after {f : SyncStore → SyncStore} (hp : Marks s₀ key R p)
    (hf : ∀ s, (f s).syncRevision = s.syncRevision) : Marks s₀ key R (do Prog.modify f; p) := by
  refine Triple.bind (M := fun _ => MarkAt s₀ key (R, false)) (Triple.modify ?_) fun _ => hp
  intro s hs
  have hsame : MarkAt s₀ key (R, false) (f s) := (hf s).trans hs
  exact ⟨⟨false, hsame⟩, hsame⟩

theorem marks_waits (next : SyncAwait) : Marks s₀ key R (pure (.waits next)) := Triple.pure fun _ hs => hs

theorem storeVersioned_marks {client : AgentAuthSnapshot} :
    Marks s₀ key R (rules.storeVersioned key R client) := by
  intro s hs
  rw [storeVersioned]
  cases versionedVerdict s client R with
  | save =>
    exact (marks_waits (.describing client)).after
      (f := fun s => remember key R (some client.tokenHash) (rules.saveCredentials client (some R) s))
      (fun _ => rfl) s hs
  | superseded => exact (Triple.fail_with fun s hs => ⟨false, hs⟩) s hs
  | newer => exact (Triple.fail_with fun s hs => ⟨false, hs⟩) s hs

theorem applyChange_marks {change : Option AgentAuthSnapshot} :
    Marks s₀ key R (rules.applyChange key R change) := by
  have hwait : Marks s₀ key R (pure (.waits (.removing change))) := marks_waits _
  intro s hs
  cases change with
  | none => exact hwait s hs
  | some client =>
    by_cases hold : (s.pointer key).isSome ∧ s.pointer key ≠ some client.tokenHash
    · rw [applyChange, if_pos hold]
      exact hwait s hs
    · rw [applyChange, if_neg hold]
      exact storeVersioned_marks s hs

theorem finish_marks : Marks s₀ key R (finish key R) := by
  refine Triple.bind (M := fun _ => MarkAt s₀ key (R, true)) (Triple.modify ?_) ?_
  · intro s hs
    have hdone : MarkAt s₀ key (R, true) (putRevision key R true s) := by
      rw [MarkAt, putRevision, hs, Function.update_idem]
    exact ⟨⟨true, hdone⟩, hdone⟩
  · intro _
    exact Triple.pure fun s hs => ⟨rfl, hs⟩

theorem applyClientSynchronization_marks {change : Option AgentAuthSnapshot}
    (hnew : alreadyApplied s₀ key R = false) :
    Triple (fun s => s = s₀) (rules.applyClientSynchronization key R change)
      (CutAt s₀ key R) (EndsAt s₀ key R) (CutAt s₀ key R) := by
  have hsegment : Triple (fun s => s = s₀)
      (do
        Prog.modify (putRevision key R false)
        rules.applyChange key R change : Prog SyncStore Refusal SyncOutcome)
      (CutAt s₀ key R) (EndsAt s₀ key R) (CutAt s₀ key R) := by
    refine Triple.bind (M := fun _ => MarkAt s₀ key (R, false)) (Triple.modify ?_)
      (fun _ => applyChange_marks)
    rintro s rfl
    exact ⟨⟨false, rfl⟩, rfl⟩
  rintro s rfl
  rw [applyClientSynchronization, hnew]
  exact hsegment s rfl

theorem upsertAdmin_syncRevision (client : AgentAuthSnapshot) (now : Int) (s : SyncStore) :
    (rules.upsertAdmin client now s).syncRevision = s.syncRevision := by
  rw [upsertAdmin]
  cases (rules.upsertAdminClientSnapshot s.admin client.payload false none now).2 <;> rfl

theorem resume_marks {now : Int} {fits : Bool} {next : SyncAwait} :
    Marks s₀ key R (rules.resume key R now fits next) := by
  cases next with
  | describing client =>
    refine finish_marks.after fun s => ?_
    split_ifs
    · exact upsertAdmin_syncRevision client now s
    · rfl
  | removing change =>
    cases change with
    | none => refine (finish_marks.after ?_).after ?_ <;> exact fun _ => rfl
    | some client =>
      refine storeVersioned_marks.after ?_
      exact fun _ => rfl

/-- What a segment of a synchronisation of `key` at revision `R` does to the object. -/
structure Moves (w w' : SyncWorld) (key : String) (R : Nat) (outcome : Option SyncOutcome) : Prop where
  running_ne : ∀ v, v ≠ key → w'.running v = w.running v
  store : w'.store.syncRevision = w.store.syncRevision ∨
    (¬ Outbox.Covers (w.store.syncRevision key) R ∧ CutAt w.store key R w'.store)
  waits : ∀ next, outcome = some (.waits next) →
    w'.store.syncRevision key = some (R, false) ∧ w'.running key = some ⟨R, next⟩
  answered : ∀ applied, outcome = some (.answered applied) → Outbox.Covers (w'.store.syncRevision key) R

variable {w w' : SyncWorld} {outcome : Option SyncOutcome}

theorem Moves.unfinished (hrunning : ∀ v, v ≠ key → w'.running v = w.running v)
    (hstore : w'.store.syncRevision = w.store.syncRevision ∨
      (¬ Outbox.Covers (w.store.syncRevision key) R ∧ CutAt w.store key R w'.store))
    (hnone : outcome = none) : Moves w w' key R outcome :=
  ⟨hrunning, hstore, by simp [hnone], by simp [hnone]⟩

theorem MarkAt.self {m : Nat × Bool} (h : MarkAt s₀ key m s) : s.syncRevision key = some m := by
  rw [h, Function.update_self]

theorem covers_self (R : Nat) : Outbox.Covers (some (R, true)) R := ⟨R, true, rfl, .inr ⟨rfl, rfl⟩⟩

theorem moves_segment {hash : Option String} {cut : Option Nat} (hnew : ¬ Outbox.Covers (w.store.syncRevision key) R)
    (hp : Triple (fun s => s = w.store) p (CutAt w.store key R) (EndsAt w.store key R)
      (CutAt w.store key R)) :
    Moves w (w.segment key R hash p cut) key R (segmentOutcome (p w.store) cut) := by
  obtain ⟨hseen, hok, herr⟩ := hp w.store rfl
  rw [SyncWorld.segment.eq_def]
  generalize p w.store = run at hseen hok herr ⊢
  obtain ⟨seen, last, result⟩ := run
  cases cut with
  | some n =>
    refine .unfinished (fun v hv => Function.update_of_ne hv _ _) ?_ rfl
    cases hlast : (seen.take n).getLast? with
    | none => exact .inl (by simp [hlast])
    | some s' =>
      have hmem : s' ∈ seen := List.mem_of_mem_take (List.mem_of_getLast? hlast)
      exact .inr ⟨hnew, by simpa [hlast] using hseen s' hmem⟩
  | none =>
    cases result with
    | error e =>
      exact .unfinished (fun v hv => Function.update_of_ne hv _ _) (.inr ⟨hnew, herr e rfl⟩) rfl
    | ok outcome =>
      have hend := hok outcome rfl
      cases outcome with
      | waits next =>
        refine ⟨fun v hv => Function.update_of_ne hv _ _, .inr ⟨hnew, false, hend⟩, ?_, ?_⟩
        · intro next' hout
          obtain rfl : next = next' := by simpa [segmentOutcome] using hout
          exact ⟨MarkAt.self hend, Function.update_self ..⟩
        · intro applied hout
          simp [segmentOutcome] at hout
      | answered applied =>
        obtain ⟨rfl, hdone⟩ := hend
        have hcover : Outbox.Covers (last.syncRevision key) R := by
          rw [MarkAt.self hdone]
          exact covers_self R
        refine ⟨fun v hv => Function.update_of_ne hv _ _, .inr ⟨hnew, true, hdone⟩, ?_,
          fun _ _ => hcover⟩
        intro next hout
        simp [segmentOutcome] at hout

theorem sync_marks {change : Option AgentAuthSnapshot} {cut : Option Nat}
    (h : syncStep rules owner w (.sync key R change cut) = some w') :
    Moves w w' key R (segmentOutcome (rules.applyClientSynchronization key R change w.store) cut) := by
  rw [syncStep] at h
  split_ifs at h with hbusy
  cases h
  cases hdone : alreadyApplied w.store key R with
  | false =>
    apply moves_segment
    · rw [← alreadyApplied_iff, hdone]
      simp
    · exact applyClientSynchronization_marks hdone
  | true =>
    -- Answered without effect.
    have hrun : rules.applyClientSynchronization key R change w.store =
        ⟨[], w.store, .ok (.answered false)⟩ := by
      rw [applyClientSynchronization, hdone]
      rfl
    have hcover := alreadyApplied_iff.mp hdone
    rw [SyncWorld.segment.eq_def, hrun]
    cases cut with
    | none =>
      refine ⟨fun v hv => Function.update_of_ne hv _ _, .inl rfl, ?_, fun _ _ => hcover⟩
      intro next hout
      simp [segmentOutcome] at hout
    | some n => exact .unfinished (fun v hv => Function.update_of_ne hv _ _) (.inl (by simp)) rfl

theorem resume_step_marks {running : SyncCall} {now : Int} {fits : Bool}
    {cut : Option Nat} (hrunning : w.running key = some running)
    (hmark : w.store.syncRevision key = some (running.revision, false))
    (h : syncStep rules owner w (.resume key now fits cut) = some w') :
    Moves w w' key running.revision
      (segmentOutcome (rules.resume key running.revision now fits running.next w.store) cut) := by
  rw [syncStep, hrunning] at h
  cases h
  apply moves_segment
  · rintro ⟨m, b, heq, hcover⟩
    obtain ⟨rfl, rfl⟩ := Prod.mk.inj (some.inj (hmark.symm.trans heq))
    rcases hcover with hlt | ⟨-, hb⟩
    · exact absurd hlt (Nat.lt_irrefl _)
    · cases hb
  · refine Triple.conseq resume_marks ?_ (fun _ h => h) (fun _ _ h => h) (fun _ h => h)
    rintro s rfl
    rw [MarkAt, ← hmark, Function.update_eq_self]

end Segments

/-! ## Invariant -/

theorem Change.request_key {c : Change} {key : String} {change : Option AgentAuthSnapshot}
    (h : c.request = some (key, change)) : trim c.uuid = key := by
  rw [Change.request] at h
  split_ifs at h
  split at h
  · exact (Prod.mk.inj (some.inj h)).1
  · split at h
    · cases h
    · split_ifs at h
      exact (Prod.mk.inj (some.inj h)).1

theorem BatchCall.after_changes (call : BatchCall) (c : Change) (outcome : Option SyncOutcome) :
    (call.after c outcome).changes = call.changes := by
  rcases outcome with _ | _ | _ <;> rfl

theorem BatchCall.mem_after_applied {call : BatchCall} {c : Change} {outcome : Option SyncOutcome}
    {p : String × Nat} (h : p ∈ (call.after c outcome).applied) :
    p ∈ call.applied ∨ (p = c.key ∧ ∃ applied, outcome = some (.answered applied)) := by
  rcases outcome with _ | _ | applied
  · exact .inl h
  · exact .inl h
  · rcases List.mem_append.mp h with hold | hnew
    · exact .inl hold
    · exact .inr ⟨List.mem_singleton.mp hnew, applied, rfl⟩

namespace OutboxWorld

/-- A change that some batch carries. -/
def Carried (w : OutboxWorld) (c : Change) : Prop := ∃ b call, w.batches b = some call ∧ c ∈ call.changes

/-- A revision that a batch has applied or that an acknowledgement names. -/
def Confirmed (w : OutboxWorld) (p : String × Nat) : Prop :=
  (∃ changes ∈ w.acks, p ∈ changes) ∨ ∃ b call, w.batches b = some call ∧ p ∈ call.applied

section Sides

variable {β : Type} (projection : ProjectionRules) (view : Option Fields → β)

/-- The two ends of the outbox of a uuid, as far as `view` sees the changes. -/
def side (w : OutboxWorld) (u : String) : Outbox β where
  value := view ((w.db.clients u).map (clientObject projection))
  latest := w.db.latest u
  pending := (Assoc.get? w.db.clientSyncQueue u).isSome
  mark := w.object.store.syncRevision (trim u)
  applied := (w.applied (trim u)).map fun c => (c.revision, view c.client)
  read n v := ∃ c, w.Carried c ∧ c.uuid = u ∧ c.revision = n ∧ view c.client = v
  confirmed n := w.Confirmed (u, n)

/-- What holds in every state: the tables are in order, the sides of every uuid are, and a node that
    is being written is the one its batch is at. -/
structure Inv (ids : Set String) (w : OutboxWorld) : Prop where
  queue_nodup : (Assoc.keys w.db.clientSyncQueue).Nodup
  queued : ∀ {u r}, Assoc.get? w.db.clientSyncQueue u = some r → r = w.db.latest u ∧ r ≠ 0
  latest_le : ∀ u, w.db.latest u ≤ w.db.revisionSeq
  known : ∀ {u}, w.db.latest u ≠ 0 → u ∈ ids
  row : ∀ {u row}, w.db.clients u = some row → row.uuid = u ∧ w.db.latest u ≠ 0
  carried : ∀ {c}, w.Carried c → w.db.latest c.uuid ≠ 0
  applied_uuid : ∀ {key c}, w.applied key = some c → trim c.uuid = key ∧ w.db.latest c.uuid ≠ 0
  sides : ∀ u ∈ ids, (w.side projection view u).Inv
  writing : ∀ {key b}, w.writer key = some b → ∃ call c running, w.batches b = some call ∧
    call.phase = .waiting ∧ call.current = some c ∧ trim c.uuid = key ∧
    w.object.running key = some running ∧ running.revision = c.revision ∧
    w.object.store.syncRevision key = some (c.revision, false)
  sent : ∀ {i k call}, w.batches (i, k) = some call → ∃ s, w.synchronizers i = some s ∧
    (k < s.batch ∨ (k = s.batch ∧ s.phase ≠ .listing))
  acknowledging : ∀ {i s pending}, w.synchronizers i = some s → s.phase = .acknowledging pending →
    pending.map Change.key ∈ w.acks

end Sides

section Steps

variable {β : Type} {projection : ProjectionRules} {view : Option Fields → β} {ids : Set String}
  {w w' : OutboxWorld}

theorem sides_grow {u : String} (h : (w.side projection view u).Inv) (hdb : w'.db = w.db)
    (hmark : w'.object.store.syncRevision = w.object.store.syncRevision)
    (happlied : w'.applied = w.applied)
    (hread : ∀ c, w'.Carried c → w.Carried c ∨ (c.revision = w.db.latest c.uuid ∧
      c.client = (w.db.clients c.uuid).map (clientObject projection)))
    (hconfirmed : ∀ p, w'.Confirmed p → w.Confirmed p ∨
      Outbox.Covers (w.object.store.syncRevision (trim p.1)) p.2) :
    (w'.side projection view u).Inv := by
  have hcarried : ∀ n v, (w'.side projection view u).read n v → (w.side projection view u).read n v ∨
        (n = (w.side projection view u).latest ∧ v = (w.side projection view u).value) := by
    rintro n v ⟨c, hc, rfl, rfl, rfl⟩
    rcases hread c hc with hold | ⟨hrev, hclient⟩
    · exact .inl ⟨c, hold, rfl, rfl, rfl⟩
    · exact .inr ⟨hrev, by rw [hclient]; rfl⟩
  have hgrown := (h.reading _ hcarried).confirming _ (fun n hn => hconfirmed (u, n) hn)
  have heq : w'.side projection view u =
      { w.side projection view u with
        read := (w'.side projection view u).read
        confirmed := (w'.side projection view u).confirmed } := by
    simp only [side, hdb, hmark, happlied]
  rw [heq]
  exact hgrown

theorem Inv.initial : OutboxWorld.start.Inv projection view ids where
  queue_nodup := List.nodup_nil
  queued h := absurd h (by simp [start, get?])
  latest_le _ := Nat.le_refl 0
  known h := absurd rfl h
  row h := absurd h (by simp [start])
  carried h := by
    obtain ⟨b, call, hb, -⟩ := h
    simp [start] at hb
  applied_uuid h := absurd h (by simp [start])
  sides u _ := by
    refine ⟨?_, ?_, ?_, ?_, ?_, ?_, fun _ => .inl rfl⟩
    · rintro n v ⟨c, ⟨b, call, hb, -⟩, -⟩
      simp [start] at hb
    · intro m b h
      simp [side, start, SyncWorld.start] at h
    · intro m h
      simp [side, start, SyncWorld.start] at h
    · intro n v h
      simp [side, start] at h
    · intro n v h
      simp [side, start] at h
    · rintro n (⟨changes, hmem, -⟩ | ⟨b, call, hb, -⟩)
      · cases hmem
      · simp [start] at hb
  writing h := absurd h (by simp [start])
  sent h := absurd h (by simp [start])
  acknowledging h := absurd h (by simp [start])

/-! ### Statements -/

theorem enqueueClientSync_written (u : String) (new : Option SqlClient) (db : SyncDb) :
    ∃ r, db.revisionSeq < r ∧ enqueueClientSync u { db with clients := Function.update db.clients u new } =
        ⟨Function.update db.clients u new, Assoc.set db.clientSyncQueue u r, r,
          Function.update db.latest u r⟩ := by
  refine ⟨if (get? db.clientSyncQueue u).isSome then db.revisionSeq + 1 + 1 else db.revisionSeq + 1, ?_, rfl⟩
  split_ifs <;> omega

/-- The same world over other tables. -/
abbrev withDb (w : OutboxWorld) (db : SyncDb) : OutboxWorld := { w with db }

/-- A statement that writes the row of a uuid and queues it. -/
theorem Inv.enqueue {u : String} (hI : w.Inv projection view ids) (hu : u ∈ ids)
    (new : Option SqlClient) (hnew : ∀ row, new = some row → row.uuid = u) :
    (w.withDb (enqueueClientSync u { w.db with clients := Function.update w.db.clients u new })).Inv
      projection view ids := by
  obtain ⟨r, hr, hdb⟩ := enqueueClientSync_written u new w.db
  have hrpos : r ≠ 0 := by
    intro h0
    rw [h0] at hr
    exact absurd hr (Nat.not_lt_zero _)
  have hkeep : ∀ v, w.db.latest v ≠ 0 → Function.update w.db.latest u r v ≠ 0 := by
    intro v hv
    rw [Function.update_apply]
    split_ifs
    · exact hrpos
    · exact hv
  rw [hdb]
  constructor
  · exact Assoc.keys_set_nodup hI.queue_nodup
  · intro v q hq
    rw [get?_set] at hq
    show q = Function.update w.db.latest u r v ∧ q ≠ 0
    rw [Function.update_apply]
    split_ifs at hq ⊢ with hv
    · cases hq
      exact ⟨rfl, hrpos⟩
    · exact hI.queued hq
  · intro v
    show Function.update w.db.latest u r v ≤ r
    rw [Function.update_apply]
    split_ifs
    · exact Nat.le_refl r
    · exact Nat.le_trans (hI.latest_le v) (Nat.le_of_lt hr)
  · intro v hv
    by_cases hvu : v = u
    · exact hvu ▸ hu
    · have hv : Function.update w.db.latest u r v ≠ 0 := hv
      rw [Function.update_of_ne hvu] at hv
      exact hI.known hv
  · intro v row hrow
    have hrow : Function.update w.db.clients u new v = some row := hrow
    by_cases hvu : v = u
    · subst hvu
      rw [Function.update_self] at hrow
      have hlatest : Function.update w.db.latest v r v ≠ 0 := by
        rw [Function.update_self]
        exact hrpos
      exact ⟨hnew row hrow, hlatest⟩
    · rw [Function.update_of_ne hvu] at hrow
      obtain ⟨huuid, hlatest⟩ := hI.row hrow
      exact ⟨huuid, hkeep v hlatest⟩
  · intro c hc
    exact hkeep _ (hI.carried hc)
  · intro key c hc
    obtain ⟨hkey, hlatest⟩ := hI.applied_uuid hc
    exact ⟨hkey, hkeep _ hlatest⟩
  · intro v hv
    have hside := hI.sides v hv
    by_cases hvu : v = u
    · subst hvu
      have hchange := hside.change (view (new.map (clientObject projection)))
        (Nat.lt_of_le_of_lt (hI.latest_le v) hr)
      have heq : (w.withDb ⟨Function.update w.db.clients v new, Assoc.set w.db.clientSyncQueue v r, r,
          Function.update w.db.latest v r⟩).side projection view v =
          { w.side projection view v with
            value := view (new.map (clientObject projection)), latest := r, pending := true } := by
        simp only [side, Function.update_self, get?_set, if_true, Option.isSome_some]
        rfl
      rw [heq]
      exact hchange
    · have heq : (w.withDb ⟨Function.update w.db.clients u new, Assoc.set w.db.clientSyncQueue u r, r,
          Function.update w.db.latest u r⟩).side projection view v = w.side projection view v := by
        simp only [side, Function.update_of_ne hvu, get?_set, if_neg hvu]
        rfl
      rw [heq]
      exact hside
  · exact hI.writing
  · exact hI.sent
  · exact hI.acknowledging

/-- A report changes nothing that `view` sees. -/
theorem Inv.report {row old : SqlClient} (hI : w.Inv projection view ids)
    (hview : view (some (clientObject projection row)) = view (some (clientObject projection old)))
    (hold : w.db.clients row.uuid = some old) :
    (w.withDb { w.db with clients := Function.update w.db.clients row.uuid (some row) }).Inv
      projection view ids := by
  constructor
  · exact hI.queue_nodup
  · exact hI.queued
  · exact hI.latest_le
  · exact hI.known
  · intro v row' hrow
    rcases update_eq_some hrow with ⟨rfl, rfl⟩ | ⟨-, hrow⟩
    · exact ⟨rfl, (hI.row hold).2⟩
    · exact hI.row hrow
  · exact hI.carried
  · exact hI.applied_uuid
  · intro v hv
    have hvalue : view ((Function.update w.db.clients row.uuid (some row) v).map (clientObject projection)) =
        view ((w.db.clients v).map (clientObject projection)) := by
      by_cases hvu : v = row.uuid
      · subst hvu
        rw [Function.update_self, hold]
        exact hview
      · rw [Function.update_of_ne hvu]
    have heq : (w.withDb { w.db with clients := Function.update w.db.clients row.uuid (some row) }).side
        projection view v = w.side projection view v := by
      simp only [side, hvalue]
      rfl
    rw [heq]
    exact hI.sides v hv
  · exact hI.writing
  · exact hI.sent
  · exact hI.acknowledging

theorem Inv.acknowledge (changes : List (String × Nat)) (hI : w.Inv projection view ids)
    (hconfirmed : ∀ p ∈ changes, w.Confirmed p) :
    (w.withDb { w.db with
      clientSyncQueue := w.db.clientSyncQueue.filter fun p => !changes.contains p }).Inv
      projection view ids := by
  have hget := Assoc.get?_filter (fun p => !changes.contains p) hI.queue_nodup
  constructor
  · exact Assoc.keys_filter_nodup _ hI.queue_nodup
  · intro v r hr
    have hr : get? (w.db.clientSyncQueue.filter fun p => !changes.contains p) v = some r := hr
    rw [hget, Option.filter_eq_some_iff] at hr
    exact hI.queued hr.1
  · exact hI.latest_le
  · exact hI.known
  · exact hI.row
  · exact hI.carried
  · exact hI.applied_uuid
  · intro v hv
    have hside := hI.sides v hv
    have heq : (w.withDb { w.db with
        clientSyncQueue := w.db.clientSyncQueue.filter fun p => !changes.contains p }).side
        projection view v =
        { w.side projection view v with
          pending := ((get? w.db.clientSyncQueue v).filter fun r => !changes.contains (v, r)).isSome } := by
      simp only [side, hget]
      rfl
    rw [heq]
    cases hq : get? w.db.clientSyncQueue v with
    | none =>
      have hsame : w.side projection view v =
          { w.side projection view v with
            pending := ((none : Option Nat).filter fun r => !changes.contains (v, r)).isSome } := by
        simp only [side, hq]
        rfl
      rw [← hsame]
      exact hside
    | some r =>
      by_cases hmem : (v, r) ∈ changes
      · have hdone := hside.acknowledge (by
          have hlatest := (hI.queued hq).1
          have hc := hconfirmed _ hmem
          rw [hlatest] at hc
          exact hc)
        have hgone : ((some r).filter fun r => !changes.contains (v, r)).isSome = false := by
          simp [hmem]
        rw [hgone]
        exact hdone
      · have hsame : w.side projection view v =
            { w.side projection view v with
              pending := ((some r).filter fun r => !changes.contains (v, r)).isSome } := by
          have hstays : ((some r).filter fun r => !changes.contains (v, r)).isSome = true := by
            simp [hmem]
          rw [hstays]
          simp only [side, hq]
          rfl
        rw [← hsame]
        exact hside
  · exact hI.writing
  · exact hI.sent
  · exact hI.acknowledging

/-! ### Workers -/

variable {s : Synchronizer}

variable {i : Nat}

theorem Inv.setSynchronizer (hI : w.Inv projection view ids)
    (hsent : ∀ k call, w.batches (i, k) = some call → k < s.batch ∨ (k = s.batch ∧ s.phase ≠ .listing))
    (hack : ∀ pending, s.phase = .acknowledging pending → pending.map Change.key ∈ w.acks) :
    (w.setSynchronizer i s).Inv projection view ids := by
  refine ⟨hI.queue_nodup, hI.queued, hI.latest_le, hI.known, hI.row, hI.carried, hI.applied_uuid,
    hI.sides, hI.writing, ?_, ?_⟩
  · intro j k call hcall
    by_cases hj : j = i
    · subst hj
      exact ⟨s, Function.update_self .., hsent k call hcall⟩
    · obtain ⟨t, ht, hk⟩ := hI.sent hcall
      exact ⟨t, (Function.update_of_ne hj _ _).trans ht, hk⟩
  · intro j t pending ht hphase
    rcases update_eq_some ht with ⟨rfl, rfl⟩ | ⟨-, ht⟩
    · exact hack pending hphase
    · exact hI.acknowledging ht hphase

theorem Inv.setPhase {phase : SyncPhase} (hI : w.Inv projection view ids)
    (hs : w.synchronizers i = some s) (hphase : phase ≠ .listing)
    (hack : ∀ pending, phase ≠ .acknowledging pending) :
    (w.setSynchronizer i { s with phase }).Inv projection view ids := by
  apply hI.setSynchronizer
  · intro k call hcall
    obtain ⟨t, ht, hk⟩ := hI.sent hcall
    obtain rfl := some.inj (hs.symm.trans ht)
    exact hk.imp id fun hat => ⟨hat.1, hphase⟩
  · intro pending hpending
    exact absurd hpending (hack pending)

/-- **The batches change**, with what they carry and have applied as before, or as it is now. -/
theorem Inv.rebatch {object : SyncWorld} {batches : Nat × Nat → Option BatchCall}
    {writer : String → Option (Nat × Nat)} (hI : w.Inv projection view ids)
    (hmark : object.store.syncRevision = w.object.store.syncRevision)
    (hbatch : ∀ b call, batches b = some call →
      (∀ c ∈ call.changes, w.Carried c ∨ (get? w.db.clientSyncQueue c.uuid = some c.revision ∧
        c.client = (w.db.clients c.uuid).map (clientObject projection))) ∧
      (∀ p ∈ call.applied, w.Confirmed p) ∧
      ∃ s, w.synchronizers b.1 = some s ∧ (b.2 < s.batch ∨ (b.2 = s.batch ∧ s.phase ≠ .listing)))
    (hwriting : ∀ key b, writer key = some b →
      w.writer key = some b ∧ batches b = w.batches b ∧ object.running key = w.object.running key) :
    ({ w with object, batches, writer } : OutboxWorld).Inv projection view ids := by
  refine ⟨hI.queue_nodup, hI.queued, hI.latest_le, hI.known, hI.row, ?_, hI.applied_uuid, ?_, ?_, ?_,
    hI.acknowledging⟩
  · rintro c ⟨b, call, hcall, hc⟩
    rcases (hbatch b call hcall).1 c hc with hold | ⟨hq, -⟩
    · exact hI.carried hold
    · obtain ⟨hlatest, hpos⟩ := hI.queued hq
      exact fun h0 => hpos (hlatest.trans h0)
  · intro u hu
    refine sides_grow (hI.sides u hu) rfl hmark rfl ?_ ?_
    · rintro c ⟨b, call, hcall, hc⟩
      exact ((hbatch b call hcall).1 c hc).imp_right fun ⟨hq, hclient⟩ => ⟨(hI.queued hq).1, hclient⟩
    · rintro p (hack | ⟨b, call, hcall, hp⟩)
      · exact .inl (.inl hack)
      · exact .inl ((hbatch b call hcall).2.1 p hp)
  · intro key b hb
    obtain ⟨hwriter, hsame, hrunning⟩ := hwriting key b hb
    obtain ⟨call, c, running, hcall, hwaiting, hc, hkey, hrun, hrev, hat⟩ := hI.writing hwriter
    exact ⟨call, c, running, hsame.trans hcall, hwaiting, hc, hkey, hrunning.trans hrun, hrev,
      (congrFun hmark key).trans hat⟩
  · intro i k call hcall
    exact (hbatch (i, k) call hcall).2.2

variable {c : Change}

theorem mem_listPendingClientSyncs {db : SyncDb} {uuids : Option (List String)} {limit : Int}
    (hnodup : (Assoc.keys db.clientSyncQueue).Nodup)
    (h : c ∈ listPendingClientSyncs projection db uuids limit) :
    get? db.clientSyncQueue c.uuid = some c.revision ∧
      c.client = (db.clients c.uuid).map (clientObject projection) := by
  rw [listPendingClientSyncs] at h
  obtain ⟨⟨u, r⟩, hp, rfl⟩ := List.mem_map.mp h
  have hsorted := (List.mem_insertionSort _).mp (List.mem_of_mem_take hp)
  exact ⟨Assoc.get?_of_mem hnodup (List.mem_filter.mp hsorted).1, rfl⟩

variable {pending : List Change}

/-- A new batch with what is pending. -/
theorem Inv.send (hI : w.Inv projection view ids)
    (hs : w.synchronizers i = some s) (hlisting : s.phase = .listing)
    (hpending : ∀ c ∈ pending, get? w.db.clientSyncQueue c.uuid = some c.revision ∧
      c.client = (w.db.clients c.uuid).map (clientObject projection)) :
    ((w.setSynchronizer i { s with phase := .awaiting pending }).setBatch (i, s.batch)
      ⟨pending, [], .ready⟩).Inv projection view ids := by
  have hfree : w.batches (i, s.batch) = none := by
    cases hb : w.batches (i, s.batch) with
    | none => rfl
    | some call =>
      obtain ⟨t, ht, hk⟩ := hI.sent hb
      obtain rfl := some.inj (hs.symm.trans ht)
      rcases hk with hlt | ⟨-, hne⟩
      · exact absurd hlt (Nat.lt_irrefl _)
      · exact absurd hlisting hne
  have hawaiting : (w.setSynchronizer i { s with phase := .awaiting pending }).Inv projection view ids :=
    hI.setPhase hs (by simp) (by simp)
  refine hawaiting.rebatch rfl ?_ ?_
  · intro b call hcall
    rcases update_eq_some hcall with ⟨rfl, rfl⟩ | ⟨-, hcall⟩
    · exact ⟨fun c hc => .inr (hpending c hc), nofun, _, Function.update_self .., .inr ⟨rfl, by simp⟩⟩
    · obtain ⟨t, ht, hk⟩ := hawaiting.sent hcall
      exact ⟨fun c hc => .inl ⟨b, call, hcall, hc⟩, fun p hp => .inr ⟨b, call, hcall, hp⟩, t, ht, hk⟩
  · intro key b hb
    obtain ⟨call, -, -, hcall, -⟩ := hI.writing hb
    have hbi : b ≠ (i, s.batch) := by
      rintro rfl
      rw [hfree] at hcall
      cases hcall
    exact ⟨hb, Function.update_of_ne hbi _ _, rfl⟩

variable {b : Nat × Nat} {call : BatchCall}

/-- The answer of a batch that has applied everything. -/
theorem Inv.receive
    (hI : w.Inv projection view ids) (hs : w.synchronizers i = some s) (hb : w.batches b = some call)
    (happlied : call.applied = pending.map Change.key) :
    ({ w.setSynchronizer i { s with phase := .acknowledging pending } with
        acks := pending.map Change.key :: w.acks }).Inv projection view ids := by
  have hacked : ({ w with acks := pending.map Change.key :: w.acks } : OutboxWorld).Inv projection view ids := by
    refine ⟨hI.queue_nodup, hI.queued, hI.latest_le, hI.known, hI.row, hI.carried, hI.applied_uuid, ?_,
      hI.writing, hI.sent, fun ht hphase => List.mem_cons_of_mem _ (hI.acknowledging ht hphase)⟩
    intro u hu
    refine sides_grow (hI.sides u hu) rfl rfl rfl (fun c hc => .inl hc) ?_
    rintro p (⟨changes, hmem, hp⟩ | hbatch)
    · rcases List.mem_cons.mp hmem with rfl | hold
      · exact .inl (.inr ⟨b, call, hb, happlied ▸ hp⟩)
      · exact .inl (.inl ⟨changes, hold, hp⟩)
    · exact .inl (.inr hbatch)
  apply hacked.setSynchronizer
  · intro k call' hcall
    obtain ⟨t, ht, hk⟩ := hI.sent hcall
    obtain rfl := some.inj (hs.symm.trans ht)
    exact hk.imp_right fun hat => ⟨hat.1, by simp⟩
  · intro pending' hphase
    obtain rfl := SyncPhase.acknowledging.inj hphase
    exact List.mem_cons_self ..

/-! ### Object -/

theorem Inv.failBatch (hI : w.Inv projection view ids)
    (hb : w.batches b = some call) (hready : call.phase = .ready) :
    (w.setBatch b { call with phase := .failed }).Inv projection view ids := by
  refine hI.rebatch rfl ?_ ?_
  · intro b' call' hcall
    rcases update_eq_some hcall with ⟨rfl, rfl⟩ | ⟨-, hcall⟩
    · exact ⟨fun c hc => .inl ⟨b', call, hb, hc⟩, fun p hp => .inr ⟨b', call, hb, hp⟩, hI.sent hb⟩
    · exact ⟨fun c hc => .inl ⟨b', call', hcall, hc⟩, fun p hp => .inr ⟨b', call', hcall, hp⟩, hI.sent hcall⟩
  · intro key b' hwriter
    obtain ⟨call', -, -, hcall, hwaiting, -⟩ := hI.writing hwriter
    have hbb : b' ≠ b := by
      rintro rfl
      obtain rfl := some.inj (hb.symm.trans hcall)
      cases hready.symm.trans hwaiting
    exact ⟨hwriter, Function.update_of_ne hbb _ _, rfl⟩

variable {object : SyncWorld} {outcome : Option SyncOutcome}

/-- The sides after a segment of the change `c` has moved the object. -/
theorem sides_move {key u : String} {applied : String → Option Change}
    (hids : Set.InjOn trim ids) (hI : w.Inv projection view ids) (hc : w.Carried c)
    (hkey : trim c.uuid = key) (hmoves : Moves w.object object key c.revision outcome) (hu : u ∈ ids)
    (happlied : applied = if w.object.store.syncRevision key ≠ some (c.revision, true) ∧
        object.store.syncRevision key = some (c.revision, true) then
      Function.update w.applied key (some c) else w.applied) :
    ({ w with object, applied } : OutboxWorld).side projection view u |>.Inv := by
  have hside := hI.sides u hu
  have hcu : c.uuid ∈ ids := hI.known (hI.carried hc)
  rcases hmoves.store with hsame | ⟨hnew, b, hmark⟩
  · -- The mark stays, and so nothing is completed.
    rw [hsame, if_neg fun h => h.1 h.2] at happlied
    subst happlied
    have heq : ({ w with object } : OutboxWorld).side projection view u = w.side projection view u := by
      simp only [side, hsame]
      rfl
    rw [heq]
    exact hside
  · have hbefore : w.object.store.syncRevision key ≠ some (c.revision, true) := by
      intro h
      exact hnew (h ▸ covers_self c.revision)
    by_cases hku : trim u = key
    · obtain rfl : c.uuid = u := hids hcu hu (hkey.trans hku.symm)
      have hread : (w.side projection view c.uuid).read c.revision (view c.client) :=
        ⟨c, hc, rfl, rfl, rfl⟩
      have hnew' : ¬ Outbox.Covers (w.side projection view c.uuid).mark c.revision := by
        rw [show (w.side projection view c.uuid).mark = w.object.store.syncRevision key from
          congrArg _ hku]
        exact hnew
      have hbegun := hside.begin_version hread hnew'
      cases b with
      | false =>
        rw [if_neg (by simp [hmark.self])] at happlied
        subst happlied
        have heq : ({ w with object } : OutboxWorld).side projection view c.uuid =
            { w.side projection view c.uuid with mark := some (c.revision, false) } := by
          simp only [side, hku, hmark.self]
          rfl
        rw [heq]
        exact hbegun
      | true =>
        rw [if_pos ⟨hbefore, hmark.self⟩] at happlied
        subst happlied
        have hdone := hbegun.complete_version hread rfl
        have heq : ({ w with object, applied := Function.update w.applied key (some c) } :
            OutboxWorld).side projection view c.uuid =
            { w.side projection view c.uuid with
              mark := some (c.revision, true), applied := some (c.revision, view c.client) } := by
          simp only [side, hku, hmark.self, Function.update_self, map_some]
          rfl
        rw [heq]
        exact hdone
    · -- Another node.
      have hother : object.store.syncRevision (trim u) = w.object.store.syncRevision (trim u) := by
        rw [hmark]
        exact Function.update_of_ne hku _ _
      have happlied : applied (trim u) = w.applied (trim u) := by
        rw [happlied]
        split_ifs
        · exact Function.update_of_ne hku _ _
        · rfl
      have heq : ({ w with object, applied } : OutboxWorld).side projection view u =
          w.side projection view u := by
        simp only [side, hother, happlied]
        rfl
      rw [heq]
      exact hside

/-- A segment of the change that a batch is at. -/
theorem Inv.settle {key : String} (hids : Set.InjOn trim ids) (hI : w.Inv projection view ids)
    (hb : w.batches b = some call) (hc : call.current = some c) (hkey : trim c.uuid = key)
    (hmoves : Moves w.object object key c.revision outcome) :
    (w.settle b call c key object outcome).Inv projection view ids := by
  have hcarried : w.Carried c := ⟨b, call, hb, List.mem_of_getElem? hc⟩
  have hold : ∀ b' call', (w.settle b call c key object outcome).batches b' = some call' →
      ∃ call₀, w.batches b' = some call₀ ∧ call₀.changes = call'.changes ∧
        ∀ p ∈ call'.applied, p ∈ call₀.applied ∨
          (p = c.key ∧ ∃ applied, outcome = some (.answered applied)) := by
    intro b' call' hcall
    rcases update_eq_some hcall with ⟨rfl, rfl⟩ | ⟨-, hcall⟩
    · exact ⟨call, hb, (BatchCall.after_changes call c outcome).symm,
        fun p hp => BatchCall.mem_after_applied hp⟩
    · exact ⟨call', hcall, rfl, fun p hp => .inl hp⟩
  have hstill : ∀ d, (w.settle b call c key object outcome).Carried d → w.Carried d := by
    rintro d ⟨b', call', hcall, hd⟩
    obtain ⟨call₀, h₀, hchanges, -⟩ := hold b' call' hcall
    exact ⟨b', call₀, h₀, hchanges ▸ hd⟩
  refine ⟨hI.queue_nodup, hI.queued, hI.latest_le, hI.known, hI.row, fun hd => hI.carried (hstill _ hd),
    ?_, ?_, ?_, ?_, hI.acknowledging⟩
  · intro key' d hd
    simp only [OutboxWorld.settle] at hd
    split_ifs at hd
    · rcases update_eq_some hd with ⟨rfl, rfl⟩ | ⟨-, hd⟩
      · exact ⟨hkey, hI.carried hcarried⟩
      · exact hI.applied_uuid hd
    · exact hI.applied_uuid hd
  · intro u hu
    refine sides_grow (sides_move hids hI hcarried hkey hmoves hu rfl) rfl rfl rfl
      (fun d hd => .inl (hstill d hd)) ?_
    rintro p (hack | ⟨b', call', hcall, hp⟩)
    · exact .inl (.inl hack)
    · obtain ⟨call₀, h₀, -, happlied⟩ := hold b' call' hcall
      rcases happlied p hp with hbefore | ⟨rfl, applied, hout⟩
      · exact .inl (.inr ⟨b', call₀, h₀, hbefore⟩)
      · refine .inr ?_
        show Outbox.Covers (object.store.syncRevision (trim c.uuid)) c.revision
        rw [hkey]
        exact hmoves.answered applied hout
  · intro key' b' hwriter
    simp only [OutboxWorld.settle] at hwriter
    by_cases hk : key' = key
    · subst hk
      rw [Function.update_self] at hwriter
      rcases outcome with _ | next | applied
      · cases hwriter
      · cases hwriter
        obtain ⟨hmark, hrunning⟩ := hmoves.waits next rfl
        exact ⟨{ call with phase := .waiting }, c, ⟨c.revision, next⟩, Function.update_self .., rfl, hc,
          hkey, hrunning, rfl, hmark⟩
      · cases hwriter
    · rw [Function.update_of_ne hk] at hwriter
      obtain ⟨call', d, running, hcall, hwaiting, hd, hdkey, hrunning, hrev, hmark⟩ := hI.writing hwriter
      have hbb : b' ≠ b := by
        rintro rfl
        obtain rfl := some.inj (hb.symm.trans hcall)
        obtain rfl := some.inj (hc.symm.trans hd)
        exact hk (hdkey.symm.trans hkey)
      refine ⟨call', d, running, (Function.update_of_ne hbb _ _).trans hcall, hwaiting, hd, hdkey,
        (hmoves.running_ne key' hk).trans hrunning, hrev, ?_⟩
      rcases hmoves.store with hsame | ⟨-, _, hat⟩
      · exact (congrFun hsame key').trans hmark
      · exact (congrFun hat key').trans ((Function.update_of_ne hk _ _).trans hmark)
  · intro i k call' hcall
    obtain ⟨call₀, h₀, -, -⟩ := hold (i, k) call' hcall
    exact hI.sent h₀

variable {rules : SyncRules} {owner : String → String}

theorem Inv.restart (hI : w.Inv projection view ids)
    (h : restartObject rules owner w = some w') : w'.Inv projection view ids := by
  cases h
  refine hI.rebatch rfl ?_ nofun
  intro b call' hcall
  obtain ⟨call, hb, rfl⟩ := Option.map_eq_some_iff.mp hcall
  have hsame : (if call.phase = .answered then call else { call with phase := .failed }).changes = call.changes ∧
      (if call.phase = .answered then call else { call with phase := .failed }).applied = call.applied := by
    split_ifs
    · exact ⟨rfl, rfl⟩
    · exact ⟨rfl, rfl⟩
  rw [hsame.1, hsame.2]
  exact ⟨fun c hc => .inl ⟨b, call, hb, hc⟩, fun p hp => .inr ⟨b, call, hb, hp⟩, hI.sent hb⟩

/-! ### One step -/

/-- A segment of the change that some batch is at. -/
def Segment (w w' : OutboxWorld) : Prop :=
  ∃ b call c key object outcome, w.batches b = some call ∧ call.current = some c ∧ trim c.uuid = key ∧
    Moves w.object object key c.revision outcome ∧ w' = w.settle b call c key object outcome

/-- A batch refuses its change, or begins it. -/
theorem applyNext_effect {cut : Option Nat} (h : applyNext rules owner w b cut = some w') :
    (∃ call, w.batches b = some call ∧ call.phase = .ready ∧
      w' = w.setBatch b { call with phase := .failed }) ∨ Segment w w' := by
  rw [applyNext] at h
  obtain ⟨call, hb, h⟩ := bind_eq_some_iff.mp h
  obtain ⟨c, hc, h⟩ := bind_eq_some_iff.mp h
  split_ifs at h with hready
  split at h
  · exact .inl ⟨call, hb, hready, (some.inj h).symm⟩
  · rename_i key change hreq
    obtain ⟨object, hobject, h⟩ := bind_eq_some_iff.mp h
    exact .inr ⟨b, call, c, key, object, _, hb, hc, Change.request_key hreq, sync_marks hobject,
      (some.inj h).symm⟩

theorem resumeWriter_effect {key : String} {now : Int}
    {fits : Bool} {cut : Option Nat} (hI : w.Inv projection view ids)
    (h : resumeWriter rules owner w key now fits cut = some w') : Segment w w' := by
  rw [resumeWriter] at h
  obtain ⟨b, hwriter, h⟩ := bind_eq_some_iff.mp h
  obtain ⟨running, hrunning, h⟩ := bind_eq_some_iff.mp h
  obtain ⟨call, hb, h⟩ := bind_eq_some_iff.mp h
  obtain ⟨c, hc, h⟩ := bind_eq_some_iff.mp h
  obtain ⟨object, hobject, h⟩ := bind_eq_some_iff.mp h
  obtain ⟨call', c', running', hb', -, hc', hkey, hrunning', hrev, hmark⟩ := hI.writing hwriter
  obtain rfl := some.inj (hb.symm.trans hb')
  obtain rfl := some.inj (hc.symm.trans hc')
  obtain rfl := some.inj (hrunning.symm.trans hrunning')
  have hmoves := resume_step_marks hrunning (hrev ▸ hmark) hobject
  rw [hrev] at hmoves h
  exact ⟨b, call, c, key, object, _, hb, hc, hkey, hmoves, (some.inj h).symm⟩

theorem Inv.segment (hids : Set.InjOn trim ids) (hI : w.Inv projection view ids) (h : Segment w w') :
    w'.Inv projection view ids := by
  obtain ⟨b, call, c, key, object, outcome, hb, hc, hkey, hmoves, rfl⟩ := h
  exact hI.settle hids hb hc hkey hmoves

end Steps

end OutboxWorld

/-- An event whose new uuids are of `ids`, and whose reports `view` does not see. -/
def OutboxEvent.Within {β : Type} (projection : ProjectionRules) (view : Option Fields → β)
    (ids : Set String) : OutboxEvent → Prop
  | .insert row => row.uuid ∈ ids
  | .enqueue u => u ∈ ids
  | .report row => ∀ old : SqlClient, old.uuid = row.uuid → row.controls = old.controls →
      view (some (clientObject projection row)) = view (some (clientObject projection old))
  | _ => True

/-- What a step can do, with what it has found. -/
inductive OutboxWorld.Effect (projection : ProjectionRules) (w : OutboxWorld) : OutboxEvent → OutboxWorld → Prop
  | same {e} : Effect projection w e w
  | insert {row} (hfree : w.db.clients row.uuid = none) :
    Effect projection w (.insert row) (w.withDb (writeClient row.uuid (some row) w.db))
  | update {row old} (hold : w.db.clients row.uuid = some old) (hne : row.controls ≠ old.controls) :
    Effect projection w (.update row) (w.withDb (writeClient row.uuid (some row) w.db))
  | report {row old} (hold : w.db.clients row.uuid = some old) (hsame : row.controls = old.controls) :
    Effect projection w (.report row) (w.withDb (writeClient row.uuid (some row) w.db))
  | delete {uuid old} (hold : w.db.clients uuid = some old) :
    Effect projection w (.delete uuid) (w.withDb (writeClient uuid none w.db))
  | enqueue {uuid} : Effect projection w (.enqueue uuid) (w.withDb (enqueueClientSync uuid w.db))
  | start {i options} (hfree : w.synchronizers i = none) :
    Effect projection w (.start i options) (w.setSynchronizer i ⟨options, 0, 0, .listing⟩)
  | phase {e i s phase} (hs : w.synchronizers i = some s) (hlisting : phase ≠ .listing)
    (hack : ∀ pending, phase ≠ .acknowledging pending) :
    Effect projection w e (w.setSynchronizer i { s with phase })
  | send {i s} (hs : w.synchronizers i = some s) (hlisting : s.phase = .listing) :
    Effect projection w (.list i)
      ((w.setSynchronizer i { s with
        phase := .awaiting (listPendingClientSyncs projection w.db s.options.uuids s.options.limitValue) }).setBatch
          (i, s.batch)
          ⟨listPendingClientSyncs projection w.db s.options.uuids s.options.limitValue, [], .ready⟩)
  | refuse {e b call} (hb : w.batches b = some call) (hready : call.phase = .ready) :
    Effect projection w e (w.setBatch b { call with phase := .failed })
  | segment {e w'} (h : Segment w w') : Effect projection w e w'
  | restart {rules owner w'} (h : restartObject rules owner w = some w') : Effect projection w .restart w'
  | receive {i s pending b call} (hs : w.synchronizers i = some s) (hb : w.batches b = some call)
    (happlied : call.applied = pending.map Change.key) :
    Effect projection w (.receive i) { w.setSynchronizer i { s with phase := .acknowledging pending } with
      acks := pending.map Change.key :: w.acks }
  | acknowledge {i lost s pending next} (hs : w.synchronizers i = some s)
    (hphase : s.phase = .acknowledging pending)
    (hnext : next = { s with phase := .failed } ∨ next = s.acknowledged pending.length) :
    Effect projection w (.acknowledge i lost) ((w.withDb { w.db with
      clientSyncQueue := w.db.clientSyncQueue.filter fun p =>
        !(pending.map Change.key).contains p }).setSynchronizer i next)
  | acknowledgeAgain {n changes} (hn : w.acks[n]? = some changes) :
    Effect projection w (.acknowledgeAgain n) (w.withDb { w.db with
      clientSyncQueue := w.db.clientSyncQueue.filter fun p => !changes.contains p })

section Runs

variable {β : Type} {rules : SyncRules} {projection : ProjectionRules} {owner : String → String}
  {view : Option Fields → β} {ids : Set String} {w w' : OutboxWorld} {e : OutboxEvent}

theorem writeClient_some {u : String} {old row : SqlClient} {db : SyncDb} (hold : db.clients u = some old)
    (hne : row.controls ≠ old.controls) (hu : row.uuid = u) :
    writeClient u (some row) db =
      enqueueClientSync u { db with clients := Function.update db.clients u (some row) } := by
  rw [writeClient, hold, queueClientControlChange, if_neg hne, hu]

namespace OutboxWorld

theorem cfmAcknowledgeClientSyncs_db {changes : List (String × Nat)} {db db' : SyncDb} {count : Nat}
    (h : cfmAcknowledgeClientSyncs changes db = some (count, db')) :
    db' = { db with clientSyncQueue := db.clientSyncQueue.filter fun p => !changes.contains p } := by
  rw [cfmAcknowledgeClientSyncs] at h
  split_ifs at h
  exact (Prod.mk.inj (some.inj h)).2.symm

theorem step_cases (hI : w.Inv projection view ids) (h : outboxStep rules projection owner w e = some w') :
    Effect projection w e w' := by
  cases e with
  | insert row =>
    simp only [outboxStep] at h
    split_ifs at h with hfree
    cases h
    exact .insert (Option.isNone_iff_eq_none.mp hfree)
  | update row =>
    simp only [outboxStep] at h
    split at h
    · cases h
    · rename_i old hold
      split_ifs at h with hsame
      cases h
      exact .update hold hsame
  | report row =>
    simp only [outboxStep] at h
    split at h
    · cases h
    · rename_i old hold
      split_ifs at h with hsame
      cases h
      exact .report hold hsame
  | delete uuid =>
    simp only [outboxStep] at h
    split_ifs at h with hthere
    cases h
    obtain ⟨old, hold⟩ := Option.isSome_iff_exists.mp hthere
    exact .delete hold
  | enqueue uuid =>
    cases h
    exact .enqueue
  | start i options =>
    simp only [outboxStep] at h
    split_ifs at h with hfree
    cases h
    exact .start (Option.isNone_iff_eq_none.mp hfree)
  | list i =>
    simp only [outboxStep, listPending] at h
    obtain ⟨s, hs, h⟩ := bind_eq_some_iff.mp h
    split at h
    · rename_i hlisting
      split_ifs at h with hempty
      · cases h
        exact .phase hs (by simp) (by simp)
      · cases h
        exact .send hs hlisting
    · cases h
  | apply b cut =>
    rcases applyNext_effect h with ⟨call, hb, hready, rfl⟩ | hsegment
    · exact .refuse hb hready
    · exact .segment hsegment
  | resume key now fits cut => exact .segment (resumeWriter_effect hI h)
  | refuse b =>
    simp only [outboxStep] at h
    obtain ⟨call, hb, h⟩ := bind_eq_some_iff.mp h
    split_ifs at h with hready
    cases h
    exact .refuse hb hready
  | restart => exact .restart h
  | receive i =>
    simp only [outboxStep, receiveAnswer] at h
    obtain ⟨s, hs, h⟩ := bind_eq_some_iff.mp h
    split at h
    · obtain ⟨call, hb, h⟩ := bind_eq_some_iff.mp h
      split at h
      · split_ifs at h with happlied
        · cases h
          exact .receive hs hb happlied
        · cases h
          exact .phase hs (by simp) (by simp)
      · cases h
        exact .phase hs (by simp) (by simp)
      · cases h
    · cases h
  | lose i =>
    simp only [outboxStep] at h
    obtain ⟨s, hs, h⟩ := bind_eq_some_iff.mp h
    cases h
    exact .phase hs (by simp) (by simp)
  | acknowledge i lost =>
    simp only [outboxStep, acknowledgeBatch] at h
    obtain ⟨s, hs, h⟩ := bind_eq_some_iff.mp h
    split at h
    · rename_i pending hphase
      split at h
      · cases h
        exact .phase hs (by simp) (by simp)
      · rename_i count db hack
        obtain rfl := cfmAcknowledgeClientSyncs_db hack
        split_ifs at h
        · cases h
          exact .acknowledge hs hphase (.inl rfl)
        · cases h
          exact .acknowledge hs hphase (.inr rfl)
    · cases h
  | acknowledgeAgain n =>
    simp only [outboxStep, acknowledgeOnceMore] at h
    obtain ⟨changes, hn, h⟩ := bind_eq_some_iff.mp h
    split at h
    · cases h
      exact .same
    · rename_i count db hack
      cases h
      obtain rfl := cfmAcknowledgeClientSyncs_db hack
      exact .acknowledgeAgain hn
  | check i =>
    simp only [outboxStep, checkPending] at h
    obtain ⟨s, hs, h⟩ := bind_eq_some_iff.mp h
    split at h
    · split_ifs at h
      · cases h
        exact .phase hs (by simp) (by simp)
      · cases h
        exact .phase hs (by simp) (by simp)
    · exact absurd h (by simp)

theorem Inv.step (hids : Set.InjOn trim ids) (hI : w.Inv projection view ids)
    (hwithin : e.Within projection view ids) (h : outboxStep rules projection owner w e = some w') :
    w'.Inv projection view ids := by
  cases step_cases hI h with
  | same => exact hI
  | @insert row hfree =>
    have heq : writeClient row.uuid (some row) w.db = enqueueClientSync row.uuid
        { w.db with clients := Function.update w.db.clients row.uuid (some row) } := by
      rw [writeClient, hfree]
      rfl
    rw [heq]
    exact hI.enqueue hwithin (some row) (fun r hr => some.inj hr ▸ rfl)
  | @update row old hold hne =>
    rw [writeClient_some hold hne rfl]
    exact hI.enqueue (hI.known (hI.row hold).2) (some row) (fun r hr => some.inj hr ▸ rfl)
  | @report row old hold hsame =>
    rw [writeClient, hold, queueClientControlChange, if_pos hsame]
    exact hI.report (hwithin old (hI.row hold).1 hsame) hold
  | delete hold =>
    obtain ⟨huuid, hlatest⟩ := hI.row hold
    rw [writeClient, hold, queueClientControlChange, huuid]
    exact hI.enqueue (hI.known hlatest) none (fun r hr => absurd hr (by simp))
  | @enqueue uuid =>
    have hsame := hI.enqueue hwithin (w.db.clients uuid) (fun r hr => (hI.row hr).1)
    rw [Function.update_eq_self] at hsame
    exact hsame
  | start hfree =>
    apply hI.setSynchronizer
    · intro k call hcall
      obtain ⟨s, hs, -⟩ := hI.sent hcall
      rw [hfree] at hs
      cases hs
    · intro pending hpending
      cases hpending
  | phase hs hlisting hack => exact hI.setPhase hs hlisting hack
  | send hs hlisting =>
    exact hI.send hs hlisting fun c hc => mem_listPendingClientSyncs hI.queue_nodup hc
  | refuse hb hready => exact hI.failBatch hb hready
  | segment hsegment => exact hI.segment hids hsegment
  | restart hrestart => exact hI.restart hrestart
  | receive hs hb happlied => exact hI.receive hs hb happlied
  | @acknowledge i lost s pending next hs hphase hnext =>
    have hsent := hI.acknowledging hs hphase
    have hI' := hI.acknowledge (pending.map Change.key) fun p hp => .inl ⟨_, hsent, hp⟩
    rcases hnext with rfl | rfl
    · exact hI'.setPhase hs (by simp) (by simp)
    · apply hI'.setSynchronizer
      · intro k call hcall
        obtain ⟨t, ht, hk⟩ := hI.sent hcall
        obtain rfl := some.inj (hs.symm.trans ht)
        left
        rw [Synchronizer.acknowledged]
        show k < s.batch + 1
        omega
      · intro pending' hpending
        rw [Synchronizer.acknowledged] at hpending
        exact absurd hpending (by simp only; split_ifs <;> simp)
  | acknowledgeAgain hn =>
    exact hI.acknowledge _ fun p hp => .inl ⟨_, List.mem_of_getElem? hn, hp⟩

theorem Inv.run {es : List OutboxEvent} (hids : Set.InjOn trim ids)
    (hes : ∀ e ∈ es, e.Within projection view ids)
    (hrun : (outboxMachine rules projection owner).run OutboxWorld.start es = some w) :
    w.Inv projection view ids :=
  Machine.run_inv_of (I := fun w => w.Inv projection view ids) _
    (fun _ _ _ hI hC hs => Inv.step hids hI hC hs) es _ _ Inv.initial hes hrun

/-! ### The queue -/

/-- The rows that an event deletes from the queue, by uuid and revision, if they are there. -/
def acknowledged (w : OutboxWorld) : OutboxEvent → List (String × Nat)
  | .acknowledge i _ =>
    match (w.synchronizers i).map Synchronizer.phase with
    | some (.acknowledging pending) => pending.map Change.key
    | _ => []
  | .acknowledgeAgain n => (w.acks[n]?).getD []
  | _ => []

/-- What a step does to the tables. -/
inductive DbStep (w : OutboxWorld) (e : OutboxEvent) : SyncDb → Prop
  | same : DbStep w e w.db
  | written (u : String) (new : Option SqlClient) : DbStep w e (writeClient u new w.db)
  | queued (u : String) : DbStep w e (enqueueClientSync u w.db)
  | acknowledged : DbStep w e { w.db with
      clientSyncQueue := w.db.clientSyncQueue.filter fun p => !(w.acknowledged e).contains p }

theorem step_effect (hI : w.Inv projection view ids) (h : outboxStep rules projection owner w e = some w') :
    (w'.applied = w.applied ∧ DbStep w e w'.db) ∨ Segment w w' := by
  cases step_cases hI h with
  | same => exact .inl ⟨rfl, .same⟩
  | insert => exact .inl ⟨rfl, .written _ _⟩
  | update => exact .inl ⟨rfl, .written _ _⟩
  | report => exact .inl ⟨rfl, .written _ _⟩
  | delete => exact .inl ⟨rfl, .written _ _⟩
  | enqueue => exact .inl ⟨rfl, .queued _⟩
  | start => exact .inl ⟨rfl, .same⟩
  | phase => exact .inl ⟨rfl, .same⟩
  | send => exact .inl ⟨rfl, .same⟩
  | refuse => exact .inl ⟨rfl, .same⟩
  | segment hsegment => exact .inr hsegment
  | restart hrestart =>
    cases hrestart
    exact .inl ⟨rfl, .same⟩
  | receive => exact .inl ⟨rfl, .same⟩
  | @acknowledge i lost s pending next hs hphase hnext =>
    have hlist : w.acknowledged (.acknowledge i lost) = pending.map Change.key := by
      simp only [acknowledged, hs, map_some, hphase]
    have hdb := DbStep.acknowledged (w := w) (e := .acknowledge i lost)
    rw [hlist] at hdb
    exact .inl ⟨rfl, hdb⟩
  | @acknowledgeAgain n changes hn =>
    have hlist : w.acknowledged (.acknowledgeAgain n) = changes := by
      simp only [acknowledged, hn, Option.getD_some]
    have hdb := DbStep.acknowledged (w := w) (e := .acknowledgeAgain n)
    rw [hlist] at hdb
    exact .inl ⟨rfl, hdb⟩

theorem enqueueClientSync_queue (u v : String) (db : SyncDb) (h : get? db.clientSyncQueue v ≠ none) :
    get? (enqueueClientSync u db).clientSyncQueue v ≠ none := by
  rw [enqueueClientSync, get?_set]
  by_cases hv : v = u
  · rw [if_pos hv]
    simp
  · rw [if_neg hv]
    exact h

theorem writeClient_queue (u v : String) (new : Option SqlClient) (db : SyncDb)
    (h : get? db.clientSyncQueue v ≠ none) :
    get? (writeClient u new db).clientSyncQueue v ≠ none := by
  rw [writeClient, queueClientControlChange.eq_def]
  split
  · split_ifs
    · exact h
    · exact enqueueClientSync_queue _ v _ h
  · exact enqueueClientSync_queue _ v _ h
  · exact enqueueClientSync_queue _ v _ h
  · exact h

/-- A row leaves the queue only when its revision is acknowledged. -/
theorem Inv.deleted {u : String} {r : Nat} (hI : w.Inv projection view ids)
    (h : outboxStep rules projection owner w e = some w')
    (hq : get? w.db.clientSyncQueue u = some r)
    (hgone : get? w'.db.clientSyncQueue u = none) : (u, r) ∈ w.acknowledged e := by
  have hthere : get? w.db.clientSyncQueue u ≠ none := by
    rw [hq]
    simp
  rcases step_effect hI h with ⟨-, hdb⟩ | ⟨b, call, c, key, object, outcome, -, -, -, -, rfl⟩
  · generalize w'.db = db at hdb hgone
    cases hdb with
    | same => exact absurd hgone hthere
    | written v new => exact absurd hgone (writeClient_queue v u new w.db hthere)
    | queued v => exact absurd hgone (enqueueClientSync_queue v u w.db hthere)
    | acknowledged =>
      have hgone : get? (w.db.clientSyncQueue.filter fun p => !(w.acknowledged e).contains p) u =
          none := hgone
      rw [Assoc.get?_filter _ hI.queue_nodup, hq, Option.filter_eq_none_iff] at hgone
      simpa using hgone
  · exact absurd hgone hthere

/-- The revision of the change that was applied last never decreases. -/
theorem Inv.advances {key : String} {c : Change} (hI : w.Inv projection view ids)
    (h : outboxStep rules projection owner w e = some w') (hc : w.applied key = some c) :
    ∃ c', w'.applied key = some c' ∧ c.revision ≤ c'.revision := by
  rcases step_effect hI h with ⟨happlied, -⟩ | ⟨b, call, d, key', object, outcome, hb, hd, hkey, hmoves, rfl⟩
  · exact ⟨c, by rw [happlied, hc], Nat.le_refl _⟩
  · simp only [OutboxWorld.settle]
    split_ifs with hcompletes
    · by_cases hk : key = key'
      · subst hk
        refine ⟨d, Function.update_self .., ?_⟩
        -- The mark is at least at `c`, and a segment that completes `d` did not find it beyond `d`.
        obtain ⟨hckey, hlatest⟩ := hI.applied_uuid hc
        have hside := hI.sides c.uuid (hI.known hlatest)
        have happ : (w.side projection view c.uuid).applied = some (c.revision, view c.client) := by
          simp only [side, hckey, hc, map_some]
        obtain ⟨m, b', hmark, hle⟩ := hside.applied_le happ
        have hmark : w.object.store.syncRevision (trim c.uuid) = some (m, b') := hmark
        rw [hckey] at hmark
        rcases hmoves.store with hsame | ⟨hnew, -⟩
        · rw [hsame] at hcompletes
          exact absurd hcompletes.2 hcompletes.1
        · by_contra hlt
          exact hnew ⟨m, b', hmark, .inl (by omega)⟩
      · exact ⟨c, (Function.update_of_ne hk _ _).trans hc, Nat.le_refl _⟩
    · exact ⟨c, hc, Nat.le_refl _⟩

end OutboxWorld

end Runs

/-! ## Results -/

/-- The columns that `queue_client_control_change` watches. -/
def watchedColumns : List String :=
  ["token", "token_hash", "token_rotated_at", "name", "hidden", "sort_order", "remark", "public_remark",
   "group", "tags", "ipv4", "ipv6", "region", "price", "billing_cycle", "auto_renewal", "currency",
   "expired_at", "traffic_limit", "traffic_limit_type", "traffic_reset_day"]

/-- A change as far as the watched columns go. -/
def watchedPart (client : Option Fields) : Option (List (Option Json)) :=
  client.map fun fields => watchedColumns.map (Assoc.get? fields)

variable {column : String}

theorem get?_projection (projection : ProjectionRules) (row : SqlClient) (h : column ∈ watchedColumns) :
    get? (projection.projection row) column = get? (projection.controlFields row.controls) column := by
  have hkeys : Assoc.keys (projection.controlFields row.controls) = watchedColumns := rfl
  have hsome : (get? (projection.controlFields row.controls) column).isSome :=
    Assoc.get?_isSome.mpr (hkeys ▸ h)
  have hne : column ≠ "uuid" := by
    rintro rfl
    exact absurd h (by decide)
  obtain ⟨value, hvalue⟩ := Option.isSome_iff_exists.mp hsome
  rw [ProjectionRules.projection, get?, if_neg hne, Assoc.get?_append, hvalue, Option.some_or]

/-- The flags are read from watched columns. -/
theorem get?_normalizeClientBooleans {client client' : Fields}
    (h : ∀ column ∈ watchedColumns, get? client column = get? client' column)
    (hcolumn : column ∈ watchedColumns) :
    get? (normalizeClientBooleans client) column = get? (normalizeClientBooleans client') column := by
  have hhidden := h "hidden" (by decide)
  have hrenewal := h "auto_renewal" (by decide)
  have hsame := h column hcolumn
  simp only [normalizeClientBooleans, hhidden, hrenewal]
  split_ifs <;> simp only [get?_set, hsame]

theorem watchedPart_clientObject (projection : ProjectionRules) {row row' : SqlClient}
    (h : row.controls = row'.controls) :
    watchedPart (some (clientObject projection row)) = watchedPart (some (clientObject projection row')) := by
  have hsame : ∀ column ∈ watchedColumns, get? (projection.projection row) column =
      get? (projection.projection row') column := by
    intro column hcolumn
    rw [get?_projection projection row hcolumn, get?_projection projection row' hcolumn, h]
  rw [watchedPart, watchedPart, map_some, map_some]
  congr 1
  apply List.map_congr_left
  intro column hcolumn
  exact get?_normalizeClientBooleans hsame hcolumn

/-- An event that brings a uuid into the queue for the first time brings one of `ids`. -/
def OutboxEvent.Of (ids : Set String) : OutboxEvent → Prop
  | .insert row => row.uuid ∈ ids
  | .enqueue u => u ∈ ids
  | _ => True

def OutboxEvent.isReport : OutboxEvent → Bool
  | .report _ => true
  | _ => false

variable {e : OutboxEvent}

theorem OutboxEvent.Of.watched {ids : Set String} (projection : ProjectionRules)
    (h : e.Of ids) : e.Within projection watchedPart ids := by
  cases e with
  | insert row => exact h
  | enqueue u => exact h
  | report row => exact fun old _ hsame => watchedPart_clientObject projection hsame
  | _ => trivial

theorem OutboxEvent.Of.whole {ids : Set String} (projection : ProjectionRules)
    (h : e.Of ids) (hreport : e.isReport = false) : e.Within projection id ids := by
  cases e with
  | insert row => exact h
  | enqueue u => exact h
  | report row => simp [OutboxEvent.isReport] at hreport
  | _ => trivial

/-- What is not in the queue was applied as it is, as far as `view` sees it. -/
theorem OutboxWorld.Inv.applied_of_dequeued {β : Type} {projection : ProjectionRules}
    {view : Option Fields → β} {ids : Set String} {w : OutboxWorld} {u : String}
    (hids : Set.InjOn trim ids) (hI : w.Inv projection view ids)
    (hq : get? w.db.clientSyncQueue u = none) (hlatest : w.db.latest u ≠ 0) :
    ∃ c, w.applied (trim u) = some c ∧ c.uuid = u ∧
      view c.client = view ((w.db.clients u).map (clientObject projection)) := by
  have hu : u ∈ ids := hI.known hlatest
  have hpending : (w.side projection view u).pending = false := by
    simp only [side, hq, Option.isSome_none]
  have happlied := (hI.sides u hu).applied_of_settled hpending hlatest
  obtain ⟨c, hc, heq⟩ := Option.map_eq_some_iff.mp happlied
  obtain ⟨hkey, hclatest⟩ := hI.applied_uuid hc
  exact ⟨c, hc, hids (hI.known hclatest) hu hkey, (Prod.mk.inj heq).2⟩

/-- The outbox over uuids that stay apart when they are trimmed. -/
theorem outbox_loses_nothing (rules : SyncRules) (projection : ProjectionRules) (owner : String → String)
    (ids : Set String) (hids : Set.InjOn trim ids) (es : List OutboxEvent) (w : OutboxWorld)
    (hes : ∀ e ∈ es, e.Of ids)
    (hrun : (outboxMachine rules projection owner).run OutboxWorld.start es = some w) :
    (∀ e w' u r, outboxStep rules projection owner w e = some w' →
      Assoc.get? w.db.clientSyncQueue u = some r → Assoc.get? w'.db.clientSyncQueue u = none →
      (u, r) ∈ w.acknowledged e) ∧
    (∀ u, Assoc.get? w.db.clientSyncQueue u = none → (w.db.latest u = 0 ∧ w.db.clients u = none) ∨
      ∃ c, w.applied (trim u) = some c ∧ c.uuid = u ∧
        watchedPart c.client = watchedPart ((w.db.clients u).map (clientObject projection)) ∧
        ((∀ e ∈ es, e.isReport = false) → c.client = (w.db.clients u).map (clientObject projection))) ∧
    (∀ fs w', (∀ e ∈ fs, e.Of ids) → (outboxMachine rules projection owner).run w fs = some w' →
      ∀ key c, w.applied key = some c → ∃ c', w'.applied key = some c' ∧ c.revision ≤ c'.revision) := by
  have hI : w.Inv projection watchedPart ids :=
    OutboxWorld.Inv.run hids (fun e he => (hes e he).watched projection) hrun
  refine ⟨?_, ?_, ?_⟩
  · intro e w' u r hstep hq hgone
    exact hI.deleted hstep hq hgone
  · intro u hq
    by_cases hlatest : w.db.latest u = 0
    · left
      refine ⟨hlatest, ?_⟩
      cases hrow : w.db.clients u with
      | none => rfl
      | some row => exact absurd hlatest (hI.row hrow).2
    · right
      obtain ⟨c, hc, huuid, hwatched⟩ := hI.applied_of_dequeued hids hq hlatest
      refine ⟨c, hc, huuid, hwatched, ?_⟩
      intro hreports
      have hwhole : w.Inv projection id ids :=
        OutboxWorld.Inv.run hids (fun e he => (hes e he).whole projection (hreports e he)) hrun
      obtain ⟨c', hc', -, hclient⟩ := hwhole.applied_of_dequeued hids hq hlatest
      obtain rfl := Option.some.inj (hc.symm.trans hc')
      exact hclient
  · intro fs w' hfs hrun'
    have hboth := Machine.run_inv_of
      (I := fun t => t.Inv projection watchedPart ids ∧ ∀ key c, w.applied key = some c →
        ∃ c', t.applied key = some c' ∧ c.revision ≤ c'.revision)
      (outboxMachine rules projection owner) (by
        rintro s e t ⟨hs, hadvance⟩ he hstep
        refine ⟨hs.step hids (he.watched projection) hstep, ?_⟩
        intro key c hc
        obtain ⟨c', hc', hle⟩ := hadvance key c hc
        obtain ⟨c'', hc'', hle'⟩ := hs.advances hstep hc'
        exact ⟨c'', hc'', Nat.le_trans hle hle'⟩)
      fs w w' ⟨hI, fun key c hc => ⟨c, hc, Nat.le_refl _⟩⟩ hfs hrun'
    exact hboth.2

/-- Rules for fixed inputs: no `Date.parse`, no token to digest, small numbers. -/
def outboxRules : SyncRules := ⟨plainRules, fun _ => none⟩

def outboxProjection : ProjectionRules := ⟨fun token => token, fun n => n⟩

/-- A node with a token hash. -/
def nodeRow (uuid hash : String) : SqlClient :=
  ⟨uuid, ⟨none, some hash, none, uuid, 0, 0, "", "", "", "", "", "", "", .finite 0, 0, 0, "$", none, 0,
    "sum", 1⟩, []⟩

/-- A worker takes what is pending to the object and acknowledges it. -/
def oneSync : List OutboxEvent :=
  [.insert (nodeRow "a" "h"), .start 0 ⟨none, none, false⟩, .list 0, .apply (0, 0) none,
   .resume "a" 0 true none, .receive 0, .acknowledge 0 false]

/-- Two nodes whose uuids differ in a blank. -/
def twoSyncs : List OutboxEvent :=
  [.insert (nodeRow "a" "h"), .insert (nodeRow "a " "k"), .start 0 ⟨none, none, false⟩, .list 0,
   .apply (0, 0) none, .resume "a" 0 true none,
   .apply (0, 0) none, .resume "a" 0 true none, .resume "a" 0 true none,
   .receive 0, .acknowledge 0 false]

theorem outbox_loses_nothing_node :
    ∃ w, (outboxMachine outboxRules outboxProjection id).run OutboxWorld.start oneSync = some w ∧
      Assoc.get? w.db.clientSyncQueue "a" = none ∧
      ∃ c, w.applied (trim "a") = some c ∧ c.uuid = "a" ∧
        c.client = some (clientObject outboxProjection (nodeRow "a" "h")) := by
  have hall : ∀ w, (outboxMachine outboxRules outboxProjection id).run OutboxWorld.start oneSync = some w →
      Assoc.get? w.db.clientSyncQueue "a" = none → w.db.latest "a" = 1 →
      w.db.clients "a" = some (nodeRow "a" "h") →
      ∃ c, w.applied (trim "a") = some c ∧ c.uuid = "a" ∧
        c.client = some (clientObject outboxProjection (nodeRow "a" "h")) := by
    intro w hrun hq hlatest hrow
    obtain ⟨-, hsettled, -⟩ := outbox_loses_nothing outboxRules outboxProjection id {"a"}
      (Set.injOn_singleton trim "a") oneSync w (by simp [oneSync, OutboxEvent.Of, nodeRow]) hrun
    rcases hsettled "a" hq with ⟨hzero, -⟩ | ⟨c, hc, huuid, -, hclient⟩
    · rw [hlatest] at hzero
      cases hzero
    · refine ⟨c, hc, huuid, ?_⟩
      rw [hclient (by decide), hrow]
      rfl
  exact ⟨_, rfl, rfl, hall _ rfl rfl rfl rfl⟩

/-- The object keeps one change for both nodes: the first one is no longer queued, and what was applied
    for it last is the change of the second. -/
theorem trimmed_uuids_collide :
    ∃ w, (outboxMachine outboxRules outboxProjection id).run OutboxWorld.start twoSyncs = some w ∧
      Assoc.get? w.db.clientSyncQueue "a" = none ∧ w.db.clients "a" = some (nodeRow "a" "h") ∧
      ∃ c, w.applied (trim "a") = some c ∧
        watchedPart c.client ≠ watchedPart ((w.db.clients "a").map (clientObject outboxProjection)) := by
  refine ⟨_, rfl, rfl, rfl, _, rfl, ?_⟩
  intro h
  -- The token hashes differ.
  have hhash := congrArg (fun part => part.bind fun values => (values[1]?).bind Json.str?) h
  exact absurd hhash (by decide)

end CfMonitor.Live
