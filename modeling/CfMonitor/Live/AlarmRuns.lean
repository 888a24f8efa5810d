/-
  No deadline is forgotten by the alarm, in runs whose scheduling calls see all deadlines.

  1. **One report** (`advance_client`) — only the live update of a report gives a node another
     expiry, and over HTTP the report is then unplanned until it comes to its scheduling call.

  2. **Invariant** (`AlarmWorld.Inv`) — while no alarm runs, every deadline is covered but the expiry
     of a node whose report is unplanned.
-/
import CfMonitor.Live.ExpiryAlarm

namespace CfMonitor.Live

open CfMonitor.Lib

/-! ## One report -/

section Reports

variable {compact : Fields → Fields} {uuid : String} {restoreVersion : Nat} {controls : Controls}
  {n n' : Lane} {r : LiveReport} {rest : List LiveReport}

open Lane

/-- Where a report is after a step: it waits, at an await that satisfies `P`, or it has ended. -/
def Stays (P : Phase → Prop) (n : Lane) (r : LiveReport) (rest : List LiveReport) (n' : Lane) : Prop :=
  n'.client = n.client ∧
  (n'.queue = rest ∨ ∃ r', n'.queue = r' :: rest ∧ r'.request = r.request ∧
    r'.lifecycle = r.lifecycle ∧ P r'.phase)

variable {P : Phase → Prop}

theorem Stays.finish {thrown : Bool} : Stays P n r rest (n.finish r rest thrown) :=
  ⟨rfl, .inl rfl⟩

variable {phase : Phase}

theorem Stays.goto (h : P phase) : Stays P n r rest (n.goto r rest phase) :=
  ⟨rfl, .inr ⟨{ r with phase := phase }, rfl, rfl, rfl, h⟩⟩

theorem Stays.guarded {next : Lane} (h : Stays P n r rest next) :
    Stays P n r rest (n.guarded restoreVersion r rest next) := by
  rw [Lane.guarded]
  split_ifs
  · exact h
  · exact Stays.finish

theorem Stays.afterAlarm (h : P .basicInfo) : Stays P n r rest (n.afterAlarm restoreVersion r rest) := by
  rw [Lane.afterAlarm]
  split_ifs
  · exact Stays.goto h
  · exact Stays.finish.guarded

theorem Stays.loop {todo : Nat} (hinfo : P .basicInfo) (halarm : P .alarm)
    (hresolving : P .resolving) (hping : ∀ k, P (.ping (k + 1))) :
    Stays P n r rest (n.loop restoreVersion r rest todo) := by
  match todo with
  | 0 =>
    rw [Lane.loop]
    split_ifs
    · exact Stays.goto halarm
    · exact Stays.afterAlarm hinfo
  | 1 => exact (Stays.goto hresolving).guarded
  | todo + 2 => exact (Stays.goto (hping todo)).guarded

variable {putFails : Bool}

theorem Stays.persist {next : ClientState} {wrote : Bool} (h : ∀ landed, P (.putting next landed wrote)) :
    Stays P n r rest (n.persist compact r rest next wrote putFails) :=
  ⟨rfl, .inr ⟨_, rfl, rfl, rfl, h _⟩⟩

theorem Stays.caught {wrote : Bool} (h : P .undoing) :
    Stays P n r rest (n.caught compact restoreVersion controls r rest wrote putFails) := by
  cases wrote with
  | false => exact Stays.finish
  | true =>
    rw [Lane.caught, if_pos rfl]
    cases (if n.isReportCurrent restoreVersion r then
        n.lastKnown.bind controls.controlledClientState else none) with
    | none => exact ⟨rfl, .inr ⟨{ r with phase := .undoing }, rfl, rfl, rfl, h⟩⟩
    | some retained => exact ⟨rfl, .inr ⟨{ r with phase := .undoing }, rfl, rfl, rfl, h⟩⟩

/-- The state that a report is about to make live. -/
def Phase.next? : Phase → Option ClientState
  | .putting next _ _ => some next
  | .checking next => some next
  | _ => none

/-- A report over a socket brings a state without expiry. -/
def Timeless (request : ReportRequest) (phase : Phase) : Prop :=
  request.socket.isSome → ∀ next, phase.next? = some next → next.expiresAt = none

theorem Timeless.of_none {request : ReportRequest} (h : phase.next? = none) : Timeless request phase := by
  intro _ next hnext
  cases h.symm.trans hnext

variable {read : Option AdminClientsSnapshot}

theorem Stays.resolvedFirst : Stays (Timeless r.request) n r rest
      (n.resolvedFirst compact uuid restoreVersion r rest read putFails) := by
  rw [Lane.resolvedFirst]
  cases n.resolved uuid read r.name r.hidden with
  | none => exact Stays.finish
  | some control =>
    refine (Stays.persist fun landed hsocket next hnext => ?_).guarded
    cases hnext
    have hsome : r.request.socket.isNone = false := by
      rw [Option.isNone_eq_false_iff]
      exact hsocket
    show (if r.request.socket.isNone then _ else _) = none
    rw [hsome]
    rfl

/-- The live update of a report. -/
def Updates (compact : Fields → Fields) (n : Lane) (r : LiveReport) (rest : List LiveReport)
    (n' : Lane) : Prop :=
  ∃ next socketOpen, n' = n.update compact r rest next socketOpen ∧
    (r.request.socket.isSome → next.expiresAt = none)

variable {socketOpen : Bool}

theorem Stays.resolvedAgain {next : ClientState} (hnext : r.request.socket.isSome → next.expiresAt = none) :
    Stays (Timeless r.request) n r rest (n.resolvedAgain compact uuid restoreVersion controls r rest
      next read putFails socketOpen) ∨
    Updates compact n r rest (n.resolvedAgain compact uuid restoreVersion controls r rest next read
      putFails socketOpen) := by
  rw [Lane.resolvedAgain]
  cases n.resolved uuid read next.name next.hidden with
  | none => exact .inl (Stays.caught (Timeless.of_none rfl))
  | some control =>
    show Stays _ _ _ _ (if _ then _ else _) ∨ Updates _ _ _ _ (if _ then _ else _)
    split_ifs with hcurrent hsame
    · exact .inr ⟨next, socketOpen, rfl, hnext⟩
    · refine .inl (Stays.persist fun landed hsocket next' hnext' => ?_)
      cases hnext'
      exact hnext hsocket
    · exact .inl (Stays.caught (Timeless.of_none rfl))

variable {reply : Reply}

/-- A step of a report, apart from its live update, leaves the node as it is. -/
theorem advance_cases (htimeless : Timeless r.request r.phase)
    (h : n.advance compact uuid restoreVersion controls r rest reply putFails socketOpen = some n') :
    Stays (Timeless r.request) n r rest n' ∨ Updates compact n r rest n' := by
  have hquiet : ∀ {phase : Phase}, phase.next? = none → Timeless r.request phase :=
    fun hnone => Timeless.of_none hnone
  have hloop : ∀ (name : String) (hidden : Bool) (todo : Nat), Stays (Timeless r.request) n r rest
      (n.loop restoreVersion { r with name := name, hidden := hidden } rest todo) := by
    intro name hidden todo
    have hnamed : Stays (Timeless r.request) n { r with name := name, hidden := hidden } rest
        (n.loop restoreVersion { r with name := name, hidden := hidden } rest todo) :=
      Stays.loop (hquiet rfl) (hquiet rfl) (hquiet rfl) fun _ => hquiet rfl
    exact hnamed
  rw [Lane.advance.eq_def] at h
  split at h
  · -- the credential
    rename_i current hphase
    cases h
    refine .inl (Stays.guarded ?_)
    split_ifs
    · exact Stays.goto (hquiet rfl)
    · match current with
      | none => exact Stays.finish
      | some false => exact Stays.finish
      | some true => exact Stays.goto (hquiet rfl)
  · cases h
    exact .inl Stays.finish
  · -- the control row
    rename_i read hphase
    cases h
    cases n.resolved uuid read r.request.name r.request.hidden with
    | none => exact .inl Stays.finish
    | some control => exact .inl (hloop control.1 control.2 r.request.reports).guarded
  · -- ping results
    cases h
    exact .inl Stays.finish
  · cases h
    exact .inl (Stays.goto (hquiet rfl)).guarded
  · -- website results
    cases h
    exact .inl Stays.finish
  · rename_i todo hphase
    cases h
    exact .inl (hloop r.name r.hidden todo).guarded
  · -- the snapshot
    cases h
    exact .inl Stays.finish
  · cases h
    exact .inl Stays.resolvedFirst
  · -- the entry was not written, or is taken back
    cases h
    exact .inl (Stays.caught (hquiet rfl))
  · rename_i next wrote hphase
    cases h
    left
    split_ifs
    · refine Stays.goto fun hsocket next' hnext' => ?_
      exact htimeless hsocket next' (hphase ▸ hnext')
    · exact Stays.caught (hquiet rfl)
  · -- the entry is looked at again
    cases h
    exact .inl (Stays.caught (hquiet rfl))
  · rename_i next read hphase
    cases h
    exact Stays.resolvedAgain fun hsocket => htimeless hsocket next (by rw [hphase]; rfl)
  · cases h
    exact .inl Stays.finish
  · -- the alarm
    cases h
    exact .inl (Stays.afterAlarm (hquiet rfl)).guarded
  · -- the basic information
    cases h
    exact .inl Stays.finish
  · cases h
    exact .inl Stays.finish.guarded
  · cases h

/-- A report over HTTP that has made its live update comes to its scheduling call, or it ends. -/
theorem advance_unplanned
    (hsocket : r.request.socket = none) (hphase : r.phase = .ping 0 ∨ r.phase = .website 0)
    (h : n.advance compact uuid restoreVersion controls r rest reply putFails socketOpen = some n') :
    Stays (fun phase => phase = .website 0 ∨ phase = .alarm) n r rest n' := by
  rw [Lane.advance.eq_def] at h
  rcases hphase with hphase | hphase
  · cases reply with
    | failed =>
      simp only [hphase] at h
      cases h
      exact Stays.finish
    | done =>
      simp only [hphase] at h
      cases h
      exact (Stays.goto (.inl rfl)).guarded
    | _ => simp [hphase] at h
  · cases reply with
    | failed =>
      simp only [hphase] at h
      cases h
      exact Stays.finish
    | done =>
      simp only [hphase] at h
      cases h
      refine Stays.guarded ?_
      rw [Lane.loop, hsocket]
      exact Stays.goto (.inr rfl)
    | _ => simp [hphase] at h

end Reports

/-! ## One node -/

section Nodes

variable {compact : Fields → Fields} {uuid : String} {restoreVersion : Nat} {controls : Controls}
  {n n' : Lane} {r : LiveReport} {rest : List LiveReport} {C : Int → Prop}

open AlarmWorld

/-- A step that is no report's: the queue stays, and the node gets no other expiry. -/
def Keeps (n n' : Lane) : Prop :=
  n'.queue = n.queue ∧
  ∀ c', n'.client = some c' → ∃ c, n.client = some c ∧ c'.expiresAt = c.expiresAt

theorem Keeps.refl (n : Lane) : Keeps n n := ⟨rfl, fun c hc => ⟨c, hc, rfl⟩⟩

theorem Keeps.dropped (hqueue : n'.queue = n.queue) (hclient : n'.client = none) : Keeps n n' :=
  ⟨hqueue, fun c hc => absurd (hclient.symm.trans hc) (by simp)⟩

theorem Keeps.cleanupSession (socket : Nat) : Keeps n (n.cleanupSession socket) := by
  rw [Lane.cleanupSession]
  split_ifs
  · exact Keeps.dropped rfl rfl
  · exact Keeps.refl n

theorem Keeps.removeExpired (now : Int) : Keeps n (n.removeExpired now) :=
  ⟨rfl, fun c hc => ⟨c, (Option.filter_eq_some_iff.mp hc).1, rfl⟩⟩

theorem Keeps.updateClientMeta (now : Int) : Keeps n (n.updateClientMeta compact controls now) := by
  rw [Lane.updateClientMeta]
  cases hnext : (n.client.or n.lastKnown).bind controls.controlledClientState with
  | none => exact Keeps.removeExpired now
  | some next =>
    refine ⟨rfl, fun c' hc' => ?_⟩
    have hclient : (if (n.client.filter fun c => c.isOnline now).isSome then some next else none) =
      some c' := hc'
    split_ifs at hclient with hcurrent
    obtain ⟨c, hc⟩ := Option.isSome_iff_exists.mp hcurrent
    have hheld : n.client = some c := (Option.filter_eq_some_iff.mp hc).1
    cases hclient
    rw [hheld] at hnext
    exact ⟨c, hheld, (controlledClientState_keeps hnext).2⟩

theorem Keeps.inferNetwork (report : Fields) (now : Int) :
    Keeps n (n.inferNetwork compact controls report now) := by
  rw [Lane.inferNetwork]
  cases hcurrent : n.client.bind controls.controlledClientState with
  | none => exact Keeps.refl n
  | some current =>
    obtain ⟨c, hc, hcontrolled⟩ := Option.bind_eq_some_iff.mp hcurrent
    show Keeps n (if _ then n else _)
    split_ifs
    · exact Keeps.refl n
    · refine ⟨rfl, fun c' hc' => ⟨c, hc, ?_⟩⟩
      cases hc'
      exact (controlledClientState_keeps hcontrolled).2

/-- The expiry of a node satisfies `C`, but for a report that is unplanned. -/
def Safe (C : Int → Prop) (n : Lane) : Prop :=
  (∀ c e, n.client = some c → c.expiresAt = some e → C e) ∨ Unplanned n

theorem Safe.keeps (h : Safe C n) (hkeeps : Keeps n n') : Safe C n' := by
  obtain ⟨hqueue, hclient⟩ := hkeeps
  rcases h with h | ⟨r, rest, hr, hunplanned⟩
  · left
    intro c' e hc' he
    obtain ⟨c, hc, hsame⟩ := hclient c' hc'
    exact h c e hc (hsame ▸ he)
  · exact .inr ⟨r, rest, hqueue.trans hr, hunplanned⟩

theorem Safe.enqueue (h : Safe C n) (request : ReportRequest) (now : Int) :
    Safe C (n.enqueue restoreVersion request now) := by
  rcases h with h | ⟨r, rest, hr, hunplanned⟩
  · exact .inl h
  · obtain ⟨last, hlast⟩ :
        ∃ last, (n.enqueue restoreVersion request now).queue = n.queue ++ [last] := ⟨_, rfl⟩
    refine .inr ⟨r, rest ++ [last], ?_, hunplanned⟩
    rw [hlast, hr]
    rfl

/-- A step of the running report that is not followed by its scheduling call. -/
theorem Safe.advance {reply : Reply} {putFails socketOpen : Bool} (h : Safe C n)
    (hqueue : n.queue = r :: rest) (htimeless : Timeless r.request r.phase)
    (hstep : n.advance compact uuid restoreVersion controls r rest reply putFails socketOpen = some n')
    (hcall : reportCall n' = none)
    (habandons : Unplanned n → n'.queue = n.queue.tail →
      ∀ c e, n.client = some c → c.expiresAt = some e → C e) : Safe C n' := by
  -- the unplanned report of the lane is the running one
  have hhead : Unplanned n → r.request.socket = none ∧ (r.phase = .ping 0 ∨ r.phase = .website 0) := by
    rintro ⟨q, qs, hq, hunplanned⟩
    obtain ⟨rfl, -⟩ := List.cons.inj (hqueue.symm.trans hq)
    exact hunplanned
  rcases advance_cases htimeless hstep with ⟨hclient, -⟩ | ⟨next, socketOpen, rfl, hnext⟩
  · rcases h with h | hunplanned
    · exact .inl fun c e hc he => h c e (hclient ▸ hc) he
    · obtain ⟨hsocket, hphase⟩ := hhead hunplanned
      obtain ⟨-, hleft | ⟨r', hqueue', hrequest, -, hwebsite | halarm⟩⟩ :=
        advance_unplanned hsocket hphase hstep
      · left
        intro c e hc he
        refine habandons hunplanned ?_ c e (hclient ▸ hc) he
        rw [hleft, hqueue]
        rfl
      · exact .inr ⟨r', rest, hqueue', by rw [hrequest, hsocket], .inr hwebsite⟩
      · exfalso
        rw [reportCall.eq_def, hqueue'] at hcall
        obtain ⟨lifecycle, request, name, hidden, phase, captured⟩ := r'
        obtain rfl : phase = .alarm := halarm
        cases hcall
  · cases hsocket : r.request.socket with
    | none => exact .inr ⟨{ r with phase := .ping 0 }, rest, rfl, hsocket, .inl rfl⟩
    | some socket =>
      left
      intro c e hc he
      simp only [Lane.update, hsocket] at hc
      split_ifs at hc
      · -- a state over a socket has no expiry
        cases hc
        exact absurd (he.symm.trans (hnext (by rw [hsocket]; rfl))) (by simp)
      · rcases h with h | hunplanned
        · exact h c e hc he
        · exact absurd (hsocket.symm.trans (hhead hunplanned).1) (by simp)

end Nodes

/-! ## Scheduling -/

namespace AlarmWorld

variable {compact : Fields → Fields} {w v : AlarmWorld} {e : AlarmEvent} {now : Int}

/-- What holds also while an alarm runs. -/
structure Base (w : AlarmWorld) : Prop where
  known : ∀ {uuid}, (w.live.lanes uuid).client.isSome ∨ (w.live.lanes uuid).queue ≠ [] → uuid ∈ w.nodes
  timeless : ∀ {uuid r}, r ∈ (w.live.lanes uuid).queue → Timeless r.request r.phase
  rechecks : w.rechecks.Inv

variable {uuid : String}

theorem Expires.mem (hB : w.Base) {expiry : Int} (h : w.Expires uuid expiry) : expiry ∈ w.clientExpiries := by
  obtain ⟨c, hc, hexpiry⟩ := h
  refine List.mem_filterMap.mpr ⟨uuid, hB.known (.inl (by rw [hc]; rfl)), ?_⟩
  rw [hc]
  exact hexpiry

theorem covered_of_considered {time deadline : Int} (h : time ∈ w.considered now)
    (hle : time ≤ max deadline (now + 1000)) : (w.scheduleExpiryAlarm now).Covered deadline := by
  cases hmin : (w.considered now).min? with
  | none =>
    rw [List.min?_eq_none_iff.mp hmin] at h
    cases h
  | some next =>
    have hnext : next ≤ time := (List.min?_eq_some_iff.mp hmin).2 time h
    refine ⟨max next (now + 1000), now, ?_, rfl, by omega⟩
    show (w.considered now).min?.map _ = _
    rw [hmin]
    rfl

theorem mem_considered_task (hB : w.Base) {key : String} {t : WebsiteRecheckTask}
    (h : w.rechecks.tasks.get? key = some t) : max (now + 1000) t.retryAt ∈ w.considered now := by
  have hlisted : w.rechecks.listed = w.rechecks.tasks.entries := List.take_of_length_le hB.rechecks.bounded
  refine List.mem_append_right _ (List.mem_map.mpr ⟨(key, t), ?_, rfl⟩)
  rw [hlisted]
  exact Directory.mem_entries.mpr h

theorem mem_considered_expiry {expiry : Int} (h : expiry ∈ w.clientExpiries ++ w.viewerExpiries)
    (hlater : now < expiry) : expiry ∈ w.considered now :=
  List.mem_append_left _ (List.mem_filter.mpr ⟨h, by simpa using hlater⟩)

/-- **Scheduling**: a call that sees every expiry, or has something to wake up for, plans them all. -/
theorem Base.schedule (hB : w.Base) (hsees : w.Sees now) : (w.scheduleExpiryAlarm now).Planned := by
  have hexpiry : ∀ {expiry}, expiry ∈ w.clientExpiries ++ w.viewerExpiries →
      (now < expiry ∨ ∃ time ∈ w.considered now, time ≤ now + 1000) →
      (w.scheduleExpiryAlarm now).Covered expiry := by
    rintro expiry hmem (hlater | ⟨time, htime, hsoon⟩)
    · exact covered_of_considered (mem_considered_expiry hmem hlater) (Int.le_max_left _ _)
    · exact covered_of_considered htime (by omega)
  constructor
  · intro uuid expiry h
    have hexpires : w.Expires uuid expiry := h
    refine hexpiry (List.mem_append_left _ (hexpires.mem hB)) ?_
    exact hsees.imp (fun hall => hall.1 uuid expiry hexpires) id
  · intro viewer expiry h
    have hmem : (viewer, expiry) ∈ w.viewers := h
    refine hexpiry (List.mem_append_right _ (List.mem_map.mpr ⟨_, hmem, rfl⟩)) ?_
    exact hsees.imp (fun hall => hall.2 viewer expiry hmem) id
  · intro key t h
    exact covered_of_considered (mem_considered_task hB h) (by omega)

/-! ## One step -/

/-- A step that is no report's.  While no alarm runs and without a scheduling call it brings no
    deadline. -/
structure Quiet (w v : AlarmWorld) (call : Option Int) : Prop where
  lanes : ∀ uuid, Keeps (w.live.lanes uuid) (v.live.lanes uuid)
  nodes : v.nodes = w.nodes
  rechecks : w.rechecks.Inv → v.rechecks.Inv
  calm : call = none → v.alarmRuns = false → v.alarm = w.alarm ∧ v.scheduledAt = w.scheduledAt ∧
    w.alarmRuns = false ∧ (∀ p ∈ v.viewers, p ∈ w.viewers) ∧ v.rechecks = w.rechecks

variable {n : Lane}

theorem Quiet.lane {viewers : List (String × Int)}
    (h : Keeps (w.live.lanes uuid) n) (hviewers : ∀ p ∈ viewers, p ∈ w.viewers) :
    Quiet w { w with live := w.live.setLane uuid n, viewers := viewers } none := by
  refine ⟨fun other => ?_, rfl, id, fun _ hidle => ⟨rfl, rfl, hidle, hviewers, rfl⟩⟩
  by_cases hsame : other = uuid
  · subst hsame
    show Keeps _ (Function.update w.live.lanes other n other)
    rw [Function.update_self]
    exact h
  · show Keeps _ (Function.update w.live.lanes uuid n other)
    rw [Function.update_of_ne hsame]
    exact Keeps.refl _

variable {call : Option Int}

/-- What a step can do up to its scheduling call. -/
theorem before_cases (h : w.before compact e = some (v, call)) : Quiet w v call ∨
    (∃ uuid request now, call = none ∧ v = { w with
      live := w.live.setLane uuid ((w.live.lanes uuid).enqueue w.live.restoreVersion request now)
      nodes := if w.nodes.contains uuid then w.nodes else w.nodes ++ [uuid] }) ∨
    (∃ uuid reply putFails socketOpen r rest n, e = .advance uuid reply putFails socketOpen ∧
      (w.live.lanes uuid).queue = r :: rest ∧
      (w.live.lanes uuid).advance compact uuid w.live.restoreVersion (reply.controls w.live.controls)
        r rest reply putFails socketOpen = some n ∧
      v = { w with live := { w.live.setLane uuid n with controls := reply.controls w.live.controls } } ∧
      call = reportCall n) := by
  have hsame : ∀ p ∈ w.viewers, p ∈ w.viewers := fun _ hp => hp
  cases e with
  | report uuid request ttlMs now =>
    right; left
    obtain ⟨u, hu, hpair⟩ := Option.map_eq_some_iff.mp h
    obtain ⟨live, hlive, rfl⟩ := Option.map_eq_some_iff.mp hu
    cases hpair
    rw [liveStep] at hlive
    split_ifs at hlive
    cases hlive
    exact ⟨uuid, { request with ttlMs := boundedHttpTtlMs ttlMs }, now, rfl, rfl⟩
  | advance uuid reply putFails socketOpen =>
    right; right
    obtain ⟨u, hu, hpair⟩ := Option.map_eq_some_iff.mp h
    obtain ⟨live, hlive, rfl⟩ := Option.map_eq_some_iff.mp hu
    cases hpair
    rw [liveStep] at hlive
    cases hqueue : (w.live.lanes uuid).queue with
    | nil =>
      simp only [hqueue] at hlive
      cases hlive
    | cons r rest =>
      simp only [hqueue] at hlive
      obtain ⟨n, hn, rfl⟩ := Option.map_eq_some_iff.mp hlive
      refine ⟨uuid, reply, putFails, socketOpen, r, rest, n, rfl, hqueue, hn, rfl, ?_⟩
      show reportCall (Function.update w.live.lanes uuid n uuid) = _
      rw [Function.update_self]
  | removeClient uuid =>
    cases h
    exact .inl (Quiet.lane (Keeps.dropped rfl rfl) hsame)
  | restoreClients snapshot now =>
    cases h
    exact .inl ⟨fun _ => Keeps.dropped rfl rfl, rfl, id, nofun⟩
  | control read =>
    cases h
    exact .inl ⟨fun _ => Keeps.refl _, rfl, id, fun _ hidle => ⟨rfl, rfl, hidle, hsame, rfl⟩⟩
  | connect uuid socket =>
    cases h
    refine .inl (Quiet.lane ⟨rfl, (Keeps.refl _).2⟩ fun p hp => ?_)
    exact (List.mem_filter.mp hp).1
  | disconnect uuid socket =>
    cases h
    exact .inl (Quiet.lane (Keeps.cleanupSession socket) hsame)
  | updateClientMeta uuid now =>
    cases h
    exact .inl (Quiet.lane (Keeps.updateClientMeta now) hsame)
  | inferNetwork uuid report now =>
    cases h
    exact .inl (Quiet.lane (Keeps.inferNetwork report now) hsame)
  | viewer id ttlMs now =>
    cases h
    exact .inl ⟨fun _ => Keeps.refl _, rfl, fun hI => hI, nofun⟩
  | viewerGone id =>
    cases h
    refine .inl ⟨fun _ => Keeps.refl _, rfl, fun hI => hI, fun _ hidle =>
      ⟨rfl, rfl, hidle, fun p hp => ?_, rfl⟩⟩
    exact (List.mem_filter.mp hp).1
  | queueRecheck check now =>
    obtain ⟨q, hq, hpair⟩ := Option.map_eq_some_iff.mp h
    cases hpair
    refine .inl ⟨fun _ => Keeps.refl _, rfl, fun hI => ?_, nofun⟩
    have hstep : recheckStep w.rechecks (.queue check now) = some q := hq
    exact hI.step hstep
  | alarmStarts database now =>
    rw [before] at h
    cases halarm : w.alarm with
    | none =>
      rw [halarm] at h
      cases h
    | some time =>
      simp only [halarm] at h
      by_cases hclosed : w.alarmRuns ∨ now < time
      · rw [if_pos hclosed] at h
        cases h
      rw [if_neg hclosed] at h
      cases h
      refine .inl ⟨fun _ => Keeps.removeExpired now, rfl, fun hI => ?_,
        nofun⟩
      show (if database then _ else _ : Rechecks).Inv
      split_ifs
      · exact hI.process now
      · exact hI
  | attemptEnds place ok now =>
    rw [before] at h
    split_ifs at h with hruns
    obtain ⟨q, hq, hpair⟩ := Option.map_eq_some_iff.mp h
    cases hpair
    refine .inl ⟨fun _ => Keeps.refl _, rfl, fun hI => hI.step hq, fun _ hidle => ?_⟩
    cases hruns.symm.trans hidle
  | alarmEnds now =>
    rw [before] at h
    split_ifs at h
    cases h
    exact .inl ⟨fun _ => Keeps.refl _, rfl, id, nofun⟩

/-- The invariant: while no alarm runs, every deadline is covered but the expiry of a node whose
    report is unplanned. -/
structure Inv (w : AlarmWorld) : Prop extends Base w where
  clients : w.alarmRuns = false → ∀ uuid, Safe w.Covered (w.live.lanes uuid)
  viewers : w.alarmRuns = false → ∀ {id expiry}, (id, expiry) ∈ w.viewers → w.Covered expiry
  tasks : w.alarmRuns = false → ∀ {key t}, w.rechecks.tasks.get? key = some t → w.Covered t.retryAt

theorem Inv.start : AlarmWorld.start.Inv where
  known h := absurd h (by simp [AlarmWorld.start, LiveWorld.start])
  timeless h := absurd h (by simp [AlarmWorld.start, LiveWorld.start])
  rechecks := Rechecks.Inv.start
  clients _ uuid := .inl nofun
  viewers _ _ _ h := absurd h (by simp [AlarmWorld.start])
  tasks _ _ _ h := absurd h (by simp [AlarmWorld.start, Rechecks.start])

/-- What holds also while an alarm runs, after a step that is no report's. -/
theorem Base.quiet (hB : w.Base) (h : Quiet w v call) : v.Base where
  known {uuid} hheld := by
    obtain ⟨hqueue, hclient⟩ := h.lanes uuid
    rw [h.nodes]
    apply hB.known
    rcases hheld with hsome | hne
    · left
      obtain ⟨c', hc'⟩ := Option.isSome_iff_exists.mp hsome
      obtain ⟨c, hc, -⟩ := hclient c' hc'
      rw [hc]
      rfl
    · exact .inr (hqueue ▸ hne)
  timeless {uuid r} hr := hB.timeless ((h.lanes uuid).1 ▸ hr)
  rechecks := h.rechecks hB.rechecks

/-- The same after a step on one node. -/
theorem Base.lane {nodes : List String} (hB : w.Base) (controls : Controls)
    (hnodes : ∀ u ∈ w.nodes, u ∈ nodes) (hmem : uuid ∈ nodes)
    (htimeless : ∀ r ∈ n.queue, Timeless r.request r.phase) :
    Base { w with
      live := { w.live.setLane uuid n with controls := controls }, nodes := nodes } where
  known {other} hheld := by
    show other ∈ nodes
    by_cases hsame : other = uuid
    · exact hsame ▸ hmem
    · apply hnodes
      apply hB.known
      have hlane : Function.update w.live.lanes uuid n other = w.live.lanes other :=
        Function.update_of_ne hsame _ _
      exact hlane ▸ hheld
  timeless {other r} hr := by
    have hr' : r ∈ (Function.update w.live.lanes uuid n other).queue := hr
    by_cases hsame : other = uuid
    · subst hsame
      rw [Function.update_self] at hr'
      exact htimeless r hr'
    · rw [Function.update_of_ne hsame] at hr'
      exact hB.timeless hr'
  rechecks := hB.rechecks

/-- The running report of a node after a step. -/
theorem advance_timeless {restoreVersion : Nat} {controls : Controls} {n' : Lane}
    {r : LiveReport} {rest : List LiveReport} {reply : Reply} {putFails socketOpen : Bool}
    (hqueue : ∀ q ∈ r :: rest, Timeless q.request q.phase)
    (hstep : n.advance compact uuid restoreVersion controls r rest reply putFails socketOpen = some n') :
    ∀ q ∈ n'.queue, Timeless q.request q.phase := by
  have hrest : ∀ q ∈ rest, Timeless q.request q.phase :=
    fun q hq => hqueue q (List.mem_cons_of_mem _ hq)
  intro q hq
  rcases advance_cases (hqueue r List.mem_cons_self) hstep with
    ⟨-, hleft | ⟨r', hqueue', hrequest, -, hphase⟩⟩ | ⟨next, socketOpen, rfl, -⟩
  · exact hrest q (hleft ▸ hq)
  · rw [hqueue'] at hq
    rcases List.mem_cons.mp hq with rfl | hq
    · rw [hrequest]
      exact hphase
    · exact hrest q hq
  · rcases List.mem_cons.mp hq with rfl | hq
    · exact Timeless.of_none rfl
    · exact hrest q hq

theorem Base.before (hB : w.Base) (h : w.before compact e = some (v, call)) : v.Base := by
  rcases before_cases h with hquiet | ⟨uuid, request, now, -, rfl⟩ |
    ⟨uuid, reply, putFails, socketOpen, r, rest, n, -, hqueue, hstep, rfl, -⟩
  · exact hB.quiet hquiet
  · refine hB.lane w.live.controls (fun u hu => ?_) ?_ fun q hq => ?_
    · split_ifs
      · exact hu
      · exact List.mem_append_left _ hu
    · split_ifs with hmem
      · exact List.contains_iff_mem.mp hmem
      · exact List.mem_append_right _ List.mem_cons_self
    · rcases List.mem_append.mp hq with hq | hq
      · exact hB.timeless hq
      · rw [List.mem_singleton.mp hq]
        exact Timeless.of_none rfl
  · refine hB.lane _ (fun u hu => hu) (hB.known (.inr ?_)) (advance_timeless ?_ hstep)
    · rw [hqueue]
      exact List.cons_ne_nil _ _
    · intro q hq
      exact hB.timeless (hqueue ▸ hq)

theorem Inv.without_call (hI : w.Inv) (h : w.before compact e = some (v, none))
    (htimely : Timely compact w e v) : v.Inv := by
  have hB : v.Base := hI.toBase.before h
  rcases before_cases h with hquiet | ⟨uuid, request, now, -, rfl⟩ |
    ⟨uuid, reply, putFails, socketOpen, r, rest, n, rfl, hqueue, hstep, rfl, hcall⟩
  · have hkept : v.alarmRuns = false → w.alarmRuns = false ∧ ∀ {d}, w.Covered d → v.Covered d := by
      intro hidle
      obtain ⟨halarm, hscheduled, hruns, -, -⟩ := hquiet.calm rfl hidle
      refine ⟨hruns, ?_⟩
      rintro d ⟨time, at_, htime, hat, hle⟩
      exact ⟨time, at_, halarm.trans htime, hscheduled.trans hat, hle⟩
    refine ⟨hB, fun hidle uuid => ?_, fun hidle {id expiry} hmem => ?_, fun hidle {key t} ht => ?_⟩
    · obtain ⟨hruns, hcovered⟩ := hkept hidle
      have hsafe : Safe v.Covered (w.live.lanes uuid) :=
        (hI.clients hruns uuid).imp_left fun hall c e hc he => hcovered (hall c e hc he)
      exact hsafe.keeps (hquiet.lanes uuid)
    · obtain ⟨hruns, hcovered⟩ := hkept hidle
      obtain ⟨-, -, -, hviewers, -⟩ := hquiet.calm rfl hidle
      exact hcovered (hI.viewers hruns (hviewers _ hmem))
    · obtain ⟨hruns, hcovered⟩ := hkept hidle
      obtain ⟨-, -, -, -, htasks⟩ := hquiet.calm rfl hidle
      exact hcovered (hI.tasks hruns (htasks ▸ ht))
  · refine ⟨hB, fun hidle other => ?_, hI.viewers, hI.tasks⟩
    show Safe w.Covered (Function.update w.live.lanes uuid _ other)
    by_cases hsame : other = uuid
    · subst hsame
      rw [Function.update_self]
      exact (hI.clients hidle other).enqueue request now
    · rw [Function.update_of_ne hsame]
      exact hI.clients hidle other
  · refine ⟨hB, fun hidle other => ?_, hI.viewers, hI.tasks⟩
    show Safe w.Covered (Function.update w.live.lanes uuid n other)
    by_cases hsame : other = uuid
    · subst hsame
      rw [Function.update_self]
      have htimeless : Timeless r.request r.phase := by
        apply hI.timeless
        rw [hqueue]
        exact List.mem_cons_self
      refine (hI.clients hidle other).advance hqueue htimeless hstep hcall.symm ?_
      intro hunplanned htail c expiry hc hexpiry
      refine htimely.2 other expiry ⟨⟨_, _, _, rfl⟩, hunplanned, ?_⟩ ⟨c, hc, hexpiry⟩
      show (Function.update w.live.lanes other n other).queue = _
      rw [Function.update_self]
      exact htail
    · rw [Function.update_of_ne hsame]
      exact hI.clients hidle other

/-- **One step.** -/
theorem Inv.step {w' : AlarmWorld} (hI : w.Inv) (htimely : Timely compact w e w')
    (hstep : w.step compact e = some w') : w'.Inv := by
  obtain ⟨⟨v, call⟩, hbefore, hend⟩ := Option.map_eq_some_iff.mp hstep
  cases call with
  | none =>
    obtain rfl : v = w' := hend
    exact hI.without_call hbefore htimely
  | some now =>
    obtain rfl : v.scheduleExpiryAlarm now = w' := hend
    have hB : v.Base := hI.toBase.before hbefore
    have hplanned := hB.schedule (htimely.1 v now hbefore)
    exact ⟨⟨hB.known, hB.timeless, hB.rechecks⟩,
      fun _ uuid => .inl fun c expiry hc hexpiry => hplanned.clients ⟨c, hc, hexpiry⟩,
      fun _ _ _ h => hplanned.viewers h, fun _ _ _ h => hplanned.tasks h⟩

end AlarmWorld

/-! ## Whole runs -/

/-- **No deadline is forgotten**: whenever no handler is at work, every expiry of a node or a viewer
    and the time of every recheck has an alarm, not later than the deadline or a second after the
    last scheduling.  This in runs in which every scheduling call sees all expiries, or has something
    to wake up for within a second, and a report that is abandoned after its live update finds its
    expiry covered. -/
theorem expiries_planned (compact : Fields → Fields) (es : List AlarmEvent) (w : AlarmWorld)
    (hrun : (alarmMachine compact).run AlarmWorld.start es = some w)
    (htimely : (alarmMachine compact).Along (AlarmWorld.Timely compact) AlarmWorld.start es)
    (hidle : w.Idle) : w.Planned := by
  have hI : w.Inv := (alarmMachine compact).run_inv_along
    (fun _ _ _ hI ht hs => hI.step ht hs) es AlarmWorld.start w AlarmWorld.Inv.start htimely hrun
  refine ⟨?_, hI.viewers hidle.1, hI.tasks hidle.1⟩
  rintro uuid expiry ⟨c, hc, hexpiry⟩
  rcases hI.clients hidle.1 uuid with hall | ⟨r, rest, hqueue, -⟩
  · exact hall c expiry hc hexpiry
  · exact absurd (hqueue.symm.trans (hidle.2 uuid)) (by simp)

/-- The hypotheses are satisfiable: a viewer, and a recheck that an alarm has settled. -/
theorem expiries_planned_viewer : ∃ w, (alarmMachine id).run AlarmWorld.start
        [.viewer "v" none 0, .queueRecheck ⟨1, "r", 5⟩ 10, .alarmStarts true 1010,
          .attemptEnds 0 true 1100, .alarmEnds 1200] = some w ∧
      w.Idle ∧ w.viewers = [("v", 120000)] ∧ w.Planned := by
  have hsees : ∀ {w : AlarmWorld} {now : Int}, w.live = LiveWorld.start → w.viewers = [("v", 120000)] →
      now < 120000 → w.Sees now := by
    intro w now hlive hviewers hnow
    left
    constructor
    · rintro uuid expiry ⟨c, hc, -⟩
      rw [hlive] at hc
      simp [LiveWorld.start] at hc
    · intro id expiry hmem
      rw [hviewers] at hmem
      obtain ⟨-, rfl⟩ := Prod.mk.inj (List.mem_singleton.mp hmem)
      exact hnow
  have hreports : ∀ {w w' : AlarmWorld} {e : AlarmEvent}, (∀ u r p s, e ≠ .advance u r p s) →
      ∀ uuid expiry, w.Abandons e w' uuid → w.Expires uuid expiry → w.Covered expiry := by
    rintro w w' e hother uuid expiry ⟨⟨reply, putFails, socketOpen, he⟩, -⟩
    exact absurd he (hother _ _ _ _)
  have hlanes : ∀ {live : LiveWorld}, live.lanes = LiveWorld.start.lanes →
      live.restoreVersion = 0 → live.controls = Controls.absent → live = LiveWorld.start := by
    rintro ⟨version, controls, lanes⟩ rfl rfl rfl
    rfl
  refine ⟨_, rfl, ⟨rfl, fun _ => rfl⟩, rfl, ?_⟩
  refine expiries_planned id [.viewer "v" none 0, .queueRecheck ⟨1, "r", 5⟩ 10, .alarmStarts true 1010,
    .attemptEnds 0 true 1100, .alarmEnds 1200] _ rfl ⟨⟨?_, hreports (by simp)⟩,
    ⟨?_, hreports (by simp)⟩, ⟨?_, hreports (by simp)⟩, ⟨?_, hreports (by simp)⟩,
    ⟨?_, hreports (by simp)⟩, trivial⟩ ⟨rfl, fun _ => rfl⟩
  · intro v now h
    obtain ⟨rfl, hnow⟩ := Prod.mk.inj (Option.some.inj h)
    cases hnow
    exact hsees rfl rfl (by decide)
  · intro v now h
    obtain ⟨rfl, hnow⟩ := Prod.mk.inj (Option.some.inj h)
    cases hnow
    exact hsees rfl rfl (by decide)
  · intro v now h
    exact absurd (Prod.mk.inj (Option.some.inj h)).2 (by simp)
  · intro v now h
    exact absurd (Prod.mk.inj (Option.some.inj h)).2 (by simp)
  · intro v now h
    obtain ⟨rfl, hnow⟩ := Prod.mk.inj (Option.some.inj h)
    cases hnow
    exact hsees (hlanes rfl rfl rfl) rfl (by decide)

/-- An alarm whose recheck takes longer than a viewer's window forgets the viewer. -/
theorem alarm_forgets_viewer : ∃ w, (alarmMachine id).run AlarmWorld.start
        [.viewer "v" (some 60000) 0, .queueRecheck ⟨1, "r", 5⟩ 58000, .alarmStarts true 59000,
          .attemptEnds 0 true 60100, .alarmEnds 60100] = some w ∧
      w.Idle ∧ w.viewers = [("v", 60000)] ∧ w.alarm = none ∧ ¬ w.Planned := by
  refine ⟨_, rfl, ⟨rfl, fun _ => rfl⟩, rfl, rfl, fun hplanned => ?_⟩
  obtain ⟨time, at_, halarm, -⟩ := hplanned.viewers (List.mem_singleton.mpr rfl)
  have hnone : none = some time := halarm
  cases hnone

end CfMonitor.Live
