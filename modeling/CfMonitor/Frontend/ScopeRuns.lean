/-
  Runs of the scope of the live view.

  1. **One patch** — after a patch the view has what the patch says of its node (`Reflects`), and patches for other
     nodes leave that as it is.  So a node shows the last of the patches that were replayed for it.

  2. **Shape** — the parts of a view are about the same nodes, if those of the snapshots are.

  3. **Condition** — a read that completes replays the patches that came before the first snapshot and those that came
     during the read.  A patch that is newer than the snapshot and came otherwise is lost, and a patch of the read that
     is older than the snapshot wins over a newer one before it.
-/
import CfMonitor.Frontend.SnapshotScope
import CfMonitor.Frontend.LivePatches
import Mathlib.Data.List.Nodup

namespace CfMonitor.Frontend

open CfMonitor.Lib

/-! ## One patch -/

/-- The fields that do not come from a message as they are. -/
def derivedFields : List String := ["cpu_capacity", "metric_errors", "lastReportTime"]

/-- A record has what an update says. -/
def Carries (record : Fields) (message : LiveDataUpdateMessage) : Prop :=
  ∀ key value, Assoc.get? message.data key = some value → key ∉ derivedFields → Assoc.get? record key = some value

/-- A view has what a patch says of its node. -/
def Reflects (view : LiveDataResponse) : LivePatch → Prop
  | .update message => message.client ∈ view.online ∧
      (∃ record, Assoc.get? view.data message.client = some record ∧ Carries record message ∧
        Assoc.get? record "lastReportTime" = some (number message.timestamp)) ∧
      ∃ client, view.client? message.client = some client ∧ client.lastReportTime = message.timestamp
  | .remove message => message.client ∉ view.online ∧ Assoc.get? view.data message.client = none ∧
      view.client? message.client = none

theorem nextRecord_carries (previous : Fields) {message : LiveDataUpdateMessage}
    (hkeys : (Assoc.keys message.data).Nodup) : Carries (nextRecord previous message) message := by
  intro key value hvalue hkey
  simp only [derivedFields, List.mem_cons, List.not_mem_nil, or_false, not_or] at hkey
  obtain ⟨hcapacity, herrors, htime⟩ := hkey
  rw [get?_nextRecord previous message hcapacity herrors, if_neg htime, Assoc.get?_merge hkeys, hvalue]
  rfl

/-- A message as it is parsed: no field twice. -/
def LivePatch.Parsed : LivePatch → Prop
  | .update message => (Assoc.keys message.data).Nodup
  | .remove _ => True

section OnePatch

variable (view : LiveDataResponse)

/-- The view after a patch. -/
def after (patch : LivePatch) : LiveDataResponse := (patch.apply (some view)).getD view

theorem apply_some (patch : LivePatch) : patch.apply (some view) = some (after view patch) := by
  cases patch with
  | update message => rfl
  | remove message =>
    obtain ⟨last, hlast⟩ := remove_some view message
    rw [after, LivePatch.apply, hlast, Option.getD_some]

theorem reflects_after {patch : LivePatch} (hparsed : patch.Parsed) : Reflects (after view patch) patch := by
  cases patch with
  | update message =>
    have hdata : Assoc.get? (after view (.update message)).data message.client =
        some (nextRecord ((Assoc.get? view.data message.client).getD []) message) := by
      show Assoc.get? (Assoc.set view.data message.client (nextRecord _ message)) message.client = _
      rw [Assoc.get?_set, if_pos rfl]
      rfl
    have htime := get?_nextRecord ((Assoc.get? view.data message.client).getD []) message
      (show "lastReportTime" ≠ "cpu_capacity" by decide) (show "lastReportTime" ≠ "metric_errors" by decide)
    rw [if_pos rfl] at htime
    have hclient := (client?_update view message message.client).trans (if_pos rfl)
    exact ⟨(mem_online_update view message _).mpr (.inl rfl), ⟨_, hdata, nextRecord_carries _ hparsed, htime⟩,
      ⟨_, hclient, rfl⟩⟩
  | remove message =>
    obtain ⟨last, hlast⟩ := remove_some view message
    have hafter : after view (.remove message) = _ := Option.some.inj ((apply_some view _).symm.trans hlast)
    rw [hafter]
    refine ⟨?_, ?_, ?_⟩
    · simp
    · rw [Assoc.get?_erase, if_pos rfl]
    · exact find_filter_self view.clients message.client

/-- A patch for another node changes nothing of a node. -/
theorem after_other {patch : LivePatch} {uuid : String} (hne : uuid ≠ patch.client) :
    (uuid ∈ (after view patch).online ↔ uuid ∈ view.online) ∧
      Assoc.get? (after view patch).data uuid = Assoc.get? view.data uuid ∧
      (after view patch).client? uuid = view.client? uuid := by
  cases patch with
  | update message =>
    have hother : uuid ≠ message.client := hne
    refine ⟨?_, ?_, ?_⟩
    · exact (mem_online_update view message uuid).trans (or_iff_right hother)
    · show Assoc.get? (Assoc.set view.data message.client _) uuid = _
      rw [Assoc.get?_set, if_neg hother]
    · exact (client?_update view message uuid).trans (if_neg hother)
  | remove message =>
    have hother : uuid ≠ message.client := hne
    obtain ⟨last, hlast⟩ := remove_some view message
    have hafter : after view (.remove message) = _ := Option.some.inj ((apply_some view _).symm.trans hlast)
    rw [hafter]
    refine ⟨?_, ?_, ?_⟩
    · simp [hother]
    · rw [Assoc.get?_erase, if_neg hother]
    · exact find_filter_ne hother

theorem Reflects.after_other {view : LiveDataResponse} {p patch : LivePatch} (h : Reflects view p)
    (hne : p.client ≠ patch.client) : Reflects (after view patch) p := by
  obtain ⟨honline, hdata, hclient⟩ := Frontend.after_other view hne
  cases p with
  | update message =>
    obtain ⟨hin, ⟨record, hrecord, hcarries⟩, ⟨client, hfound, htime⟩⟩ := h
    exact ⟨honline.mpr hin, ⟨record, hdata.trans hrecord, hcarries⟩, ⟨client, hclient.trans hfound, htime⟩⟩
  | remove message =>
    obtain ⟨hout, hnone, hmissing⟩ := h
    exact ⟨fun hin => hout (honline.mp hin), hdata.trans hnone, hclient.trans hmissing⟩

end OnePatch

/-! ## Replay -/

/-- The last patch for a node. -/
def newest (uuid : String) (patches : List LivePatch) : Option LivePatch :=
  (patches.filter fun patch => decide (patch.client = uuid)).getLast?

theorem newest_concat (uuid : String) (patches : List LivePatch) (patch : LivePatch) :
    newest uuid (patches ++ [patch]) = if patch.client = uuid then some patch else newest uuid patches := by
  rw [newest, List.filter_append]
  split_ifs with heq
  · rw [List.filter_cons_of_pos (by simpa using heq), List.filter_nil, List.getLast?_append]
    rfl
  · rw [List.filter_cons_of_neg (by simpa using heq), List.filter_nil, List.append_nil]
    rfl

variable {uuid : String} {p : LivePatch}

theorem newest_client {patches : List LivePatch} (h : newest uuid patches = some p) : p.client = uuid := by
  have hmem := List.mem_of_getLast? h
  simpa using (List.mem_filter.mp hmem).2

theorem mergePatches_concat (view : LiveDataResponse) (patches : List LivePatch) (patch : LivePatch) :
    mergePatches view (patches ++ [patch]) = after (mergePatches view patches) patch := by
  rw [mergePatches, List.foldl_append]
  rfl

/-- **A node shows the last patch** that is replayed for it. -/
theorem reflects_newest (view : LiveDataResponse) (patches : List LivePatch) (hparsed : ∀ p ∈ patches, p.Parsed)
    (h : newest uuid patches = some p) : Reflects (mergePatches view patches) p := by
  induction patches using List.reverseRecOn with
  | nil => simp [newest] at h
  | append_singleton patches patch ih =>
    rw [mergePatches_concat]
    rw [newest_concat] at h
    split_ifs at h with heq
    · obtain rfl := Option.some.inj h
      exact reflects_after _ (hparsed patch (by simp))
    · refine (ih (fun q hq => hparsed q (List.mem_append_left _ hq)) h).after_other ?_
      rw [newest_client h]
      exact Ne.symm heq

/-! ## Shape -/

/-- The parts of a view are about the same nodes. -/
structure LiveDataResponse.WellFormed (view : LiveDataResponse) : Prop where
  nodup : view.online.Nodup
  clients : ∀ uuid, uuid ∈ view.online ↔ uuid ∈ view.clients.map LiveClient.uuid
  data : ∀ uuid, uuid ∈ view.online ↔ uuid ∈ Assoc.keys view.data
  apart : ∀ uuid ∈ view.online, uuid ∉ Assoc.keys view.last_known
  count : view.count = view.online.length

theorem wellFormed_empty : LiveDataResponse.empty.WellFormed :=
  ⟨List.nodup_nil, fun _ => Iff.rfl, fun _ => Iff.rfl, nofun, rfl⟩

theorem applyLiveUpdate_getD (current : Option LiveDataResponse) (message : LiveDataUpdateMessage) :
    applyLiveUpdate current message = applyLiveUpdate (some (current.getD .empty)) message := by
  cases current <;> rfl

theorem mem_uuids_filter {clients : List LiveClient} {other : String} :
    uuid ∈ (clients.filter fun client => decide (client.uuid ≠ other)).map LiveClient.uuid ↔
      uuid ≠ other ∧ uuid ∈ clients.map LiveClient.uuid := by
  constructor
  · intro h
    obtain ⟨client, hmem, rfl⟩ := List.mem_map.mp h
    obtain ⟨hin, hne⟩ := List.mem_filter.mp hmem
    exact ⟨of_decide_eq_true hne, List.mem_map_of_mem hin⟩
  · rintro ⟨hne, h⟩
    obtain ⟨client, hin, rfl⟩ := List.mem_map.mp h
    exact List.mem_map_of_mem (List.mem_filter.mpr ⟨hin, decide_eq_true hne⟩)

theorem LiveDataResponse.WellFormed.update {view : LiveDataResponse} (h : view.WellFormed)
    (message : LiveDataUpdateMessage) : (applyLiveUpdate (some view) message).WellFormed := by
  constructor
  · show (if view.online.contains message.client then view.online else view.online ++ [message.client]).Nodup
    split_ifs with hin
    · exact h.nodup
    · have hout : message.client ∉ view.online := by simpa using hin
      exact List.nodup_append.mpr ⟨h.nodup, List.nodup_singleton _, by
        intro a ha b hb hab
        rw [List.mem_singleton.mp hb] at hab
        exact hout (hab ▸ ha)⟩
  · intro uuid
    rw [mem_online_update]
    show _ ↔ uuid ∈ List.map LiveClient.uuid (List.filter _ view.clients ++ [_])
    rw [List.map_append, List.mem_append, mem_uuids_filter, List.map_singleton, List.mem_singleton, ← h.clients]
    by_cases heq : uuid = message.client
    · simp [heq]
    · simp [heq]
  · intro uuid
    rw [mem_online_update]
    show _ ↔ uuid ∈ Assoc.keys (Assoc.set view.data message.client _)
    rw [Assoc.mem_keys_set, ← h.data]
  · intro uuid hin hlast
    rw [mem_online_update] at hin
    obtain ⟨hne, hold⟩ := Assoc.mem_keys_erase.mp hlast
    exact h.apart uuid (hin.resolve_left hne) hold
  · rfl

theorem mem_lastKnownAfter {view : LiveDataResponse} {message : LiveDataRemoveMessage}
    {explicitLast : Option LastKnownRecord}
    (h : uuid ∈ Assoc.keys (lastKnownAfter view message explicitLast)) :
    uuid = message.client ∨ uuid ∈ Assoc.keys view.last_known := by
  rw [lastKnownAfter] at h
  cases hlast : (if message.offline then nextLastKnown view message explicitLast else none) with
  | none =>
    rw [hlast] at h
    exact .inr (Assoc.mem_keys_erase.mp h).2
  | some last =>
    rw [hlast] at h
    rcases Assoc.mem_keys_set.mp h with heq | hkept
    · exact .inl heq
    · exact .inr (Assoc.mem_keys_erase.mp hkept).2

theorem LiveDataResponse.WellFormed.remove {view : LiveDataResponse} (h : view.WellFormed)
    (message : LiveDataRemoveMessage) : (after view (.remove message)).WellFormed := by
  have honline : ∀ uuid, uuid ∈ (view.online.filter fun uuid => decide (uuid ≠ message.client)) ↔
      uuid ≠ message.client ∧ uuid ∈ view.online := by
    intro uuid
    rw [List.mem_filter, decide_eq_true_eq]
    exact and_comm
  constructor
  · exact h.nodup.filter _
  · intro uuid
    exact (honline uuid).trans ((and_congr_right fun _ => h.clients uuid).trans mem_uuids_filter.symm)
  · intro uuid
    exact (honline uuid).trans ((and_congr_right fun _ => h.data uuid).trans Assoc.mem_keys_erase.symm)
  · intro uuid hin hlast
    obtain ⟨hne, hold⟩ := (honline uuid).mp hin
    rcases mem_lastKnownAfter hlast with heq | hkept
    · exact hne heq
    · exact h.apart uuid hold hkept
  · rfl

theorem LiveDataResponse.WellFormed.merge {view : LiveDataResponse} (h : view.WellFormed) (patches : List LivePatch) :
    (mergePatches view patches).WellFormed := by
  induction patches generalizing view with
  | nil => exact h
  | cons patch rest ih =>
    apply ih
    cases patch with
    | update message => exact h.update message
    | remove message => exact h.remove message

/-! ## Runs -/

/-- The snapshot that an event commits, and the patches that are replayed over it. -/
def commitOf (s : LiveSnapshotScope) : ScopeEvent → Option (LiveDataResponse × List LivePatch)
  | .complete request snapshot => (s.isPending request).bind fun read =>
    if s.active then some (snapshot, newerThan snapshot read.priorUpdates ++ read.updates) else none
  | .seed snapshot =>
    if s.active && !s.hasSnapshot then some (snapshot, newerThan snapshot s.initialUpdates) else none
  | _ => none

/-- The snapshot that an event brings. -/
def ScopeEvent.snapshot? : ScopeEvent → Option LiveDataResponse
  | .complete _ view | .snapshot view | .seed view => some view
  | _ => none

def ScopeEvent.Parsed : ScopeEvent → Prop
  | .patch message => message.Parsed
  | _ => True

/-- A read that completes replays, for each node, the last of all patches that are newer than the snapshot. -/
def ReplaysNewest (s : LiveSnapshotScope) (event : ScopeEvent) (_ : LiveSnapshotScope) : Prop :=
  ∀ request snapshot, event = .complete request snapshot → ∀ patches, commitOf s event = some (snapshot, patches) →
    ∀ uuid p, newest uuid (newerThan snapshot s.received) = some p → newest uuid patches = some p

/-- What a step may do to the view. -/
structure KeepsPatches (s : LiveSnapshotScope) (event : ScopeEvent) (s' : LiveSnapshotScope) : Prop where
  /-- A snapshot that is committed shows each node with the last patch that is newer. -/
  commits : ∀ snapshot patches, commitOf s event = some (snapshot, patches) → ∃ view, s'.current = some view ∧
      ∀ uuid p, newest uuid (newerThan snapshot s.received) = some p → Reflects view p
  /-- A request after which another one began changes nothing. -/
  superseded : ∀ request snapshot, event = .complete request snapshot → request + 1 < s.nextRequest → s' = s
  /-- A scope that was disposed of keeps its view. -/
  disposed : s.active = false → s'.current = s.current

structure ScopeInv (s : LiveSnapshotScope) : Prop where
  received : ∀ p ∈ s.received, p.Parsed
  initial : ∀ p ∈ s.initialUpdates, p.Parsed
  pending : ∀ request read, s.pending = some (request, read) →
    request + 1 = s.nextRequest ∧ (∀ p ∈ read.priorUpdates, p.Parsed) ∧ ∀ p ∈ read.updates, p.Parsed
  fresh : s.active = true → s.hasSnapshot = false → s.initialUpdates = s.received
  disposed : s.active = false → s.current = none

variable {s s' : LiveSnapshotScope} {event : ScopeEvent}

theorem commit_current {view : LiveDataResponse}
    {patches : List LivePatch} (h : commitOf s event = some (view, patches))
    (hstep : scopeMachine.step s event = some s') : s'.current = some (mergePatches view patches) := by
  cases event with
  | complete request view' =>
    cases hstep
    obtain ⟨read, hread, hcommit⟩ := Option.bind_eq_some_iff.mp h
    split_ifs at hcommit with hactive
    obtain ⟨rfl, rfl⟩ := Prod.mk.inj (Option.some.inj hcommit)
    show (s.complete request view').current = _
    rw [LiveSnapshotScope.complete, hread]
    simp only [hactive, if_true]
    rw [mergePrior, mergePatches, mergePatches, mergePatches, List.foldl_append]
  | seed view' =>
    cases hstep
    replace h : (if s.active && !s.hasSnapshot then some (view', newerThan view' s.initialUpdates) else none) =
      some (view, patches) := h
    split_ifs at h with hseeds
    obtain ⟨rfl, rfl⟩ := Prod.mk.inj (Option.some.inj h)
    show (s.seed view').current = _
    rw [LiveSnapshotScope.seed, if_pos hseeds]
    rfl
  | _ => simp [commitOf] at h

theorem ScopeInv.commit_parsed (h : ScopeInv s) {view : LiveDataResponse}
    {patches : List LivePatch} (hcommit : commitOf s event = some (view, patches)) : ∀ p ∈ patches, p.Parsed := by
  cases event with
  | complete request view' =>
    obtain ⟨read, hread, hpatches⟩ := Option.bind_eq_some_iff.mp hcommit
    split_ifs at hpatches
    cases hpatches
    obtain ⟨⟨id, _⟩, hpending, rfl⟩ := Option.map_eq_some_iff.mp hread
    obtain ⟨-, hprior, hupdates⟩ := h.pending id _ (Option.filter_eq_some_iff.mp hpending).1
    intro p hp
    rcases List.mem_append.mp hp with hin | hin
    · exact hprior p (List.mem_filter.mp hin).1
    · exact hupdates p hin
  | seed view' =>
    replace hcommit : (if s.active && !s.hasSnapshot then some (view', newerThan view' s.initialUpdates) else none) =
      some (view, patches) := hcommit
    split_ifs at hcommit
    cases hcommit
    exact fun p hp => h.initial p (List.mem_filter.mp hp).1
  | _ => simp [commitOf] at hcommit

theorem scopeInv_start : ScopeInv LiveSnapshotScope.start := by
  constructor
  · exact nofun
  · exact nofun
  · exact nofun
  · exact fun _ _ => rfl
  · exact nofun

variable {message : LivePatch}

theorem parsed_concat {patches : List LivePatch} (h : ∀ p ∈ patches, p.Parsed)
    (hmessage : message.Parsed) : ∀ p ∈ patches ++ [message], p.Parsed := by
  intro p hp
  rcases List.mem_append.mp hp with hold | hnew
  · exact h p hold
  · rw [List.mem_singleton.mp hnew]
    exact hmessage

theorem ScopeInv.patch (h : ScopeInv s) (hmessage : message.Parsed) : ScopeInv (s.patch message) := by
  rw [LiveSnapshotScope.patch]
  split_ifs with hactive hsnapshot
  · -- there is a snapshot: only a pending read takes the patch
    refine ⟨parsed_concat h.received hmessage, h.initial, ?_,
      fun _ (hnone : s.hasSnapshot = false) => absurd hsnapshot (by simp [hnone]),
      fun (hinactive : s.active = false) => absurd hactive (by simp [hinactive])⟩
    intro request read hpending
    obtain ⟨⟨id, old⟩, hold, heq⟩ := Option.map_eq_some_iff.mp hpending
    cases heq
    obtain ⟨hid, hprior, hupdates⟩ := h.pending id old hold
    exact ⟨hid, hprior, parsed_concat hupdates hmessage⟩
  · refine ⟨parsed_concat h.received hmessage, parsed_concat h.initial hmessage, ?_, ?_,
      fun (hinactive : s.active = false) => absurd hactive (by simp [hinactive])⟩
    · intro request read hpending
      obtain ⟨⟨id, old⟩, hold, heq⟩ := Option.map_eq_some_iff.mp hpending
      cases heq
      obtain ⟨hid, hprior, hupdates⟩ := h.pending id old hold
      exact ⟨hid, hprior, parsed_concat hupdates hmessage⟩
    · intro _ hnone
      exact congrArg (· ++ [message]) (h.fresh hactive hnone)
  · exact h

theorem ScopeInv.step {s : LiveSnapshotScope} {event : ScopeEvent} {s' : LiveSnapshotScope} (h : ScopeInv s)
    (hparsed : event.Parsed) (hstep : scopeMachine.step s event = some s') : ScopeInv s' := by
  cases hstep
  have hnothing : ∀ request read, (none : Option (Nat × LiveSnapshotRead)) = some (request, read) →
      request + 1 = s.nextRequest ∧ (∀ p ∈ read.priorUpdates, p.Parsed) ∧ ∀ p ∈ read.updates, p.Parsed :=
    nofun
  have hempty : ∀ p ∈ ([] : List LivePatch), p.Parsed := nofun
  cases event with
  | beginRead =>
    refine ⟨h.received, h.initial, ?_, h.fresh, h.disposed⟩
    intro request read hpending
    cases hpending
    exact ⟨rfl, h.initial, hempty⟩
  | finishRead request =>
    show ScopeInv (s.finishRead request)
    rw [LiveSnapshotScope.finishRead]
    split_ifs
    · exact ⟨h.received, h.initial, hnothing, h.fresh, h.disposed⟩
    · exact h
  | complete request view =>
    show ScopeInv (s.complete request view)
    rw [LiveSnapshotScope.complete]
    cases s.isPending request with
    | none => exact h
    | some read =>
      show ScopeInv (if s.active then _ else s)
      split_ifs with hactive
      · exact ⟨h.received, hempty, hnothing, nofun,
          fun (hinactive : s.active = false) => absurd hactive (by simp [hinactive])⟩
      · exact h
  | snapshot view =>
    show ScopeInv (s.takeSnapshot view)
    rw [LiveSnapshotScope.takeSnapshot]
    split_ifs with hactive
    · exact ⟨h.received, hempty, hnothing, nofun,
        fun (hinactive : s.active = false) => absurd hactive (by simp [hinactive])⟩
    · exact h
  | seed view =>
    show ScopeInv (s.seed view)
    rw [LiveSnapshotScope.seed]
    split_ifs with hseeds
    · have hactive := (Bool.and_eq_true_iff.mp hseeds).1
      exact ⟨h.received, hempty, h.pending, nofun,
        fun (hinactive : s.active = false) => absurd hactive (by simp [hinactive])⟩
    · exact h
  | patch message => exact h.patch hparsed
  | dispose =>
    exact ⟨h.received, hempty, hnothing, nofun,
      fun _ => rfl⟩

theorem step_disposed (hinactive : s.active = false) (hnone : s.current = none)
    (hstep : scopeMachine.step s event = some s') :
    s'.current = s.current := by
  cases hstep
  cases event with
  | beginRead => rfl
  | finishRead request =>
    show (s.finishRead request).current = _
    rw [LiveSnapshotScope.finishRead]
    split_ifs <;> rfl
  | complete request view =>
    show (s.complete request view).current = _
    rw [LiveSnapshotScope.complete]
    cases s.isPending request <;> simp [hinactive]
  | snapshot view => simp [LiveSnapshotScope.takeSnapshot, hinactive]
  | seed view => simp [LiveSnapshotScope.seed, hinactive]
  | patch message => simp [LiveSnapshotScope.patch, hinactive]
  | dispose => exact hnone.symm

theorem commit_newest (h : ScopeInv s)
    (hreplays : ReplaysNewest s event s') {view : LiveDataResponse} {patches : List LivePatch}
    (hcommit : commitOf s event = some (view, patches))
    (hnewest : newest uuid (newerThan view s.received) = some p) : newest uuid patches = some p := by
  cases event with
  | complete request view' =>
    have hview : view' = view := by
      obtain ⟨read, -, hpatches⟩ := Option.bind_eq_some_iff.mp hcommit
      split_ifs at hpatches
      exact (Prod.mk.inj (Option.some.inj hpatches)).1
    subst hview
    exact hreplays request view' rfl patches hcommit uuid p hnewest
  | seed view' =>
    replace hcommit : (if s.active && !s.hasSnapshot then some (view', newerThan view' s.initialUpdates) else none) =
      some (view, patches) := hcommit
    split_ifs at hcommit with hseeds
    cases hcommit
    obtain ⟨hactive, hfirst⟩ := Bool.and_eq_true_iff.mp hseeds
    rw [h.fresh hactive (by simpa using hfirst)]
    exact hnewest
  | _ => simp [commitOf] at hcommit

theorem keepsPatches_step (h : ScopeInv s)
    (hreplays : ReplaysNewest s event s') (hstep : scopeMachine.step s event = some s') :
    KeepsPatches s event s' := by
  constructor
  · intro view patches hcommit
    refine ⟨_, commit_current hcommit hstep, fun uuid p hnewest => ?_⟩
    exact reflects_newest view patches (h.commit_parsed hcommit) (commit_newest h hreplays hcommit hnewest)
  · rintro request view rfl hsuperseded
    cases hstep
    have hnone : s.isPending request = none := by
      rw [LiveSnapshotScope.isPending]
      cases hpending : s.pending with
      | none => rfl
      | some p =>
        have hid := (h.pending p.1 p.2 hpending).1
        have hne : p.1 ≠ request := by omega
        simp [Option.filter_some, hne]
    show s.complete request view = s
    rw [LiveSnapshotScope.complete, hnone]
  · intro hinactive
    exact step_disposed hinactive (h.disposed hinactive) hstep

theorem snapshot_of_commit {base : LiveDataResponse}
    {patches : List LivePatch} (h : commitOf s event = some (base, patches)) : event.snapshot? = some base := by
  cases event with
  | complete request view =>
    obtain ⟨read, -, hpatches⟩ := Option.bind_eq_some_iff.mp h
    split_ifs at hpatches
    exact congrArg some (Prod.mk.inj (Option.some.inj hpatches)).1
  | seed view =>
    replace h : (if s.active && !s.hasSnapshot then some (view, newerThan view s.initialUpdates) else none) =
      some (base, patches) := h
    split_ifs at h
    exact congrArg some (Prod.mk.inj (Option.some.inj h)).1
  | _ => simp [commitOf] at h

theorem remove_none (message : LiveDataRemoveMessage) : applyLiveRemove none message = none ∨
    applyLiveRemove none message = some (after .empty (.remove message)) := by
  cases hlast : (if message.offline then normalizeLastKnownRecord message.last_known message.client else none) with
  | none => exact .inl (by simp [applyLiveRemove, hlast])
  | some last =>
    right
    simp [applyLiveRemove, hlast, after, LivePatch.apply]

theorem apply_wellFormed {current : Option LiveDataResponse} (h : ∀ view, current = some view → view.WellFormed)
    (patch : LivePatch) : ∀ view, patch.apply current = some view → view.WellFormed := by
  intro view hview
  have hbase : (current.getD .empty).WellFormed := by
    cases current with
    | none => exact wellFormed_empty
    | some old => exact h old rfl
  cases patch with
  | update message =>
    cases hview
    rw [applyLiveUpdate_getD]
    exact hbase.update message
  | remove message =>
    cases current with
    | some old =>
      rw [apply_some] at hview
      cases hview
      exact hbase.remove message
    | none =>
      rcases remove_none message with hnone | hsome
      · cases hnone.symm.trans hview
      · obtain rfl := Option.some.inj (hsome.symm.trans hview)
        exact hbase.remove message

theorem current_wellFormed (h : ∀ view, s.current = some view → view.WellFormed)
    (hsnapshot : ∀ view, event.snapshot? = some view → view.WellFormed)
    (hstep : scopeMachine.step s event = some s') : ∀ view, s'.current = some view → view.WellFormed := by
  match hcommit : commitOf s event with
  | some (base, patches) =>
    intro view hview
    rw [commit_current hcommit hstep] at hview
    cases hview
    exact (hsnapshot base (snapshot_of_commit hcommit)).merge patches
  | none =>
    cases hstep
    cases event with
    | beginRead => exact h
    | finishRead request =>
      show ∀ view, (s.finishRead request).current = some view → _
      rw [LiveSnapshotScope.finishRead]
      split_ifs
      · exact h
      · exact h
    | complete request snapshot =>
      show ∀ view, (s.complete request snapshot).current = some view → _
      rw [LiveSnapshotScope.complete]
      cases hread : s.isPending request with
      | none => exact h
      | some read =>
        rw [commitOf, hread, Option.bind_some] at hcommit
        split_ifs at hcommit with hactive
        show ∀ view, (if s.active then _ else s).current = some view → _
        rw [if_neg hactive]
        exact h
    | snapshot snapshot =>
      show ∀ view, (s.takeSnapshot snapshot).current = some view → _
      rw [LiveSnapshotScope.takeSnapshot]
      split_ifs
      · exact hsnapshot
      · exact h
    | seed snapshot =>
      show ∀ view, (s.seed snapshot).current = some view → _
      replace hcommit : (if s.active && !s.hasSnapshot then some (snapshot, newerThan snapshot s.initialUpdates)
        else none) = none := hcommit
      rw [LiveSnapshotScope.seed]
      split_ifs at hcommit ⊢
      exact h
    | patch message =>
      show ∀ view, (s.patch message).current = some view → _
      rw [LiveSnapshotScope.patch]
      split_ifs
      · exact apply_wellFormed h message
      · exact apply_wellFormed h message
      · exact h
    | dispose => exact nofun

/-- **A snapshot loses no patch** in runs whose reads replay the newest ones. -/
theorem scope_keeps_patches {events : List ScopeEvent} {s : LiveSnapshotScope}
    (hrun : scopeMachine.run .start events = some s) (hparsed : ∀ event ∈ events, event.Parsed)
    (hreplays : scopeMachine.Along ReplaysNewest .start events) :
    scopeMachine.Along KeepsPatches .start events ∧
      ((∀ event ∈ events, ∀ view, event.snapshot? = some view → view.WellFormed) →
        ∀ view, s.current = some view → view.WellFormed) := by
  constructor
  · have hsteps := scopeMachine.along_and_labels events .start hparsed hreplays
    exact scopeMachine.along_imp (I := ScopeInv) (fun s event s' hinv hcond hstep =>
      ⟨hinv.step hcond.1 hstep, keepsPatches_step hinv hcond.2 hstep⟩) events .start scopeInv_start hsteps
  · intro hsnapshots
    exact scopeMachine.run_inv_of (I := fun s => ∀ view, s.current = some view → view.WellFormed)
      (fun _ _ _ h hsnapshot hstep => current_wellFormed h hsnapshot hstep) events .start s
      nofun hsnapshots hrun

/-! ### Witnesses -/

/-- A report of a node: `cpu` and a time. -/
def report (client : String) (cpu at_ : ℚ) : LivePatch := .update ⟨client, none, [("cpu", number cpu)], at_⟩

def snapshotAt (at_ : ℚ) : LiveDataResponse := { LiveDataResponse.empty with timestamp := at_ }

/-- The read brings a snapshot that is older than both reports. -/
def readBeforeFirst : List ScopeEvent :=
  [.patch (report "n" 1 100), .beginRead, .patch (report "n" 2 110), .complete 0 (snapshotAt 90)]

/-- The report came before the read, and the read brings a snapshot from before the report. -/
def readAfterFirst : List ScopeEvent :=
  [.seed (snapshotAt 10), .patch (report "n" 1 100), .beginRead, .complete 0 (snapshotAt 90)]

theorem newerThan_all {snapshot : LiveDataResponse} {patches : List LivePatch}
    (h : ∀ p ∈ patches, snapshot.timestamp < p.timestamp) : newerThan snapshot patches = patches := by
  rw [newerThan, List.filter_eq_self]
  exact fun p hp => decide_eq_true (h p hp)

theorem both_reports_kept : scopeMachine.Along KeepsPatches .start readBeforeFirst ∧
    ((∀ event ∈ readBeforeFirst, ∀ view, event.snapshot? = some view → view.WellFormed) →
      ∀ view, (scopeMachine.run .start readBeforeFirst).bind LiveSnapshotScope.current = some view →
        view.WellFormed) := by
  obtain ⟨s, hrun⟩ : ∃ s, scopeMachine.run .start readBeforeFirst = some s := ⟨_, rfl⟩
  have hparsed : ∀ event ∈ readBeforeFirst, event.Parsed := by
    simp [readBeforeFirst, ScopeEvent.Parsed, LivePatch.Parsed, report, Assoc.keys]
  have hreplays : scopeMachine.Along ReplaysNewest .start readBeforeFirst := by
    have hfirst : newerThan (snapshotAt 90) [report "n" 1 100] = [report "n" 1 100] :=
      newerThan_all (by simp [report, snapshotAt, LivePatch.timestamp]; norm_num)
    have hboth : newerThan (snapshotAt 90) [report "n" 1 100, report "n" 2 110] =
        [report "n" 1 100, report "n" 2 110] :=
      newerThan_all (by simp [report, snapshotAt, LivePatch.timestamp]; norm_num)
    refine ⟨fun _ _ h => (nomatch h), fun _ _ h => (nomatch h), fun _ _ h => (nomatch h), ?_, trivial⟩
    intro request view hevent patches hcommit uuid p hnewest
    obtain ⟨rfl, rfl⟩ : 0 = request ∧ snapshotAt 90 = view := by simpa using hevent
    obtain rfl : newerThan (snapshotAt 90) [report "n" 1 100] ++ [report "n" 2 110] = patches :=
      (Prod.mk.inj (Option.some.inj hcommit)).2
    replace hnewest : newest uuid (newerThan (snapshotAt 90) [report "n" 1 100, report "n" 2 110]) = some p := hnewest
    rw [hboth] at hnewest
    rw [hfirst]
    exact hnewest
  rw [hrun]
  exact scope_keeps_patches hrun hparsed hreplays

theorem report_lost : ¬ ∀ (events : List ScopeEvent), (∀ event ∈ events, event.Parsed) →
    scopeMachine.Along KeepsPatches .start events := by
  intro h
  have hparsed : ∀ event ∈ readAfterFirst, event.Parsed := by
    simp [readAfterFirst, ScopeEvent.Parsed, LivePatch.Parsed, report, Assoc.keys]
  obtain ⟨-, -, -, hkeeps, -⟩ := h readAfterFirst hparsed
  have hnewer : newerThan (snapshotAt 90) [report "n" 1 100] = [report "n" 1 100] :=
    newerThan_all (by simp [report, snapshotAt, LivePatch.timestamp]; norm_num)
  obtain ⟨view, hview, hshows⟩ := hkeeps.commits (snapshotAt 90) [] rfl
  obtain rfl : snapshotAt 90 = view := Option.some.inj hview
  have hreflects : Reflects (snapshotAt 90) (report "n" 1 100) := by
    apply hshows "n"
    show newest "n" (newerThan (snapshotAt 90) [report "n" 1 100]) = _
    rw [hnewer]
    rfl
  exact List.not_mem_nil hreflects.1

end CfMonitor.Frontend
