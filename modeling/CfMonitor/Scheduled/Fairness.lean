/-
  Scheduled work is served in turn.

  1. **One key** (`served_in_order`) — whatever the budgets of its calls, `scheduledItems` serves the
     items of a key one after another around the list.

  2. **Three cursors** (`loadGroup_measure`) — before a target is served, its group, its rule in the
     group and the target itself are some items ahead.  A round that does not serve it comes nearer.

  3. **Results** (`scheduled_round_robin`) — the rounds in which the target of a rule is served at the
     latest, for any budgets.
-/
import Mathlib
import CfMonitor.Scheduled.Cursors

namespace CfMonitor.Scheduled

open CfMonitor.Lib
open String (toList toList_append)
open Assoc (get? get?_of_mem get?_set mem_of_get? mem_set)
open RoundRobin (foldl_dead foldl_sets foldl_withNext lap lapTo mem_withNext ring visitAt visitAt_keeps
  visitAt_lt withNext)

/-! ## Cursors -/

section Position

variable {α : Type} {cursors : Cursors} {key : String} {items : List α} {identify : α → String}

theorem cursorPosition_lt (h : items ≠ []) : cursorPosition cursors key items identify < items.length := by
  rw [cursorPosition]
  cases hfind : items.findIdx? fun item => decide (some (identify item) = get? cursors key) with
  | none => exact List.length_pos_iff.mpr h
  | some i => exact (List.findIdx?_eq_some_iff_findIdx_eq.mp hfind).1

theorem cursorPosition_congr {cursors' : Cursors} (h : get? cursors key = get? cursors' key) :
    cursorPosition cursors key items identify = cursorPosition cursors' key items identify := by
  rw [cursorPosition, cursorPosition, h]

theorem ahead_cursor_lt {i : Nat} (hi : i < items.length) :
    RoundRobin.ahead items.length (cursorPosition cursors key items identify) i < items.length :=
  RoundRobin.ahead_lt (cursorPosition_lt (List.ne_nil_of_length_pos (Nat.lt_of_le_of_lt (Nat.zero_le i) hi))) hi

theorem cursorPosition_of_get? (hnodup : (items.map identify).Nodup) {i : Nat} (hi : i < items.length)
    (h : get? cursors key = some (identify (items.get ⟨i, hi⟩))) :
    cursorPosition cursors key items identify = i := by
  have hfind : items.findIdx? (fun item => decide (some (identify item) = get? cursors key)) = some i := by
    rw [List.findIdx?_eq_some_iff_getElem]
    refine ⟨hi, by simp [h], fun j hj => ?_⟩
    have hne : identify items[j] ≠ identify items[i] := by
      intro heq
      have hi' : i < (items.map identify).length := by simpa using hi
      have hj' : j < (items.map identify).length := by omega
      have hsame : (items.map identify)[j] = (items.map identify)[i] := by simpa using heq
      have hij := (List.Nodup.getElem_inj_iff hnodup).mp hsame
      omega
    simp [h, hne]
  rw [cursorPosition, hfind]
  rfl

theorem withNext_order_ne_nil (h : items ≠ []) :
    withNext (orderScheduledItems cursors key items identify) ≠ [] := by
  have hlength : (withNext (orderScheduledItems cursors key items identify)).length = items.length := by
    have hposition : cursorPosition cursors key items identify < items.length := cursorPosition_lt h
    simp [withNext, orderScheduledItems]
    omega
  intro hnil
  rw [hnil] at hlength
  exact h (List.length_eq_zero_iff.mp hlength.symm)

theorem mem_order {item : α} (h : item ∈ orderScheduledItems cursors key items identify) : item ∈ items := by
  rcases List.mem_append.mp h with hd | ht
  · exact List.mem_of_mem_drop hd
  · exact List.mem_of_mem_take ht

end Position

/-- Items with one identity are at one position. -/
theorem index_of_map_nodup {α : Type} {items : List α} {identify : α → String}
    (hnodup : (items.map identify).Nodup) {i j : Nat} (hi : i < items.length) (hj : j < items.length)
    (h : identify (items.get ⟨i, hi⟩) = identify (items.get ⟨j, hj⟩)) : i = j := by
  have hi' : i < (items.map identify).length := by simpa using hi
  have hj' : j < (items.map identify).length := by simpa using hj
  have hsame : (items.map identify)[i] = (items.map identify)[j] := by simpa using h
  exact (List.Nodup.getElem_inj_iff hnodup).mp hsame

theorem turns_of_cursor {β : Type} {α : Type} {key : String} {items : List α} {identify : α → String}
    {visit : Round β → α × α → Round β} (hnodup : (items.map identify).Nodup)
    (hdead : ∀ (r : Round β) turn, ¬ 0 < r.budget → visit r turn = r)
    (hcursor : ∀ (r : Round β) turn, turn.1 ∈ items → 0 < r.budget →
      get? (visit r turn).cursors key = some (identify turn.2)) :
    RoundRobin.Turns items.length (fun r : Round β => 0 < r.budget)
      (fun r => cursorPosition r.cursors key items identify) (visitAt items visit) where
  dead := by
    intro i r hr
    rw [visitAt]
    split_ifs with hi
    · exact hdead r _ hr
    · rfl
  turn := by
    intro i r hi hr
    have hnext : (i + 1) % items.length < items.length := Nat.mod_lt _ (by omega)
    rw [visitAt_lt hi hnext rfl]
    exact cursorPosition_of_get? hnodup hnext (hcursor r _ (List.get_mem items ⟨i, hi⟩) hr)

/-! ## One key -/

section OneKey

variable {α β : Type} {key : String} {items : List α} {identify : α → String} {emit : α → β}
  {completed : Cursors → Cursors}

theorem serveItem_dead {round : Round β} (turn : α × α) (h : ¬ 0 < round.budget) :
    serveItem key identify emit completed round turn = round := if_pos (by omega)

theorem serveItem_live {round : Round β} (turn : α × α) (h : 0 < round.budget) :
    serveItem key identify emit completed round turn =
      { cursors := completed (Assoc.set round.cursors key (identify turn.2))
        budget := round.budget - 1
        served := round.served ++ [emit turn.1] } := if_neg (by omega)

/-- The callback leaves the cursor of a key alone. -/
def Keeps (key : String) (change : Cursors → Cursors) : Prop :=
  ∀ cursors, Assoc.get? (change cursors) key = Assoc.get? cursors key

theorem get?_serveItem (hkeeps : Keeps key completed) {round : Round β} (turn : α × α) (h : 0 < round.budget) :
    get? (serveItem key identify emit completed round turn).cursors key = some (identify turn.2) := by
  rw [serveItem_live turn h]
  show get? (completed _) key = _
  rw [hkeeps, get?_set, if_pos rfl]

theorem scheduledItems_lap (hitems : items ≠ []) (round : Round β) :
    scheduledItems key items identify emit completed round =
      lap items.length (visitAt items (serveItem key identify emit completed))
        (cursorPosition round.cursors key items identify) round :=
  foldl_withNext items _ (cursorPosition_lt hitems) round

theorem lapTo_spec (hkeeps : Keeps key completed) {start : Nat} (hstart : start < items.length)
    (round : Round β) (k : Nat) :
    (lapTo items.length (visitAt items (serveItem key identify emit completed)) start k
        round).budget = round.budget - k ∧
      (lapTo items.length (visitAt items (serveItem key identify emit completed)) start k
        round).served = round.served ++
          ((ring items.length start (min round.budget k)).filterMap (items[·]?)).map emit ∧
      get? (lapTo items.length (visitAt items (serveItem key identify emit completed))
        start k round).cursors key =
          if min round.budget k = 0 then get? round.cursors key
          else (items[(start + min round.budget k) % items.length]?).map identify := by
  induction k with
  | zero => simp [lapTo, ring]
  | succ k ih =>
    obtain ⟨hbudget, hserved, hcursor⟩ := ih
    have hn : 0 < items.length := by omega
    have hat : (start + k) % items.length < items.length := Nat.mod_lt _ hn
    have hnext : (start + (k + 1)) % items.length < items.length := Nat.mod_lt _ hn
    rw [RoundRobin.lapTo_succ, visitAt_lt hat hnext (by rw [Nat.mod_add_mod, Nat.add_assoc])]
    by_cases hlive : k < round.budget
    · have hk : min round.budget k = k := Nat.min_eq_right (Nat.le_of_lt hlive)
      have hk' : min round.budget (k + 1) = k + 1 := Nat.min_eq_right hlive
      rw [hk] at hserved
      refine ⟨?_, ?_, ?_⟩
      · rw [serveItem_live _ (by omega)]
        show _ - 1 = _
        omega
      · rw [serveItem_live _ (by omega), hk', RoundRobin.ring_succ, List.filterMap_append, List.map_append,
          ← List.append_assoc, ← hserved]
        simp [hat]
      · rw [get?_serveItem hkeeps _ (by omega), hk', if_neg (by omega)]
        simp [hnext]
    · have hk : min round.budget (k + 1) = min round.budget k := by omega
      rw [serveItem_dead _ (by omega), hk]
      exact ⟨by omega, hserved, hcursor⟩

/-- **One call**: as many items as the budget allows, from the cursor on; the cursor then names the
    item behind them. -/
theorem scheduledItems_spec (hnodup : (items.map identify).Nodup) (hkeeps : Keeps key completed)
    (round : Round β) :
    (scheduledItems key items identify emit completed round).served
        = round.served ++ ((ring items.length (cursorPosition round.cursors key items identify)
            (min round.budget items.length)).filterMap (items[·]?)).map emit ∧
      cursorPosition (scheduledItems key items identify emit completed round).cursors key items identify
        = (cursorPosition round.cursors key items identify + min round.budget items.length) % items.length := by
  by_cases hitems : items = []
  · subst hitems
    exact ⟨by simp [scheduledItems, orderScheduledItems, withNext],
      by simp [scheduledItems, orderScheduledItems, withNext, cursorPosition]⟩
  · have hstart : cursorPosition round.cursors key items identify < items.length := cursorPosition_lt hitems
    have hn : 0 < items.length := List.length_pos_iff.mpr hitems
    obtain ⟨-, hserved, hcursor⟩ := lapTo_spec hkeeps hstart round items.length
    rw [scheduledItems_lap hitems, lap]
    refine ⟨hserved, ?_⟩
    by_cases hzero : min round.budget items.length = 0
    · rw [if_pos hzero] at hcursor
      rw [cursorPosition_congr hcursor, hzero, Nat.add_zero, Nat.mod_eq_of_lt hstart]
    · have hat : (cursorPosition round.cursors key items identify + min round.budget items.length) % items.length
          < items.length := Nat.mod_lt _ hn
      rw [if_neg hzero, List.getElem?_eq_getElem hat] at hcursor
      exact cursorPosition_of_get? hnodup hat hcursor

/-- A call for one key, in some round: its budget, the callback, and what the rest of the round does to
    the cursors afterwards. -/
structure KeyCall where
  budget : Nat
  completed : Cursors → Cursors
  elsewhere : Cursors → Cursors

/-- A call after the others. -/
def callKey (key : String) (items : List α) (identify : α → String) (round : Round α) (call : KeyCall) :
    Round α :=
  { scheduledItems key items identify id call.completed { round with budget := call.budget } with
    cursors := call.elsewhere
      (scheduledItems key items identify id call.completed { round with budget := call.budget }).cursors }

/-- **The items of a key are served in order**: around the list, without a skip or a repeat. -/
theorem served_in_order (hnodup : (items.map identify).Nodup) (calls : List KeyCall)
    (hcalls : ∀ call ∈ calls, Keeps key call.completed ∧ Keeps key call.elsewhere) (round : Round α) :
    (calls.foldl (callKey key items identify) round).served = round.served ++
      (ring items.length (cursorPosition round.cursors key items identify)
        (calls.map fun call => min call.budget items.length).sum).filterMap (items[·]?) := by
  induction calls generalizing round with
  | nil => simp [ring]
  | cons call calls ih =>
    obtain ⟨hcompleted, helsewhere⟩ := hcalls call List.mem_cons_self
    obtain ⟨hserved, hposition⟩ := scheduledItems_spec hnodup hcompleted
      ({ round with budget := call.budget } : Round α)
    have hmoved : cursorPosition (callKey key items identify round call).cursors key items identify
        = (cursorPosition round.cursors key items identify + min call.budget items.length) % items.length :=
      (cursorPosition_congr (helsewhere _)).trans hposition
    rw [List.foldl_cons, ih (fun c hc => hcalls c (List.mem_cons_of_mem call hc)), hmoved, List.map_cons,
      List.sum_cons, RoundRobin.ring_add, List.filterMap_append, ← List.append_assoc]
    congr 1
    rw [List.map_id] at hserved
    exact hserved

end OneKey

/-! ## Keys of the load check -/

theorem targetCursorKey_inj {a b : String} (h : targetCursorKey a = targetCursorKey b) : a = b := by
  have hlist := congrArg toList h
  rw [targetCursorKey, targetCursorKey, toList_append, toList_append] at hlist
  exact String.toList_injective (List.append_cancel_left hlist)

theorem planCursorKey_inj {a b : String} (h : planCursorKey a = planCursorKey b) : a = b := by
  have hlist := congrArg toList h
  rw [planCursorKey, planCursorKey, toList_append, toList_append] at hlist
  exact String.toList_injective (List.append_cancel_left hlist)

theorem target_ne_plan (a b : String) : targetCursorKey a ≠ planCursorKey b := by
  intro h
  have hlist := congrArg toList h
  rw [targetCursorKey, planCursorKey, toList_append, toList_append] at hlist
  have hchar := congrArg (fun l => l[4]?) hlist
  simp at hchar

theorem target_ne_groups (a : String) : targetCursorKey a ≠ "load_groups" := by
  intro h
  have hlist := congrArg toList h
  rw [targetCursorKey, toList_append] at hlist
  have hchar := congrArg (fun l => l[4]?) hlist
  simp at hchar

theorem plan_ne_groups (a : String) : planCursorKey a ≠ "load_groups" := by
  intro h
  have hlist := congrArg toList h
  rw [planCursorKey, toList_append] at hlist
  have hchar := congrArg (fun l => l[5]?) hlist
  simp at hchar

/-! ## Nested rounds -/

/-- The groups of a load check: distinct identities, and every rule in one place, with targets. -/
structure WellFormed (groups : List LoadGroup) : Prop where
  identities : (groups.map LoadGroup.identity).Nodup
  plans : ∀ group ∈ groups, group.plans ≠ [] ∧ (group.plans.map LoadPlan.ruleId).Nodup
  targets : ∀ group ∈ groups, ∀ plan ∈ group.plans, plan.targetClients ≠ [] ∧ plan.targetClients.Nodup
  owner : ∀ group ∈ groups, ∀ other ∈ groups, ∀ plan ∈ group.plans, ∀ plan' ∈ other.plans,
    plan.ruleId = plan'.ruleId → group = other

section Nested

variable {round : Round (String × String)} {planKey nextGroup : String} {turn : LoadPlan × LoadPlan}

variable {k : String}

/-- The callback of a rule moves the cursors of the groups and of the rules of its group. -/
theorem get?_completed (cursors : Cursors) (hgroups : k ≠ "load_groups") (hplan : k ≠ planKey) :
    get? (Assoc.set (Assoc.set cursors "load_groups" nextGroup) planKey turn.2.ruleId) k
      = get? cursors k := by
  rw [get?_set, if_neg hplan, get?_set, if_neg hgroups]

/-- What a rule does to a cursor that is not its own, nor its group's. -/
theorem runPlan_other (hgroups : k ≠ "load_groups") (hplan : k ≠ planKey)
    (htarget : k ≠ targetCursorKey turn.1.ruleId) :
    get? (runPlan planKey nextGroup round turn).cursors k = get? round.cursors k := by
  refine List.foldlRecOn (motive := fun r : Round (String × String) => get? r.cursors k = get? round.cursors k)
    _ _ rfl fun r hr t _ => ?_
  by_cases hlive : 0 < r.budget
  · rw [serveItem_live t hlive]
    show get? (Assoc.set (Assoc.set (Assoc.set _ _ _) _ _) _ _) k = _
    rw [get?_completed _ hgroups hplan, get?_set, if_neg htarget, hr]
  · rw [serveItem_dead t hlive, hr]

theorem runPlan_dead (h : ¬ 0 < round.budget) : runPlan planKey nextGroup round turn = round :=
  foldl_dead (fun r : Round (String × String) => 0 < r.budget) (fun _ t _ hr => serveItem_dead t hr) h

/-- A rule whose targets are visited moves the cursors of its group. -/
theorem runPlan_turn (hplan : planKey ≠ "load_groups") (htargets : turn.1.targetClients ≠ [])
    (h : 0 < round.budget) :
    get? (runPlan planKey nextGroup round turn).cursors planKey = some turn.2.ruleId ∧
      get? (runPlan planKey nextGroup round turn).cursors "load_groups" = some nextGroup := by
  refine foldl_sets (fun r : Round (String × String) => 0 < r.budget)
    (fun r => get? r.cursors planKey = some turn.2.ruleId ∧
      get? r.cursors "load_groups" = some nextGroup)
    (fun r t _ hr => serveItem_dead t hr) (fun r t _ hr => ?_) (withNext_order_ne_nil htargets) h
  rw [serveItem_live t hr]
  refine ⟨(get?_set _ _ _ _).trans (if_pos rfl), ?_⟩
  show get? (Assoc.set (Assoc.set _ _ _) _ _) _ = _
  rw [get?_set, if_neg hplan.symm, get?_set, if_pos rfl]

theorem serveItem_grows {α β : Type} {key : String} {identify : α → String} {emit : α → β}
    {completed : Cursors → Cursors} {r : Round β} (t : α × α) {item : β} (h : item ∈ r.served) :
    item ∈ (serveItem key identify emit completed r t).served := by
  by_cases hlive : 0 < r.budget
  · rw [serveItem_live t hlive]
    exact List.mem_append_left _ h
  · rw [serveItem_dead t hlive]
    exact h

variable {item : String × String}

theorem runPlan_grows (h : item ∈ round.served) : item ∈ (runPlan planKey nextGroup round turn).served := by
  exact List.foldlRecOn (motive := fun r : Round (String × String) => item ∈ r.served) _ _ h
    fun r hr t _ => serveItem_grows t hr

/-! ### One rule -/

/-- How many targets of a rule come before one. -/
def targetAhead (plan : LoadPlan) (t : Nat) (round : Round (String × String)) : Nat :=
  RoundRobin.ahead plan.targetClients.length
    (cursorPosition round.cursors (targetCursorKey plan.ruleId) plan.targetClients id) t

variable {t : Nat}

/-- **A rule serves the target or comes nearer to it.** -/
theorem runPlan_measure (hkey : targetCursorKey turn.1.ruleId ≠ planKey) (hnodup : turn.1.targetClients.Nodup)
    (ht : t < turn.1.targetClients.length) (h : 0 < round.budget) :
    (turn.1.ruleId, turn.1.targetClients.get ⟨t, ht⟩) ∈ (runPlan planKey nextGroup round turn).served ∨
      targetAhead turn.1 t (runPlan planKey nextGroup round turn) < targetAhead turn.1 t round := by
  have hitems : turn.1.targetClients ≠ [] := List.ne_nil_of_length_pos (by omega)
  have hkeeps : Keeps (targetCursorKey turn.1.ruleId)
      (fun cursors => Assoc.set (Assoc.set cursors "load_groups" nextGroup) planKey turn.2.ruleId) :=
    fun cursors => get?_completed cursors (target_ne_groups _) hkey
  have hnodup' : (turn.1.targetClients.map id).Nodup := by rwa [List.map_id]
  have hturns : RoundRobin.Turns turn.1.targetClients.length (fun r : Round (String × String) => 0 < r.budget)
      (fun r => cursorPosition r.cursors (targetCursorKey turn.1.ruleId) turn.1.targetClients id)
      (visitAt turn.1.targetClients (serveItem (targetCursorKey turn.1.ruleId) id
        (fun target => (turn.1.ruleId, target))
        fun cursors => Assoc.set (Assoc.set cursors "load_groups" nextGroup) planKey turn.2.ruleId)) :=
    turns_of_cursor hnodup' (fun r t hr => serveItem_dead t hr) fun r t _ hr => get?_serveItem hkeeps t hr
  have hlap := hturns.lap_measure (fun _ => 0)
    (fun r => (turn.1.ruleId, turn.1.targetClients.get ⟨t, ht⟩) ∈ r.served) ht (fun _ _ _ _ => rfl) ?_ ?_ h
    (cursorPosition_lt hitems)
  · rw [runPlan, scheduledItems_lap hitems]
    simp only [Nat.zero_mul, Nat.zero_add] at hlap
    exact hlap
  · exact fun i r _ hr => visitAt_keeps
      (fun r : Round (String × String) => (turn.1.ruleId, turn.1.targetClients.get ⟨t, ht⟩) ∈ r.served)
      (fun r' t' _ hr' => serveItem_grows t' hr') i hr
  · intro r hr
    have hnext : (t + 1) % turn.1.targetClients.length < turn.1.targetClients.length := Nat.mod_lt _ (by omega)
    refine .inl ?_
    rw [visitAt_lt ht hnext rfl, serveItem_live _ hr]
    exact List.mem_append_right _ (List.mem_singleton_self _)

/-! ### One group -/

variable {pair : LoadGroup × LoadGroup}

theorem runGroup_dead (h : ¬ 0 < round.budget) : runGroup round pair = round :=
  foldl_dead (fun r : Round (String × String) => 0 < r.budget) (fun _ _ _ hr => runPlan_dead hr) h

theorem runGroup_grows (h : item ∈ round.served) : item ∈ (runGroup round pair).served :=
  List.foldlRecOn (motive := fun r : Round (String × String) => item ∈ r.served) _ _ h
    fun _ hr _ _ => runPlan_grows hr

theorem runGroup_other (hgroups : k ≠ "load_groups") (hplan : k ≠ planCursorKey pair.1.identity)
    (htarget : ∀ plan ∈ pair.1.plans, k ≠ targetCursorKey plan.ruleId) :
    get? (runGroup round pair).cursors k = get? round.cursors k := by
  refine List.foldlRecOn
    (motive := fun r : Round (String × String) => get? r.cursors k = get? round.cursors k)
    _ _ rfl fun r hr t ht => ?_
  rw [runPlan_other hgroups hplan (htarget t.1 (mem_order (mem_withNext ht).1)), hr]

theorem runGroup_turn (hplans : pair.1.plans ≠ [])
    (htargets : ∀ plan ∈ pair.1.plans, plan.targetClients ≠ []) (h : 0 < round.budget) :
    get? (runGroup round pair).cursors "load_groups" = some pair.2.identity := by
  refine foldl_sets (fun r : Round (String × String) => 0 < r.budget)
    (fun r => get? r.cursors "load_groups" = some pair.2.identity)
    (fun r t _ hr => runPlan_dead hr) (fun r t ht hr => ?_) (withNext_order_ne_nil hplans) h
  exact (runPlan_turn (plan_ne_groups _) (htargets t.1 (mem_order (mem_withNext ht).1)) hr).2

/-- What is to be done in a group before a target is served. -/
def planAhead (group : LoadGroup) (p : Nat) (plan : LoadPlan) (t : Nat) (round : Round (String × String)) : Nat :=
  targetAhead plan t round * group.plans.length + RoundRobin.ahead group.plans.length
      (cursorPosition round.cursors (planCursorKey group.identity) group.plans LoadPlan.ruleId) p

variable {plan : LoadPlan}

/-- **A group serves the target or comes nearer to it.** -/
theorem runGroup_measure (hplans : (pair.1.plans.map LoadPlan.ruleId).Nodup)
    (htargets : ∀ plan ∈ pair.1.plans, plan.targetClients ≠ [] ∧ plan.targetClients.Nodup) {p : Nat}
    (hp : p < pair.1.plans.length) (hplan : pair.1.plans.get ⟨p, hp⟩ = plan)
    (ht : t < plan.targetClients.length) (h : 0 < round.budget) :
    (plan.ruleId, plan.targetClients.get ⟨t, ht⟩) ∈ (runGroup round pair).served ∨
      planAhead pair.1 p plan t (runGroup round pair) < planAhead pair.1 p plan t round := by
  have hitems : pair.1.plans ≠ [] := List.ne_nil_of_length_pos (by omega)
  have hmem : plan ∈ pair.1.plans := hplan ▸ List.get_mem pair.1.plans ⟨p, hp⟩
  have hturns : RoundRobin.Turns pair.1.plans.length (fun r : Round (String × String) => 0 < r.budget)
      (fun r => cursorPosition r.cursors (planCursorKey pair.1.identity) pair.1.plans LoadPlan.ruleId)
      (visitAt pair.1.plans (runPlan (planCursorKey pair.1.identity) pair.2.identity)) :=
    turns_of_cursor hplans (fun r _ hr => runPlan_dead hr)
      fun r turn hturn hr => (runPlan_turn (plan_ne_groups _) (htargets turn.1 hturn).1 hr).1
  have hlap := hturns.lap_measure (targetAhead plan t)
    (fun r => (plan.ruleId, plan.targetClients.get ⟨t, ht⟩) ∈ r.served) hp ?_ ?_ ?_ h (cursorPosition_lt hitems)
  · rw [runGroup, orderScheduledItems, foldl_withNext _ _ (cursorPosition_lt hitems)]
    exact hlap
  · -- another rule of the group has a cursor of its own
    intro i r hi hne
    have hnext : (i + 1) % pair.1.plans.length < pair.1.plans.length := Nat.mod_lt _ (by omega)
    have hother : plan.ruleId ≠ (pair.1.plans.get ⟨i, hi⟩).ruleId := by
      rw [← hplan]
      exact fun heq => hne (index_of_map_nodup hplans hi hp heq.symm)
    rw [visitAt_lt hi hnext rfl, targetAhead, targetAhead]
    rw [cursorPosition_congr (runPlan_other (target_ne_groups _) (target_ne_plan _ _)
      fun heq => hother (targetCursorKey_inj heq))]
  · exact fun i r _ hr => visitAt_keeps
      (fun r : Round (String × String) => (plan.ruleId, plan.targetClients.get ⟨t, ht⟩) ∈ r.served)
      (fun r' t' _ hr' => runPlan_grows hr') i hr
  · intro r hr
    have hnext : (p + 1) % pair.1.plans.length < pair.1.plans.length := Nat.mod_lt _ (by omega)
    rw [visitAt_lt hp hnext rfl]
    subst hplan
    exact runPlan_measure (target_ne_plan _ _) (htargets _ hmem).2 ht hr

/-! ### All groups -/

theorem runGroups_grows (groups : List LoadGroup) (h : item ∈ round.served) :
    item ∈ (runGroups groups round).served :=
  List.foldlRecOn (motive := fun r : Round (String × String) => item ∈ r.served) _ _ h
    fun _ hr _ _ => runGroup_grows hr

/-- What is to be done in the rounds before a target is served. -/
def groupAhead (groups : List LoadGroup) (g : Nat) (group : LoadGroup) (p : Nat) (plan : LoadPlan) (t : Nat)
    (round : Round (String × String)) : Nat :=
  planAhead group p plan t round * groups.length + RoundRobin.ahead groups.length
      (cursorPosition round.cursors "load_groups" groups LoadGroup.identity) g

/-- **A round serves the target or comes nearer to it.** -/
theorem runGroups_measure {groups : List LoadGroup} (hgroups : WellFormed groups) {g : Nat}
    (hg : g < groups.length) {group : LoadGroup} (hgroup : groups.get ⟨g, hg⟩ = group) {p : Nat}
    (hp : p < group.plans.length) (hplan : group.plans.get ⟨p, hp⟩ = plan)
    (ht : t < plan.targetClients.length) (h : 0 < round.budget) :
    (plan.ruleId, plan.targetClients.get ⟨t, ht⟩) ∈ (runGroups groups round).served ∨
      groupAhead groups g group p plan t (runGroups groups round) < groupAhead groups g group p plan t round := by
  have hitems : groups ≠ [] := List.ne_nil_of_length_pos (by omega)
  have hmem : group ∈ groups := hgroup ▸ List.get_mem groups ⟨g, hg⟩
  have hplanmem : plan ∈ group.plans := hplan ▸ List.get_mem group.plans ⟨p, hp⟩
  have hturns : RoundRobin.Turns groups.length (fun r : Round (String × String) => 0 < r.budget)
      (fun r => cursorPosition r.cursors "load_groups" groups LoadGroup.identity)
      (visitAt groups runGroup) :=
    turns_of_cursor hgroups.identities (fun r _ hr => runGroup_dead hr)
      fun r pair hpair hr => runGroup_turn (hgroups.plans pair.1 hpair).1
        (fun plan hplan => (hgroups.targets pair.1 hpair plan hplan).1) hr
  have hlap := hturns.lap_measure (planAhead group p plan t)
    (fun r => (plan.ruleId, plan.targetClients.get ⟨t, ht⟩) ∈ r.served) hg ?_ ?_ ?_ h (cursorPosition_lt hitems)
  · rw [runGroups, orderScheduledItems, foldl_withNext _ _ (cursorPosition_lt hitems)]
    exact hlap
  · -- another group has other rules
    intro i r hi hne
    have hnext : (i + 1) % groups.length < groups.length := Nat.mod_lt _ (by omega)
    have hother : groups.get ⟨i, hi⟩ ≠ group := by
      rw [← hgroup]
      exact fun heq => hne (index_of_map_nodup hgroups.identities hi hg (congrArg LoadGroup.identity heq))
    have hidentity : group.identity ≠ (groups.get ⟨i, hi⟩).identity := by
      rw [← hgroup]
      exact fun heq => hne (index_of_map_nodup hgroups.identities hi hg heq.symm)
    rw [visitAt_lt hi hnext rfl, planAhead, planAhead, targetAhead, targetAhead]
    rw [cursorPosition_congr (runGroup_other (target_ne_groups _) (target_ne_plan _ _) ?_),
      cursorPosition_congr (runGroup_other (plan_ne_groups _) ?_ ?_)]
    · exact fun heq => hidentity (planCursorKey_inj heq)
    · exact fun other _ heq => target_ne_plan _ _ heq.symm
    · intro other hotherplan heq
      exact hother (hgroups.owner _ (List.get_mem groups ⟨i, hi⟩) _ hmem other hotherplan plan hplanmem
        (targetCursorKey_inj heq).symm)
  · exact fun i r _ hr => visitAt_keeps
      (fun r : Round (String × String) => (plan.ruleId, plan.targetClients.get ⟨t, ht⟩) ∈ r.served)
      (fun r' t' _ hr' => runGroup_grows hr') i hr
  · intro r hr
    have hnext : (g + 1) % groups.length < groups.length := Nat.mod_lt _ (by omega)
    rw [visitAt_lt hg hnext rfl]
    subst hgroup
    exact runGroup_measure (hgroups.plans _ hmem).2 (hgroups.targets _ hmem) hp hplan ht hr

end Nested

/-! ## The groups of a load check -/

section Groups

variable {policy : LoadPolicy}

theorem unique_nodup (targets : List String) : (unique targets).Nodup := by
  rw [unique]
  exact Assoc.keys_merge_nodup List.nodup_nil

/-- What the groups of some rules are: each under its identity, with rules of that identity. -/
structure Grouped (policy : LoadPolicy) (rules : List LoadNotification) (groups : List (String × LoadGroup)) :
    Prop where
  keys : (Assoc.keys groups).Nodup
  identity : ∀ p ∈ groups, p.2.identity = p.1
  plans : ∀ p ∈ groups, p.2.plans ≠ [] ∧ (p.2.plans.map LoadPlan.ruleId).Nodup
  rule : ∀ p ∈ groups, ∀ plan ∈ p.2.plans, ∃ rule ∈ rules, plan = ⟨rule.id, targetClients policy rule⟩ ∧
    groupIdentity policy rule = p.1 ∧ targetClients policy rule ≠ []
  complete : ∀ rule ∈ rules, targetClients policy rule ≠ [] →
    ∃ p ∈ groups, (⟨rule.id, targetClients policy rule⟩ : LoadPlan) ∈ p.2.plans

variable {rules : List LoadNotification}

theorem Grouped.group_spec {groups : List (String × LoadGroup)}
    (h : Grouped policy rules groups) (identity : String) :
    ((get? groups identity).getD ⟨identity, []⟩).identity = identity ∧
      (((get? groups identity).getD ⟨identity, []⟩).plans.map LoadPlan.ruleId).Nodup ∧
      ∀ plan ∈ ((get? groups identity).getD ⟨identity, []⟩).plans, ∃ rule ∈ rules,
        plan = ⟨rule.id, targetClients policy rule⟩ ∧ groupIdentity policy rule = identity ∧
          targetClients policy rule ≠ [] := by
  cases hgroup : get? groups identity with
  | none => exact ⟨rfl, List.nodup_nil, by simp⟩
  | some group =>
    have hmem := mem_of_get? hgroup
    exact ⟨h.identity _ hmem, (h.plans _ hmem).2, h.rule _ hmem⟩

variable {rule : LoadNotification}

/-- **One more rule** joins the groups. -/
theorem Grouped.addRule {groups : List (String × LoadGroup)}
    (h : Grouped policy rules groups) (hid : rule.id ∉ rules.map LoadNotification.id) :
    Grouped policy (rules ++ [rule]) (addRule policy groups rule) := by
  have hmore : ∀ p ∈ groups, ∀ plan ∈ p.2.plans, ∃ r ∈ rules ++ [rule],
      plan = ⟨r.id, targetClients policy r⟩ ∧ groupIdentity policy r = p.1 ∧ targetClients policy r ≠ [] := by
    intro p hp plan hplan
    obtain ⟨r, hr, hrest⟩ := h.rule p hp plan hplan
    exact ⟨r, List.mem_append_left _ hr, hrest⟩
  rw [Scheduled.addRule]
  split_ifs with htargets
  · -- a rule without targets is passed over
    refine ⟨h.keys, h.identity, h.plans, hmore, fun r hr hne => ?_⟩
    rcases List.mem_append.mp hr with hold | hnew
    · exact h.complete r hold hne
    · exact absurd htargets (List.mem_singleton.mp hnew ▸ hne)
  · obtain ⟨hidentity, hnodup, hrules⟩ := h.group_spec (groupIdentity policy rule)
    have hentry : (groupIdentity policy rule,
          ({ (get? groups (groupIdentity policy rule)).getD ⟨groupIdentity policy rule, []⟩ with
            plans := ((get? groups (groupIdentity policy rule)).getD
              ⟨groupIdentity policy rule, []⟩).plans ++ [⟨rule.id, targetClients policy rule⟩] } : LoadGroup)) ∈
        Assoc.set groups (groupIdentity policy rule)
          { (get? groups (groupIdentity policy rule)).getD ⟨groupIdentity policy rule, []⟩ with
            plans := ((get? groups (groupIdentity policy rule)).getD
              ⟨groupIdentity policy rule, []⟩).plans ++ [⟨rule.id, targetClients policy rule⟩] } := by
      refine mem_of_get? ?_
      rw [get?_set, if_pos rfl]
    generalize hgroup : (get? groups (groupIdentity policy rule)).getD ⟨groupIdentity policy rule, []⟩
      = group at hidentity hnodup hrules hentry
    refine ⟨Assoc.keys_set_nodup h.keys, ?_, ?_, ?_, ?_⟩
    · intro p hp
      rcases mem_set hp with rfl | hold
      · exact hidentity
      · exact h.identity p hold
    · intro p hp
      rcases mem_set hp with rfl | hold
      · refine ⟨by simp, ?_⟩
        have hfresh : rule.id ∉ group.plans.map LoadPlan.ruleId := by
          intro hmem
          obtain ⟨plan, hplan, hsame⟩ := List.mem_map.mp hmem
          obtain ⟨r, hr, rfl, -, -⟩ := hrules plan hplan
          exact hid (List.mem_map.mpr ⟨r, hr, hsame⟩)
        show (List.map LoadPlan.ruleId (group.plans ++ [_])).Nodup
        rw [List.map_append]
        exact List.nodup_append.mpr ⟨hnodup, by simp, by
          intro a ha b hb hab
          obtain rfl := List.mem_singleton.mp hb
          rw [hab] at ha
          exact hfresh ha⟩
      · exact h.plans p hold
    · intro p hp plan hplan
      rcases mem_set hp with rfl | hold
      · rcases List.mem_append.mp hplan with hbefore | hnew
        · obtain ⟨r, hr, hrest⟩ := hrules plan hbefore
          exact ⟨r, List.mem_append_left _ hr, hrest⟩
        · obtain rfl := List.mem_singleton.mp hnew
          exact ⟨rule, List.mem_append_right _ (List.mem_singleton_self _), rfl, rfl, htargets⟩
      · exact hmore p hold plan hplan
    · intro r hr hne
      rcases List.mem_append.mp hr with hold | hnew
      · obtain ⟨p, hp, hplan⟩ := h.complete r hold hne
        by_cases hkey : p.1 = groupIdentity policy rule
        · refine ⟨_, hentry, List.mem_append_left _ ?_⟩
          have hp2 : get? groups p.1 = some p.2 := get?_of_mem h.keys hp
          rw [hkey] at hp2
          rw [hp2, Option.getD_some] at hgroup
          exact hgroup ▸ hplan
        · refine ⟨p, mem_of_get? ?_, hplan⟩
          rw [get?_set, if_neg hkey]
          exact get?_of_mem h.keys hp
      · obtain rfl := List.mem_singleton.mp hnew
        exact ⟨_, hentry, List.mem_append_right _ (List.mem_singleton_self _)⟩

theorem grouped_rules (hids : (rules.map LoadNotification.id).Nodup) :
    Grouped policy rules (rules.foldl (addRule policy) []) := by
  induction rules using List.reverseRecOn with
  | nil =>
    exact ⟨List.nodup_nil, by simp, by simp, by simp, by simp⟩
  | append_singleton rules rule ih =>
    rw [List.map_append, List.nodup_append] at hids
    rw [List.foldl_append]
    refine (ih hids.1).addRule fun hmem => ?_
    exact hids.2.2 _ hmem _ (List.mem_singleton_self _) rfl

theorem wellFormed_loadGroups (hids : (rules.map LoadNotification.id).Nodup) :
    WellFormed (loadGroups policy rules) := by
  have h : Grouped policy rules (rules.foldl (addRule policy) []) := grouped_rules hids
  refine ⟨?_, ?_, ?_, ?_⟩
  · have hsame : (loadGroups policy rules).map LoadGroup.identity
        = Assoc.keys (rules.foldl (addRule policy) []) := by
      rw [loadGroups, List.map_map, Assoc.keys]
      exact List.map_congr_left fun p hp => h.identity p hp
    rw [hsame]
    exact h.keys
  · intro group hgroup
    obtain ⟨p, hp, rfl⟩ := List.mem_map.mp hgroup
    exact h.plans p hp
  · intro group hgroup plan hplan
    obtain ⟨p, hp, rfl⟩ := List.mem_map.mp hgroup
    obtain ⟨rule, -, rfl, -, hne⟩ := h.rule p hp plan hplan
    exact ⟨hne, unique_nodup _⟩
  · intro group hgroup other hother plan hplan plan' hplan' hid
    obtain ⟨p, hp, rfl⟩ := List.mem_map.mp hgroup
    obtain ⟨q, hq, rfl⟩ := List.mem_map.mp hother
    obtain ⟨rule, hrule, rfl, hkey, -⟩ := h.rule p hp plan hplan
    obtain ⟨rule', hrule', rfl, hkey', -⟩ := h.rule q hq plan' hplan'
    obtain rfl : rule = rule' := List.inj_on_of_nodup_map hids hrule hrule' hid
    have hvalue := get?_of_mem h.keys hp
    rw [← hkey, hkey', get?_of_mem h.keys hq] at hvalue
    exact (Option.some.inj hvalue).symm

theorem mem_loadGroups (hids : (rules.map LoadNotification.id).Nodup)
    (hrule : rule ∈ rules) (htargets : targetClients policy rule ≠ []) :
    ∃ group ∈ loadGroups policy rules, (⟨rule.id, targetClients policy rule⟩ : LoadPlan) ∈ group.plans := by
  have h : Grouped policy rules (rules.foldl (addRule policy) []) := grouped_rules hids
  obtain ⟨p, hp, hplan⟩ := h.complete rule hrule htargets
  exact ⟨p.2, List.mem_map_of_mem hp, hplan⟩

end Groups

/-! ## Results -/

theorem mixed_lt {a b A B : Nat} (ha : a < A) (hb : b < B) : a * B + b < A * B := by
  have hstep : (a + 1) * B ≤ A * B := Nat.mul_le_mul_right B ha
  rw [Nat.add_mul, Nat.one_mul] at hstep
  omega

theorem groupAhead_lt {groups : List LoadGroup} {g p t : Nat} {group : LoadGroup} {plan : LoadPlan}
    (hg : g < groups.length) (hp : p < group.plans.length) (ht : t < plan.targetClients.length)
    (round : Round (String × String)) :
    groupAhead groups g group p plan t round
      < groups.length * group.plans.length * plan.targetClients.length := by
  have hta : targetAhead plan t round < plan.targetClients.length := ahead_cursor_lt ht
  have hpa : planAhead group p plan t round < plan.targetClients.length * group.plans.length :=
    mixed_lt hta (ahead_cursor_lt hp)
  calc groupAhead groups g group p plan t round
      < plan.targetClients.length * group.plans.length * groups.length := mixed_lt hpa (ahead_cursor_lt hg)
    _ = groups.length * group.plans.length * plan.targetClients.length := by
      rw [Nat.mul_comm (plan.targetClients.length * group.plans.length), Nat.mul_assoc,
        Nat.mul_comm plan.targetClients.length]

/-- **Every target is served** within as many rounds as there are groups, rules of a group and targets of
    a rule, multiplied. -/
theorem target_served {policy : LoadPolicy} {rules : List LoadNotification}
    (hids : (rules.map LoadNotification.id).Nodup) {P T : Nat}
    (hP : ∀ group ∈ loadGroups policy rules, group.plans.length ≤ P)
    (hT : ∀ rule ∈ rules, (targetClients policy rule).length ≤ T) {budgets : List Nat}
    (hbudgets : ∀ budget ∈ budgets, 0 < budget)
    (hrounds : (loadGroups policy rules).length * P * T ≤ budgets.length) (cursors : Cursors)
    {rule : LoadNotification} (hrule : rule ∈ rules) {target : String}
    (htarget : target ∈ targetClients policy rule) :
    (rule.id, target) ∈ (loadRounds policy rules budgets cursors).served := by
  obtain ⟨group, hgroup, hplan⟩ := mem_loadGroups hids hrule (List.ne_nil_of_mem htarget)
  obtain ⟨⟨g, hg⟩, hgget⟩ := List.get_of_mem hgroup
  obtain ⟨⟨p, hp⟩, hpget⟩ := List.get_of_mem hplan
  obtain ⟨⟨t, ht⟩, htget⟩ := List.get_of_mem htarget
  have hwell : WellFormed (loadGroups policy rules) := wellFormed_loadGroups hids
  have hbound : groupAhead (loadGroups policy rules) g group p ⟨rule.id, targetClients policy rule⟩ t
      ⟨cursors, 0, []⟩ < budgets.length := by
    refine Nat.lt_of_lt_of_le (groupAhead_lt hg hp ht _) (Nat.le_trans ?_ hrounds)
    exact Nat.mul_le_mul (Nat.mul_le_mul_left _ (hP group hgroup)) (hT rule hrule)
  subst htget
  have hgrows : ∀ (r : Round (String × String)) (budget : Nat),
      (rule.id, (targetClients policy rule).get ⟨t, ht⟩) ∈ r.served →
        (rule.id, (targetClients policy rule).get ⟨t, ht⟩) ∈ (runLoadCheck policy rules r budget).served := by
    intro r budget hr
    show _ ∈ (runGroups (loadGroups policy rules) { r with budget := budget }).served
    exact runGroups_grows _ hr
  refine RoundRobin.hits_of_rounds
    (groupAhead (loadGroups policy rules) g group p ⟨rule.id, targetClients policy rule⟩ t)
    (fun r : Round (String × String) => (rule.id, (targetClients policy rule).get ⟨t, ht⟩) ∈ r.served)
    hgrows (fun r budget hbudget => ?_) budgets hbudgets _ hbound
  exact runGroups_measure hwell hg hgget hp hpget ht hbudget

/-- **Scheduled work is served round-robin without starvation.**  The calls for one key serve its items
    around the list without a skip or a repeat; and in rounds that complete an item each, as many as
    groups, rules of a group and targets of a rule multiplied, every target of every rule is served. -/
theorem scheduled_round_robin :
    (∀ (α : Type) (key : String) (items : List α) (identify : α → String) (calls : List KeyCall)
        (round : Round α), (items.map identify).Nodup →
      (∀ call ∈ calls, Keeps key call.completed ∧ Keeps key call.elsewhere) →
      (calls.foldl (callKey key items identify) round).served = round.served ++
        (RoundRobin.ring items.length (cursorPosition round.cursors key items identify)
          (calls.map fun call => min call.budget items.length).sum).filterMap (items[·]?)) ∧
    ∀ (policy : LoadPolicy) (rules : List LoadNotification) (P T : Nat) (budgets : List Nat)
        (cursors : Cursors), (rules.map LoadNotification.id).Nodup →
      (∀ group ∈ loadGroups policy rules, group.plans.length ≤ P) →
      (∀ rule ∈ rules, (targetClients policy rule).length ≤ T) → (∀ budget ∈ budgets, 0 < budget) →
      (loadGroups policy rules).length * P * T ≤ budgets.length →
      ∀ rule ∈ rules, ∀ target ∈ targetClients policy rule,
        (rule.id, target) ∈ (loadRounds policy rules budgets cursors).served :=
  ⟨fun _ _ _ _ calls round hnodup hcalls => served_in_order hnodup calls hcalls round,
    fun _ _ _ _ _ cursors hids hP hT hbudgets hrounds _ hrule _ htarget =>
      target_served hids hP hT hbudgets hrounds cursors hrule htarget⟩

/-- Two rules of one group and one of another, for some of three nodes. -/
def shownRules : List LoadNotification :=
  [⟨"1", ["a", "b"], "cpu", some 90, 15⟩, ⟨"2", [], "cpu", some 90, 15⟩, ⟨"3", ["c"], "ram", none, 15⟩]

def shownPolicy : LoadPolicy := ⟨fun x => toString x.num, 5, ["a", "b", "c"]⟩

/-- The offline check of three clients, in rounds of two and one and three items. -/
def shownCalls : List KeyCall := [⟨2, id, id⟩, ⟨1, id, id⟩, ⟨3, id, id⟩]

/-- Three clients in turn, and in twelve rounds of one item each the second target of the first rule. -/
theorem shown_rounds : (shownCalls.foldl (callKey "offline" ["a", "b", "c"] id) ⟨[], 0, []⟩).served
        = ["a", "b", "c", "a", "b", "c"] ∧
      ("1", "b") ∈ (loadRounds shownPolicy shownRules (List.replicate 12 1) []).served := by
  refine ⟨(scheduled_round_robin.1 String "offline" ["a", "b", "c"] id shownCalls ⟨[], 0, []⟩ (by decide) ?_).trans
    (by decide +kernel), ?_⟩
  · intro call hcall
    simp only [shownCalls, List.mem_cons, List.not_mem_nil, or_false] at hcall
    rcases hcall with rfl | rfl | rfl <;> exact ⟨fun _ => rfl, fun _ => rfl⟩
  · exact scheduled_round_robin.2 shownPolicy shownRules 2 3 (List.replicate 12 1) [] (by decide)
      (by decide +kernel) (by decide +kernel) (by decide) (by decide +kernel)
      ⟨"1", ["a", "b"], "cpu", some 90, 15⟩ (by simp [shownRules]) "b" (by decide +kernel)

end CfMonitor.Scheduled
