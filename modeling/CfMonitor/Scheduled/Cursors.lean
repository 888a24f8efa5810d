/-
  The cursors of the scheduled checks (`scheduledItems` in `scheduled-budget.ts`,
  `createScheduledRunContext` and `runLoadCheck` in `index.ts`).

  A round has a budget and serves items until it is used up.  A cursor remembers, by its identity, the
  item that the next round begins with.  The cursors are flushed after a round.

  1. **Items** (`scheduledItems`) — one list, under one key.

  2. **Load check** (`runLoadCheck`) — groups of rules that share a query, the rules of a group, the
     targets of a rule: three cursors, advanced together after each target.

  What is done for a target (its statistics and its notice) is left out: no item fails here.
-/
import CfMonitor.Lib.Assoc
import CfMonitor.Lib.RoundRobin
import Mathlib.Data.Rat.Defs

namespace CfMonitor.Scheduled

open CfMonitor.Lib

/-! ## Items -/

/-- The cursors: the identity of the next item, by key. -/
abbrev Cursors := List (String × String)

/-- The position that a cursor names; the first one, if it names no item. -/
def cursorPosition {α : Type} (cursors : Cursors) (key : String) (items : List α) (identify : α → String) :
    Nat :=
  (items.findIdx? fun item => decide (some (identify item) = Assoc.get? cursors key)).getD 0

def orderScheduledItems {α : Type} (cursors : Cursors) (key : String) (items : List α)
    (identify : α → String) : List α :=
  items.drop (cursorPosition cursors key items identify) ++
    items.take (cursorPosition cursors key items identify)

/-- A round: the cursors, how many items the budget still allows, and what was served. -/
structure Round (β : Type) where
  cursors : Cursors
  budget : Nat
  served : List β

/-- One item, with the one that comes after it.  `completed` is the callback of the consumer. -/
def serveItem {α β : Type} (key : String) (identify : α → String) (emit : α → β)
    (completed : Cursors → Cursors) (round : Round β) (turn : α × α) : Round β :=
  if round.budget = 0 then round
  else
    { cursors := completed (Assoc.set round.cursors key (identify turn.2))
      budget := round.budget - 1
      served := round.served ++ [emit turn.1] }

def scheduledItems {α β : Type} (key : String) (items : List α) (identify : α → String) (emit : α → β)
    (completed : Cursors → Cursors) (round : Round β) : Round β :=
  (RoundRobin.withNext (orderScheduledItems round.cursors key items identify)).foldl
    (serveItem key identify emit completed) round

/-! ## The load check -/

/-- A load rule; `id` is the text of its id. -/
structure LoadNotification where
  id : String
  clients : List String
  metric : String
  threshold : Option ℚ
  interval_min : Int

/-- A rule with its targets. -/
structure LoadPlan where
  ruleId : String
  targetClients : List String
  deriving DecidableEq

/-- Rules that one query serves. -/
structure LoadGroup where
  identity : String
  plans : List LoadPlan
  deriving DecidableEq

/-- `[...new Set(targets)]`. -/
def unique (targets : List String) : List String :=
  Assoc.keys (Assoc.merge [] (targets.map fun target => (target, ())))

def effectiveLoadNotificationIntervalMin (configured minimum : Int) : Int :=
  max minimum (if 0 < configured then configured else 15)

section LoadCheck

/-- `String(number)`, the shortest interval that the policy allows, and the nodes of a rule that names
    none. -/
structure LoadPolicy where
  numberText : ℚ → String
  minimum_interval_min : Int
  clients : List String

variable (policy : LoadPolicy)

/-- The key of a group, with the length of its window in place of the two ends: all windows of a round
    end at its time. -/
def groupIdentity (rule : LoadNotification) : String :=
  rule.metric ++ ":" ++ policy.numberText (rule.threshold.getD 80) ++ ":" ++ policy.numberText
      (effectiveLoadNotificationIntervalMin rule.interval_min policy.minimum_interval_min * 60000 : Int)

def targetClients (rule : LoadNotification) : List String :=
  unique (if rule.clients = [] then policy.clients else rule.clients)

/-- One rule joins its group; a rule without targets is passed over. -/
def addRule (groups : List (String × LoadGroup)) (rule : LoadNotification) : List (String × LoadGroup) :=
  if targetClients policy rule = [] then groups
  else
    let group := (Assoc.get? groups (groupIdentity policy rule)).getD ⟨groupIdentity policy rule, []⟩
    Assoc.set groups (groupIdentity policy rule)
      { group with plans := group.plans ++ [⟨rule.id, targetClients policy rule⟩] }

def loadGroups (rules : List LoadNotification) : List LoadGroup :=
  (rules.foldl (addRule policy) []).map Prod.snd

/-- The key of the cursor of a rule. -/
def targetCursorKey (ruleId : String) : String := "load:" ++ ruleId

/-- The key of the cursor of a group's rules. -/
def planCursorKey (identity : String) : String := "load_plans:" ++ identity

/-- One rule of a group, with the rule after it; `nextGroup` is the identity of the group after this
    one. -/
def runPlan (planKey nextGroup : String) (round : Round (String × String)) (turn : LoadPlan × LoadPlan) :
    Round (String × String) :=
  scheduledItems (targetCursorKey turn.1.ruleId) turn.1.targetClients id (fun target => (turn.1.ruleId, target))
    (fun cursors => Assoc.set (Assoc.set cursors "load_groups" nextGroup) planKey turn.2.ruleId) round

/-- One group, with the group after it. -/
def runGroup (round : Round (String × String)) (turn : LoadGroup × LoadGroup) : Round (String × String) :=
  (RoundRobin.withNext (orderScheduledItems round.cursors (planCursorKey turn.1.identity) turn.1.plans
    LoadPlan.ruleId)).foldl (runPlan (planCursorKey turn.1.identity) turn.2.identity) round

/-- One round over all groups. -/
def runGroups (groups : List LoadGroup) (round : Round (String × String)) : Round (String × String) :=
  (RoundRobin.withNext (orderScheduledItems round.cursors "load_groups" groups LoadGroup.identity)).foldl
    runGroup round

/-- A scheduled round with a budget. -/
def runLoadCheck (rules : List LoadNotification) (round : Round (String × String)) (budget : Nat) :
    Round (String × String) :=
  runGroups (loadGroups policy rules) { round with budget := budget }

/-- Rounds one after another. -/
def loadRounds (rules : List LoadNotification) (budgets : List Nat) (cursors : Cursors) :
    Round (String × String) :=
  budgets.foldl (runLoadCheck policy rules) ⟨cursors, 0, []⟩

end LoadCheck

end CfMonitor.Scheduled
