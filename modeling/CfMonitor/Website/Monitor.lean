/-
  A website monitor and its checks (`cfm_record_website_check`, `cfm_update_website_monitor`,
  `cfm_set_website_monitor_enabled`, `cfm_set_website_monitor_visibility`,
  `cfm_mark_website_monitor_notified`, `cfm_due_website_monitors`, and the trigger
  `rotate_website_config_revision`).

  1. **Data** — the row of one monitor and the history of its checks.  A timestamp is a number of
     microseconds; revisions are numbered in the order in which `gen_random_uuid` drew them.

  2. **Program** — every function is one statement on the row, and every update goes through the
     trigger.

  3. **History** — `applied` has the checks that changed the health of the row since its revision
     began, newest first; `markedFor` has the outage that the mark of the last notification
     expected.
-/
import CfMonitor.Lib.Machine

namespace CfMonitor.Website

open CfMonitor.Lib

/-! ## Data -/

inductive AgentProbeMode where
  | off
  | selected
  | countryAuto
  deriving DecidableEq

inductive MonitorStatus where
  | pending
  | up
  | down
  | paused
  deriving DecidableEq

inductive CheckSource where
  | worker
  | agent
  deriving DecidableEq

/-- The columns whose change starts a new revision. -/
structure MonitorConfig where
  url : String
  method : String
  expectedStatusMin : Int
  expectedStatusMax : Int
  intervalSec : Int
  timeoutSec : Int
  gracePeriodSec : Int
  enabled : Bool
  agentProbeMode : AgentProbeMode
  agentProbeClients : List String
  agentProbeLimit : Int
  agentProbeStatusEnabled : Bool
  deriving DecidableEq

/-- The columns that checks and marks write. -/
structure MonitorHealth where
  status : MonitorStatus
  lastCheckedAt : Option Int
  lastSuccessAt : Option Int
  lastFailureAt : Option Int
  lastStatusCode : Option Int
  lastRawStatusCode : Option Int
  lastLatencyMs : Option Int
  lastEffectiveReason : Option String
  lastError : Option String
  downSince : Option Int
  lastNotifiedAt : Option Int

/-- A row of `website_monitors`. -/
structure MonitorRow where
  configRevision : Nat
  name : String
  hidden : Bool
  hideUrl : Bool
  config : MonitorConfig
  health : MonitorHealth

/-- A row of `website_checks`. -/
structure StoredCheck where
  configRevision : Nat
  checkedAt : Int
  ok : Bool
  effectiveUp : Bool
  effectiveReason : Option String
  statusCode : Option Int
  rawStatusCode : Option Int
  latencyMs : Option Int
  error : Option String
  source : CheckSource
  sourceClient : Option String

/-- The argument of `cfm_record_website_check`; a field can be missing. -/
structure CheckInput where
  configRevision : Option Nat
  checkedAt : Option Int
  ok : Option Bool
  effectiveStatus : Option String
  effectiveReason : Option String
  statusCode : Option Int
  rawStatusCode : Option Int
  latencyMs : Option Int
  error : Option String
  sourceType : Option String
  sourceClient : Option String

/-- The argument of `cfm_update_website_monitor`; a field that is missing stays. -/
structure MonitorPatch where
  name : Option String
  url : Option String
  method : Option String
  expectedStatusMin : Option Int
  expectedStatusMax : Option Int
  intervalSec : Option Int
  timeoutSec : Option Int
  gracePeriodSec : Option Int
  enabled : Option Bool
  hidden : Option Bool
  hideUrl : Option Bool
  agentProbeMode : Option AgentProbeMode
  agentProbeClients : Option (List String)
  agentProbeLimit : Option Int
  agentProbeStatusEnabled : Option Bool

/-- The `input_expected` of a mark. -/
structure ExpectedHealth where
  configRevision : Nat
  status : MonitorStatus
  downSince : Option Int
  lastNotifiedAt : Option Int

/-- One monitor: its row, its checks, how many revisions were drawn, and the history. -/
structure MonitorState where
  row : MonitorRow
  checks : List StoredCheck
  issued : Nat
  applied : List (Int × Bool)
  markedFor : Option (Option Int)

/-! ## Updates of the row -/

/-- The health of a revision that has begun. -/
def MonitorHealth.fresh (enabled : Bool) : MonitorHealth where
  status := if enabled then .pending else .paused
  lastCheckedAt := none
  lastSuccessAt := none
  lastFailureAt := none
  lastStatusCode := none
  lastRawStatusCode := none
  lastLatencyMs := none
  lastEffectiveReason := none
  lastError := none
  downSince := none
  lastNotifiedAt := none

/-- The checks of the table on a configuration. -/
def MonitorConfig.admitted (c : MonitorConfig) : Bool :=
  (c.method == "GET" || c.method == "HEAD" || c.method == "TCP") &&
  decide (100 ≤ c.expectedStatusMin) && decide (c.expectedStatusMax ≤ 599) &&
  decide (c.expectedStatusMin ≤ c.expectedStatusMax) &&
  decide (60 ≤ c.intervalSec) && decide (c.intervalSec ≤ 86400) &&
  decide (1 ≤ c.timeoutSec) && decide (c.timeoutSec ≤ 30) && decide (c.timeoutSec ≤ c.intervalSec) &&
  decide (30 ≤ c.gracePeriodSec) && decide (c.gracePeriodSec ≤ 86400) &&
  decide (1 ≤ c.agentProbeLimit) && decide (c.agentProbeLimit ≤ 10)

namespace MonitorState

variable (s : MonitorState)

/-- `update website_monitors set ...` under the trigger `rotate_website_config_revision`. -/
def updateRow (new : MonitorRow) : MonitorState :=
  if new.configRevision ≠ s.row.configRevision ∨ new.config ≠ s.row.config then
    { s with
      row := { new with
        configRevision := s.issued, health := MonitorHealth.fresh new.config.enabled }
      issued := s.issued + 1
      applied := [] }
  else { s with row := new }

/-- The configuration that a patch asks for. -/
def patched (patch : MonitorPatch) : MonitorConfig :=
  let c := s.row.config
  { url := patch.url.getD c.url
    method := patch.method.getD c.method
    expectedStatusMin := patch.expectedStatusMin.getD c.expectedStatusMin
    expectedStatusMax := patch.expectedStatusMax.getD c.expectedStatusMax
    intervalSec := patch.intervalSec.getD c.intervalSec
    timeoutSec := patch.timeoutSec.getD c.timeoutSec
    gracePeriodSec := patch.gracePeriodSec.getD c.gracePeriodSec
    enabled := patch.enabled.getD c.enabled
    agentProbeMode := patch.agentProbeMode.getD c.agentProbeMode
    agentProbeClients := patch.agentProbeClients.getD c.agentProbeClients
    agentProbeLimit := match patch.agentProbeLimit with
      | none => c.agentProbeLimit
      | some limit => min (max limit 1) 10
    agentProbeStatusEnabled := patch.agentProbeStatusEnabled.getD c.agentProbeStatusEnabled }

/-- `cfm_update_website_monitor`; an update that the table does not admit changes nothing. -/
def updateWebsiteMonitor (patch : MonitorPatch) : MonitorState :=
  if (s.patched patch).admitted then
    s.updateRow { s.row with
      name := patch.name.getD s.row.name
      hidden := patch.hidden.getD s.row.hidden
      hideUrl := patch.hideUrl.getD s.row.hideUrl
      config := s.patched patch }
  else s

def setWebsiteMonitorVisibility (hidden : Bool) : MonitorState :=
  if s.row.hidden ≠ hidden then s.updateRow { s.row with hidden := hidden } else s

def setWebsiteMonitorEnabled (enabled : Bool) : MonitorState :=
  if s.row.config.enabled ≠ enabled ∨ (enabled = false ∧ s.row.health.status ≠ .paused) then
    s.updateRow { s.row with
      config := { s.row.config with enabled := enabled }
      health := { s.row.health with status := if enabled then s.row.health.status else .paused } }
  else s

/-- Whether a mark applies to the row. -/
def expectedNow (expected : ExpectedHealth) : Bool :=
  s.row.config.enabled && decide (s.row.configRevision = expected.configRevision) &&
  decide (s.row.health.status = expected.status) &&
  decide (s.row.health.downSince = expected.downSince) &&
  decide (s.row.health.lastNotifiedAt = expected.lastNotifiedAt)

/-- `cfm_mark_website_monitor_notified`; `expected` is missing when it is no complete object. -/
def markWebsiteMonitorNotified (time : Option Int) (expected : Option ExpectedHealth) :
    MonitorState :=
  match expected with
  | none => s
  | some expected =>
    if s.expectedNow expected then
      { s.updateRow { s.row with health := { s.row.health with lastNotifiedAt := time } } with
        markedFor := some expected.downSince }
    else s

/-! ## Checks -/

/-- The row that a check becomes in the history. -/
def storedCheck (input : CheckInput) (now : Int) : StoredCheck where
  configRevision := s.row.configRevision
  checkedAt := input.checkedAt.getD now
  ok := input.ok.getD false
  effectiveUp := input.effectiveStatus == some "up"
  effectiveReason := input.effectiveReason
  statusCode := input.statusCode
  rawStatusCode := input.rawStatusCode
  latencyMs := input.latencyMs
  error := input.error
  source := if input.sourceType == some "agent" then .agent else .worker
  sourceClient := input.sourceClient.filter fun client => client != ""

/-- Whether a check is refused: a paused monitor, another revision, or nothing newer than what is
    known. -/
def refuses (input : CheckInput) (now : Int) : Bool :=
  let check := s.storedCheck input now
  !s.row.config.enabled ||
  input.configRevision != some s.row.configRevision ||
  (s.row.health.lastCheckedAt.any fun last => decide (check.checkedAt ≤ last)) ||
  s.checks.any fun previous =>
    previous.configRevision == s.row.configRevision && previous.source == check.source &&
    previous.sourceClient == check.sourceClient && decide (check.checkedAt ≤ previous.checkedAt)

/-- The health after a check that succeeded. -/
def succeeded (check : StoredCheck) : MonitorHealth :=
  { s.row.health with
    status := .up
    lastCheckedAt := some check.checkedAt
    lastSuccessAt := some check.checkedAt
    lastStatusCode := check.statusCode
    lastRawStatusCode := check.rawStatusCode
    lastLatencyMs := check.latencyMs
    lastEffectiveReason := check.effectiveReason
    lastError := none
    downSince := none }

/-- The health after a check that failed. -/
def failed (check : StoredCheck) : MonitorHealth :=
  { s.row.health with
    status := .down
    lastCheckedAt := some check.checkedAt
    lastFailureAt := some check.checkedAt
    lastStatusCode := check.statusCode
    lastRawStatusCode := check.rawStatusCode
    lastLatencyMs := check.latencyMs
    lastEffectiveReason := check.effectiveReason
    lastError := check.error
    downSince := s.row.health.downSince.or (some check.checkedAt)
    lastNotifiedAt := if s.row.health.status = .down then s.row.health.lastNotifiedAt else none }

/-- The window in which an agent's success counts, in microseconds. -/
def successWindow : Int :=
  max (max (s.row.config.intervalSec + 30) s.row.config.gracePeriodSec) 180 * 1000000

/-- Whether an agent has reported the site up since the given time. -/
def recentAgentSuccess (since : Int) : Bool :=
  s.checks.any fun c => c.configRevision == s.row.configRevision && c.source == .agent &&
    c.effectiveUp && decide (since ≤ c.checkedAt)

/-- `cfm_record_website_check`: the state after it and the row that it returns. -/
def recordWebsiteCheck (input : CheckInput) (now : Int) : MonitorState × Option MonitorRow :=
  if s.refuses input now then (s, none)
  else
    let check := s.storedCheck input now
    let s' : MonitorState := { s with checks := check :: s.checks }
    if check.source = .agent ∧ s.row.config.agentProbeStatusEnabled = true ∧ check.ok = false then
      -- recorded only: an agent cannot take the site down
      (s', if s'.recentAgentSuccess (check.checkedAt - s.successWindow) then none else some s.row)
    else
      let health := if check.ok then s.succeeded check else s.failed check
      let s'' := s'.updateRow { s.row with health := health }
      ({ s'' with applied := (check.checkedAt, check.ok) :: s''.applied }, some s''.row)

/-- Whether `cfm_due_website_monitors` selects the monitor, before its limit. -/
def isDue (now : Int) : Bool :=
  s.row.config.enabled &&
  (s.row.health.lastCheckedAt.all fun last =>
    decide (last ≤ now - max (s.row.config.intervalSec - 30) 1 * 1000000)) &&
  (s.row.config.agentProbeMode == .off ||
    (s.row.config.agentProbeStatusEnabled && !s.recentAgentSuccess (now - s.successWindow)))

end MonitorState

/-! ## The monitor as a machine -/

/-- A call of one of the functions. -/
inductive MonitorEvent where
  | record (input : CheckInput) (now : Int)
  | update (patch : MonitorPatch)
  | setEnabled (enabled : Bool)
  | setVisibility (hidden : Bool)
  | mark (time : Option Int) (expected : Option ExpectedHealth)

/-- One call. -/
def monitorStep (s : MonitorState) : MonitorEvent → MonitorState
  | .record input now => (s.recordWebsiteCheck input now).1
  | .update patch => s.updateWebsiteMonitor patch
  | .setEnabled enabled => s.setWebsiteMonitorEnabled enabled
  | .setVisibility hidden => s.setWebsiteMonitorVisibility hidden
  | .mark time expected => s.markWebsiteMonitorNotified time expected

/-- The calls in any order. -/
def monitorMachine : Machine MonitorState MonitorEvent := ⟨fun s e => some (monitorStep s e)⟩

/-- A monitor as `cfm_create_website_monitor` leaves it, after `revision` other revisions. -/
def MonitorState.created (revision : Nat) (name : String) (hidden hideUrl : Bool)
    (config : MonitorConfig) : MonitorState where
  row := ⟨revision, name, hidden, hideUrl, config,
    { MonitorHealth.fresh config.enabled with status := .pending }⟩
  checks := []
  issued := revision + 1
  applied := []
  markedFor := none

end CfMonitor.Website
