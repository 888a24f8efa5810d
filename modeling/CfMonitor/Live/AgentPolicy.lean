/-
  The policy of an agent and the caches under it (`buildAgentPolicy`, `getAgentPolicySettings`, `getPingTasks`,
  `getWebsiteProbeTasks`, `/policy-refresh`, `/ping-tasks-refresh`).

  1. **Data** — a slot for each table, the reads that are in flight, and the policies under construction.  A read
     returns what the database had at one MOMENT between its start and its end; moments count the writes.

  2. **Program** — a construction runs in turns: it asks for the settings when it starts, for the ping tasks, and for
     the website probe tasks.  A read settles in one turn with the calls that wait for it.  Anything else may come between
     two turns.

  3. **History** — the moments of the last refresh requests; a policy keeps those of its start.
-/
import CfMonitor.Lib.Assoc
import CfMonitor.Lib.Machine
import CfMonitor.Lib.SharedRead

namespace CfMonitor.Live

open CfMonitor.Lib

/-! ## Data -/

structure AgentPolicySettings where
  activeIntervalSec : Int
  idleIntervalSec : Int
  viewerTtlSec : Int
  pingIntervalSec : Int
  deriving DecidableEq

structure PolicyPingTask where
  id : Option Int
  name : String
  type : String
  target : String
  all_clients : Bool
  clients : List String
  interval_sec : Int
  deriving DecidableEq

/-- What the database has.  `listAgentWebsiteProbeTasks` reads by client and time. -/
structure PolicyTables (ω : Type) where
  settings : String → Option String
  pingTasks : List PolicyPingTask
  websiteProbeTasks : String → Int → List ω

/-- `buildAdminSettings` of a key, and `Number(text)` where it is an integer. -/
structure PolicySettingRules where
  adminSetting : String → Option String → String
  integer : String → Option Int

inductive PolicyTable where
  | settings
  | pingTasks
  | websiteProbeTasks (clientId : String)
  deriving DecidableEq

/-- A read in flight.  `since` is the moment at which it started. -/
structure PolicyRead where
  id : Nat
  table : PolicyTable
  now : Int
  since : Nat

/-- A policy under construction. -/
structure PolicyDraft (ω : Type) where
  clientId : Option String
  now : Int
  reportNow : Bool
  pingRefreshed : Nat
  policyRefreshed : Nat
  waits : Option Nat
  settings : Option (Stamped AgentPolicySettings)
  viewerCount : Nat
  pingTasks : Option (Stamped (List PolicyPingTask))
  interval : Option (Stamped AgentPolicySettings)
  websiteProbeTasks : Option (Stamped (List ω))

structure PolicyObject (ω : Type) where
  settings : Slot AgentPolicySettings
  pingTasks : Slot (List PolicyPingTask)
  websiteProbeTasks : List (String × Slot (List ω))
  reads : List PolicyRead
  drafts : List (PolicyDraft ω)
  moment : Nat
  pingRefreshed : Nat
  policyRefreshed : Nat
  nextRead : Nat

/-- `ask` is a call of one of the getters from elsewhere. -/
inductive PolicyEvent where
  | write
  | start (clientId : Option String) (now : Int) (reportNow forced : Bool)
  | resume (draft : Nat) (viewerCount : Nat)
  | settle (read : Nat) (moment : Nat)
  | ask (table : PolicyTable) (now : Int)
  | refresh (pingTasks : Bool)
  | restore

/-! ## Program -/

def POLICY_SETTING_CACHE_MS : Int := 30000
def PING_TASK_CACHE_MS : Int := 120000
def WEBSITE_PROBE_TASK_CACHE_MS : Int := 120000

/-- `this.policySettings` before the first read. -/
def defaultSettings : AgentPolicySettings := ⟨3, 120, 120, 120⟩

def boundIntegerSetting (parsed : Option Int) (fallback min max : Int) : Int :=
  match parsed with
  | some n => if n < min then min else if max < n then max else n
  | none => fallback

/-- The settings of the database. -/
def readSettings (rules : PolicySettingRules) (stored : String → Option String) : AgentPolicySettings :=
  let setting (key : String) := rules.integer (rules.adminSetting key (stored key))
  ⟨boundIntegerSetting (setting "live_poll_active_interval_sec") 3 3 300,
    boundIntegerSetting (setting "live_poll_idle_interval_sec") 120 60 3600,
    boundIntegerSetting (setting "live_poll_active_max_duration_sec") 120 60 3600,
    boundIntegerSetting (setting "ping_record_persist_interval_sec") 120 60 3600⟩

def pingTasksForClient (intervalSec : Int) (tasks : List PolicyPingTask) (clientId : Option String) :
    List PolicyPingTask :=
  match clientId with
  | none => []
  | some client => if client = "" then [] else
    (tasks.filter fun task => task.all_clients || task.clients.contains client).map fun task =>
      { task with interval_sec := intervalSec }

namespace PolicyObject

variable {ω : Type} (o : PolicyObject ω)

/-- A new object: `policySettingsCheckedAt` is 0. -/
def start : PolicyObject ω :=
  ⟨⟨some (⟨defaultSettings, 0⟩, POLICY_SETTING_CACHE_MS), none⟩, Slot.empty, [], [], [], 0, 0, 0, 0⟩

/-- `this.policySettings`. -/
def policySettings : Stamped AgentPolicySettings := (o.settings.cached.map Prod.fst).getD ⟨defaultSettings, 0⟩

def websiteSlot (clientId : String) : Slot (List ω) := (Assoc.get? o.websiteProbeTasks clientId).getD Slot.empty

/-- A read of a table begins. -/
def beginRead (table : PolicyTable) (now : Int) : PolicyObject ω :=
  { o with reads := o.reads ++ [⟨o.nextRead, table, now, o.moment⟩], nextRead := o.nextRead + 1 }

/-- A call of `getAgentPolicySettings`, up to its first await. -/
def getAgentPolicySettings (now : Int) (forceRefresh : Bool) : Answer AgentPolicySettings × PolicyObject ω :=
  match o.settings.ask now forceRefresh with
  | .reads => (.joins o.nextRead, { o.beginRead .settings now with settings := o.settings.awaits o.nextRead })
  | answer => (answer, o)

def getPingTasks (now : Int) : Answer (List PolicyPingTask) × PolicyObject ω :=
  match o.pingTasks.ask now false with
  | .reads => (.joins o.nextRead, { o.beginRead .pingTasks now with pingTasks := o.pingTasks.awaits o.nextRead })
  | answer => (answer, o)

def getWebsiteProbeTasks (now : Int) (clientId : String) : Answer (List ω) × PolicyObject ω :=
  match (o.websiteSlot clientId).ask now false with
  | .reads => (.joins o.nextRead,
    { o.beginRead (.websiteProbeTasks clientId) now with
      websiteProbeTasks := Assoc.set o.websiteProbeTasks clientId ((o.websiteSlot clientId).awaits o.nextRead) })
  | answer => (answer, o)

def invalidatePingTasksCache : PolicyObject ω := { o with pingTasks := Slot.empty }

def invalidateWebsiteProbeTasksCache : PolicyObject ω := { o with websiteProbeTasks := [] }

/-! ### A policy -/

/-- `buildAgentPolicy` up to its first await. -/
def startPolicy (clientId : Option String) (now : Int) (reportNow forced : Bool) : PolicyObject ω :=
  let asked := o.getAgentPolicySettings now forced
  { asked.2 with drafts := o.drafts ++ [{
      clientId, now, reportNow
      pingRefreshed := o.pingRefreshed
      policyRefreshed := o.policyRefreshed
      waits := asked.1.read?
      settings := asked.1.value?
      viewerCount := 0
      pingTasks := none
      interval := none
      websiteProbeTasks := none }] }

/-- The settings are there: ask for the ping tasks. -/
def askPingTasks (i : Nat) (d : PolicyDraft ω) (viewerCount : Nat) : PolicyObject ω :=
  let asked := o.getPingTasks d.now
  { asked.2 with
    drafts := o.drafts.set i { d with waits := asked.1.read?, viewerCount, pingTasks := asked.1.value? } }

/-- The ping tasks are there: take the interval, and ask for the website probe tasks. -/
def askWebsiteProbeTasks (i : Nat) (d : PolicyDraft ω) : PolicyObject ω :=
  match d.clientId.filter fun client => decide (client ≠ "") with
  | some client =>
    let asked := o.getWebsiteProbeTasks d.now client
    { asked.2 with
      drafts := o.drafts.set i { d with
        waits := asked.1.read?, interval := some o.policySettings, websiteProbeTasks := asked.1.value? } }
  | none =>
    { o with
      drafts := o.drafts.set i { d with
        interval := some o.policySettings, websiteProbeTasks := some ⟨[], o.moment⟩ } }

/-- A policy goes on. -/
def resume (i : Nat) (viewerCount : Nat) : Option (PolicyObject ω) := do
  let d ← o.drafts[i]?
  if d.waits.isSome || d.settings.isNone then none
  else if d.pingTasks.isNone then some (o.askPingTasks i d viewerCount)
  else if d.interval.isNone then some (o.askWebsiteProbeTasks i d)
  else none

/-! ### Reads -/

/-- What the calls that wait for a read do with its value. -/
def deliver (read : Nat) (receive : PolicyDraft ω → PolicyDraft ω) : List (PolicyDraft ω) :=
  o.drafts.map fun d => if d.waits = some read then { receive d with waits := none } else d

/-- A read returns what the database had at a moment. -/
def settleRead (rules : PolicySettingRules) (tables : PolicyTables ω) (r : PolicyRead) (moment : Nat) : PolicyObject ω :=
  let o := { o with reads := o.reads.filter fun other => decide (other.id ≠ r.id) }
  match r.table with
  | .settings =>
    let v : Stamped AgentPolicySettings := ⟨readSettings rules tables.settings, moment⟩
    { o with
      settings := o.settings.settle r.id v (r.now + POLICY_SETTING_CACHE_MS)
      drafts := o.deliver r.id fun d => { d with settings := some v } }
  | .pingTasks =>
    let v : Stamped (List PolicyPingTask) := ⟨tables.pingTasks, moment⟩
    { o with
      pingTasks := o.pingTasks.settle r.id v (r.now + PING_TASK_CACHE_MS)
      drafts := o.deliver r.id fun d => { d with pingTasks := some v } }
  | .websiteProbeTasks clientId =>
    let v : Stamped (List ω) := ⟨tables.websiteProbeTasks clientId r.now, moment⟩
    { o with
      websiteProbeTasks := Assoc.set o.websiteProbeTasks clientId
        ((o.websiteSlot clientId).settle r.id v (r.now + WEBSITE_PROBE_TASK_CACHE_MS))
      drafts := o.deliver r.id fun d => { d with websiteProbeTasks := some v } }

/-- The read of a number. -/
def read? (read : Nat) : Option PolicyRead := o.reads.find? fun r => decide (r.id = read)

/-- The read of a number settles, if the moment is between its start and now. -/
def settle (rules : PolicySettingRules) (tables : Nat → PolicyTables ω) (read moment : Nat) :
    Option (PolicyObject ω) := do
  let r ← o.read? read
  if r.since ≤ moment ∧ moment ≤ o.moment then some (o.settleRead rules (tables moment) r moment) else none

/-! ### Requests -/

/-- `/ping-tasks-refresh`, or `/policy-refresh`.  The policies that they send are started by events of their own. -/
def refresh (pingTasks : Bool) : PolicyObject ω :=
  if pingTasks then { o.invalidatePingTasksCache.invalidateWebsiteProbeTasksCache with pingRefreshed := o.moment }
  else { o.invalidateWebsiteProbeTasksCache with policyRefreshed := o.moment }

/-- `restoreClients`: `policySettingsCheckedAt = 0`. -/
def restore : PolicyObject ω :=
  { o.invalidatePingTasksCache.invalidateWebsiteProbeTasksCache with
    settings := { o.settings with cached := o.settings.cached.map fun p => (p.1, POLICY_SETTING_CACHE_MS) } }

def askTable (table : PolicyTable) (now : Int) : PolicyObject ω :=
  match table with
  | .settings => (o.getAgentPolicySettings now false).2
  | .pingTasks => (o.getPingTasks now).2
  | .websiteProbeTasks clientId => if clientId = "" then o else (o.getWebsiteProbeTasks now clientId).2

end PolicyObject

section Step

variable {ω : Type} (rules : PolicySettingRules) (tables : Nat → PolicyTables ω)

def policyStep (o : PolicyObject ω) : PolicyEvent → Option (PolicyObject ω)
  | .write => some { o with moment := o.moment + 1 }
  | .start clientId now reportNow forced => some (o.startPolicy clientId now reportNow forced)
  | .resume i viewerCount => o.resume i viewerCount
  | .settle read moment => o.settle rules tables read moment
  | .ask table now => some (o.askTable table now)
  | .refresh pingTasks => some (o.refresh pingTasks)
  | .restore => some o.restore

def policyMachine : Machine (PolicyObject ω) PolicyEvent := ⟨policyStep rules tables⟩

end Step

/-! ### The message -/

structure AgentPolicyMessage (ω : Type) where
  active : Bool
  sample_interval_sec : Int
  report_interval_sec : Int
  report_now : Bool
  viewer_count : Nat
  viewer_ttl_sec : Int
  ping_interval_sec : Int
  ping_tasks : List PolicyPingTask
  website_probe_tasks : List ω
  policy_ttl_sec : Int
  idle_policy_ttl_sec : Int
  timestamp : Int

/-- The policy, once everything is there. -/
def PolicyDraft.policy {ω : Type} (d : PolicyDraft ω) : Option (AgentPolicyMessage ω) := do
  let settings ← d.settings
  let tasks ← d.pingTasks
  let interval ← d.interval
  let websites ← d.websiteProbeTasks
  let active := decide (0 < d.viewerCount)
  let seconds := if active then settings.value.activeIntervalSec else settings.value.idleIntervalSec
  some {
    active
    sample_interval_sec := seconds
    report_interval_sec := seconds
    report_now := active && d.reportNow
    viewer_count := d.viewerCount
    viewer_ttl_sec := settings.value.viewerTtlSec
    ping_interval_sec := settings.value.pingIntervalSec
    ping_tasks := pingTasksForClient interval.value.pingIntervalSec tasks.value d.clientId
    website_probe_tasks := websites.value
    policy_ttl_sec := if active then 30 else 120
    idle_policy_ttl_sec := 120
    timestamp := d.now }

end CfMonitor.Live
