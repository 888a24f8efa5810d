/-
  What an administrator may write into the rules (`validatePingTaskInput` in `ping-task.ts`,
  `validateWebsiteMonitorInput` in `website-monitor.ts`).

  1. **Lists** — the two files read a list of nodes alike, up to a number of them.

  2. **Inputs** — one validator for each kind of rule.

  3. **Results** — the parts of an accepted rule (`PingTaskInput.Valid`).
-/
import CfMonitor.Backup.ClientInput
import CfMonitor.Live.MonitorReport
import CfMonitor.Website.Monitor

namespace CfMonitor.Backup

open CfMonitor.Lib CfMonitor.Live CfMonitor.Website

/-! ## Lists -/

/-- The loop of `readStringArray`, with what it has so far. -/
def collectTexts (limit : Nat) : List String → List Json → List String
  | result, [] => result
  | result, .str text :: rest =>
    if trim text = "" ∨ trim text ∈ result then collectTexts limit result rest
    else if limit ≤ (result ++ [trim text]).length then result ++ [trim text]
    else collectTexts limit (result ++ [trim text]) rest
  | result, _ :: rest => collectTexts limit result rest

def MAX_PING_TASK_CLIENTS : Nat := 500

section

variable (rules : BackupRules)

/-- `readStringArray` of `ping-task.ts`. -/
def readStringArray (value : Option Json) : List String :=
  match value with
  | some (.arr items) => collectTexts MAX_PING_TASK_CLIENTS [] items
  | some (.str text) => match rules.parseJson text with
    | some (.arr items) => collectTexts MAX_PING_TASK_CLIENTS [] items
    | _ => []
  | _ => []

/-- `readStringArray` of `website-monitor.ts`. -/
def readProbeClients (value : Option Json) : List String :=
  match value with
  | some (.arr items) => collectTexts 100 [] items
  | _ => []

/-- A boolean, a number or a text that says so; otherwise the fallback. -/
def readBoolean (value : Option Json) (fallback : Bool) : Bool :=
  match value with
  | some (.bool b) => b
  | some (.num x) => Json.truthy (some (.num x))
  | some (.str text) =>
    let normalized := rules.lower (trim text)
    if normalized = "true" ∨ normalized = "1" then true
    else if normalized = "false" ∨ normalized = "0" then false
    else fallback
  | _ => fallback

/-- `a ?? b`. -/
def orElse (a b : Option Json) : Option Json :=
  match a with
  | none | some .null => b
  | some value => some value

/-- `String(value ?? fallback)`. -/
def textOr (value : Option Json) (fallback : String) : String :=
  (orElse value none).elim fallback (textOf rules)

/-! ## Ping tasks -/

inductive PingTaskType where
  | icmp
  | tcp
  | http
  deriving DecidableEq

def PingTaskType.text : PingTaskType → String
  | .icmp => "icmp"
  | .tcp => "tcp"
  | .http => "http"

/-- The members of `PING_TASK_TYPES`. -/
def PingTaskType.ofText? (text : String) : Option PingTaskType :=
  [PingTaskType.icmp, .tcp, .http].find? fun type => type.text == text

structure PingTaskInput where
  name : String
  clients : List String
  allClients : Bool
  type : PingTaskType
  target : String
  intervalSec : Int

/-- `validateTarget`. -/
def validateTarget (type : PingTaskType) (target : String) : Option String :=
  if target = "" then some "目标地址不能为空"
  else if 512 < units target then some "目标地址不能超过 512 字符"
  else match type with
    | .tcp => validateTcpTarget rules target
    | .http => validateHttpTarget rules target
    | .icmp => validateIcmpTarget rules target

/-- The error that there is, if any. -/
def report (error : Option String) : Checked Unit := ⟨(), error.toList⟩

@[simp] theorem passes_report (error : Option String) : (report error).Passes ↔ error = none := by
  cases error <;> simp [report, Checked.Passes]

def pingTaskNameError (name : String) : Option String :=
  if name = "" then some "任务名称不能为空" else if 128 < units name then some "任务名称不能超过 128 字符" else none

/-- The value of a number, if it is an integer of a range. -/
def integerBetween (x : Option ℚ) (min max : Int) : Option Int :=
  match x with
  | some x => if x.den = 1 ∧ min ≤ x.num ∧ x.num ≤ max then some x.num else none
  | none => none

/-- The checks of `validatePingTaskInput` on the fields of its input. -/
def checkPingTask (body : Fields) (allowedClientIds : Option (List String)) : Checked PingTaskInput := do
  let name := trim (textOr rules (Assoc.get? body "name") "")
  report (pingTaskNameError name)
  let type := PingTaskType.ofText? (rules.lower (trim (textOr rules (Assoc.get? body "type") "icmp")))
  Checked.faultIf type.isNone "Ping 类型必须是 icmp、tcp 或 http"
  let target := trim (textOr rules (Assoc.get? body "target") "")
  report (validateTarget rules (type.getD .icmp) target)
  let interval := integerBetween (rules.toFinite (orElse (Assoc.get? body "interval_sec")
    (orElse (Assoc.get? body "interval") (some (.int 60))))) 60 86400
  Checked.faultIf interval.isNone "检测间隔必须是 60 到 86400 秒之间的整数"
  let allClients := readBoolean rules (Assoc.get? body "all_clients") false
  let clients := if allClients then [] else readStringArray rules (Assoc.get? body "clients")
  Checked.faultIf (!allClients && clients.isEmpty) "定向任务至少需要绑定一个客户端"
  Checked.faultIf (allowedClientIds.any fun allowed => clients.any fun client => !allowed.contains client)
    "任务包含不存在的客户端"
  pure ⟨name, clients, allClients, type.getD .icmp, target, interval.getD 60⟩

def validatePingTaskInput (input : Json) (allowedClientIds : Option (List String)) :
    Except (List String) PingTaskInput :=
  accepted (checkPingTask rules ((Json.obj? input).getD []) allowedClientIds)

/-! ## Websites -/

structure WebsiteMonitorInput where
  name : String
  hidden : Bool
  hideUrl : Bool
  config : MonitorConfig

/-- `input[field]`, if it is a boolean. -/
def booleanOr (value : Option Json) (fallback : Bool) : Bool :=
  match value with
  | some (.bool b) => b
  | _ => fallback

/-- `integerInRange(value ?? fallback, min, max)`. -/
def integerInRange (value : Option Json) (fallback min max : Int) : Option Int :=
  integerBetween (rules.toFinite (orElse value (some (.int fallback)))) min max

/-- The method of a monitor. -/
def websiteMethod (value : Option Json) : Option String :=
  match value with
  | some (.str text) => if ["TCP", "HEAD", "GET"].contains text then some text else if text = "" then some "GET" else none
  | value => if Json.truthy value then none else some "GET"

def websiteProbeMode (value : Option Json) : AgentProbeMode :=
  match value with
  | some (.str "selected") => .selected
  | some (.str "country_auto") => .countryAuto
  | _ => .off

/-- `String(value || '')`. -/
def truthyText (value : Option Json) : String := if Json.truthy value then value.elim "" (textOf rules) else ""

/-- The numbers of a monitor. -/
structure WebsiteBounds where
  expectedStatusMin : Int
  expectedStatusMax : Int
  intervalSec : Int
  timeoutSec : Int
  gracePeriodSec : Int
  agentProbeLimit : Int

def websiteBounds (input : Fields) : Option WebsiteBounds := do
  let expectedStatusMin ← integerInRange rules (Assoc.get? input "expected_status_min") 200 100 599
  let expectedStatusMax ← integerInRange rules (Assoc.get? input "expected_status_max") 399 100 599
  let intervalSec ← integerInRange rules (Assoc.get? input "interval_sec") 120 60 86400
  let timeoutSec ← integerInRange rules (Assoc.get? input "timeout_sec") 10 1 30
  let gracePeriodSec ← integerInRange rules (Assoc.get? input "grace_period_sec") 180 30 86400
  let agentProbeLimit ← integerInRange rules (Assoc.get? input "agent_probe_limit") 3 1 10
  if expectedStatusMax < expectedStatusMin ∨ intervalSec < timeoutSec then none
  else some ⟨expectedStatusMin, expectedStatusMax, intervalSec, timeoutSec, gracePeriodSec, agentProbeLimit⟩

def validateWebsiteMonitorInput (input : Fields) : Except String WebsiteMonitorInput :=
  let name := trim (truthyText rules (Assoc.get? input "name"))
  if name = "" ∨ 120 < units name then .error "invalid_name"
  else match rules.parseUrl (trim (truthyText rules (Assoc.get? input "url"))) with
    | none => .error "invalid_url"
    | some u => match websiteMethod (Assoc.get? input "method") with
      | none => .error "invalid_method"
      | some method =>
        match if method = "TCP" then validateTcpUrl rules u else validateWebsiteUrl rules u with
        | some error => .error error
        | none => match websiteBounds rules input with
          | none => .error "invalid_bounds"
          | some b => .ok
              { name
                hidden := booleanOr (Assoc.get? input "hidden") false
                hideUrl := booleanOr (Assoc.get? input "hide_url") false
                config :=
                  { url := u.href
                    method
                    expectedStatusMin := b.expectedStatusMin
                    expectedStatusMax := b.expectedStatusMax
                    intervalSec := b.intervalSec
                    timeoutSec := b.timeoutSec
                    gracePeriodSec := b.gracePeriodSec
                    enabled := booleanOr (Assoc.get? input "enabled") true
                    agentProbeMode := websiteProbeMode (Assoc.get? input "agent_probe_mode")
                    agentProbeClients := readProbeClients (Assoc.get? input "agent_probe_clients")
                    agentProbeLimit := b.agentProbeLimit
                    agentProbeStatusEnabled := booleanOr (Assoc.get? input "agent_probe_status_enabled") true } }

/-! ## What is accepted -/

variable {rules}

/-- A list of nodes as the readers leave it. -/
structure Texts (limit : Nat) (l : List String) : Prop where
  trimmed : ∀ text ∈ l, trim text = text ∧ text ≠ ""
  nodup : l.Nodup
  length : l.length ≤ limit

theorem Texts.nil (limit : Nat) : Texts limit [] := ⟨nofun, List.nodup_nil, limit.zero_le⟩

theorem Texts.append {limit : Nat} {l : List String} {text : String} (h : Texts limit l) (hne : trim text ≠ "")
    (hnew : trim text ∉ l) (hlength : l.length < limit) : Texts limit (l ++ [trim text]) := by
  refine ⟨fun other hother => ?_, ?_, ?_⟩
  · rcases List.mem_append.mp hother with hother | hother
    · exact h.trimmed other hother
    · obtain rfl := List.mem_singleton.mp hother
      exact ⟨trim_trim text, hne⟩
  · exact List.nodup_append.mpr ⟨h.nodup, List.nodup_singleton _, fun a ha b hb hab =>
      hnew (List.mem_singleton.mp hb ▸ hab ▸ ha)⟩
  · rw [List.length_append, List.length_singleton]
    omega

/-- **The readers** give texts without blanks around them, each once, up to their limit. -/
theorem collectTexts_texts {limit : Nat} : ∀ {items : List Json} {result : List String},
    Texts limit result → result.length < limit → Texts limit (collectTexts limit result items) := by
  intro items
  induction items with
  | nil => exact fun h _ => h
  | cons item rest ih =>
    intro result h hlength
    cases item with
    | str text =>
      rw [collectTexts]
      split_ifs with hskip hfull
      · exact ih h hlength
      · exact h.append (not_or.mp hskip).1 (not_or.mp hskip).2 hlength
      · exact ih (h.append (not_or.mp hskip).1 (not_or.mp hskip).2 hlength) (not_le.mp hfull)
    | _ => exact ih h hlength

theorem integerBetween_some {x : Option ℚ} {min max n : Int} (h : integerBetween x min max = some n) :
    min ≤ n ∧ n ≤ max := by
  cases x with
  | none => simp [integerBetween] at h
  | some x =>
    rw [integerBetween] at h
    split_ifs at h with hrange
    cases h
    exact hrange.2

theorem readStringArray_texts (value : Option Json) : Texts MAX_PING_TASK_CLIENTS (readStringArray rules value) := by
  have hcollect (items : List Json) : Texts MAX_PING_TASK_CLIENTS (collectTexts MAX_PING_TASK_CLIENTS [] items) :=
    collectTexts_texts (.nil _) (by decide)
  unfold readStringArray
  split
  · exact hcollect _
  · split
    · exact hcollect _
    · exact .nil _
  · exact .nil _

/-- What `validatePingTaskInput` promises of a task. -/
structure PingTaskInput.Valid (rules : BackupRules) (t : PingTaskInput) : Prop where
  name : trim t.name = t.name ∧ t.name ≠ "" ∧ units t.name ≤ 128
  target : trim t.target = t.target ∧ validateTarget rules t.type t.target = none
  interval : 60 ≤ t.intervalSec ∧ t.intervalSec ≤ 86400
  texts : Texts MAX_PING_TASK_CLIENTS t.clients
  clients : t.clients = [] ↔ t.allClients = true

theorem pingTaskNameError_none {name : String} : pingTaskNameError name = none ↔ name ≠ "" ∧ units name ≤ 128 := by
  rw [pingTaskNameError]
  split_ifs with hempty hlong
  · exact ⟨nofun, fun h => absurd hempty h.1⟩
  · exact ⟨nofun, fun h => absurd hlong (not_lt.mpr h.2)⟩
  · exact ⟨fun _ => ⟨hempty, not_lt.mp hlong⟩, fun _ => rfl⟩

theorem validatePingTaskInput_valid {input : Json} {allowed : Option (List String)} {task : PingTaskInput}
    (h : validatePingTaskInput rules input allowed = .ok task) :
    task.Valid rules ∧ ∀ ids, allowed = some ids → ∀ client ∈ task.clients, client ∈ ids := by
  obtain ⟨hpasses, rfl⟩ := accepted_ok.mp h
  simp only [checkPingTask, Checked.passes_bind, passes_report, Checked.passes_faultIf, Checked.passes_pure, and_true,
    Checked.value_bind, Checked.value_pure] at hpasses ⊢
  obtain ⟨hname, -, htarget, hinterval, hclients, hallowed⟩ := hpasses
  refine ⟨⟨⟨trim_trim _, pingTaskNameError_none.mp hname⟩, ⟨trim_trim _, htarget⟩, ?_, ?_, ?_⟩,
    fun ids hids client hclient => ?_⟩
  · obtain ⟨n, hn⟩ := Option.isSome_iff_exists.mp (by simpa using hinterval)
    rw [hn]
    exact integerBetween_some hn
  · split_ifs
    · exact .nil _
    · exact readStringArray_texts _
  · cases hall : readBoolean rules (Assoc.get? ((Json.obj? input).getD []) "all_clients") false with
    | true => simp
    | false =>
      simp only [hall, Bool.not_false, Bool.true_and] at hclients
      simpa using hclients
  · rw [hids, Option.any_some, List.any_eq_false] at hallowed
    simpa using hallowed client hclient

/-- The checks of an address under a method. -/
def addressError (rules : BackupRules) (method : String) (u : Url) : Option String :=
  if method = "TCP" then validateTcpUrl rules u else validateWebsiteUrl rules u

end

end CfMonitor.Backup
