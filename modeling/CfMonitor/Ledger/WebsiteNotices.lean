/-
  Alerts and recoveries of one website monitor (`website-notifications.ts`, `shouldNotifyWebsiteDown`
  and `shouldNotifyWebsiteRecovery`, `cfm_pending_website_notifications`).

  The configuration of the monitor does not change, and a notification method is configured.

  1. **Decision** (`websiteNotice`) — what a round tells of a row that it has read: the alert of an
     outage that has lasted long enough and is not marked, or the recovery of a marked one.

  2. **World** (`websiteStep`) — the monitor, the row of its key in the ledger, and where the round is.
     A round reads the monitor, delivers the notice of what it read, and then writes the mark, which
     applies only to a monitor that is still as it was read.  Checks come at any time in between.

  3. **Record** — `completed` has the deliveries that the ledger recorded, newest first; `unrecovered`
     counts the times that the monitor was handled as up, without a failed delivery, while the last
     recorded delivery was an alert.
-/
import CfMonitor.Ledger.NoticeDelivery
import CfMonitor.Website.MonitorRuns

namespace CfMonitor.Ledger

open CfMonitor.Lib
open CfMonitor.Website (MonitorState MonitorRow CheckInput ExpectedHealth)

/-! ## The decision -/

/-- A `uuid` and a `timestamptz` as JSON. -/
structure WebsiteTexts where
  revisionText : Nat → String
  timestampText : Int → String

/-- `shouldNotifyWebsiteDown`; the round's time is in milliseconds. -/
def shouldNotifyWebsiteDown (monitor : MonitorRow) (now : Int) : Bool :=
  monitor.config.enabled && decide (monitor.health.status = .down) &&
  monitor.health.lastNotifiedAt.isNone &&
  monitor.health.downSince.any fun since =>
    -- `new Date(text)` drops the microseconds
    decide (monitor.config.gracePeriodSec * 1000 ≤ now - since / 1000)

def shouldNotifyWebsiteRecovery (monitor : MonitorRow) : Bool :=
  monitor.config.enabled && decide (monitor.health.status = .up) &&
  monitor.health.lastNotifiedAt.isSome

/-- Whether `cfm_pending_website_notifications` selects the monitor, before its limit. -/
def isPending (monitor : MonitorRow) (now : Int) : Bool :=
  monitor.config.enabled &&
  ((decide (monitor.health.status = .down) && monitor.health.lastNotifiedAt.isNone &&
      monitor.health.downSince.any fun since =>
        decide (since ≤ now * 1000 - monitor.config.gracePeriodSec * 1000000)) ||
    (decide (monitor.health.status = .up) && monitor.health.lastNotifiedAt.isSome))

section Decision

variable (texts : WebsiteTexts)

/-- The event id of an alert. -/
def websiteDownId (revision : Nat) (downSince : Option Int) : String :=
  "down:" ++ (texts.revisionText revision ++ (":" ++ (downSince.map texts.timestampText).getD "null"))

/-- The event id of a recovery: the mark of its alert. -/
def websiteRecoveryId (revision : Nat) (lastNotifiedAt : Option Int) : String :=
  "recovery:" ++ (texts.revisionText revision ++
    (":" ++ (lastNotifiedAt.map texts.timestampText).getD "null"))

/-- The notice of `notifyWebsiteMonitor`.  Its two conditions are on different states of the row that
    was read, so that the second one never follows the first. -/
def websiteNotice (monitor : MonitorRow) (now : Int) : Option Notice :=
  if shouldNotifyWebsiteDown monitor now then
    some ⟨.opens, websiteDownId texts monitor.configRevision monitor.health.downSince, now⟩
  else if shouldNotifyWebsiteRecovery monitor then
    some ⟨.closes, websiteRecoveryId texts monitor.configRevision monitor.health.lastNotifiedAt, now⟩
  else none

end Decision

/-! ## The world -/

/-- A phase of a round: `runProbes` or `runPendingNotifications`. -/
inductive WebsitePhase where
  | probes
  | notifications

/-- Where the round is, with the phases that come after. -/
inductive WebsiteRound where
  | between
  /-- Before the next phase reads the monitor. -/
  | phase (now : Int) (rest : List WebsitePhase)
  /-- Read by the notifications; others may be handled before it. -/
  | listed (monitor : MonitorRow) (now : Int) (rest : List WebsitePhase)
  /-- Found to be due; the probe is on its way. -/
  | probing (now : Int) (rest : List WebsitePhase)
  | delivering (monitor : MonitorRow) (n : Notice) (phase : DeliveryPhase) (rest : List WebsitePhase)
  | marking (monitor : MonitorRow) (n : Notice) (rest : List WebsitePhase)

/-- The monitor, the row of its key, the round, and the record. -/
structure WebsiteWorld where
  monitor : MonitorState
  row : Option Row
  round : WebsiteRound
  completed : List Turn
  unrecovered : Nat

/-- What happens next. -/
inductive WebsiteStep where
  /-- A check that an agent or a worker records, at any time. -/
  | check (input : CheckInput) (now : Int)
  | begin (now : Int) (notificationsFirst : Bool)
  /-- The next phase reads; the limit of the query may leave the monitor out. -/
  | read (selected : Bool)
  /-- The probe comes back and is recorded. -/
  | probe (input : CheckInput) (now : Int)
  /-- The turn of the monitor that was listed. -/
  | handle
  | deliver (call : DeliveryCall)
  | mark
  | finish

/-- The check of `checkWebsiteMonitorHttp`, which says nothing about a source. -/
def workerCheck (input : CheckInput) : CheckInput :=
  { input with sourceType := none, sourceClient := none }

/-- What a mark expects of the monitor: the columns as they were read. -/
def expectation (monitor : MonitorRow) : ExpectedHealth :=
  ⟨monitor.configRevision, monitor.health.status, monitor.health.downSince, monitor.health.lastNotifiedAt⟩

/-- The mark that a round writes for a notice, in microseconds. -/
def Notice.websiteMark (n : Notice) : Option Int :=
  match n.turn with
  | .opens => some n.time
  | .closes => none

namespace WebsiteWorld

/-- The monitor has been handled, and nothing failed. -/
def handled (w : WebsiteWorld) (monitor : MonitorRow) (now : Int) (rest : List WebsitePhase) :
    WebsiteWorld :=
  { w with
    round := .phase now rest
    unrecovered := w.unrecovered +
      if monitor.health.status = .up ∧ Turn.isOpen w.completed = true then 1 else 0 }

/-- `notifyWebsiteMonitor` on a row that was read. -/
def notify (texts : WebsiteTexts) (w : WebsiteWorld) (monitor : MonitorRow) (now : Int)
    (rest : List WebsitePhase) : WebsiteWorld :=
  match websiteNotice texts monitor now with
  | none => w.handled monitor now rest
  | some n => { w with round := .delivering monitor n .claiming rest }

/-- The world after a call of the delivery of a notice. -/
def afterCall (w : WebsiteWorld) (monitor : MonitorRow) (n : Notice) (phase : DeliveryPhase)
    (rest : List WebsitePhase) (row : Option Row) (result : DeliveryResult) : WebsiteWorld :=
  { w with
    row := row
    round := match result with
      | .continues phase => .delivering monitor n phase rest
      | .delivered _ => .marking monitor n rest
      -- `sent` is false: the round goes on with the next monitor
      | .undelivered => .phase n.now rest
    completed := if Ledger.completed phase result then n.turn :: w.completed else w.completed }

end WebsiteWorld

section Step

variable (texts : WebsiteTexts)

/-- One step of the rounds and the checks. -/
def websiteStep (w : WebsiteWorld) : WebsiteStep → Option WebsiteWorld
  | .check input now => some { w with monitor := (w.monitor.recordWebsiteCheck input now).1 }
  | .begin now notificationsFirst =>
    match w.round with
    | .between => some { w with
        round := .phase now
          (if notificationsFirst then [.notifications, .probes] else [.probes, .notifications]) }
    | _ => none
  | .read selected =>
    match w.round with
    | .phase now (.notifications :: rest) =>
      if selected then
        if isPending w.monitor.row now then some { w with round := .listed w.monitor.row now rest }
        else none
      else some { w with round := .phase now rest }
    | .phase now (.probes :: rest) =>
      if selected then
        if w.monitor.isDue (now * 1000) then some { w with round := .probing now rest } else none
      else some { w with round := .phase now rest }
    | _ => none
  | .probe input now =>
    match w.round with
    | .probing roundNow rest =>
      let recorded := w.monitor.recordWebsiteCheck (workerCheck input) now
      let w : WebsiteWorld := { w with monitor := recorded.1 }
      match recorded.2 with
      | none => some { w with round := .phase roundNow rest }
      | some monitor => some (w.notify texts monitor roundNow rest)
    | _ => none
  | .handle =>
    match w.round with
    | .listed monitor now rest => some (w.notify texts monitor now rest)
    | _ => none
  | .deliver call =>
    match w.round with
    | .delivering monitor n phase rest =>
      (Ledger.deliver w.row n phase call).map fun p => w.afterCall monitor n phase rest p.1 p.2
    | _ => none
  | .mark =>
    match w.round with
    | .marking monitor n rest =>
      let w : WebsiteWorld :=
        { w with monitor := w.monitor.markWebsiteMonitorNotified n.websiteMark (some (expectation monitor)) }
      some (w.handled monitor n.now rest)
    | _ => none
  | .finish =>
    match w.round with
    | .phase _ [] => some { w with round := .between }
    | _ => none

/-- The rounds and the checks as a machine. -/
def websiteMachine : Machine WebsiteWorld WebsiteStep := ⟨websiteStep texts⟩

end Step

/-- A monitor whose revision has begun: it is not marked, no outage is noted while it is up, and its
    row in the ledger, if there is one, is not about this revision. -/
structure WebsiteWorld.Begins (texts : WebsiteTexts) (w : WebsiteWorld) : Prop where
  unmarked : w.monitor.row.health.lastNotifiedAt = none
  upSince : w.monitor.row.health.status = .up → w.monitor.row.health.downSince = none
  retired : ∀ r, w.row = some r → r.retiredAt = none
  other : ∀ r, w.row = some r → (∀ since, r.eventId ≠ websiteDownId texts w.monitor.row.configRevision since) ∧
    ∀ time, r.eventId ≠ websiteRecoveryId texts w.monitor.row.configRevision time
  between : w.round = .between
  completed : w.completed = []
  unrecovered : w.unrecovered = 0

end CfMonitor.Ledger
