/-
  Offline and recovery notices of one client (`runOfflineCheck` in `index.ts`,
  `evaluateOfflineNotificationEvent`, `cfm_mark_offline_notification_sent`).

  The rule of the client is enabled and does not change, and a notification method is configured.
  A round reads the rule, evaluates it against the last report, and delivers the notice; then it
  writes the mark of the rule, `last_notified`, which is what the next round decides from.

  1. **Decision** — `evaluateOfflineNotificationEvent`, and the notice that a round makes of it.

  2. **World** (`offlineStep`) — the row of the ledger, the mark, and where the round is.  Rounds come
     one after another; a round can end at any call, before it or after it was carried out.
     `completed` has the deliveries that the ledger recorded, newest first.
-/
import CfMonitor.Ledger.NoticeDelivery

namespace CfMonitor.Ledger

open CfMonitor.Lib

/-! ## The decision -/

/-- What the check uses from elsewhere: `new Date(text).getTime()` where it is a number,
    `new Date(ms).toISOString()`, and a `timestamptz` as JSON. -/
structure OfflineRules where
  dateParse : String → Option Int
  isoText : Int → String
  timestampText : Int → String

/-- What a round decides to tell. -/
inductive OfflineNotificationEvent where
  | offline (offlineMs : Int) (lastSeenLabel : String) (neverReported : Bool) (createdAt : Option String)
  | recovery (recoveredAt : String)
  deriving DecidableEq

/-- `Math.max(30, Number(grace_period || DEFAULT_OFFLINE_GRACE_PERIOD_SEC))`. -/
def graceSec (gracePeriodSec : Int) : Int := max 30 (if gracePeriodSec = 0 then 360 else gracePeriodSec)

/-- `Math.max(1, Number(offline_confirm_rounds || DEFAULT_OFFLINE_CONFIRM_ROUNDS))`. -/
def streakThreshold (confirmRounds : Int) : Int := max 1 (if confirmRounds = 0 then 3 else confirmRounds)

/-- What a round reads about the client.  A time that is missing is the empty text, which the code
    treats alike. -/
structure OfflineReading where
  now : Int
  createdAt : String
  /-- The liveness that the object reports. -/
  lastSeen : Option Int
  streak : Int
  /-- The time of the last stored record. -/
  recordTime : String
  notifyNeverReported : Bool
  confirmRounds : Int

section Decision

variable (rules : OfflineRules)

def evaluateOfflineNotificationEvent (now : Int) (clientCreatedAt lastTime : String)
    (lastNotified : Option Int) (gracePeriodSec : Int) (notifyNeverReported : Bool) :
    Option OfflineNotificationEvent :=
  let graceMs := graceSec gracePeriodSec * 1000
  let neverReported := lastTime = ""
  let referenceTime :=
    if lastTime ≠ "" then lastTime else if notifyNeverReported then clientCreatedAt else ""
  if referenceTime = "" then none
  else match rules.dateParse referenceTime with
    | none => none
    | some referenceMs =>
      let offlineMs := now - referenceMs
      if graceMs ≤ offlineMs then
        if lastNotified.isSome then none
        else some (.offline offlineMs (if neverReported then "从未上报" else referenceTime) neverReported
          (if neverReported then some referenceTime else none))
      else if lastNotified.isNone ∨ lastTime = "" then none
      else some (.recovery lastTime)

/-- The last report: what the object has seen, else the last stored record. -/
def lastReportTime (reading : OfflineReading) : String :=
  match reading.lastSeen with
  | some ms => if ms = 0 then reading.recordTime else rules.isoText ms
  | none => reading.recordTime

/-- The event id of an alert: the last report, else the creation of the client. -/
def offlineEventId (lastTime createdAt : String) : String :=
  "offline:" ++ (if lastTime ≠ "" then lastTime else if createdAt ≠ "" then createdAt else "never")

/-- The event id of a recovery: the mark of its alert. -/
def recoveryEventId (lastNotified : Int) : String := "recovery:" ++ rules.timestampText lastNotified

/-- The notice of a round, if it has one to deliver. -/
def roundNotice (gracePeriodSec : Int) (lastNotified : Option Int) (reading : OfflineReading) :
    Option Notice :=
  let lastTime := lastReportTime rules reading
  match evaluateOfflineNotificationEvent rules reading.now reading.createdAt lastTime lastNotified
      (graceSec gracePeriodSec) reading.notifyNeverReported with
  | none => none
  | some (.offline ..) =>
    if reading.streak < streakThreshold reading.confirmRounds then none
    else some ⟨.opens, offlineEventId lastTime reading.createdAt, reading.now⟩
  | some (.recovery _) =>
    some ⟨.closes, "recovery:" ++ (lastNotified.map rules.timestampText).getD "null", reading.now⟩

end Decision

/-! ## The world -/

/-- Where the round is. -/
inductive OfflineRound where
  | idle
  | delivering (n : Notice) (phase : DeliveryPhase)
  | marking (n : Notice) (token : String)

/-- The client: the row of its key, the mark of its rule, the time of the last round, the round; and
    the recorded deliveries. -/
structure OfflineWorld where
  row : Option Row
  lastNotified : Option Int
  clock : Int
  round : OfflineRound
  completed : List Turn

/-- What happens next. -/
inductive OfflineStep where
  | evaluate (reading : OfflineReading)
  | deliver (call : DeliveryCall)
  | mark
  /-- The round ends here: a crash, a failed call, the budget. -/
  | crash

/-- `notification_delivery_token_matches`, on the row of the key. -/
def Row.tokenMatches (row : Option Row) (token : String) : Bool :=
  match row with
  | none => false
  | some r => decide (r.claimToken = some token ∧ r.status = .sent ∧ r.retiredAt = none)

/-- The mark that a round writes for a notice. -/
def Notice.markTime (n : Notice) : Option Int :=
  match n.turn with
  | .opens => some n.now
  | .closes => none

/-- The world after a call of the delivery of a notice. -/
def OfflineWorld.afterCall (w : OfflineWorld) (n : Notice) (phase : DeliveryPhase) (row : Option Row)
    (result : DeliveryResult) : OfflineWorld :=
  { w with
    row := row
    round := match result with
      | .continues phase => .delivering n phase
      | .delivered token => .marking n token
      | .undelivered => .idle
    completed := if Ledger.completed phase result then n.turn :: w.completed else w.completed }

section Step

variable (rules : OfflineRules) (gracePeriodSec : Int)

/-- One step of the rounds. -/
def offlineStep (w : OfflineWorld) : OfflineStep → Option OfflineWorld
  | .evaluate reading =>
    match w.round with
    | .idle =>
      if reading.now < w.clock then none
      else match roundNotice rules gracePeriodSec w.lastNotified reading with
        | none => some { w with clock := reading.now }
        | some n => some { w with clock := reading.now, round := .delivering n .claiming }
    | _ => none
  | .deliver call =>
    match w.round with
    | .delivering n phase =>
      (Ledger.deliver w.row n phase call).map fun (row, result) => w.afterCall n phase row result
    | _ => none
  | .mark =>
    match w.round with
    | .marking n token => some { w with
        lastNotified := if Row.tokenMatches w.row token then n.markTime else w.lastNotified
        round := .idle }
    | _ => none
  | .crash => some { w with round := .idle }

/-- The rounds as a machine. -/
def offlineMachine : Machine OfflineWorld OfflineStep := ⟨offlineStep rules gracePeriodSec⟩

end Step

/-- A rule that has not notified yet. -/
def OfflineWorld.start : OfflineWorld := ⟨none, none, 0, .idle, []⟩

end CfMonitor.Ledger
