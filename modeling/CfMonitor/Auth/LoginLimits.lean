/-
  Failed logins and their lock (`cfm_record_login_failures`, `cfm_clear_observed_login_failures`,
  `loadLoginRateLimitStates`, `getLoginRetryAfterSeconds`, `POST /login`).

  1. **Data** — a row of `login_rate_limits` for each bucket.  Times of the database are microseconds; the
     clock of a request is milliseconds.

  2. **Program** — a call is one transaction.  Buckets are independent: a call treats each of its buckets
     alone, so the order in which it locks them does not show.

  3. **Machines** — the calls in any order, with every state that was ever loaded; and the attempts at one
     bucket one after another, each admitted on a fresh load, beside calls for other buckets.
-/
import Mathlib
import CfMonitor.Lib.Machine

namespace CfMonitor.Auth

open CfMonitor.Lib

/-! ## Data -/

/-- A row of `login_rate_limits`. -/
structure LoginRateLimit where
  failures : Nat
  firstFailedAt : Int
  lastFailedAt : Int
  lockedUntil : Option Int
  failureRevision : Nat

/-- `interval '15 minutes'`. -/
def failureWindow : Int := 900000000

/-- `greatest(a, b)`, which ignores nulls. -/
def greatest : Option Int → Option Int → Option Int
  | none, b => b
  | a, none => a
  | some a, some b => some (max a b)

/-! ## Calls of the database -/

/-- `least(900, 30 * power(2, least(failures - 5, 5)))`. -/
def lockSeconds (failures : Nat) : Nat := min 900 (30 * 2 ^ min (failures - 5) 5)

/-- The row as `insert ... on conflict` leaves it. -/
def countFailure (limits : Option LoginRateLimit) (failedAt : Int) (revision : Nat) : LoginRateLimit :=
  match limits with
  | none => ⟨1, failedAt, failedAt, none, revision⟩
  | some limits =>
    let lastFailedAt := max failedAt limits.lastFailedAt
    if lastFailedAt - limits.firstFailedAt ≤ failureWindow then
      ⟨min limits.failures 2147483646 + 1, limits.firstFailedAt, lastFailedAt, limits.lockedUntil, revision⟩
    else ⟨1, lastFailedAt, lastFailedAt, limits.lockedUntil, revision⟩

/-- The lock of a row, as the second `update` sets it. -/
def lockAfter (saved : LoginRateLimit) : Option Int :=
  let nextLock := if 5 ≤ saved.failures then
    some (saved.lastFailedAt + 1000000 * (lockSeconds saved.failures : Int)) else none
  greatest nextLock (saved.lockedUntil.filter fun lockedUntil => decide (saved.lastFailedAt < lockedUntil))

/-- One round of the loop of `cfm_record_login_failures`. -/
def recordFailure (limits : Option LoginRateLimit) (failedAt : Int) (revision : Nat) : LoginRateLimit :=
  let saved := countFailure limits failedAt revision
  { saved with lockedUntil := lockAfter saved }

/-- `trim` of SQL, which removes spaces. -/
def isBlankText (value : String) : Bool := value.toList.all (· == ' ')

/-- `select distinct value ... where trim(value) <> ''`. -/
def failureBuckets (buckets : List String) : List String := (buckets.filter fun value => !isBlankText value).dedup

/-! ## The worker -/

/-- `parseTimeMs` of a time of the database. -/
def parseTimeMs (value : Option Int) : Int :=
  match value with
  | none => 0
  | some micros => micros / 1000

/-- `getLoginRetryAfterSeconds` -/
def getLoginRetryAfterSeconds (states : List (String × Option LoginRateLimit)) (nowMs : Int) : Int :=
  let lockedUntilMs := states.foldl (fun lockedUntilMs state =>
    max lockedUntilMs (parseTimeMs (state.2.bind LoginRateLimit.lockedUntil))) 0
  if lockedUntilMs ≤ nowMs then 0 else (lockedUntilMs - nowMs + 999) / 1000

/-! ## The machine of the calls -/

/-- A loaded state, with the number of failures of the bucket that were recorded before the load. -/
structure LoadedState where
  bucket : String
  state : LoginRateLimit
  recorded : Nat

/-- The table with what was loaded from it.  `recorded` counts the failures of a bucket, `window` those since
    its row last appeared or changed its `first_failed_at`. -/
structure LoginWorld where
  rows : String → Option LoginRateLimit
  revisions : Nat
  loaded : List LoadedState
  recorded : String → Nat
  window : String → Nat

/-- What happens next. -/
inductive LoginEvent where
  | recordLoginFailures (buckets : List String) (failedAt : Option Int)
  | loadLoginRateLimitStates (buckets : List String)
  | clearObservedLoginFailures (states : List Nat)

/-- `loadLoginRateLimitStates`. -/
def LoginWorld.states (w : LoginWorld) (buckets : List String) : List (String × Option LoginRateLimit) :=
  buckets.map fun bucket => (bucket, w.rows bucket)

/-- The failures since the window of the row began. -/
def windowAfter (before : Option LoginRateLimit) (after : LoginRateLimit) (count : Nat) : Nat :=
  match before with
  | none => 1
  | some row => if row.firstFailedAt = after.firstFailedAt then count + 1 else 1

/-- A failure is recorded in a bucket. -/
def LoginWorld.recordOne (failedAt : Int) (w : LoginWorld) (bucket : String) : LoginWorld :=
  let row := recordFailure (w.rows bucket) failedAt w.revisions
  { w with
    rows := Function.update w.rows bucket (some row)
    revisions := w.revisions + 1
    recorded := Function.update w.recorded bucket (w.recorded bucket + 1)
    window := Function.update w.window bucket (windowAfter (w.rows bucket) row (w.window bucket)) }

/-- `cfm_record_login_failures`; without a time it raises an exception. -/
def LoginWorld.recordLoginFailures (w : LoginWorld) (buckets : List String) (failedAt : Option Int) : LoginWorld :=
  match failedAt with
  | none => w
  | some failedAt => (failureBuckets buckets).foldl (LoginWorld.recordOne failedAt) w

/-- Some states that were loaded before. -/
def LoginWorld.observed (w : LoginWorld) (states : List Nat) : List LoadedState := states.filterMap fun i => w.loaded[i]?

/-- `cfm_clear_observed_login_failures`. -/
def LoginWorld.clearObserved (w : LoginWorld) (observed : List LoadedState) : LoginWorld :=
  { w with rows := fun bucket => (w.rows bucket).filter fun row =>
      !observed.any fun o => o.bucket == bucket && o.state.failureRevision == row.failureRevision }

/-- One step. -/
def loginStep (w : LoginWorld) : LoginEvent → Option LoginWorld
  | .recordLoginFailures buckets failedAt => some (w.recordLoginFailures buckets failedAt)
  | .loadLoginRateLimitStates buckets => some { w with
      loaded := w.loaded ++ (w.states buckets).filterMap fun state =>
        state.2.map fun row => ⟨state.1, row, w.recorded state.1⟩ }
  | .clearObservedLoginFailures states => some (w.clearObserved (w.observed states))

def loginMachine : Machine LoginWorld LoginEvent := ⟨loginStep⟩

def LoginWorld.start : LoginWorld := ⟨fun _ => none, 0, [], fun _ => 0, fun _ => 0⟩

/-! ## The machine of the attempts -/

/-- The attempts at a bucket that were admitted, newest first: when, and when their failure was recorded. -/
structure Attempts where
  world : LoginWorld
  clock : Int
  admitted : List (Int × Int)

/-- What happens next: an attempt that fails, or a call that is about other buckets. -/
inductive AttemptEvent where
  | attempt (buckets : List String) (nowMs failedAt : Int)
  | elsewhere (e : LoginEvent)

/-- Whether a call leaves a bucket alone. -/
def LoginEvent.spares (w : LoginWorld) (bucket : String) : LoginEvent → Bool
  | .recordLoginFailures buckets _ => !(failureBuckets buckets).contains bucket
  | .loadLoginRateLimitStates _ => true
  | .clearObservedLoginFailures states => (w.observed states).all fun o => o.bucket != bucket

/-- One step of the attempts at a bucket. -/
def attemptStep (bucket : String) (s : Attempts) : AttemptEvent → Option Attempts
  | .attempt buckets nowMs failedAt =>
    if (failureBuckets buckets).contains bucket ∧ s.clock ≤ nowMs ∧ nowMs ≤ failedAt then
      if getLoginRetryAfterSeconds (s.world.states buckets) nowMs = 0 then
        -- `new Date(failedAt).toISOString()`
        some ⟨s.world.recordLoginFailures buckets (some (1000 * failedAt)), failedAt, (nowMs, failedAt) :: s.admitted⟩
      else some { s with clock := nowMs }
    else none
  | .elsewhere e => if e.spares s.world bucket then (loginStep s.world e).map fun w => { s with world := w } else none

def attemptMachine (bucket : String) : Machine Attempts AttemptEvent := ⟨attemptStep bucket⟩

end CfMonitor.Auth
