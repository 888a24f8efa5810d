/-
  The object that counts requests (`RateLimitDO`: `checkRateLimit`, `cleanupExpiredBuckets`,
  `enforceBucketLimit`, `alarm`).

  1. **Data** — a counter under each key of the storage; a key is made of the bucket and the address.

  2. **Program** — a request counts in its window, or begins one.  Every 256th request takes out the counters
     that are over, every 1024th and every alarm also the oldest of those that are not, beyond 5000.  A request
     or an alarm is one step, since the object serves nothing else while it waits for its storage.

  3. **History** — `log` has the requests that were answered, the oldest first.
-/
import CfMonitor.Lib.Assoc
import CfMonitor.Lib.Machine
import CfMonitor.Live.MonitorReport

namespace CfMonitor.Limits

open CfMonitor.Lib

/-! ## Data -/

def RATE_LIMIT_STORAGE_PREFIX : String := "rate-limit:"
def RATE_LIMIT_MAX_BUCKETS : Nat := 5000
def RATE_LIMIT_CLEANUP_ALARM_MS : Int := 300000

/-- What is stored under a key. -/
structure RateState where
  count : Nat
  resetAt : Int

abbrev RateStorage := List (String × RateState)

/-- The body of a request, after `typeof` and `Number`: a number that is no integer is none. -/
structure RateLimitBody where
  bucket : Option String
  ip : Option String
  max : Option Int
  windowMs : Option Int

/-- A valid request. -/
structure RateLimitRequest where
  bucket : String
  ip : String
  max : Int
  windowMs : Int

/-- The body of an answer. -/
structure RateLimitAnswer where
  allowed : Bool
  retryAfter : Int
  limit : Int
  remaining : Int
  reset : Int

/-- A request that was answered: of which pair and when, whether it found no active counter, and its answer. -/
structure Answered where
  bucket : Option String
  ip : Option String
  now : Int
  fresh : Bool
  answer : RateLimitAnswer

/-! ## Program -/

/-- The checks of a body. -/
def RateLimitBody.request (body : RateLimitBody) : Option RateLimitRequest := do
  let bucket := Live.sliceUnits 96 (body.bucket.getD "")
  let ip := Live.sliceUnits 128 (body.ip.getD "")
  let max ← body.max
  let windowMs ← body.windowMs
  if bucket = "" ∨ ip = "" ∨ max ≤ 0 ∨ windowMs < 1000 then none else some ⟨bucket, ip, max, windowMs⟩

def storageKey (bucket ip : String) : String := RATE_LIMIT_STORAGE_PREFIX ++ bucket ++ ":" ++ ip

/-- A counter whose window is not over. -/
def isActive (now : Int) (state : RateState) : Bool := decide (now < state.resetAt)

/-- The counter after a request. -/
def countRequest (current : Option RateState) (now windowMs : Int) : RateState :=
  match current.filter (isActive now) with
  | none => ⟨1, now + windowMs⟩
  | some state => ⟨state.count + 1, state.resetAt⟩

/-- `Math.ceil(ms / 1000)`. -/
def ceilSeconds (ms : Int) : Int := -((-ms) / 1000)

def answerOf (state : RateState) (max now : Int) : RateLimitAnswer where
  allowed := decide ((state.count : Int) ≤ max)
  retryAfter := Max.max 1 (ceilSeconds (state.resetAt - now))
  limit := max
  remaining := Max.max 0 (max - state.count)
  reset := ceilSeconds state.resetAt

def cleanupExpiredBuckets (storage : RateStorage) (now : Int) : RateStorage :=
  storage.filter fun entry => isActive now entry.2

/-- The order in which `enforceBucketLimit` takes out counters.  The list of the storage is in the order of its
    keys, and the sort by `resetAt` is stable. -/
def olderOrSame (a b : String × RateState) : Bool :=
  decide (a.2.resetAt < b.2.resetAt ∨ a.2.resetAt = b.2.resetAt ∧ a.1 ≤ b.1)

/-- The oldest active counters beyond the limit. -/
def oldestBuckets (storage : RateStorage) (now : Int) : RateStorage :=
  let active := storage.filter fun entry => isActive now entry.2
  (active.mergeSort olderOrSame).take (active.length - RATE_LIMIT_MAX_BUCKETS)

def enforceBucketLimit (storage : RateStorage) (now : Int) : RateStorage :=
  if storage.length ≤ RATE_LIMIT_MAX_BUCKETS then storage
  else storage.filter fun entry =>
    isActive now entry.2 && !(Assoc.keys (oldestBuckets storage now)).contains entry.1

/-! ## Machine -/

structure RateLimitDO where
  storage : RateStorage
  alarm : Option Int
  sweepCounter : Nat
  clock : Int
  log : List Answered

/-- What happens next.  `none` is a payload that is too large or not JSON. -/
inductive RateLimitEvent where
  | request (body : Option RateLimitBody) (now : Int)
  | alarm (now : Int)
  | restart

namespace RateLimitDO

/-- The storage before the counter is read. -/
def swept (s : RateLimitDO) (now : Int) : RateStorage :=
  if (s.sweepCounter + 1) % 256 = 0 then cleanupExpiredBuckets s.storage now else s.storage

/-- The storage with the request counted. -/
def written (s : RateLimitDO) (r : RateLimitRequest) (now : Int) : RateStorage :=
  let current := Assoc.get? (s.swept now) (storageKey r.bucket r.ip)
  Assoc.set (s.swept now) (storageKey r.bucket r.ip) (countRequest current now r.windowMs)

/-- `checkRateLimit`. -/
def checkRateLimit (s : RateLimitDO) (body : RateLimitBody) (r : RateLimitRequest) (now : Int) : RateLimitDO :=
  let current := Assoc.get? (s.swept now) (storageKey r.bucket r.ip)
  { storage := if (s.sweepCounter + 1) % 1024 = 0 then enforceBucketLimit (s.written r now) now else s.written r now
    -- `scheduleCleanupAlarm`
    alarm := s.alarm.or (some (now + RATE_LIMIT_CLEANUP_ALARM_MS))
    sweepCounter := s.sweepCounter + 1
    clock := now
    log := s.log ++ [{
      bucket := body.bucket
      ip := body.ip
      now := now
      fresh := (current.filter (isActive now)).isNone
      answer := answerOf (countRequest current now r.windowMs) r.max now }] }

/-- `alarm`. -/
def runAlarm (s : RateLimitDO) (now : Int) : RateLimitDO :=
  let storage := enforceBucketLimit (cleanupExpiredBuckets s.storage now) now
  { s with
    storage := storage
    alarm := if storage.isEmpty then none else some (now + RATE_LIMIT_CLEANUP_ALARM_MS)
    clock := now }

def start : RateLimitDO := ⟨[], none, 0, 0, []⟩

end RateLimitDO

/-- One step. -/
def rateLimitStep (s : RateLimitDO) : RateLimitEvent → Option RateLimitDO
  | .request none _ => some s
  | .request (some body) now =>
    if s.clock ≤ now then
      match body.request with
      | none => some s
      | some r => some (s.checkRateLimit body r now)
    else none
  | .alarm now =>
    if s.clock ≤ now ∧ s.alarm.any (fun at_ => decide (at_ ≤ now)) = true then some (s.runAlarm now) else none
  | .restart => some { s with sweepCounter := 0 }

def rateLimitMachine : Machine RateLimitDO RateLimitEvent := ⟨rateLimitStep⟩

/-! ## One pair alone -/

/-- The requests of a pair when nothing else is counted, from a counter on. -/
def alone (bucket ip : String) (max windowMs : Int) : Option RateState → List Int → List Answered
  | _, [] => []
  | current, now :: rest =>
    let state := countRequest current now windowMs
    ⟨some bucket, some ip, now, (current.filter (isActive now)).isNone, answerOf state max now⟩ ::
      alone bucket ip max windowMs (some state) rest

end CfMonitor.Limits
