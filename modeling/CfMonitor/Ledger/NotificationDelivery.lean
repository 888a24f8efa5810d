/-
  The notification ledger (`supabase/migrations/4_rpc_api.sql`).

  Data
    * One row for each key (an alert source and its target).  A row is `pending` while a worker
      holds the claim token, `failed` between attempts and `sent` after a delivery; `retiredAt`
      marks a row whose owner changed or went away.
    * The ledger is the table, sorted by key.  Whether the owner of a key exists is three-valued
      in the source (`notification_delivery_entity_exists`: a key of unknown format has no owner);
      here it is part of the state, and the environment may change it in any way.
    * Times are microseconds of ONE clock that never goes back.  Tokens come from the environment
      (`gen_random_uuid`).
    * `lastGrant` and `lastToken` are history: no function reads them.

  Program
    Every SQL function is one atomic step (row locks): `claim`, `complete`, owner changes with
    `retireNotificationDeliveries`, `cleanup`, and the three functions that mark a rule as
    notified.  Each works on the row of one key, so each has a row function of its own.
-/
import CfMonitor.Lib.Directory
import CfMonitor.Lib.Machine
import Mathlib.Algebra.Group.Int.Defs
import Mathlib.Data.String.Basic
import Mathlib.Data.List.Dedup

namespace CfMonitor.Ledger

open CfMonitor.Lib

/-! ## Rows -/

/-- The state of a delivery. -/
inductive Status where
  | pending
  | failed
  | sent
  deriving DecidableEq

/-- A row of `notification_delivery_state`, without its key. -/
structure Row where
  eventId : String
  status : Status
  attempts : Int
  nextAttemptAt : Int
  claimToken : Option String
  deliveredAt : Option Int
  updatedAt : Int
  retiredAt : Option Int
  deriving DecidableEq

/-- Microseconds in a second. -/
def second : Int := 1000000

/-- The lease of a claim: 90 seconds. -/
def lease : Int := 90 * second

/-- The longest repeat interval: seven days, in milliseconds. -/
def maxRepeatMs : Int := 604800000

/-- A worker holds the row and its lease has not run out. -/
def Row.activeLease (row : Row) (now : Int) : Bool :=
  decide (row.status = .pending) && row.claimToken.isSome && decide (row.nextAttemptAt > now)

/-- The row that a claim inserts when there is none. -/
def freshRow (event : String) (now : Int) : Row where
  eventId := event
  status := .pending
  attempts := 0
  nextAttemptAt := now
  claimToken := none
  deliveredAt := none
  updatedAt := now
  retiredAt := none

/-! ## Claiming -/

/-- The answer of a claim. -/
structure ClaimResult where
  claimed : Bool
  delivered : Bool
  token : Option String
  deriving DecidableEq

/-- Not claimed, not delivered, no token. -/
def ClaimResult.refused : ClaimResult := ⟨false, false, none⟩

/-- The row that a granted claim leaves. -/
def Row.granted (row : Row) (event token : String) (now : Int) : Row where
  eventId := event
  status := .pending
  attempts :=
    if row.retiredAt ≠ none ∨ row.eventId ≠ event ∨ row.status = .sent then 1
    else min (row.attempts + 1) 100000
  nextAttemptAt := now + lease
  claimToken := some token
  deliveredAt := none
  updatedAt := now
  retiredAt := none

/-- The row part of `cfm_claim_notification_delivery`; `token` is the random one. -/
def claimRow (row : Row) (event : String) (now repeatMs : Int) (token : String) :
    Row × ClaimResult :=
  if row.activeLease now then (row, .refused)
  else if row.retiredAt = none ∧ row.eventId = event then
    if row.status = .sent ∧ repeatMs ≤ 0 then
      -- rows sent before the upgrade have no credential yet: one is made, nothing is sent again
      let credential := row.claimToken.getD token
      ({ row with claimToken := some credential }, ⟨false, true, some credential⟩)
    else if row.nextAttemptAt > now then (row, .refused)
    else (row.granted event token now, ⟨true, false, some token⟩)
  else (row.granted event token now, ⟨true, false, some token⟩)

/-! ## Completing -/

/-- The pause after a failed attempt, in seconds. -/
def backoffSeconds (attempts : Int) : Int :=
  min 1800 (120 * 2 ^ (min (max (attempts - 1) 0) 4).toNat)

/-- The pause after a delivery. -/
def repeatPause (repeatMs : Int) : Int := min (max repeatMs 0) maxRepeatMs * 1000

/-- The row that a completion of an unretired claim leaves. -/
def Row.completed (row : Row) (token : String) (success : Bool) (now repeatMs : Int) : Row :=
  { row with
    status := if success then .sent else .failed
    deliveredAt := if success then some now else row.deliveredAt
    nextAttemptAt :=
      now + (if success then repeatPause repeatMs else backoffSeconds row.attempts * second)
    claimToken := if success then some token else none
    updatedAt := now }

/-- The token is the one that holds the row. -/
def Row.heldBy (row : Row) (event token : String) : Bool :=
  decide (row.eventId = event ∧ row.claimToken = some token ∧ row.status = .pending)

/-- The row part of `cfm_complete_notification_delivery`: the row afterwards, and the answer.  A
    retired row goes away with its completion. -/
def completeRow (row : Row) (event token : String) (success : Bool) (now repeatMs : Int) :
    Option Row × Bool :=
  if row.heldBy event token then
    if row.retiredAt ≠ none then (none, false)
    else (some (row.completed token success now repeatMs), true)
  else (some row, false)

/-! ## Retiring -/

/-- The row part of `retire_notification_deliveries`: marked, and removed unless a worker still
    holds it. -/
def retireRow (row : Row) (now : Int) : Option Row :=
  let marked := { row with retiredAt := row.retiredAt.or (some now) }
  if marked.activeLease now then some marked else none

/-- The table. -/
abbrev Table : Type := Directory String Row

/-- Replace the row of a key, if there is one, by what a function makes of it. -/
def updateRow (table : Table) (key : String) (f : Row → Option Row) : Table :=
  match table.get? key with
  | none => table
  | some row => match f row with
    | none => table.remove key
    | some row' => table.put key row'

/-- `retire_notification_deliveries`. -/
def retireNotificationDeliveries (table : Table) (keys : List String) (now : Int) : Table :=
  keys.dedup.foldl (fun table key => updateRow table key fun row => retireRow row now) table

/-! ## Cleanup -/

/-- A row that a cleanup pass takes: retired and no longer held, or without its owner. -/
def Row.collectable (row : Row) (owner : Option Bool) (now : Int) : Bool :=
  (row.retiredAt.isSome && !row.activeLease now) || (row.retiredAt.isNone && owner == some false)

/-- What a cleanup pass does to a row it takes. -/
def collectRow (row : Row) (now : Int) : Option Row :=
  if row.activeLease now then some { row with retiredAt := row.retiredAt.or (some now) } else none

/-- The keys that one pass takes, in key order. -/
def cleanupCandidates (table : Table) (owners : String → Option Bool) (now : Int) (batch : Nat) :
    List String :=
  (table.names.filter fun key => match table.get? key with
    | none => false
    | some row => row.collectable (owners key) now).take batch

/-- One pass: a held row is marked, any other is deleted. -/
def cleanupPass (table : Table) (now : Int) (keys : List String) : Table :=
  keys.foldl (fun table key => updateRow table key fun row => collectRow row now) table

/-- Passes until one finds nothing, at most as many as given. -/
def cleanupPasses (owners : String → Option Bool) (now : Int) (batch : Nat) :
    Nat → Table → Table
  | 0, table => table
  | n + 1, table =>
    let keys := cleanupCandidates table owners now batch
    if keys = [] then table
    else cleanupPasses owners now batch n (cleanupPass table now keys)

/-- `cfm_cleanup_notification_delivery_state`, with its clamped arguments. -/
def cleanupNotificationDeliveryState (table : Table) (owners : String → Option Bool) (now : Int)
    (batchSize maxBatches : Int) : Table :=
  cleanupPasses owners now (min (max batchSize 1) 5000).toNat (min (max maxBatches 1) 20).toNat table

/-! ## Marking a rule as notified -/

/-- `notification_delivery_token_matches`; a null token matches nothing. -/
def tokenMatches (table : Table) (key : String) (token : Option String) : Bool :=
  match table.get? key, token with
  | some row, some token =>
    decide (row.claimToken = some token ∧ row.status = .sent ∧ row.retiredAt = none)
  | _, _ => false

/-- Which rule is marked. -/
inductive MarkTarget where
  | offline (client : String)
  | expiry (client : String)
  | load (id : Nat) (client : String)
  deriving DecidableEq

/-- The key of the rule's deliveries. -/
def MarkTarget.key : MarkTarget → String
  | .offline client => "offline:" ++ client
  | .expiry client => "expiry:" ++ client
  | .load id client => "load:" ++ toString id ++ ":" ++ client

/-! ## The machine -/

/-- The database as the ledger sees it. -/
structure World where
  table : Table
  /-- `notification_delivery_entity_exists`. -/
  owners : String → Option Bool
  clock : Int
  /-- History: event and token of the latest granted claim of a key. -/
  lastGrant : String → Option (String × String)
  /-- History: the token that a claim of a key handed out last. -/
  lastToken : String → Option String

/-- A call. -/
inductive Call where
  | claim (key event : String) (now repeatMs : Int) (token : String)
  | complete (key event token : String) (success : Bool) (now repeatMs : Int)
  /-- Owners change or are deleted; the trigger retires these keys. -/
  | changeOwners (keys : List String) (owners : String → Option Bool) (now : Int)
  | cleanup (now batchSize maxBatches : Int)
  /-- `cfm_mark_*_notification_sent`; `found` says that the client and its rule exist. -/
  | mark (target : MarkTarget) (token : Option String) (found : Bool) (now : Int)

/-- The time of a call. -/
def Call.now : Call → Int
  | .claim _ _ now _ _ => now
  | .complete _ _ _ _ now _ => now
  | .changeOwners _ _ now => now
  | .cleanup now _ _ => now
  | .mark _ _ _ now => now

/-- The check of the columns `key` and `event_id`. -/
def validText (s : String) : Bool := decide (1 ≤ s.length ∧ s.length ≤ 512)

/-- `cfm_claim_notification_delivery`; `none` when a column check fails. -/
def claim (w : World) (key event : String) (now repeatMs : Int) (token : String) :
    Option (Table × ClaimResult) :=
  if w.owners key = some false then some (w.table, .refused)
  else if validText key && validText event then
    let (row, result) := claimRow ((w.table.get? key).getD (freshRow event now)) event now repeatMs token
    some (w.table.put key row, result)
  else none

/-- The answer of a claim in a world; a failed column check grants nothing. -/
def claimResult (w : World) (key event : String) (now repeatMs : Int) (token : String) :
    ClaimResult :=
  match claim w key event now repeatMs token with
  | none => .refused
  | some (_, result) => result

/-- The answer of a completion. -/
def completeResult (w : World) (key event token : String) (success : Bool) (now repeatMs : Int) : Bool :=
  match w.table.get? key with
  | none => false
  | some row => (completeRow row event token success now repeatMs).2

/-- The answer of a mark function. -/
def markResult (w : World) (target : MarkTarget) (token : Option String) (found : Bool) : Bool :=
  found && tokenMatches w.table target.key token

/-- One call; a call before the clock does not happen. -/
def step (w : World) (call : Call) : Option World :=
  if call.now < w.clock then none
  else match call with
    | .claim key event now repeatMs token =>
      match claim w key event now repeatMs token with
      | none => some { w with clock := now }
      | some (table, result) =>
        some { w with
          table := table
          clock := now
          lastGrant :=
            if result.claimed then Function.update w.lastGrant key (some (event, token))
            else w.lastGrant
          lastToken := match result.token with
            | none => w.lastToken
            | some token' => Function.update w.lastToken key (some token') }
    | .complete key event token success now repeatMs =>
      some { w with
        table := updateRow w.table key fun row =>
          (completeRow row event token success now repeatMs).1
        clock := now }
    | .changeOwners keys owners now =>
      some { w with
        table := retireNotificationDeliveries w.table keys now
        owners := owners
        clock := now }
    | .cleanup now batchSize maxBatches =>
      some { w with
        table := cleanupNotificationDeliveryState w.table w.owners now batchSize maxBatches
        clock := now }
    | .mark _ _ _ now => some { w with clock := now }

/-- The ledger as a machine. -/
def ledger : Machine World Call := ⟨step⟩

/-- The call is a claim of the key that is granted in this world. -/
def grants (w : World) (key : String) : Call → Bool
  | .claim k event now repeatMs token =>
    decide (k = key) && (claimResult w k event now repeatMs token).claimed
  | _ => false

/-- A ledger without outstanding claims: empty, or upgraded from rows without credentials. -/
def World.quiet (w : World) : Prop :=
  ∀ key row, w.table.get? key = some row → row.claimToken = none

end CfMonitor.Ledger
