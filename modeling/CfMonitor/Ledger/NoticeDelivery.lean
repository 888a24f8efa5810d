/-
  One delivery of a notice (`deliverNotification` in `notification-dispatch.ts`), call by call.

  The notices of one key alternate: an alert opens an outage, a recovery closes it.  A delivery works
  on the row of its key in the ledger; between two of its calls anything may happen elsewhere.

  `deliver_cases` says all that a call can do.
-/
import CfMonitor.Ledger.DeliveryExclusive
import CfMonitor.Lib.Alternation

namespace CfMonitor.Ledger

open CfMonitor.Lib

/-- A notice: what it says, its event id, and the time of its round in milliseconds. -/
structure Notice where
  turn : Turn
  eventId : String
  now : Int
  deriving DecidableEq

/-- The time of the calls, in microseconds. -/
def Notice.time (n : Notice) : Int := n.now * 1000

/-- Where a delivery is: before its claim, its send, or its completion. -/
inductive DeliveryPhase where
  | claiming
  | sending (token : String)
  | completing (token : String) (sent : Bool)
  deriving DecidableEq

/-- What a delivery does next: its claim with a random token, its send, its completion. -/
inductive DeliveryCall where
  | claim (token : String)
  | send (ok : Bool)
  | complete

/-- What comes of a call.  Once delivered, the sender goes on with the token. -/
inductive DeliveryResult where
  | continues (phase : DeliveryPhase)
  | delivered (token : String)
  | undelivered
  deriving DecidableEq

/-- What comes of a claim. -/
def DeliveryResult.ofClaim (claim : ClaimResult) : DeliveryResult :=
  match claim.token with
  | none => .undelivered
  | some token =>
    if claim.delivered then .delivered token
    else if claim.claimed then .continues (.sending token) else .undelivered

/-- One call of `deliverNotification` on the row of its key, whose owner exists. -/
def deliver (row : Option Row) (n : Notice) :
    DeliveryPhase → DeliveryCall → Option (Option Row × DeliveryResult)
  | .claiming, .claim token =>
    let (row, claim) := claimRow (row.getD (freshRow n.eventId n.time)) n.eventId n.time 0 token
    some (some row, .ofClaim claim)
  | .sending token, .send ok => some (row, .continues (.completing token ok))
  | .completing token sent, .complete =>
    match row with
    | none => some (none, .undelivered)
    | some r =>
      let (row, recorded) := completeRow r n.eventId token sent n.time 0
      some (row, if sent && recorded then .delivered token else .undelivered)
  | _, _ => none

/-- The call completes a delivery, and the ledger records it as sent. -/
def completed (phase : DeliveryPhase) (result : DeliveryResult) : Bool :=
  match phase, result with
  | .completing _ _, .delivered _ => true
  | _, _ => false

/-- A worker that holds the row unretired. -/
def Row.HeldFor (row : Row) (n : Notice) (token : String) : Prop :=
  row.eventId = n.eventId ∧ row.claimToken = some token ∧ row.status = .pending ∧ row.retiredAt = none

/-- The row says that the notice was sent, to the holder of the token. -/
def Row.SentFor (row : Row) (n : Notice) (token : String) : Prop :=
  row.eventId = n.eventId ∧ row.claimToken = some token ∧ row.status = .sent ∧ row.retiredAt = none

/-- What a call can do to a row that is not retired. -/
inductive DeliverCase (row : Option Row) (n : Notice) :
    DeliveryPhase → DeliveryCall → Option Row → DeliveryResult → Prop where
  /-- The claim is refused: another lease, or a pause after a failure. -/
  | refused (token : String) (r : Row) (hrow : row = some r) (hsent : r.status = .sent → r.eventId ≠ n.eventId) :
      DeliverCase row n .claiming (.claim token) row .undelivered
  /-- The notice was sent before. -/
  | already (token credential : String) (r r' : Row) (hrow : row = some r) (hsent : r.status = .sent)
      (hevent : r.eventId = n.eventId) (hsent' : r'.SentFor n credential) :
      DeliverCase row n .claiming (.claim token) (some r') (.delivered credential)
  /-- The claim is granted. -/
  | granted (token : String) (r' : Row) (hheld : r'.HeldFor n token)
      (hnew : ∀ r, row = some r → r.status = .sent → r.eventId ≠ n.eventId) :
      DeliverCase row n .claiming (.claim token) (some r') (.continues (.sending token))
  | sent (token : String) (ok : Bool) :
      DeliverCase row n (.sending token) (.send ok) row (.continues (.completing token ok))
  /-- The completion of a send that went well. -/
  | success (token : String) (r r' : Row) (hrow : row = some r) (hheld : r.HeldFor n token)
      (hsent : r'.SentFor n token) :
      DeliverCase row n (.completing token true) .complete (some r') (.delivered token)
  /-- The completion of a send that failed. -/
  | failure (token : String) (r r' : Row) (hrow : row = some r) (hheld : r.HeldFor n token)
      (hfailed : r'.status = .failed) (hretired : r'.retiredAt = none) :
      DeliverCase row n (.completing token false) .complete (some r') .undelivered
  /-- The completion of a claim that holds nothing any more. -/
  | lost (token : String) (sent : Bool) (hlost : ∀ r, row = some r → ¬ r.HeldFor n token) :
      DeliverCase row n (.completing token sent) .complete row .undelivered

variable {n : Notice}

theorem Row.heldBy_iff {r : Row} {token : String} (hretired : r.retiredAt = none) :
    r.heldBy n.eventId token = true ↔ r.HeldFor n token := by
  rw [Row.heldBy, decide_eq_true_eq]
  exact ⟨fun h => ⟨h.1, h.2.1, h.2.2, hretired⟩, fun h => ⟨h.1, h.2.1, h.2.2.1⟩⟩

variable {row row' : Option Row} {result : DeliveryResult}

theorem claim_cases {token : String} (hretired : ∀ r, row = some r → r.retiredAt = none)
    (hrow' : some (claimRow (row.getD (freshRow n.eventId n.time)) n.eventId n.time 0 token).1 = row')
    (hresult : DeliveryResult.ofClaim
      (claimRow (row.getD (freshRow n.eventId n.time)) n.eventId n.time 0 token).2 = result) :
    DeliverCase row n .claiming (.claim token) row' result := by
  have hgranted : ∀ r : Row, (r.granted n.eventId token n.time).HeldFor n token :=
    fun r => ⟨rfl, rfl, rfl, rfl⟩
  cases row with
  | none =>
    rw [Option.getD_none, claimRow_fresh] at hrow' hresult
    obtain rfl := hrow'
    obtain rfl := hresult
    exact .granted token _ (hgranted _) nofun
  | some r =>
    rw [Option.getD_some] at hrow' hresult
    rcases claimRow_cases r n.eventId n.time 0 token with h | ⟨hsent, hfresh, h⟩ | ⟨-, hnew, h⟩
    · -- refused: a delivered notice of this event would have been reported
      have hother : r.status = .sent → r.eventId ≠ n.eventId := by
        intro hsent hevent
        have hdelivered := congrArg (fun p => p.2.delivered) h
        simp [claimRow, Row.activeLease, hsent, hevent, hretired r rfl, ClaimResult.refused] at hdelivered
      rw [h] at hrow' hresult
      obtain rfl := hrow'
      obtain rfl := hresult
      exact .refused token r rfl hother
    · have hevent : r.eventId = n.eventId := by
        by_contra hother
        have hclaimed := congrArg (fun p => p.2.claimed) h
        simp [claimRow, Row.activeLease, hsent, hother] at hclaimed
      rw [h] at hrow' hresult
      obtain rfl := hrow'
      obtain rfl := hresult
      exact .already token _ r _ rfl hsent hevent ⟨hevent, rfl, hsent, hfresh⟩
    · rw [h] at hrow' hresult
      obtain rfl := hrow'
      obtain rfl := hresult
      refine .granted token _ (hgranted r) fun r' hr' hsent hevent => ?_
      cases hr'
      exact (hnew (hretired r rfl) hevent).1 ⟨hsent, Int.le_refl 0⟩

theorem complete_cases {token : String} {sent : Bool} (hretired : ∀ r, row = some r → r.retiredAt = none)
    (h : deliver row n (.completing token sent) .complete = some (row', result)) :
    DeliverCase row n (.completing token sent) .complete row' result := by
  cases row with
  | none =>
    cases h
    exact .lost token sent nofun
  | some r =>
    have hfresh := hretired r rfl
    have h : some ((completeRow r n.eventId token sent n.time 0).1,
        if sent && (completeRow r n.eventId token sent n.time 0).2 then DeliveryResult.delivered token
        else .undelivered) = some (row', result) := h
    by_cases hheld : r.heldBy n.eventId token = true
    · have hcomplete : completeRow r n.eventId token sent n.time 0
          = (some (r.completed token sent n.time 0), true) := by
        rw [completeRow, if_pos hheld, if_neg (by simp [hfresh])]
      rw [hcomplete] at h
      cases h
      have hfor := (Row.heldBy_iff hfresh).mp hheld
      cases sent with
      | true => exact .success token r _ rfl hfor ⟨hfor.1, rfl, rfl, hfresh⟩
      | false => exact .failure token r _ rfl hfor rfl hfresh
    · have hcomplete : completeRow r n.eventId token sent n.time 0 = (some r, false) := by
        rw [completeRow, if_neg hheld]
      rw [hcomplete, Bool.and_false] at h
      cases h
      refine .lost token sent fun r' hr' hfor => ?_
      cases hr'
      exact hheld ((Row.heldBy_iff hfresh).mpr hfor)

/-- **What one call of a delivery can do.** -/
theorem deliver_cases {phase : DeliveryPhase} {call : DeliveryCall}
    (hretired : ∀ r, row = some r → r.retiredAt = none)
    (h : deliver row n phase call = some (row', result)) : DeliverCase row n phase call row' result := by
  cases phase with
  | claiming =>
    cases call with
    | claim token =>
      obtain ⟨hrow', hresult⟩ := Prod.mk.inj (Option.some.inj h)
      exact claim_cases hretired hrow' hresult
    | _ => simp [deliver] at h
  | sending token =>
    cases call with
    | send ok =>
      cases h
      exact .sent token ok
    | _ => simp [deliver] at h
  | completing token sent =>
    cases call with
    | complete => exact complete_cases hretired h
    | _ => simp [deliver] at h

/-! ## The ledger -/

end CfMonitor.Ledger
