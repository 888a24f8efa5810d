/-
  The notification ledger delivers each event exclusively.

  `KeyChange w key call w'` says everything that a call can do to the row of one key and to its
  history (`step_keyChange`); every result below is a case analysis of it.

  Results (`ledger_exclusive`)
    * after a granted claim no other claim of the key is granted for 90 seconds, unless the grant
      was completed;
    * after a delivery without repetition the event is not granted again, and after one with
      repetition not before the pause is over, while no other event of the key is granted and the
      row is not retired;
    * a completion succeeds, and a rule is marked, only with the token that the ledger handed out
      last for the key, on a row that is not retired.
-/
import Mathlib
import CfMonitor.Ledger.NotificationDelivery

namespace CfMonitor.Ledger

open CfMonitor.Lib
open Option (getD_some some)

/-! ## Rows of one key -/

theorem get?_updateRow (table : Table) (key k : String) (f : Row → Option Row) :
    (updateRow table key f).get? k = if k = key then (table.get? key).bind f else table.get? k := by
  unfold updateRow
  cases hrow : table.get? key with
  | none =>
    by_cases h : k = key
    · rw [if_pos h, h]
      exact hrow
    · rw [if_neg h]
  | some row =>
    dsimp only [Option.bind_some]
    cases f row with
    | none => exact Directory.get?_remove table key k
    | some row' => exact Directory.get?_put table key k row'

/-- What retiring and cleaning up at `now` do to a row: nothing, a mark while a worker holds the
    row, or removal when none does. -/
inductive Retirement (now : Int) : Option Row → Option Row → Prop where
  | same (o : Option Row) : Retirement now o o
  | marked {row : Row} (h : row.activeLease now = true) :
      Retirement now (some row) (some { row with retiredAt := row.retiredAt.or (some now) })
  | removed {row : Row} (h : row.activeLease now = false) : Retirement now (some row) none

variable {now : Int}

theorem Retirement.trans {a b c : Option Row} (hab : Retirement now a b)
    (hbc : Retirement now b c) : Retirement now a c := by
  cases hab with
  | same => exact hbc
  | removed h =>
    cases hbc with
    | same => exact .removed h
  | @marked row h =>
    cases hbc with
    | same => exact .marked h
    | marked _ =>
      -- marking twice is marking once
      have hidem : (row.retiredAt.or (some now)).or (some now) = row.retiredAt.or (some now) := by
        cases row.retiredAt <;> rfl
      show Retirement now (some row)
        (some { row with retiredAt := (row.retiredAt.or (some now)).or (some now) })
      rw [hidem]
      exact .marked h
    | removed h' => exact absurd h (by rw [show row.activeLease now = false from h']; simp)

theorem retireRow_retirement (row : Row) (now : Int) : Retirement now (some row) (retireRow row now) := by
  show Retirement now (some row) (if row.activeLease now then _ else none)
  cases h : row.activeLease now with
  | true => exact .marked h
  | false => exact .removed h

theorem collectRow_retirement (row : Row) (now : Int) : Retirement now (some row) (collectRow row now) := by
  unfold collectRow
  cases h : row.activeLease now with
  | true => exact .marked h
  | false => exact .removed h

theorem foldl_retirement {f : Row → Option Row}
    (hf : ∀ row, Retirement now (some row) (f row)) (keys : List String) :
    ∀ (table : Table) (k : String), Retirement now (table.get? k)
      ((keys.foldl (fun table key => updateRow table key f) table).get? k) := by
  induction keys with
  | nil => intro table k; exact .same _
  | cons key keys ih =>
    intro table k
    rw [List.foldl_cons]
    refine Retirement.trans ?_ (ih (updateRow table key f) k)
    rw [get?_updateRow]
    by_cases h : k = key
    · rw [if_pos h, h]
      cases table.get? key with
      | none => exact .same _
      | some row => exact hf row
    · rw [if_neg h]
      exact .same _

theorem cleanupPasses_retirement (owners : String → Option Bool) (now : Int) (batch : Nat)
    (n : Nat) : ∀ (table : Table) (k : String), Retirement now (table.get? k)
      ((cleanupPasses owners now batch n table).get? k) := by
  induction n with
  | zero => intro table k; exact .same _
  | succ n ih =>
    intro table k
    rw [cleanupPasses]
    split_ifs with hkeys
    · exact .same _
    · exact (foldl_retirement (fun row => collectRow_retirement row now) _ table k).trans (ih _ k)

/-! ## What a call can do to a key -/

/-- Everything that a call can do to the row of a key and to its history. -/
inductive KeyChange (w : World) (key : String) (call : Call) (w' : World) : Prop where
  /-- The row and the history stay. -/
  | same (hrow : w'.table.get? key = w.table.get? key) (hgrant : w'.lastGrant key = w.lastGrant key)
      (htoken : w'.lastToken key = w.lastToken key) (hno : grants w key call = false)
  /-- A claim is granted: no lease is active, and the same unretired event is neither delivered
      for good nor pausing. -/
  | grant (event : String) (now repeatMs : Int) (token : String) (row : Row)
      (hcall : call = .claim key event now repeatMs token)
      (hold : (w.table.get? key).getD (freshRow event now) = row)
      (hidle : row.activeLease now = false)
      (hdue : row.retiredAt = none → row.eventId = event →
        ¬ (row.status = .sent ∧ repeatMs ≤ 0) ∧ row.nextAttemptAt ≤ now)
      (hrow : w'.table.get? key = some (row.granted event token now))
      (hgrant : w'.lastGrant key = some (event, token))
      (htoken : w'.lastToken key = some token) (hyes : grants w key call = true)
  /-- A claim of a delivered event gets the credential. -/
  | credential (row : Row) (token : String) (hold : w.table.get? key = some row)
      (hsent : row.status = .sent) (hret : row.retiredAt = none)
      (hhad : ∀ t, row.claimToken = some t → token = t)
      (hrow : w'.table.get? key = some { row with claimToken := some token })
      (hgrant : w'.lastGrant key = w.lastGrant key) (htoken : w'.lastToken key = some token)
      (hno : grants w key call = false)
  /-- The holder completes the row. -/
  | complete (event token : String) (success : Bool) (now repeatMs : Int) (row : Row)
      (hcall : call = .complete key event token success now repeatMs)
      (hold : w.table.get? key = some row) (hheld : row.heldBy event token = true)
      (hret : row.retiredAt = none)
      (hrow : w'.table.get? key = some (row.completed token success now repeatMs))
      (hgrant : w'.lastGrant key = w.lastGrant key) (htoken : w'.lastToken key = w.lastToken key)
  /-- The holder completes a retired row, which goes away. -/
  | discard (event token : String) (success : Bool) (now repeatMs : Int) (row : Row)
      (hcall : call = .complete key event token success now repeatMs)
      (hold : w.table.get? key = some row) (hheld : row.heldBy event token = true)
      (hrow : w'.table.get? key = none)
      (hgrant : w'.lastGrant key = w.lastGrant key) (htoken : w'.lastToken key = w.lastToken key)
  /-- The row is retired or collected. -/
  | retire (hrow : Retirement call.now (w.table.get? key) (w'.table.get? key))
      (hgrant : w'.lastGrant key = w.lastGrant key) (htoken : w'.lastToken key = w.lastToken key)
      (hno : grants w key call = false)

theorem claimRow_cases (row : Row) (event : String) (now repeatMs : Int) (token : String) :
    claimRow row event now repeatMs token = (row, .refused)
    ∨ (row.status = .sent ∧ row.retiredAt = none ∧ claimRow row event now repeatMs token
        = ({ row with claimToken := some (row.claimToken.getD token) },
            ⟨false, true, some (row.claimToken.getD token)⟩))
    ∨ (row.activeLease now = false ∧ (row.retiredAt = none → row.eventId = event →
        ¬ (row.status = .sent ∧ repeatMs ≤ 0) ∧ row.nextAttemptAt ≤ now)
      ∧ claimRow row event now repeatMs token
        = (row.granted event token now, ⟨true, false, some token⟩)) := by
  unfold claimRow
  cases hact : row.activeLease now with
  | true => exact .inl rfl
  | false =>
    rw [if_neg (by simp)]
    by_cases hown : row.retiredAt = none ∧ row.eventId = event
    · rw [if_pos hown]
      by_cases hsent : row.status = .sent ∧ repeatMs ≤ 0
      · rw [if_pos hsent]
        exact .inr (.inl ⟨hsent.1, hown.1, rfl⟩)
      · rw [if_neg hsent]
        by_cases hpause : row.nextAttemptAt > now
        · rw [if_pos hpause]
          exact .inl rfl
        · rw [if_neg hpause]
          exact .inr (.inr ⟨rfl, fun _ _ => ⟨hsent, by omega⟩, rfl⟩)
    · rw [if_neg hown]
      exact .inr (.inr ⟨rfl, fun h1 h2 => absurd ⟨h1, h2⟩ hown, rfl⟩)

theorem claimRow_fresh (event : String) (now repeatMs : Int) (token : String) :
    claimRow (freshRow event now) event now repeatMs token
      = ((freshRow event now).granted event token now, ⟨true, false, some token⟩) := by
  rcases claimRow_cases (freshRow event now) event now repeatMs token with h | ⟨h, -, -⟩ | ⟨-, -, h⟩
  · exfalso
    unfold claimRow Row.activeLease freshRow at h
    simp [ClaimResult.refused] at h
  · simp [freshRow] at h
  · exact h

variable {w : World}

variable {repeatMs : Int}

theorem claim_keyChange {k key event token : String} {table : Table} {result : ClaimResult}
    (hc : claim w k event now repeatMs token = some (table, result)) :
    KeyChange w key (.claim k event now repeatMs token)
      { w with
        table := table
        clock := now
        lastGrant :=
          if result.claimed then Function.update w.lastGrant k (some (event, token))
          else w.lastGrant
        lastToken := match result.token with
          | none => w.lastToken
          | some token' => Function.update w.lastToken k (some token') } := by
  have hg : grants w key (.claim k event now repeatMs token) = (decide (k = key) && result.claimed) := by
    simp [grants, claimResult, hc]
  unfold claim at hc
  by_cases hown : w.owners k = some false
  · -- without its owner the key is left alone
    rw [if_pos hown] at hc
    cases hc
    exact .same rfl rfl rfl (by rw [hg]; simp [ClaimResult.refused])
  rw [if_neg hown] at hc
  by_cases hval : (validText k && validText event) = true
  swap
  · rw [if_neg hval] at hc
    cases hc
  rw [if_pos hval] at hc
  by_cases hk : k = key
  swap
  · -- a claim of another key
    obtain ⟨rfl, hres⟩ := Prod.mk.inj (some.inj hc)
    refine .same ?_ ?_ ?_ (by rw [hg]; simp [hk])
    · exact (Directory.get?_put _ _ _ _).trans (if_neg (Ne.symm hk))
    · show (if result.claimed then Function.update w.lastGrant k _ else w.lastGrant) key = _
      cases result.claimed with
      | true => exact Function.update_of_ne (Ne.symm hk) _ _
      | false => rfl
    · show (match result.token with
        | none => w.lastToken
        | some token' => Function.update w.lastToken k (some token')) key = _
      cases result.token with
      | none => rfl
      | some token' => exact Function.update_of_ne (Ne.symm hk) _ _
  subst hk
  rcases hclaim : claimRow ((w.table.get? k).getD (freshRow event now)) event now repeatMs token
    with ⟨row', result'⟩
  rw [hclaim] at hc
  cases hc
  have hput : (w.table.put k row').get? k = some row' :=
    (Directory.get?_put _ _ _ _).trans (if_pos rfl)
  rcases claimRow_cases ((w.table.get? k).getD (freshRow event now)) event now repeatMs token
    with h | ⟨hsent, hret, h⟩ | ⟨hidle, hdue, h⟩
  · -- refused: the row was there, an inserted one is granted
    rw [hclaim] at h
    cases h
    cases hrow : w.table.get? k with
    | none =>
      rw [hrow, Option.getD_none, claimRow_fresh] at hclaim
      exact absurd (Prod.mk.inj hclaim).2 (by simp [ClaimResult.refused])
    | some row =>
      exact .same (((Directory.get?_put _ _ _ _).trans (if_pos rfl)).trans hrow.symm) rfl rfl
        (by rw [hg]; simp [ClaimResult.refused])
  · rw [hclaim] at h
    cases h
    cases hrow : w.table.get? k with
    | none =>
      rw [hrow, Option.getD_none] at hsent
      simp [freshRow] at hsent
    | some row =>
      rw [hrow, getD_some] at hsent hret
      refine .credential row (row.claimToken.getD token) hrow hsent hret ?_
        ((Directory.get?_put _ _ _ _).trans (if_pos rfl)) rfl (Function.update_self _ _ _)
        (by rw [hg]; simp)
      intro t ht
      rw [ht, getD_some]
  · rw [hclaim] at h
    cases h
    exact .grant event now repeatMs token _ rfl rfl hidle hdue hput
      (Function.update_self _ _ _) (Function.update_self _ _ _) (by rw [hg]; simp)

variable {success : Bool}

theorem complete_keyChange {k key event token : String} :
    KeyChange w key (.complete k event token success now repeatMs)
      { w with
        table := updateRow w.table k fun row =>
          (completeRow row event token success now repeatMs).1
        clock := now } := by
  have hget := get?_updateRow w.table k key fun row =>
    (completeRow row event token success now repeatMs).1
  by_cases hk : key = k
  swap
  · rw [if_neg hk] at hget
    exact .same hget rfl rfl rfl
  subst hk
  rw [if_pos rfl] at hget
  cases hrow : w.table.get? key with
  | none =>
    rw [hrow] at hget
    exact .same (hget.trans hrow.symm) rfl rfl rfl
  | some row =>
    rw [hrow, Option.bind_some] at hget
    unfold completeRow at hget
    cases hheld : row.heldBy event token with
    | false =>
      rw [hheld, if_neg (by simp)] at hget
      exact .same (hget.trans hrow.symm) rfl rfl rfl
    | true =>
      rw [hheld, if_pos rfl] at hget
      by_cases hret : row.retiredAt = none
      · rw [if_neg (not_not.mpr hret)] at hget
        exact .complete event token success now repeatMs row rfl hrow hheld hret hget rfl rfl
      · rw [if_pos hret] at hget
        exact .discard event token success now repeatMs row rfl hrow hheld hget rfl rfl

variable {w' : World} {call : Call}

/-- **Everything that a call can do to a key.** -/
theorem step_keyChange (h : step w call = some w') (key : String) :
    w.clock ≤ call.now ∧ w'.clock = call.now ∧ KeyChange w key call w' := by
  unfold step at h
  by_cases hclock : call.now < w.clock
  · rw [if_pos hclock] at h
    cases h
  rw [if_neg hclock] at h
  refine ⟨by omega, ?_⟩
  cases call with
  | claim k event now repeatMs token =>
    simp only at h
    cases hc : claim w k event now repeatMs token with
    | none =>
      rw [hc] at h
      cases h
      exact ⟨rfl, .same rfl rfl rfl (by simp [grants, claimResult, hc, ClaimResult.refused])⟩
    | some p =>
      obtain ⟨table, result⟩ := p
      rw [hc] at h
      cases h
      exact ⟨rfl, claim_keyChange hc⟩
  | complete k event token success now repeatMs =>
    cases h
    exact ⟨rfl, complete_keyChange⟩
  | changeOwners keys owners now =>
    cases h
    exact ⟨rfl, .retire (foldl_retirement (fun row => retireRow_retirement row now) _ _ _)
      rfl rfl rfl⟩
  | cleanup now batchSize maxBatches =>
    cases h
    exact ⟨rfl, .retire (cleanupPasses_retirement _ _ _ _ _ _) rfl rfl rfl⟩
  | mark target token found now =>
    cases h
    exact ⟨rfl, .same rfl rfl rfl rfl⟩

/-! ## The lease -/

/-- A completion call for this grant. -/
def completes (key event token : String) : Call → Bool
  | .complete k e t _ _ _ => decide (k = key ∧ e = event ∧ t = token)
  | _ => false

/-- The lease of a grant at `t` is over, or the row is still the one of the grant. -/
def Leased (key event token : String) (t : Int) (w : World) : Prop :=
  t + lease ≤ w.clock ∨ ∃ row, w.table.get? key = some row ∧ row.status = .pending
    ∧ row.eventId = event ∧ row.claimToken = some token ∧ row.nextAttemptAt = t + lease

variable {key event token : String} {t : Int}

/-- A held row whose lease is not active has run out of it. -/
theorem expired_of_inactive {row : Row} (hs : row.status = .pending)
    (htok : row.claimToken = some token) (h : row.activeLease now = false) :
    row.nextAttemptAt ≤ now := by
  unfold Row.activeLease at h
  rw [hs, htok] at h
  simp at h
  exact h

theorem heldBy_iff {row : Row} : row.heldBy event token = true ↔
    row.eventId = event ∧ row.claimToken = some token ∧ row.status = .pending := by
  unfold Row.heldBy
  exact decide_eq_true_iff

theorem leased_step (hw : Leased key event token t w)
    (hcall : completes key event token call = false) (h : step w call = some w') :
    Leased key event token t w' := by
  obtain ⟨hle, hclock, hchange⟩ := step_keyChange h key
  rcases hw with hover | ⟨row, hrow, hs, he, htok, hnext⟩
  · exact .inl (by omega)
  cases hchange with
  | same hsame _ _ _ => exact .inr ⟨row, hsame.trans hrow, hs, he, htok, hnext⟩
  | grant e now r tk row' hc hold hidle _ _ _ _ _ =>
    subst hc
    rw [hrow, getD_some] at hold
    subst hold
    have := expired_of_inactive hs htok hidle
    exact .inl (by rw [hclock]; show t + lease ≤ now; omega)
  | credential row' tk hold hsent _ _ _ _ _ _ =>
    rw [hrow] at hold
    cases hold
    exact absurd hs (by rw [hsent]; simp)
  | complete e tk success now r row' hc hold hheld _ _ _ _ =>
    rw [hrow] at hold
    cases hold
    obtain ⟨he', htok', -⟩ := heldBy_iff.mp hheld
    subst hc
    exact absurd hcall (by
      simp [completes, ← he', he, some.inj (htok'.symm.trans htok)])
  | discard e tk success now r row' hc hold hheld _ _ _ =>
    rw [hrow] at hold
    cases hold
    obtain ⟨he', htok', -⟩ := heldBy_iff.mp hheld
    subst hc
    exact absurd hcall (by
      simp [completes, ← he', he, some.inj (htok'.symm.trans htok)])
  | retire hret _ _ _ =>
    rw [hrow] at hret
    cases hr : w'.table.get? key with
    | none =>
      rw [hr] at hret
      cases hret with
      | removed hidle =>
        have := expired_of_inactive hs htok hidle
        exact .inl (by omega)
    | some row' =>
      rw [hr] at hret
      refine .inr ⟨row', hr, ?_⟩
      cases hret with
      | same => exact ⟨hs, he, htok, hnext⟩
      | marked _ => exact ⟨hs, he, htok, hnext⟩

variable {r : Int}

theorem grant_inv (h : step w (.claim key event now r token) = some w')
    (hg : grants w key (.claim key event now r token) = true) :
    ∃ row, (w.table.get? key).getD (freshRow event now) = row ∧ row.activeLease now = false
      ∧ (row.retiredAt = none → row.eventId = event →
        ¬ (row.status = .sent ∧ r ≤ 0) ∧ row.nextAttemptAt ≤ now)
      ∧ w'.table.get? key = some (row.granted event token now) := by
  obtain ⟨-, -, hchange⟩ := step_keyChange h key
  cases hchange with
  | same _ _ _ hno => exact absurd hg (by rw [hno]; simp)
  | grant e now' r' tk row hc hold hidle hdue hrow _ _ _ =>
    cases hc
    exact ⟨row, hold, hidle, hdue, hrow⟩
  | credential _ _ _ _ _ _ _ _ _ hno => exact absurd hg (by rw [hno]; simp)
  | complete _ _ _ _ _ _ hc _ _ _ _ _ _ => cases hc
  | discard _ _ _ _ _ _ hc _ _ _ _ _ => cases hc
  | retire _ _ _ hno => exact absurd hg (by rw [hno]; simp)

variable {w₁ : World} {token₂ : String} {calls : List Call}

variable {w₂ : World} {t₂ r₂ : Int}

/-- **Exclusive claims**: between two grants of a key lie 90 seconds or a completion of the
    first. -/
theorem claims_exclusive {w₃ : World} {event₂ : String} (h₁ : step w (.claim key event t r token) = some w₁)
    (hg₁ : grants w key (.claim key event t r token) = true)
    (hrun : ledger.run w₁ calls = some w₂)
    (hno : ∀ call ∈ calls, completes key event token call = false)
    (h₂ : step w₂ (.claim key event₂ t₂ r₂ token₂) = some w₃)
    (hg₂ : grants w₂ key (.claim key event₂ t₂ r₂ token₂) = true) : t + lease ≤ t₂ := by
  obtain ⟨row, -, -, -, hrow⟩ := grant_inv h₁ hg₁
  have hstart : Leased key event token t w₁ := .inr ⟨_, hrow, rfl, rfl, rfl, rfl⟩
  have hend : Leased key event token t w₂ :=
    ledger.run_inv_of (fun s e s' hs hC hst => leased_step hs hC hst) calls w₁ w₂ hstart hno hrun
  obtain ⟨row₂, hold, hidle, -, -⟩ := grant_inv h₂ hg₂
  obtain ⟨hle, -, -⟩ := step_keyChange h₂ key
  rcases hend with hover | ⟨row', hrow', hs, -, htok, hnext⟩
  · exact le_trans hover hle
  · rw [hrow', getD_some] at hold
    subst hold
    have := expired_of_inactive hs htok hidle
    omega

/-! ## After a delivery -/

/-- The row of the key is there and not retired. -/
def Unretired (key : String) (w : World) : Prop :=
  ∃ row, w.table.get? key = some row ∧ row.retiredAt = none

/-- The event that a call claims. -/
def claimedEvent : Call → Option String
  | .claim _ event _ _ _ => some event
  | _ => none

/-- A step that keeps the row and grants the key to no other event. -/
def StaysWith (key event : String) (w : World) (call : Call) (w' : World) : Prop :=
  Unretired key w' ∧ (grants w key call = true → claimedEvent call = some event)

/-- The event is delivered and pauses until `due`. -/
def Delivered (key event : String) (due : Int) (w : World) : Prop :=
  ∃ row, w.table.get? key = some row ∧ row.status = .sent ∧ row.eventId = event
    ∧ row.retiredAt = none ∧ row.nextAttemptAt = due

/-- While the row stays, a delivered event stays delivered until it is granted again, which is
    not before it is due and not to a claim without repetition. -/
theorem delivered_step {due : Int} (hw : Delivered key event due w) (hstay : StaysWith key event w call w')
    (h : step w call = some w') :
    Delivered key event due w'
    ∨ (due ≤ w'.clock ∧ ∃ now r tk, call = .claim key event now r tk ∧ 0 < r) := by
  obtain ⟨-, hclock, hchange⟩ := step_keyChange h key
  obtain ⟨row, hrow, hs, he, hret, hnext⟩ := hw
  cases hchange with
  | same hsame _ _ _ => exact .inl ⟨row, hsame.trans hrow, hs, he, hret, hnext⟩
  | grant e now r tk row' hc hold hidle hdue _ _ _ hyes =>
    subst hc
    obtain rfl : e = event := some.inj (hstay.2 hyes)
    rw [hrow, getD_some] at hold
    subst hold
    obtain ⟨hnot, hle⟩ := hdue hret he
    refine .inr ⟨by rw [hclock]; show due ≤ now; omega, now, r, tk, rfl, ?_⟩
    by_contra hr
    exact hnot ⟨hs, by omega⟩
  | credential row' tk hold _ _ _ hrow' _ _ _ =>
    rw [hrow] at hold
    cases hold
    exact .inl ⟨_, hrow', hs, he, hret, hnext⟩
  | complete e tk success now r row' hc hold hheld _ _ _ _ =>
    rw [hrow] at hold
    cases hold
    exact absurd hs (by rw [(heldBy_iff.mp hheld).2.2]; simp)
  | discard e tk success now r row' hc hold hheld _ _ _ =>
    rw [hrow] at hold
    cases hold
    exact absurd hs (by rw [(heldBy_iff.mp hheld).2.2]; simp)
  | retire hret' _ _ _ =>
    obtain ⟨row', hrow', hun⟩ := hstay.1
    rw [hrow, hrow'] at hret'
    cases hret' with
    | same => exact .inl ⟨row, hrow', hs, he, hret, hnext⟩
    | marked hact =>
      -- a delivered row is held by nobody
      simp [Row.activeLease, hs] at hact

section

variable (hok : completeResult w key event token true t r = true)

include hok

theorem delivered_of_complete (h : step w (.complete key event token true t r) = some w₁) :
    Delivered key event (t + repeatPause r) w₁ ∧ w₁.clock = t := by
  obtain ⟨-, hclock, hchange⟩ := step_keyChange h key
  refine ⟨?_, hclock⟩
  have hheld : ∃ row, w.table.get? key = some row ∧ row.heldBy event token = true ∧ row.retiredAt = none := by
    unfold completeResult completeRow at hok
    cases hrow : w.table.get? key with
    | none => rw [hrow] at hok; cases hok
    | some row =>
      rw [hrow] at hok
      simp only at hok
      split_ifs at hok with h1 h2
      exact ⟨row, rfl, h1, not_not.mp h2⟩
  obtain ⟨row, hrow, hh, hret⟩ := hheld
  have hafter : w₁.table.get? key = some (row.completed token true t r) := by
    have hstep : w₁.table = updateRow w.table key fun row =>
        (completeRow row event token true t r).1 := by
      unfold step at h
      split_ifs at h
      cases h
      rfl
    rw [hstep, get?_updateRow, if_pos rfl, hrow, Option.bind_some]
    unfold completeRow
    rw [if_pos hh, if_neg (not_not.mpr hret)]
  exact ⟨_, hafter, rfl, (heldBy_iff.mp hh).1, hret, rfl⟩

/-- **Delivered for good**: claims without repetition are not granted while the row stays. -/
theorem delivered_once (h : step w (.complete key event token true t r) = some w₁)
    (hrun : ledger.run w₁ calls = some w₂)
    (hstay : ledger.Along (fun u call u' => StaysWith key event u call u'
      ∧ ∀ now r' tk, call = .claim key event now r' tk → r' ≤ 0) w₁ calls)
    (hr₂ : r₂ ≤ 0) : grants w₂ key (.claim key event t₂ r₂ token₂) = false := by
  have hstart := (delivered_of_complete hok h).1
  have hend : Delivered key event (t + repeatPause r) w₂ := by
    refine ledger.run_inv_along ?_ calls w₁ w₂ hstart hstay hrun
    rintro u call u' hu ⟨hst, hrep⟩ hstep
    rcases delivered_step hu hst hstep with hd | ⟨-, now, r', tk, hcall, hpos⟩
    · exact hd
    · exact absurd (hrep now r' tk hcall) (by omega)
  obtain ⟨row, hrow, hs, he, hret, -⟩ := hend
  have hinact : row.activeLease t₂ = false := by simp [Row.activeLease, hs]
  have hclaim : (claimRow row event t₂ r₂ token₂).2.claimed = false := by
    unfold claimRow
    rw [hinact, if_neg (by simp), if_pos ⟨hret, he⟩, if_pos ⟨hs, hr₂⟩]
  show (decide (key = key) && (claimResult w₂ key event t₂ r₂ token₂).claimed) = false
  have hres : (claimResult w₂ key event t₂ r₂ token₂).claimed = false := by
    unfold claimResult claim
    rw [hrow, getD_some]
    split_ifs
    · rfl
    · exact hclaim
    · rfl
  rw [hres, Bool.and_false]

/-- **Repetition keeps its distance**: while the row stays, a further grant of the event comes no
    earlier than the pause after the delivery. -/
theorem repetition_pauses {w₃ : World} (h : step w (.complete key event token true t r) = some w₁)
    (hrun : ledger.run w₁ calls = some w₂)
    (hstay : ledger.Along (StaysWith key event) w₁ calls)
    (h₂ : step w₂ (.claim key event t₂ r₂ token₂) = some w₃)
    (hg : grants w₂ key (.claim key event t₂ r₂ token₂) = true) : t + repeatPause r ≤ t₂ := by
  have hstart := (delivered_of_complete hok h).1
  have hend : t + repeatPause r ≤ w₂.clock ∨ Delivered key event (t + repeatPause r) w₂ := by
    refine ledger.run_inv_along (I := fun u => t + repeatPause r ≤ u.clock
      ∨ Delivered key event (t + repeatPause r) u) ?_ calls w₁ w₂ (.inr hstart) hstay hrun
    intro u call u' hu hst hstep
    rcases hu with hu | hu
    · obtain ⟨hle, hclock, -⟩ := step_keyChange hstep key
      exact .inl (by omega)
    · rcases delivered_step hu hst hstep with hd | ⟨hdue, -⟩
      · exact .inr hd
      · exact .inl hdue
  obtain ⟨hle, -, -⟩ := step_keyChange h₂ key
  rcases hend with hover | ⟨row, hrow, -, he, hret, hnext⟩
  · exact le_trans hover hle
  · obtain ⟨row', hold, -, hdue, -⟩ := grant_inv h₂ hg
    rw [hrow, getD_some] at hold
    subst hold
    have := (hdue hret he).2
    omega

end

/-! ## Tokens -/

/-- The token of a row is the one that was handed out last for its key; on a held row it belongs
    to the latest grant. -/
def TokensCurrent (w : World) : Prop :=
  ∀ key row tk, w.table.get? key = some row → row.claimToken = some tk → w.lastToken key = some tk
    ∧ (row.status = .pending → w.lastGrant key = some (row.eventId, tk))

theorem tokensCurrent_step (hw : TokensCurrent w) (h : step w call = some w') : TokensCurrent w' := by
  intro key row tk hrow htok
  obtain ⟨-, -, hchange⟩ := step_keyChange h key
  cases hchange with
  | same hsame hgrant htoken _ =>
    rw [hgrant, htoken]
    exact hw key row tk (hsame ▸ hrow) htok
  | grant e now r tk' row' hc hold hidle hdue hrow' hgrant htoken _ =>
    obtain rfl := some.inj (hrow'.symm.trans hrow)
    obtain rfl : tk' = tk := some.inj htok
    exact ⟨htoken, fun _ => hgrant⟩
  | credential row' tk' hold hsent hret hhad hrow' hgrant htoken _ =>
    obtain rfl := some.inj (hrow'.symm.trans hrow)
    obtain rfl : tk' = tk := some.inj htok
    exact ⟨htoken, fun hp => absurd hp (by
      show ¬ row'.status = .pending
      rw [hsent]; simp)⟩
  | complete e tk' success now r row' hc hold hheld hret hrow' hgrant htoken =>
    obtain rfl := some.inj (hrow'.symm.trans hrow)
    obtain ⟨he, htk, hs⟩ := heldBy_iff.mp hheld
    cases success with
    | false => simp [Row.completed] at htok
    | true =>
      obtain rfl : tk' = tk := some.inj htok
      rw [htoken]
      exact ⟨(hw key row' tk' hold htk).1, nofun⟩
  | discard e tk' success now r row' hc hold hheld hrow' hgrant htoken =>
    cases hrow'.symm.trans hrow
  | retire hret hgrant htoken _ =>
    rw [hgrant, htoken]
    rw [hrow] at hret
    cases hold : w.table.get? key with
    | none => rw [hold] at hret; cases hret
    | some row' =>
      rw [hold] at hret
      cases hret with
      | same => exact hw key row tk hold htok
      | marked _ => exact hw key row' tk hold htok

theorem tokensCurrent_run {w₀ : World} (hq : w₀.quiet)
    (hrun : ledger.run w₀ calls = some w) : TokensCurrent w := by
  refine ledger.run_inv (fun s e s' hs hst => tokensCurrent_step hs hst) ?_ hrun
  intro key row tk hrow htok
  exact absurd htok (by rw [hq key row hrow]; simp)

/-- **A completion succeeds only for the latest grant** of a row that is not retired. -/
theorem complete_latest_grant (hw : TokensCurrent w)
    (hok : completeResult w key event token success t r = true) :
    w.lastGrant key = some (event, token) ∧ Unretired key w := by
  unfold completeResult completeRow at hok
  cases hrow : w.table.get? key with
  | none => rw [hrow] at hok; cases hok
  | some row =>
    rw [hrow] at hok
    simp only at hok
    split_ifs at hok with h1 h2
    obtain ⟨he, htok, hs⟩ := heldBy_iff.mp h1
    refine ⟨?_, row, hrow, not_not.mp h2⟩
    rw [← he]
    exact (hw key row token hrow htok).2 hs

/-- **A rule is marked only with the token handed out last**, of a delivered row that is not
    retired. -/
theorem mark_latest_token {target : MarkTarget} {tk : Option String} {found : Bool}
    (hw : TokensCurrent w) (hok : markResult w target tk found = true) :
    ∃ row, w.table.get? target.key = some row ∧ row.status = .sent ∧ row.retiredAt = none
      ∧ tk = row.claimToken ∧ w.lastToken target.key = tk ∧ tk ≠ none := by
  unfold markResult tokenMatches at hok
  obtain ⟨-, hmatch⟩ := (Bool.and_eq_true_iff ..).mp hok
  cases hrow : w.table.get? target.key with
  | none => rw [hrow] at hmatch; cases hmatch
  | some row =>
    cases tk with
    | none => rw [hrow] at hmatch; cases hmatch
    | some token =>
      rw [hrow] at hmatch
      obtain ⟨htok, hs, hret⟩ := of_decide_eq_true hmatch
      exact ⟨row, rfl, hs, hret, htok.symm, (hw _ row token hrow htok).1, by simp⟩

/-! ## The ledger as a whole -/

/-- **The notification ledger delivers each event exclusively.**  Every function is atomic, all
    callers share one clock, and between the calls that a statement names any calls may happen.

    1. After a claim granted at `t`, no claim of the key is granted before `t` plus 90 seconds
       unless a completion was called for the first grant in between.
    2. After a successful completion of `event`, no claim of it without repetition is granted
       while the row stays unretired, no other event of the key is granted and the claims of the
       event are without repetition.
    3. After a successful completion with repetition `r`, a further grant of the event comes no
       earlier than `r`, at most seven days, after it, while the row stays unretired and no other
       event of the key is granted.
    4. In every run from a ledger without outstanding claims, a completion succeeds only with
       event and token of the latest grant of the key, on an unretired row; and a rule is marked
       as notified only with the token that was handed out last for its key, on a delivered and
       unretired row. -/
theorem ledger_exclusive : (∀ {key event token event₂ token₂ : String} {t r t₂ r₂ : Int} {w w₁ w₂ w₃ : World}
      {calls : List Call},
      step w (.claim key event t r token) = some w₁ →
      grants w key (.claim key event t r token) = true →
      ledger.run w₁ calls = some w₂ →
      (∀ call ∈ calls, completes key event token call = false) →
      step w₂ (.claim key event₂ t₂ r₂ token₂) = some w₃ →
      grants w₂ key (.claim key event₂ t₂ r₂ token₂) = true →
      t + lease ≤ t₂)
    ∧ (∀ {key event token token₂ : String} {t r t₂ r₂ : Int} {w w₁ w₂ : World} {calls : List Call},
      completeResult w key event token true t r = true →
      step w (.complete key event token true t r) = some w₁ →
      ledger.run w₁ calls = some w₂ →
      ledger.Along (fun u call u' => StaysWith key event u call u'
        ∧ ∀ now r' tk, call = .claim key event now r' tk → r' ≤ 0) w₁ calls →
      r₂ ≤ 0 → grants w₂ key (.claim key event t₂ r₂ token₂) = false)
    ∧ (∀ {key event token token₂ : String} {t r t₂ r₂ : Int} {w w₁ w₂ w₃ : World} {calls : List Call},
      completeResult w key event token true t r = true →
      step w (.complete key event token true t r) = some w₁ →
      ledger.run w₁ calls = some w₂ →
      ledger.Along (StaysWith key event) w₁ calls →
      step w₂ (.claim key event t₂ r₂ token₂) = some w₃ →
      grants w₂ key (.claim key event t₂ r₂ token₂) = true →
      0 < r → t + min r maxRepeatMs * 1000 ≤ t₂)
    ∧ (∀ {w₀ w : World} {calls : List Call}, w₀.quiet → ledger.run w₀ calls = some w →
      (∀ {key event token : String} {success : Bool} {t r : Int},
        completeResult w key event token success t r = true →
        w.lastGrant key = some (event, token) ∧ Unretired key w)
      ∧ (∀ {target : MarkTarget} {tk : Option String} {found : Bool}, markResult w target tk found = true →
        ∃ row, w.table.get? target.key = some row ∧ row.status = .sent ∧ row.retiredAt = none
          ∧ tk = row.claimToken ∧ w.lastToken target.key = tk ∧ tk ≠ none)) := by
  refine ⟨?_, ?_, ?_, ?_⟩
  · intro key event token event₂ token₂ t r t₂ r₂ w w₁ w₂ w₃ calls h₁ hg₁ hrun hno h₂ hg₂
    exact claims_exclusive h₁ hg₁ hrun hno h₂ hg₂
  · intro key event token token₂ t r t₂ r₂ w w₁ w₂ calls hok h hrun hstay hr₂
    exact delivered_once hok h hrun hstay hr₂
  · intro key event token token₂ t r t₂ r₂ w w₁ w₂ w₃ calls hok h hrun hstay h₂ hg hr
    have hpause := repetition_pauses hok h hrun hstay h₂ hg
    unfold repeatPause at hpause
    rw [max_eq_left (le_of_lt hr)] at hpause
    exact hpause
  · intro w₀ w calls hq hrun
    have hw := tokensCurrent_run hq hrun
    exact ⟨fun hok => complete_latest_grant hw hok, fun hok => mark_latest_token hw hok⟩

/-- An empty ledger whose keys all have an owner. -/
def emptyWorld : World where
  table := Directory.empty
  owners := fun _ => some true
  clock := 0
  lastGrant := fun _ => none
  lastToken := fun _ => none

/-- One delivery of the offline alert of a node, at 1 and 2 seconds, with this repetition. -/
def oneDelivery (repeatMs : Int) : List Call :=
  [.claim "offline:n" "down" second repeatMs "t1",
   .complete "offline:n" "down" "t1" true (2 * second) repeatMs]

/-- The world after some calls on an empty ledger that all happen. -/
def worldAfter (calls : List Call) (h : (ledger.run emptyWorld calls).isSome = true) : World :=
  (ledger.run emptyWorld calls).get h

theorem run_worldAfter (calls : List Call) (h : (ledger.run emptyWorld calls).isSome = true) :
    ledger.run emptyWorld calls = some (worldAfter calls h) :=
  (Option.some_get h).symm

theorem step_worldAfter (calls : List Call) (call : Call)
    (h : (ledger.run emptyWorld (calls ++ [call])).isSome = true)
    (hw : ledger.run emptyWorld calls = some w) :
    step w call = some (worldAfter (calls ++ [call]) h) := by
  obtain ⟨u, hu, hs⟩ := ledger.run_concat.mp (run_worldAfter _ h)
  obtain rfl := some.inj (hw.symm.trans hu)
  exact hs

/-- The four parts at work: a second claim after 99 seconds, no second delivery without
    repetition, a repetition after one hour, and a rule marked with the token of the grant. -/
theorem ledger_exclusive_at_work : second + lease ≤ 100 * second
    ∧ grants (worldAfter (oneDelivery 0) (by decide +kernel)) "offline:n"
        (.claim "offline:n" "down" (3 * second) 0 "t2") = false
    ∧ 2 * second + min 3600000 maxRepeatMs * 1000 ≤ 3602 * second
    ∧ (worldAfter (oneDelivery 0) (by decide +kernel)).lastToken "offline:n" = some "t1" := by
  have hquiet : emptyWorld.quiet := by
    intro key row hrow
    simp [emptyWorld, Directory.empty, Directory.get?, Directory.lookupName] at hrow
  have hfirst := run_worldAfter [.claim "offline:n" "down" second 0 "t1"] (by decide +kernel)
  have hrepeat := run_worldAfter [.claim "offline:n" "down" second 3600000 "t1"] (by decide +kernel)
  refine ⟨?_, ?_, ?_, ?_⟩
  · exact ledger_exclusive.1 (step_worldAfter [] _ (by decide +kernel) rfl)
      (by decide +kernel) (ledger.run_nil _) (by simp)
      (step_worldAfter _ (.claim "offline:n" "down" (100 * second) 0 "t2")
        (by decide +kernel) hfirst) (by decide +kernel)
  · have hstep := step_worldAfter _ (.complete "offline:n" "down" "t1" true (2 * second) 0)
      (by decide +kernel) hfirst
    exact ledger_exclusive.2.1 (by decide +kernel) hstep (ledger.run_nil _) trivial (le_refl 0)
  · have hstep := step_worldAfter _ (.complete "offline:n" "down" "t1" true (2 * second)
      3600000) (by decide +kernel) hrepeat
    have hagain := step_worldAfter _ (.claim "offline:n" "down" (3602 * second) 3600000 "t2")
      (by decide +kernel) (run_worldAfter (oneDelivery 3600000) (by decide +kernel))
    exact ledger_exclusive.2.2.1 (by decide +kernel) hstep (ledger.run_nil _) trivial hagain
      (by decide +kernel) (by decide)
  · have hmark : markResult (worldAfter (oneDelivery 0) (by decide +kernel)) (.offline "n")
        (some "t1") true = true := by decide +kernel
    obtain ⟨row, -, -, -, -, hlast, -⟩ :=
      (ledger_exclusive.2.2.2 hquiet (run_worldAfter _ _)).2 hmark
    exact hlast

/-- A delivered event is granted again: to a claim with repetition although the completion was
    without, and at once when the row was retired although the completion asked for a pause. -/
theorem delivered_event_granted_again :
    (ledger.run emptyWorld (oneDelivery 0)).map (fun w =>
      grants w "offline:n" (.claim "offline:n" "down" (3 * second) 1000 "t2")) = some true
    ∧ (ledger.run emptyWorld (oneDelivery 3600000 ++ [.changeOwners ["offline:n"]
        (fun _ => some true) (2 * second)])).map (fun w =>
      grants w "offline:n" (.claim "offline:n" "down" (3 * second) 3600000 "t2")) = some true := by
  decide +kernel

end CfMonitor.Ledger
