/-
  Offline and recovery notices of a client alternate, unless a delivered alert is forgotten.

  1. **Invariant** (`OfflineWorld.Inv`) — a row that says `sent` has the notice that was recorded last;
     a mark stands as long as an outage is open or its recovery was sent but not written yet; and
     without a mark an outage is open only while the row has its alert.

  2. **Condition** (`OfflineWorld.meets`) — a round that claims an alert does not find another alert in
     the row, delivered and not marked.  It does when the round of that alert broke off before the
     mark, and the client has reported in between.

  3. **Results** — `offline_notices_alternate`, and where it fails `alert_repeated`.
-/
import CfMonitor.Ledger.OfflineNotices

namespace CfMonitor.Ledger

open CfMonitor.Lib

/-! ## Event ids -/

/-- The event id of an alert. -/
def isAlertId (eventId : String) : Bool := "offline:".toList.isPrefixOf eventId.toList

theorem isAlertId_offline (lastTime createdAt : String) :
    isAlertId (offlineEventId lastTime createdAt) = true := by
  rw [isAlertId, offlineEventId, String.toList_append, List.isPrefixOf_iff_prefix]
  exact List.prefix_append _ _

theorem isAlertId_recovery (text : String) : isAlertId ("recovery:" ++ text) = false := by
  rw [isAlertId, String.toList_append]
  rfl

section Runs

variable (rules : OfflineRules) (gracePeriodSec : Int)

/-- A notice is one for the mark: an alert without one, or the recovery of the alert it marks. -/
def Notice.For (lastNotified : Option Int) (n : Notice) : Prop :=
  (n.turn = .opens ∧ lastNotified = none ∧ isAlertId n.eventId = true) ∨
  (n.turn = .closes ∧ isAlertId n.eventId = false ∧
    ∃ t, lastNotified = some t ∧ n.eventId = recoveryEventId rules t)

variable {lastNotified : Option Int}

variable {createdAt lastTime : String} {notifyNeverReported : Bool}

/-- An alert is decided without a mark. -/
theorem evaluate_offline {now gracePeriodSec offlineMs : Int} {label : String}
    {neverReported : Bool} {created : Option String}
    (h : evaluateOfflineNotificationEvent rules now createdAt lastTime lastNotified gracePeriodSec
      notifyNeverReported = some (.offline offlineMs label neverReported created)) :
    lastNotified = none := by
  cases lastNotified with
  | none => rfl
  | some t =>
    unfold evaluateOfflineNotificationEvent at h
    grind

theorem evaluate_recovery {now gracePeriodSec : Int} {recoveredAt : String}
    (h : evaluateOfflineNotificationEvent rules now createdAt lastTime lastNotified gracePeriodSec
      notifyNeverReported = some (.recovery recoveredAt)) :
    ∃ t, lastNotified = some t := by
  cases lastNotified with
  | none =>
    unfold evaluateOfflineNotificationEvent at h
    grind
  | some t => exact ⟨t, rfl⟩

/-- **What a round decides.** -/
theorem roundNotice_for {reading : OfflineReading} {n : Notice}
    (h : roundNotice rules gracePeriodSec lastNotified reading = some n) :
    n.For rules lastNotified := by
  unfold roundNotice at h
  simp only [] at h
  split at h
  · cases h
  · rename_i hevent
    split at h
    · cases h
    · cases h
      exact .inl ⟨rfl, evaluate_offline rules hevent, isAlertId_offline _ _⟩
  · rename_i hevent
    cases h
    obtain ⟨t, rfl⟩ := evaluate_recovery rules hevent
    exact .inr ⟨rfl, isAlertId_recovery _, t, rfl, rfl⟩

/-! ## Invariant and condition -/

namespace OfflineWorld

/-- The round has a notice for the mark; once it holds the row, it is the notice whose turn it is. -/
def RoundInv (w : OfflineWorld) : Prop :=
  match w.round with
  | .idle => True
  | .delivering n .claiming => n.For rules w.lastNotified
  | .delivering n (.sending token) | .delivering n (.completing token _) =>
    n.For rules w.lastNotified ∧ n.turn = Turn.next w.completed ∧ ∃ r, w.row = some r ∧ r.HeldFor n token
  | .marking n token => n.For rules w.lastNotified ∧ ∃ r, w.row = some r ∧ r.SentFor n token

/-- The invariant of the rounds. -/
structure Inv (w : OfflineWorld) : Prop where
  retired : ∀ r, w.row = some r → r.retiredAt = none
  alternating : Turn.Alternating w.completed
  sent : ∀ r, w.row = some r → r.status = .sent → isAlertId r.eventId = Turn.isOpen w.completed
  marked : ∀ t, w.lastNotified = some t → Turn.isOpen w.completed = true ∨
    ∃ r, w.row = some r ∧ r.status = .sent ∧ r.eventId = recoveryEventId rules t
  unmarked : w.lastNotified = none → Turn.isOpen w.completed = true → ∃ r, w.row = some r ∧ r.status = .sent
  round : w.RoundInv rules

/-- The row has another alert than the one that is claimed. -/
def otherAlert (n : Notice) : Option Row → Bool
  | none => false
  | some r => decide (n.turn = .opens ∧ r.status = .sent ∧ isAlertId r.eventId = true ∧
      r.eventId ≠ n.eventId)

/-- The condition of a step: a claim of an alert does not find another alert delivered. -/
def meets (w : OfflineWorld) : OfflineStep → Bool
  | .deliver (.claim _) =>
    match w.round with
    | .delivering n .claiming => !otherAlert n w.row
    | _ => true
  | _ => true

theorem start_inv : start.Inv rules where
  retired := nofun
  alternating := trivial
  sent := nofun
  marked := nofun
  unmarked := nofun
  round := trivial

/-! ## Steps -/

variable {rules} {gracePeriodSec}

variable {w : OfflineWorld} {n : Notice}

variable {phase : DeliveryPhase} {call : DeliveryCall}

theorem offlineStep_delivering (hr : w.round = .delivering n phase) :
    offlineStep rules gracePeriodSec w (.deliver call)
      = (Ledger.deliver w.row n phase call).map fun p => w.afterCall n phase p.1 p.2 := by
  rw [offlineStep, hr]

theorem Inv.crash (hi : w.Inv rules) : Inv rules { w with round := .idle } where
  retired := hi.retired
  alternating := hi.alternating
  sent := hi.sent
  marked := hi.marked
  unmarked := hi.unmarked
  round := trivial

variable {w' : OfflineWorld}

theorem Inv.evaluate {reading : OfflineReading} (hi : w.Inv rules)
    (h : offlineStep rules gracePeriodSec w (.evaluate reading) = some w') : w'.Inv rules := by
  have hround : ∀ (round : OfflineRound), (RoundInv rules { w with round := round, clock := reading.now }) →
      Inv rules { w with round := round, clock := reading.now } :=
    fun round hround => ⟨hi.retired, hi.alternating, hi.sent, hi.marked, hi.unmarked, hround⟩
  cases hr : w.round with
  | idle =>
    rw [offlineStep, hr] at h
    simp only [] at h
    split at h
    · cases h
    · split at h
      · cases h
        exact hr ▸ hround .idle trivial
      · rename_i n hn
        cases h
        exact hround _ (roundNotice_for rules gracePeriodSec hn)
  | _ => simp [offlineStep, hr] at h

theorem Inv.mark (hi : w.Inv rules)
    (h : offlineStep rules gracePeriodSec w .mark = some w') : w'.Inv rules := by
  cases hr : w.round with
  | marking n token =>
    have hround := hi.round
    rw [RoundInv, hr] at hround
    obtain ⟨hfor, r, hrow, hevent, htoken, hsent, hretired⟩ := hround
    have hmatches : Row.tokenMatches w.row token = true := by
      rw [hrow, Row.tokenMatches, decide_eq_true_eq]
      exact ⟨htoken, hsent, hretired⟩
    have hopen := hi.sent r hrow hsent
    rw [offlineStep, hr] at h
    simp only [hmatches, if_true] at h
    cases h
    refine ⟨hi.retired, hi.alternating, hi.sent, ?_, fun _ _ => ⟨r, hrow, hsent⟩, trivial⟩
    intro t ht
    rcases hfor with ⟨hturn, -, halert⟩ | ⟨hturn, -, -⟩
    · exact .inl (by rw [← hopen, hevent, halert])
    · simp [Notice.markTime, hturn] at ht
  | _ => simp [offlineStep, hr] at h

/-- What a delivery holds between its claim and its completion. -/
theorem Inv.held (hi : w.Inv rules) (hr : w.round = .delivering n phase) :
    n.For rules w.lastNotified ∧ ∀ token, (phase = .sending token ∨ ∃ sent, phase = .completing token sent) →
      n.turn = Turn.next w.completed ∧ ∃ r, w.row = some r ∧ r.HeldFor n token := by
  have hround := hi.round
  rw [RoundInv, hr] at hround
  cases phase with
  | claiming => exact ⟨hround, fun token h => by simp at h⟩
  | sending token =>
    refine ⟨hround.1, fun token' h => ?_⟩
    obtain rfl : token = token' := by simpa using h
    exact hround.2
  | completing token sent =>
    refine ⟨hround.1, fun token' h => ?_⟩
    obtain rfl : token = token' := by simpa using h
    exact hround.2

/-- **A claim is granted to the notice whose turn it is.**  A mark says that an outage is open; an
    alert without one that finds the outage open would find its alert in the row. -/
theorem Inv.turn_of_granted (hi : w.Inv rules)
    (hfor : n.For rules w.lastNotified) (hmeets : otherAlert n w.row = false)
    (hnew : ∀ r, w.row = some r → r.status = .sent → r.eventId ≠ n.eventId) :
    n.turn = Turn.next w.completed := by
  rcases hfor with ⟨hturn, hmark, halert⟩ | ⟨hturn, -, t, hmark, hevent⟩
  · have hclosed : Turn.isOpen w.completed = false := by
      by_contra hopen
      rw [Bool.not_eq_false] at hopen
      obtain ⟨r, hrow, hsent⟩ := hi.unmarked hmark hopen
      have hother : otherAlert n w.row = true := by
        rw [hrow, otherAlert, decide_eq_true_eq]
        exact ⟨hturn, hsent, (hi.sent r hrow hsent).trans hopen, hnew r hrow hsent⟩
      rw [hmeets] at hother
      cases hother
    rw [hturn, Turn.next, hclosed]
    rfl
  · have hopen : Turn.isOpen w.completed = true := by
      rcases hi.marked t hmark with hopen | ⟨r, hrow, hsent, hrecovery⟩
      · exact hopen
      · exact absurd (hrecovery.trans hevent.symm) (hnew r hrow hsent)
    rw [hturn, Turn.next, hopen]
    rfl

variable {r' : Row}

/-- The row of a notice whose turn it is may say that it is not sent. -/
theorem Inv.unsent (hi : w.Inv rules) {round : OfflineRound}
    (hfor : n.For rules w.lastNotified) (hturn : n.turn = Turn.next w.completed)
    (hstatus : r'.status ≠ .sent) (hretired : r'.retiredAt = none)
    (hround : RoundInv rules { w with row := some r', round := round }) :
    Inv rules { w with row := some r', round := round } := by
  refine ⟨?_, hi.alternating, ?_, ?_, ?_, hround⟩
  · intro r hr
    cases hr
    exact hretired
  · intro r hr hsent
    cases hr
    exact absurd hsent hstatus
  · intro t ht
    rcases hfor with ⟨-, hnone, -⟩ | ⟨hcloses, -, -⟩
    · cases hnone.symm.trans ht
    · refine .inl ?_
      by_contra hclosed
      rw [hcloses, Turn.next, if_neg hclosed] at hturn
      cases hturn
  · intro hnone hopen
    rcases hfor with ⟨hopens, -, -⟩ | ⟨-, -, t, hmark, -⟩
    · rw [hopens, Turn.next, if_pos hopen] at hturn
      cases hturn
    · cases hmark.symm.trans hnone

theorem Inv.found (hi : w.Inv rules) {token : String} {r : Row}
    (hfor : n.For rules w.lastNotified) (hrow : w.row = some r) (hstatus : r.status = .sent)
    (hevent : r.eventId = n.eventId) (hsent : r'.SentFor n token) :
    Inv rules { w with row := some r', round := .marking n token } := by
  refine ⟨?_, hi.alternating, ?_, ?_, fun _ _ => ⟨r', rfl, hsent.2.2.1⟩, hfor, r', rfl, hsent⟩
  · intro r'' hr
    cases hr
    exact hsent.2.2.2
  · intro r'' hr _
    cases hr
    rw [hsent.1, ← hevent]
    exact hi.sent r hrow hstatus
  · intro t ht
    rcases hi.marked t ht with hopen | ⟨r'', hrow', -, hrecovery⟩
    · exact .inl hopen
    · obtain rfl : r'' = r := Option.some.inj (hrow'.symm.trans hrow)
      exact .inr ⟨r', rfl, hsent.2.2.1, hsent.1.trans (hevent.symm.trans hrecovery)⟩

theorem Inv.completes (hi : w.Inv rules) {token : String}
    (hfor : n.For rules w.lastNotified) (hturn : n.turn = Turn.next w.completed)
    (hsent : r'.SentFor n token) :
    Inv rules { w with row := some r', round := .marking n token, completed := n.turn :: w.completed } := by
  have hid : isAlertId n.eventId = Turn.isOpen (n.turn :: w.completed) := by
    rcases hfor with ⟨hopens, -, halert⟩ | ⟨hcloses, halert, -⟩
    · rw [hopens, halert, Turn.isOpen_opens]
    · rw [hcloses, halert, Turn.isOpen_closes]
  refine ⟨?_, ⟨hturn, hi.alternating⟩, ?_, ?_, fun _ _ => ⟨r', rfl, hsent.2.2.1⟩, hfor, r', rfl, hsent⟩
  · intro r hr
    cases hr
    exact hsent.2.2.2
  · intro r hr _
    cases hr
    rw [hsent.1]
    exact hid
  · intro t ht
    rcases hfor with ⟨-, hnone, -⟩ | ⟨-, -, t', hmark, hevent⟩
    · cases hnone.symm.trans ht
    · obtain rfl : t' = t := Option.some.inj (hmark.symm.trans ht)
      exact .inr ⟨r', rfl, hsent.2.2.1, hsent.1.trans hevent⟩

/-- **One call of a delivery keeps the invariant.** -/
theorem Inv.deliver (hi : w.Inv rules) (hmeets : w.meets (.deliver call) = true)
    (h : offlineStep rules gracePeriodSec w (.deliver call) = some w') : w'.Inv rules := by
  cases hr : w.round with
  | delivering n phase =>
    rw [offlineStep_delivering hr] at h
    obtain ⟨⟨row, result⟩, hdeliver, rfl⟩ := Option.map_eq_some_iff.mp h
    obtain ⟨hfor, hheld⟩ := hi.held hr
    have hcase := deliver_cases hi.retired hdeliver
    cases hcase with
    | refused token r hrow hsent => exact hi.crash
    | already token credential r r' hrow hsent hevent hsent' =>
      exact hi.found hfor hrow hsent hevent hsent'
    | granted token r' hgranted hnew =>
      have hclaim : otherAlert n w.row = false := by
        rw [meets, hr] at hmeets
        simpa using hmeets
      have hturn := hi.turn_of_granted hfor hclaim hnew
      refine hi.unsent hfor hturn (by simp [hgranted.2.2.1]) hgranted.2.2.2 ?_
      exact ⟨hfor, hturn, r', rfl, hgranted⟩
    | sent token ok =>
      refine ⟨hi.retired, hi.alternating, hi.sent, hi.marked, hi.unmarked, ?_⟩
      exact ⟨hfor, hheld token (.inl rfl)⟩
    | success token r r' hrow hheldFor hsent =>
      exact hi.completes hfor (hheld token (.inr ⟨true, rfl⟩)).1 hsent
    | failure token r r' hrow hheldFor hfailed hretired =>
      exact hi.unsent hfor (hheld token (.inr ⟨false, rfl⟩)).1 (by simp [hfailed]) hretired trivial
    | lost token sent hlost => exact hi.crash
  | _ => simp [offlineStep, hr] at h

/-- **Every step that meets the condition keeps the invariant.** -/
theorem Inv.step {w w' : OfflineWorld} {e : OfflineStep} (hi : w.Inv rules) (hmeets : w.meets e = true)
    (h : offlineStep rules gracePeriodSec w e = some w') : w'.Inv rules := by
  cases e with
  | evaluate reading => exact hi.evaluate h
  | deliver call => exact hi.deliver hmeets h
  | mark => exact hi.mark h
  | crash =>
    cases h
    exact hi.crash

end OfflineWorld

/-! ## Runs -/

variable {rules} {gracePeriodSec}

/-- What a run reaches whose steps meet the condition. -/
theorem offline_inv {es : List OfflineStep} {w : OfflineWorld}
    (hmeets : (offlineMachine rules gracePeriodSec).Along (fun w e _ => w.meets e = true) .start es)
    (hrun : (offlineMachine rules gracePeriodSec).run .start es = some w) : w.Inv rules :=
  (offlineMachine rules gracePeriodSec).run_inv_along (fun _ _ _ hi hm hs => hi.step hm hs) es _ _
    (OfflineWorld.start_inv rules) hmeets hrun

/-- **Offline and recovery notices alternate** along a run in which no round claims an alert while the
    row has another one, delivered and not marked. -/
theorem offline_notices_alternate (rules : OfflineRules) (gracePeriodSec : Int) (es : List OfflineStep) (w : OfflineWorld)
    (hmeets : (offlineMachine rules gracePeriodSec).Along (fun w e _ => w.meets e = true) .start es)
    (hrun : (offlineMachine rules gracePeriodSec).run .start es = some w) :
    w.completed.IsChain (· ≠ ·) ∧ ∀ turn ∈ w.completed.getLast?, turn = .opens :=
  (Turn.alternating_iff w.completed).mp (offline_inv hmeets hrun).alternating

end Runs

/-! ## A delivered alert without its mark -/

/-- Two reports of one client, and the mark of an alert: times in milliseconds and their texts. -/
def shownTimes : List (Int × String) :=
  [(1767225600000, "2026-01-01T00:00:00.000Z"), (1767229200000, "2026-01-01T01:00:00.000Z"),
   (1767226200000, "2026-01-01T00:10:00.000Z")]

/-- The rules at these times. -/
def shownRules : OfflineRules where
  dateParse := fun text => (shownTimes.find? (·.2 = text)).map (·.1)
  isoText := fun ms => ((shownTimes.find? (·.1 = ms)).map (·.2)).getD ""
  timestampText := fun ms => ((shownTimes.find? (·.1 = ms)).map (·.2)).getD ""

/-- A round ten minutes after a report, or during it. -/
def readingAt (now lastSeen streak : Int) : OfflineReading :=
  { now := now, createdAt := "2026-01-01T00:00:00.000Z", lastSeen := some lastSeen, streak := streak,
    recordTime := "", notifyNeverReported := true, confirmRounds := 3 }

/-- A round that delivers its notice. -/
def deliveredRound (reading : OfflineReading) (token : String) : List OfflineStep :=
  [.evaluate reading, .deliver (.claim token), .deliver (.send true), .deliver .complete]

/-- An alert that is marked, its recovery, and the next alert. -/
def recoveredOutage : List OfflineStep :=
  deliveredRound (readingAt 1767226200000 1767225600000 3) "a" ++ [.mark] ++
  deliveredRound (readingAt 1767229200000 1767229200000 0) "b" ++ [.mark] ++
  deliveredRound (readingAt 1767229800000 1767229200000 3) "c"

/-- The round of the alert breaks off before its mark; the client reports and goes offline again. -/
def forgottenAlert : List OfflineStep :=
  deliveredRound (readingAt 1767226200000 1767225600000 3) "a" ++ [.crash] ++
  deliveredRound (readingAt 1767229800000 1767229200000 3) "b"

/-- The notices of an outage, its recovery, and the next outage. -/
theorem recovered_outage_alternates :
    ∃ w, (offlineMachine shownRules 360).run .start recoveredOutage = some w ∧
      w.completed = [.opens, .closes, .opens] ∧
      w.completed.IsChain (· ≠ ·) ∧ ∀ turn ∈ w.completed.getLast?, turn = .opens := by
  have hcompleted : ((offlineMachine shownRules 360).run .start recoveredOutage).map (·.completed)
      = some [.opens, .closes, .opens] := by decide +kernel
  obtain ⟨w, hrun, hw⟩ := Option.map_eq_some_iff.mp hcompleted
  exact ⟨w, hrun, hw, offline_notices_alternate shownRules 360 recoveredOutage w (by decide +kernel) hrun⟩

/-- Two alerts in a row. -/
theorem alert_repeated : ¬ ∀ (es : List OfflineStep) (w : OfflineWorld),
    (offlineMachine shownRules 360).run .start es = some w →
      w.completed.IsChain (· ≠ ·) ∧ ∀ turn ∈ w.completed.getLast?, turn = .opens := by
  intro h
  have hcompleted : ((offlineMachine shownRules 360).run .start forgottenAlert).map (·.completed)
      = some [.opens, .opens] := by decide +kernel
  obtain ⟨w, hrun, hw⟩ := Option.map_eq_some_iff.mp hcompleted
  obtain ⟨hchain, -⟩ := h forgottenAlert w hrun
  rw [hw] at hchain
  exact absurd hchain (by decide)

end CfMonitor.Ledger
