/-
  Website alerts and recoveries alternate, unless the monitor forgets a delivered alert.

  1. **Invariant** (`WebsiteWorld.Inv`) — between two handlings the monitor is marked exactly as long as
     an outage is open (`Settled`).  While an alert is under way there is no mark; while a recovery is
     under way the outage is open, and the mark is the one that was read or is gone.

  2. **Condition** (`WebsiteWorld.meets`) — the three ways to forget an alert: the mark is refused,
     since a check has changed the monitor during the delivery; a failed check takes a marked monitor
     down before its recovery is handled; or it does so during the recovery, whose delivery then fails.

  3. **Results** — `website_notices_alternate`, and where it fails `flapping_site_forgotten`.
-/
import Mathlib
import CfMonitor.Ledger.WebsiteNotices

namespace CfMonitor.Ledger

open CfMonitor.Lib
open CfMonitor.Website (MonitorState MonitorRow CheckInput ExpectedHealth)

/-! ## Event ids -/

section EventIds

variable (texts : WebsiteTexts)

/-- No alert has the id of a recovery. -/
theorem websiteDownId_ne (revision revision' : Nat) (downSince lastNotifiedAt : Option Int) :
    websiteDownId texts revision downSince ≠ websiteRecoveryId texts revision' lastNotifiedAt := by
  intro h
  have hlists := congrArg String.toList h
  rw [websiteDownId, websiteRecoveryId, String.toList_append, String.toList_append] at hlists
  -- `d` and `r`
  have hfirst := congrArg List.head? hlists
  exact absurd hfirst (by simp)

end EventIds

/-! ## What a check does to the mark -/

/-- A failed check that takes a marked monitor down: a new outage begins without the mark. -/
def clearsMark (s : MonitorState) (input : CheckInput) (now : Int) : Bool :=
  let check := s.storedCheck input now
  !s.refuses input now && !check.ok &&
  !(decide (check.source = .agent) && s.row.config.agentProbeStatusEnabled) &&
  decide (s.row.health.status ≠ .down) && s.row.health.lastNotifiedAt.isSome

/-- What a check does, as far as notices go. -/
structure CheckEffect (s s' : MonitorState) (clears : Bool) : Prop where
  revision : s'.row.configRevision = s.row.configRevision
  config : s'.row.config = s.row.config
  lastNotifiedAt : s'.row.health.lastNotifiedAt = if clears then none else s.row.health.lastNotifiedAt
  upSince : (s.row.health.status = .up → s.row.health.downSince = none) →
    s'.row.health.status = .up → s'.row.health.downSince = none
  /-- A monitor that is up stays so, with its mark, or loses the mark. -/
  up : s.row.health.status = .up → s'.row.health.lastNotifiedAt = none ∨ s'.row.health.status = .up

variable {s : MonitorState}

theorem CheckEffect.none_of_none {s' : MonitorState} {clears : Bool} (h : CheckEffect s s' clears)
    (hnone : s.row.health.lastNotifiedAt = none) : s'.row.health.lastNotifiedAt = none := by
  rw [h.lastNotifiedAt, hnone]
  exact ite_self _

/-- **What `cfm_record_website_check` does to the notices of its monitor.** -/
theorem check_effect (s : MonitorState) (input : CheckInput) (now : Int) :
    CheckEffect s (s.recordWebsiteCheck input now).1 (clearsMark s input now) ∧
    ∀ row, (s.recordWebsiteCheck input now).2 = some row →
      row = (s.recordWebsiteCheck input now).1.row ∧ row.config.enabled = true := by
  have hsame : ∀ s' : MonitorState, s'.row = s.row → clearsMark s input now = false →
      CheckEffect s s' (clearsMark s input now) := by
    intro s' hrow hclears
    refine ⟨by rw [hrow], by rw [hrow], by rw [hrow, hclears]; rfl, ?_, ?_⟩
    · rw [hrow]
      exact id
    · rw [hrow]
      exact .inr
  rw [MonitorState.recordWebsiteCheck]
  by_cases hrefused : s.refuses input now = true
  · rw [if_pos hrefused]
    exact ⟨hsame s rfl (by simp [clearsMark, hrefused]), fun row h => absurd h (by simp)⟩
  · rw [if_neg hrefused]
    have henabled : s.row.config.enabled = true := by
      by_contra hdisabled
      exact hrefused (by simp [MonitorState.refuses, hdisabled])
    dsimp only
    split
    · rename_i hagent
      -- recorded only
      refine ⟨hsame _ rfl (by simp [clearsMark, hagent]), ?_⟩
      intro row h
      split at h
      · cases h
      · cases h
        exact ⟨rfl, henabled⟩
    · rename_i hagent
      rw [Website.MonitorState.updateRow_health]
      refine ⟨?_, fun row h => ?_⟩
      · cases hok : (s.storedCheck input now).ok with
        | true =>
          have hclears : clearsMark s input now = false := by simp [clearsMark, hok]
          rw [hclears]
          exact ⟨rfl, rfl, rfl, fun _ _ => rfl, fun _ => .inr rfl⟩
        | false =>
          have happlied : (decide ((s.storedCheck input now).source = .agent) &&
              s.row.config.agentProbeStatusEnabled) = false := by
            by_contra hcontra
            simp at hcontra
            exact hagent ⟨hcontra.1, hcontra.2, hok⟩
          refine ⟨rfl, rfl, ?_, by rintro _ ⟨⟩, ?_⟩
          · cases hmark : s.row.health.lastNotifiedAt with
            | none => simp [MonitorState.failed, hmark]
            | some time =>
              by_cases hdown : s.row.health.status = .down <;>
                simp [MonitorState.failed, clearsMark, hrefused, hok, happlied, hdown, hmark]
          · intro hup
            exact .inl (by simp [MonitorState.failed, hup])
      · cases h
        exact ⟨rfl, henabled⟩

/-! ## Invariant and condition -/

variable {monitor : MonitorRow}

theorem expectedNow_iff : s.expectedNow (expectation monitor) = true ↔
      s.row.config.enabled = true ∧ s.row.configRevision = monitor.configRevision ∧
      s.row.health.status = monitor.health.status ∧ s.row.health.downSince = monitor.health.downSince ∧
      s.row.health.lastNotifiedAt = monitor.health.lastNotifiedAt := by
  rw [MonitorState.expectedNow]
  simp only [Bool.and_eq_true, decide_eq_true_eq, and_assoc]
  exact Iff.rfl

/-- The monitor is marked exactly as long as an outage is open. -/
def Settled (s : MonitorState) (history : List Turn) : Prop :=
  s.row.health.lastNotifiedAt.isSome = Turn.isOpen history

/-- An outage was read that has no mark. -/
structure AlertDue (s : MonitorState) (history : List Turn) (monitor : MonitorRow) : Prop where
  down : monitor.health.status = .down
  revision : monitor.configRevision = s.row.configRevision
  unmarked : s.row.health.lastNotifiedAt = none
  closed : Turn.isOpen history = false

/-- The monitor has lost its mark, or is still as it was read. -/
def Kept (s : MonitorState) (monitor : MonitorRow) : Prop :=
  s.row.health.lastNotifiedAt = none ∨ s.expectedNow (expectation monitor) = true

/-- A mark was read whose outage is over. -/
structure RecoveryDue (s : MonitorState) (history : List Turn) (monitor : MonitorRow) : Prop where
  up : monitor.health.status = .up
  upSince : monitor.health.downSince = none
  marked : monitor.health.lastNotifiedAt.isSome = true
  enabled : monitor.config.enabled = true
  revision : monitor.configRevision = s.row.configRevision
  kept : Kept s monitor
  opened : Turn.isOpen history = true

/-- A notice was delivered whose mark is not written yet. -/
def Marking (s : MonitorState) (history : List Turn) (monitor : MonitorRow) (n : Notice) : Prop :=
  (n.turn = .opens ∧ monitor.health.status = .down ∧ s.row.health.lastNotifiedAt = none ∧
    Turn.isOpen history = true) ∨
  (n.turn = .closes ∧ monitor.health.status = .up ∧ monitor.health.downSince = none ∧ Kept s monitor ∧
    Turn.isOpen history = false)

section Invariant

variable (texts : WebsiteTexts)

/-- The notice that is due for a row that was read. -/
def Due (s : MonitorState) (history : List Turn) (monitor : MonitorRow) (n : Notice) : Prop :=
  (AlertDue s history monitor ∧ n.turn = .opens ∧
    ∃ since, n.eventId = websiteDownId texts monitor.configRevision since) ∨
  (RecoveryDue s history monitor ∧ n.turn = .closes ∧
    ∃ time, n.eventId = websiteRecoveryId texts monitor.configRevision time)

/-- What holds where the round is. -/
def RoundInv (s : MonitorState) (row : Option Row) (history : List Turn) : WebsiteRound → Prop
  | .between | .phase _ _ | .probing _ _ => Settled s history
  | .listed monitor _ _ => AlertDue s history monitor ∨ RecoveryDue s history monitor
  | .delivering monitor n .claiming _ => Due texts s history monitor n
  | .delivering monitor n (.sending token) _ | .delivering monitor n (.completing token _) _ =>
    Due texts s history monitor n ∧ ∃ r, row = some r ∧ r.HeldFor n token
  | .marking monitor n _ => Marking s history monitor n

/-- A delivered row has the notice that was recorded last, if it is about this revision. -/
def SentInv (s : MonitorState) (row : Option Row) (history : List Turn) : Prop :=
  ∀ r, row = some r → r.status = .sent →
    (∀ since, r.eventId = websiteDownId texts s.row.configRevision since → Turn.isOpen history = true) ∧
    ∀ time, r.eventId = websiteRecoveryId texts s.row.configRevision time → Turn.isOpen history = false

/-- The invariant of the rounds. -/
structure WebsiteWorld.Inv (w : WebsiteWorld) : Prop where
  retired : ∀ r, w.row = some r → r.retiredAt = none
  alternating : Turn.Alternating w.completed
  sent : SentInv texts w.monitor w.row w.completed
  upSince : w.monitor.row.health.status = .up → w.monitor.row.health.downSince = none
  recovered : w.unrecovered = 0
  round : RoundInv texts w.monitor w.row w.completed w.round

end Invariant

namespace WebsiteWorld

/-- The round is about a monitor that was up when it was read. -/
def recovering (w : WebsiteWorld) : Bool :=
  match w.round with
  | .listed monitor _ _ | .delivering monitor _ _ _ | .marking monitor _ _ =>
    decide (monitor.health.status = .up)
  | _ => false

/-- The delivery fails here: the ledger makes it wait, or the send has failed. -/
def fails (row : Option Row) (n : Notice) : DeliveryPhase → DeliveryCall → Bool
  | .claiming, .claim _ => row.any fun r => r.activeLease n.time ||
      decide (r.eventId = n.eventId ∧ r.status ≠ .sent ∧ n.time < r.nextAttemptAt)
  | .completing _ sent, .complete => !sent
  | _, _ => false

/-- The condition of a step. -/
def meets (w : WebsiteWorld) : WebsiteStep → Bool
  | .check input now => !clearsMark w.monitor input now || w.recovering
  | .probe input now => !clearsMark w.monitor (workerCheck input) now
  | .deliver call =>
    match w.round with
    -- a recovery that fails is tried again only if its mark is still there
    | .delivering _ n phase _ => decide (n.turn = .opens) || !fails w.row n phase call ||
        w.monitor.row.health.lastNotifiedAt.isSome
    | _ => true
  | .mark =>
    match w.round with
    | .marking monitor n _ => decide (n.turn = .closes) || w.monitor.expectedNow (expectation monitor)
    | _ => true
  | _ => true

end WebsiteWorld

/-! ## Steps -/

variable {texts : WebsiteTexts}

variable {w : WebsiteWorld}

theorem WebsiteWorld.Begins.inv (h : w.Begins texts) : w.Inv texts where
  retired := h.retired
  alternating := by
    rw [h.completed]
    trivial
  sent := fun r hr _ => ⟨fun since hid => absurd hid ((h.other r hr).1 since),
    fun time hid => absurd hid ((h.other r hr).2 time)⟩
  upSince := h.upSince
  recovered := h.unrecovered
  round := by
    rw [h.between]
    show Settled w.monitor w.completed
    rw [Settled, h.unmarked, h.completed]
    rfl

section Checks

variable {s s' : MonitorState} {clears : Bool} {history : List Turn} {monitor : MonitorRow}

theorem Kept.check (hk : Kept s monitor) (hup : monitor.health.status = .up)
    (hsince : monitor.health.downSince = none) (he : CheckEffect s s' clears) : Kept s' monitor := by
  rcases hk with hnone | hnow
  · exact .inl (he.none_of_none hnone)
  · obtain ⟨henabled, hrevision, hstatus, hdownSince, hmark⟩ := expectedNow_iff.mp hnow
    rcases he.up (hstatus.trans hup) with hnone | hstays
    · exact .inl hnone
    · have hsince' : s'.row.health.downSince = none :=
        he.upSince (fun _ => hdownSince.trans hsince) hstays
      cases clears with
      | true => exact .inl he.lastNotifiedAt
      | false => exact .inr (expectedNow_iff.mpr ⟨he.config ▸ henabled, he.revision.trans hrevision,
          hstays.trans hup.symm, hsince'.trans hsince.symm, he.lastNotifiedAt.trans hmark⟩)

theorem AlertDue.check (h : AlertDue s history monitor) (he : CheckEffect s s' clears) :
    AlertDue s' history monitor :=
  ⟨h.down, h.revision.trans he.revision.symm, he.none_of_none h.unmarked, h.closed⟩

theorem RecoveryDue.check (h : RecoveryDue s history monitor) (he : CheckEffect s s' clears) :
    RecoveryDue s' history monitor :=
  ⟨h.up, h.upSince, h.marked, h.enabled, h.revision.trans he.revision.symm,
    h.kept.check h.up h.upSince he, h.opened⟩

theorem Due.check {n : Notice} (h : Due texts s history monitor n) (he : CheckEffect s s' clears) :
    Due texts s' history monitor n :=
  h.imp (And.imp_left fun halert => halert.check he) (And.imp_left fun hrecovery => hrecovery.check he)

theorem Marking.check {n : Notice} (h : Marking s history monitor n) (he : CheckEffect s s' clears) :
    Marking s' history monitor n := by
  rcases h with ⟨hturn, hdown, hnone, hopen⟩ | ⟨hturn, hup, hsince, hkept, hclosed⟩
  · exact .inl ⟨hturn, hdown, he.none_of_none hnone, hopen⟩
  · exact .inr ⟨hturn, hup, hsince, hkept.check hup hsince he, hclosed⟩

theorem Settled.check (h : Settled s history) (he : CheckEffect s s' false) : Settled s' history :=
  (congrArg Option.isSome he.lastNotifiedAt).trans h

theorem SentInv.check {row : Option Row} (h : SentInv texts s row history) (he : CheckEffect s s' clears) :
    SentInv texts s' row history := by
  rw [SentInv, he.revision]
  exact h

/-- **A check keeps what holds where the round is**, in whatever call of the round it comes; it may clear
    the mark while a recovery is under way. -/
theorem WebsiteWorld.Inv.check {w : WebsiteWorld} {input : CheckInput} {now : Int} (hi : w.Inv texts)
    (hmeets : w.meets (.check input now) = true) :
    Inv texts { w with monitor := (w.monitor.recordWebsiteCheck input now).1 } := by
  have he := (check_effect w.monitor input now).1
  refine ⟨hi.retired, hi.alternating, hi.sent.check he, he.upSince hi.upSince, hi.recovered, ?_⟩
  have hsettled : w.recovering = false → Settled w.monitor w.completed →
      Settled (w.monitor.recordWebsiteCheck input now).1 w.completed := by
    intro hidle h
    have hclears : clearsMark w.monitor input now = false := by
      rw [meets, hidle, Bool.or_false] at hmeets
      simpa using hmeets
    rw [hclears] at he
    exact h.check he
  have hround := hi.round
  show RoundInv texts (w.monitor.recordWebsiteCheck input now).1 w.row w.completed w.round
  cases hr : w.round with
  | between =>
    rw [hr] at hround
    exact hsettled (by rw [recovering, hr]) hround
  | phase roundNow rest =>
    rw [hr] at hround
    exact hsettled (by rw [recovering, hr]) hround
  | probing roundNow rest =>
    rw [hr] at hround
    exact hsettled (by rw [recovering, hr]) hround
  | listed monitor roundNow rest =>
    rw [hr] at hround
    exact hround.imp (fun h => h.check he) fun h => h.check he
  | delivering monitor n phase rest =>
    rw [hr] at hround
    cases phase with
    | claiming => exact Due.check hround he
    | sending token => exact ⟨hround.1.check he, hround.2⟩
    | completing token sent => exact ⟨hround.1.check he, hround.2⟩
  | marking monitor n rest =>
    rw [hr] at hround
    exact Marking.check hround he

end Checks

/-! ## Decisions -/

theorem websiteNotice_cases {now : Int} {n : Notice} (h : websiteNotice texts monitor now = some n) :
    (n.turn = .opens ∧ monitor.health.status = .down ∧ monitor.health.lastNotifiedAt = none ∧
      ∃ since, n.eventId = websiteDownId texts monitor.configRevision since) ∨
    (n.turn = .closes ∧ monitor.health.status = .up ∧ monitor.health.lastNotifiedAt.isSome = true ∧
      monitor.config.enabled = true ∧
      ∃ time, n.eventId = websiteRecoveryId texts monitor.configRevision time) := by
  rw [websiteNotice] at h
  split at h
  · rename_i hdown
    cases h
    simp only [shouldNotifyWebsiteDown, Bool.and_eq_true, decide_eq_true_eq, Option.isNone_iff_eq_none]
      at hdown
    exact .inl ⟨rfl, hdown.1.1.2, hdown.1.2, _, rfl⟩
  · split at h
    · rename_i hup
      cases h
      simp only [shouldNotifyWebsiteRecovery, Bool.and_eq_true, decide_eq_true_eq] at hup
      exact .inr ⟨rfl, hup.1.2, hup.2, hup.1.1, _, rfl⟩
    · cases h

theorem websiteNotice_of_marked {now : Int} (henabled : monitor.config.enabled = true)
    (hup : monitor.health.status = .up) (hmarked : monitor.health.lastNotifiedAt.isSome = true) :
    websiteNotice texts monitor now ≠ none := by
  intro h
  rw [websiteNotice] at h
  split at h
  · cases h
  · rename_i hnone
    rw [if_pos (by simp [shouldNotifyWebsiteRecovery, henabled, hup, hmarked])] at h
    cases h

section Notices

variable {s : MonitorState} {history : List Turn} {monitor : MonitorRow} {n : Notice}

theorem Due.turn (h : Due texts s history monitor n) : n.turn = Turn.next history := by
  rcases h with ⟨halert, hturn, -⟩ | ⟨hrecovery, hturn, -⟩
  · rw [hturn, Turn.next, halert.closed]
    rfl
  · rw [hturn, Turn.next, hrecovery.opened]
    rfl

theorem Due.unsent {row : Option Row}
    (h : Due texts s history monitor n) (hsent : SentInv texts s row history) :
    ∀ r, row = some r → r.status = .sent → r.eventId ≠ n.eventId := by
  intro r hr hstatus hid
  obtain ⟨hdown, hrecovery⟩ := hsent r hr hstatus
  rcases h with ⟨halert, -, since, hevent⟩ | ⟨hdue, -, time, hevent⟩
  · have hopen := hdown since (by rw [hid, hevent, halert.revision])
    cases halert.closed.symm.trans hopen
  · have hclosed := hrecovery time (by rw [hid, hevent, hdue.revision])
    cases hdue.opened.symm.trans hclosed

/-- A delivery that fails leaves the monitor marked exactly as long as the outage is open, if a
    recovery finds its mark. -/
theorem Due.settled (h : Due texts s history monitor n)
    (hmark : n.turn = .opens ∨ s.row.health.lastNotifiedAt.isSome = true) : Settled s history := by
  rcases h with ⟨halert, -, -⟩ | ⟨hrecovery, hturn, -⟩
  · rw [Settled, halert.unmarked, halert.closed]
    rfl
  · rcases hmark with hopens | hmark
    · cases hturn.symm.trans hopens
    · rw [Settled, hrecovery.opened, hmark]

theorem mark_effect (s : MonitorState) (monitor : MonitorRow) (time : Option Int) :
    (s.markWebsiteMonitorNotified time (some (expectation monitor))).row
      = if s.expectedNow (expectation monitor) = true
        then { s.row with health := { s.row.health with lastNotifiedAt := time } } else s.row := by
  rw [MonitorState.markWebsiteMonitorNotified]
  dsimp only
  rw [Website.MonitorState.updateRow_health]
  split <;> rfl

theorem mark_keeps (s : MonitorState) (monitor : MonitorRow) (time : Option Int) :
    (s.markWebsiteMonitorNotified time (some (expectation monitor))).row.configRevision
      = s.row.configRevision ∧
    (s.markWebsiteMonitorNotified time (some (expectation monitor))).row.health.status = s.row.health.status ∧
    (s.markWebsiteMonitorNotified time (some (expectation monitor))).row.health.downSince
      = s.row.health.downSince := by
  rw [mark_effect]
  split <;> exact ⟨rfl, rfl, rfl⟩

theorem Marking.settled (h : Marking s history monitor n)
    (hexpected : n.turn = .closes ∨ s.expectedNow (expectation monitor) = true) :
    Settled (s.markWebsiteMonitorNotified n.websiteMark (some (expectation monitor))) history := by
  rw [Settled, mark_effect]
  rcases h with ⟨hturn, -, -, hopen⟩ | ⟨hturn, -, -, hkept, hclosed⟩
  · rcases hexpected with hcloses | hexpected
    · cases hturn.symm.trans hcloses
    · rw [if_pos hexpected, hopen, Notice.websiteMark, hturn]
      rfl
  · rw [hclosed]
    by_cases hexpected : s.expectedNow (expectation monitor) = true
    · rw [if_pos hexpected, Notice.websiteMark, hturn]
      rfl
    · rw [if_neg hexpected, hkept.resolve_right hexpected]
      rfl

end Notices

namespace WebsiteWorld

variable {w : WebsiteWorld} {monitor : MonitorRow} {now : Int} {rest : List WebsitePhase}

/-- The round goes on, without an alert left behind by a recovered monitor. -/
theorem Inv.handled (hi : w.Inv texts) (hsettled : Settled w.monitor w.completed)
    (hrecovered : ¬ (monitor.health.status = .up ∧ Turn.isOpen w.completed = true)) :
    Inv texts (w.handled monitor now rest) where
  retired := hi.retired
  alternating := hi.alternating
  sent := hi.sent
  upSince := hi.upSince
  recovered := by
    rw [WebsiteWorld.handled, if_neg hrecovered]
    exact hi.recovered
  round := hsettled

theorem Inv.notify_listed (hi : w.Inv texts)
    (hdue : AlertDue w.monitor w.completed monitor ∨ RecoveryDue w.monitor w.completed monitor) :
    Inv texts (w.notify texts monitor now rest) := by
  rw [notify]
  cases hn : websiteNotice texts monitor now with
  | none =>
    rcases hdue with halert | hrecovery
    · refine hi.handled ?_ fun h => absurd (h.1.symm.trans halert.down) (by decide)
      rw [Settled, halert.unmarked, halert.closed]
      rfl
    · exact absurd hn (websiteNotice_of_marked hrecovery.enabled hrecovery.up hrecovery.marked)
  | some n =>
    refine ⟨hi.retired, hi.alternating, hi.sent, hi.upSince, hi.recovered, ?_⟩
    show Due texts w.monitor w.completed monitor n
    rcases websiteNotice_cases hn with ⟨hturn, hdown, -, hid⟩ | ⟨hturn, hup, -, -, hid⟩
    · rcases hdue with halert | hrecovery
      · exact .inl ⟨halert, hturn, hid⟩
      · cases hrecovery.up.symm.trans hdown
    · rcases hdue with halert | hrecovery
      · cases halert.down.symm.trans hup
      · exact .inr ⟨hrecovery, hturn, hid⟩

theorem Inv.due_of_read (hi : w.Inv texts) (hsettled : Settled w.monitor w.completed)
    (henabled : w.monitor.row.config.enabled = true) :
    (w.monitor.row.health.status = .down → w.monitor.row.health.lastNotifiedAt = none →
      AlertDue w.monitor w.completed w.monitor.row) ∧
    (w.monitor.row.health.status = .up → w.monitor.row.health.lastNotifiedAt.isSome = true →
      RecoveryDue w.monitor w.completed w.monitor.row) := by
  constructor
  · intro hdown hnone
    rw [Settled, hnone] at hsettled
    exact ⟨hdown, rfl, hnone, hsettled.symm⟩
  · intro hup hmarked
    exact ⟨hup, hi.upSince hup, hmarked, henabled, rfl,
      .inr (expectedNow_iff.mpr ⟨henabled, rfl, rfl, rfl, rfl⟩), hsettled.symm.trans hmarked⟩

theorem Inv.notify_recorded (hi : w.Inv texts) (hsettled : Settled w.monitor w.completed)
    (henabled : w.monitor.row.config.enabled = true) :
    Inv texts (w.notify texts w.monitor.row now rest) := by
  have hdue := hi.due_of_read hsettled henabled
  rw [notify]
  cases hn : websiteNotice texts w.monitor.row now with
  | none =>
    refine hi.handled hsettled fun h => ?_
    exact websiteNotice_of_marked henabled h.1 (hsettled.trans h.2) hn
  | some n =>
    refine ⟨hi.retired, hi.alternating, hi.sent, hi.upSince, hi.recovered, ?_⟩
    show Due texts w.monitor w.completed w.monitor.row n
    rcases websiteNotice_cases hn with ⟨hturn, hdown, hnone, hid⟩ | ⟨hturn, hup, hmarked, -, hid⟩
    · exact .inl ⟨hdue.1 hdown hnone, hturn, hid⟩
    · exact .inr ⟨hdue.2 hup hmarked, hturn, hid⟩

/-! ## Deliveries -/

variable {n : Notice}

variable {phase : DeliveryPhase} {call : DeliveryCall}

theorem websiteStep_delivering (hr : w.round = .delivering monitor n phase rest) :
    websiteStep texts w (.deliver call)
      = (Ledger.deliver w.row n phase call).map fun p => w.afterCall monitor n phase rest p.1 p.2 := by
  rw [websiteStep, hr]

theorem fails_of_refused {row row' : Option Row} {token : String}
    (h : Ledger.deliver row n .claiming (.claim token) = some (row', .undelivered)) :
    fails row n .claiming (.claim token) = true := by
  have hresult : DeliveryResult.ofClaim
      (claimRow (row.getD (freshRow n.eventId n.time)) n.eventId n.time 0 token).2 = .undelivered :=
    (Prod.mk.inj (Option.some.inj h)).2
  cases row with
  | none =>
    rw [Option.getD_none, claimRow_fresh] at hresult
    simp [DeliveryResult.ofClaim] at hresult
  | some r =>
    rw [Option.getD_some] at hresult
    rw [fails, Option.any_some, Bool.or_eq_true, decide_eq_true_eq]
    by_contra hready
    rw [not_or, Bool.not_eq_true] at hready
    obtain ⟨hidle, hpause⟩ := hready
    rw [claimRow, if_neg (by simp [hidle])] at hresult
    split at hresult
    · rename_i hown
      split at hresult
      · simp [DeliveryResult.ofClaim] at hresult
      · rename_i hunsent
        have hstatus : r.status ≠ .sent := fun hsent => hunsent ⟨hsent, Int.le_refl 0⟩
        rw [if_neg fun hlate => hpause ⟨hown.2, hstatus, hlate⟩] at hresult
        simp [DeliveryResult.ofClaim] at hresult
    · simp [DeliveryResult.ofClaim] at hresult

/-- What is recorded in its turn. -/
theorem Inv.completes {token : String} {r' : Row} (hi : w.Inv texts)
    (hdue : Due texts w.monitor w.completed monitor n) (hsent : r'.SentFor n token) :
    Inv texts (w.afterCall monitor n (.completing token true) rest (some r') (.delivered token)) where
  retired r hr := by
    cases hr
    exact hsent.2.2.2
  alternating := ⟨hdue.turn, hi.alternating⟩
  sent r hr _ := by
    cases hr
    show (∀ since, r'.eventId = _ → Turn.isOpen (n.turn :: w.completed) = true) ∧
      ∀ time, r'.eventId = _ → Turn.isOpen (n.turn :: w.completed) = false
    rw [hsent.1]
    rcases hdue with ⟨-, hturn, since, hevent⟩ | ⟨-, hturn, time, hevent⟩
    · rw [hturn, hevent]
      exact ⟨fun _ _ => rfl, fun _ hid => absurd hid (websiteDownId_ne texts _ _ _ _)⟩
    · rw [hturn, hevent]
      exact ⟨fun _ hid => absurd hid.symm (websiteDownId_ne texts _ _ _ _), fun _ _ => rfl⟩
  upSince := hi.upSince
  recovered := hi.recovered
  round := by
    show Marking w.monitor (n.turn :: w.completed) monitor n
    rcases hdue with ⟨halert, hturn, -⟩ | ⟨hrecovery, hturn, -⟩
    · exact .inl ⟨hturn, halert.down, halert.unmarked, by rw [hturn]; rfl⟩
    · exact .inr ⟨hturn, hrecovery.up, hrecovery.upSince, hrecovery.kept, by rw [hturn]; rfl⟩

/-- A row that is not delivered says nothing about the record. -/
theorem Inv.withUnsent {r' : Row} {round : WebsiteRound} (hi : w.Inv texts) (hstatus : r'.status ≠ .sent)
    (hretired : r'.retiredAt = none)
    (hround : RoundInv texts w.monitor (some r') w.completed round) :
    Inv texts { w with row := some r', round := round } where
  retired r hr := by
    cases hr
    exact hretired
  alternating := hi.alternating
  sent r hr hsent := by
    cases hr
    exact absurd hsent hstatus
  upSince := hi.upSince
  recovered := hi.recovered
  round := hround

/-- The notice under way, and the row that its delivery holds. -/
theorem Inv.held (hi : w.Inv texts) (hr : w.round = .delivering monitor n phase rest) :
    Due texts w.monitor w.completed monitor n ∧
    ∀ token, (phase = .sending token ∨ ∃ sent, phase = .completing token sent) →
      ∃ r, w.row = some r ∧ r.HeldFor n token := by
  have hround := hi.round
  rw [hr] at hround
  cases phase with
  | claiming => exact ⟨hround, fun token h => by simp at h⟩
  | sending token =>
    refine ⟨hround.1, fun token' h => ?_⟩
    obtain rfl : token = token' := by simpa using h
    exact hround.2
  | completing token sent =>
    refine ⟨hround.1, fun token' h => ?_⟩
    obtain rfl : token = token' := by simpa using h
    exact hround.2

variable {w' : WebsiteWorld}

/-- **A call of a delivery keeps the invariant.** -/
theorem Inv.deliver (hi : w.Inv texts) (hmeets : w.meets (.deliver call) = true)
    (h : websiteStep texts w (.deliver call) = some w') : w'.Inv texts := by
  cases hr : w.round with
  | delivering monitor n phase rest =>
    rw [websiteStep_delivering hr] at h
    obtain ⟨⟨row, result⟩, hdeliver, rfl⟩ := Option.map_eq_some_iff.mp h
    obtain ⟨hdue, hheld⟩ := hi.held hr
    -- a delivery that fails finds the mark of its recovery
    have hmark : fails w.row n phase call = true →
        n.turn = .opens ∨ w.monitor.row.health.lastNotifiedAt.isSome = true := by
      intro hfails
      rw [meets, hr] at hmeets
      simpa [hfails] using hmeets
    cases deliver_cases hi.retired hdeliver with
    | refused token r hrow hsent =>
      refine ⟨hi.retired, hi.alternating, hi.sent, hi.upSince, hi.recovered, ?_⟩
      exact hdue.settled (hmark (fails_of_refused hdeliver))
    | already token credential r r' hrow hsent hevent hsent' =>
      exact absurd hevent (hdue.unsent hi.sent r hrow hsent)
    | granted token r' hgranted hnew =>
      exact hi.withUnsent (by simp [hgranted.2.2.1]) hgranted.2.2.2 ⟨hdue, r', rfl, hgranted⟩
    | sent token ok =>
      exact ⟨hi.retired, hi.alternating, hi.sent, hi.upSince, hi.recovered, hdue, hheld token (.inl rfl)⟩
    | success token r r' hrow hheldFor hsent => exact hi.completes hdue hsent
    | failure token r r' hrow hheldFor hfailed hretired =>
      exact hi.withUnsent (by simp [hfailed]) hretired (hdue.settled (hmark rfl))
    | lost token sent hlost =>
      -- nobody else claims the key of the round
      obtain ⟨r, hrow, hheldFor⟩ := hheld token (.inr ⟨sent, rfl⟩)
      exact absurd hheldFor (hlost r hrow)
  | _ => simp [websiteStep, hr] at h

/-! ## Marks -/

/-- **A mark keeps the invariant**: that of an alert applies, and that of a recovery applies unless
    there is no mark any more. -/
theorem Inv.mark (hi : w.Inv texts) (hmeets : w.meets .mark = true)
    (h : websiteStep texts w .mark = some w') : w'.Inv texts := by
  cases hr : w.round with
  | marking monitor n rest =>
    have hmarking : Marking w.monitor w.completed monitor n := by
      have hround := hi.round
      rw [hr] at hround
      exact hround
    have hexpected : n.turn = .closes ∨ w.monitor.expectedNow (expectation monitor) = true := by
      rw [meets, hr] at hmeets
      simpa using hmeets
    rw [websiteStep, hr] at h
    cases h
    have hkeeps := mark_keeps w.monitor monitor n.websiteMark
    refine ⟨hi.retired, hi.alternating, ?_, ?_, ?_, hmarking.settled hexpected⟩
    · show SentInv texts (w.monitor.markWebsiteMonitorNotified _ _) w.row w.completed
      rw [SentInv, hkeeps.1]
      exact hi.sent
    · show (w.monitor.markWebsiteMonitorNotified _ _).row.health.status = .up →
        (w.monitor.markWebsiteMonitorNotified _ _).row.health.downSince = none
      rw [hkeeps.2.1, hkeeps.2.2]
      exact hi.upSince
    · have hrecovered : ¬ (monitor.health.status = .up ∧ Turn.isOpen w.completed = true) := by
        rintro ⟨hup, hopen⟩
        rcases hmarking with ⟨-, hdown, -⟩ | ⟨-, -, -, -, hclosed⟩
        · cases hdown.symm.trans hup
        · cases hclosed.symm.trans hopen
      show w.unrecovered + (if monitor.health.status = .up ∧ Turn.isOpen w.completed = true then 1 else 0) = 0
      rw [if_neg hrecovered]
      exact hi.recovered
  | _ => simp [websiteStep, hr] at h

/-- **A probe keeps the invariant**: its check, and the notice of what it records. -/
theorem Inv.probe {input : CheckInput} (hi : w.Inv texts) {checkedNow : Int}
    (hr : w.round = .probing now rest) (hmeets : w.meets (.probe input checkedNow) = true)
    (h : websiteStep texts w (.probe input checkedNow) = some w') : w'.Inv texts := by
  have hround := hi.round
  rw [hr] at hround
  obtain ⟨he, hrow⟩ := check_effect w.monitor (workerCheck input) checkedNow
  have hclears : clearsMark w.monitor (workerCheck input) checkedNow = false := by
    simpa [meets] using hmeets
  rw [hclears] at he
  have hsettled : Settled (w.monitor.recordWebsiteCheck (workerCheck input) checkedNow).1 w.completed :=
    Settled.check hround he
  have hrecorded : ∀ round, RoundInv texts (w.monitor.recordWebsiteCheck (workerCheck input) checkedNow).1
      w.row w.completed round → Inv texts { w with
        monitor := (w.monitor.recordWebsiteCheck (workerCheck input) checkedNow).1, round := round } :=
    fun round hround => ⟨hi.retired, hi.alternating, hi.sent.check he, he.upSince hi.upSince, hi.recovered,
      hround⟩
  rw [websiteStep, hr] at h
  dsimp only at h
  split at h
  · obtain rfl := Option.some.inj h
    exact hrecorded _ hsettled
  · rename_i monitor hreturned
    obtain ⟨rfl, henabled⟩ := hrow monitor hreturned
    obtain rfl := Option.some.inj h
    exact Inv.notify_recorded (hrecorded (.probing now rest) hsettled) hsettled henabled

/-- **Every step that meets the condition keeps the invariant.** -/
theorem Inv.step {w' : WebsiteWorld} {e : WebsiteStep} (hi : w.Inv texts) (hmeets : w.meets e = true)
    (h : websiteStep texts w e = some w') : w'.Inv texts := by
  have hmove : ∀ round, RoundInv texts w.monitor w.row w.completed round →
      Inv texts { w with round := round } :=
    fun round hround => ⟨hi.retired, hi.alternating, hi.sent, hi.upSince, hi.recovered, hround⟩
  have hround := hi.round
  cases e with
  | check input now =>
    cases h
    exact hi.check hmeets
  | begin now notificationsFirst =>
    cases hr : w.round with
    | between =>
      rw [hr] at hround
      rw [websiteStep, hr] at h
      cases h
      exact hmove _ hround
    | phase | listed | probing | delivering | marking => simp [websiteStep, hr] at h
  | read selected =>
    cases hr : w.round with
    | phase now phases =>
      rw [hr] at hround
      rw [websiteStep, hr] at h
      cases phases with
      | nil => cases h
      | cons phase rest =>
        cases phase with
        | notifications =>
          dsimp only at h
          split at h
          · split at h
            · rename_i hpending
              cases h
              simp only [isPending, Bool.and_eq_true, Bool.or_eq_true, decide_eq_true_eq,
                Option.isNone_iff_eq_none] at hpending
              have hdue := hi.due_of_read hround hpending.1
              exact hmove _ (hpending.2.imp (fun hdown => hdue.1 hdown.1.1 hdown.1.2)
                fun hup => hdue.2 hup.1 hup.2)
            · cases h
          · cases h
            exact hmove _ hround
        | probes =>
          dsimp only at h
          split at h
          · split at h
            · cases h
              exact hmove _ hround
            · cases h
          · cases h
            exact hmove _ hround
    | between | listed | probing | delivering | marking => simp [websiteStep, hr] at h
  | probe input now =>
    cases hr : w.round with
    | probing roundNow rest =>
      rw [hr] at hround
      exact hi.probe hr hmeets h
    | between | phase | listed | delivering | marking => simp [websiteStep, hr] at h
  | handle =>
    cases hr : w.round with
    | listed monitor now rest =>
      rw [hr] at hround
      rw [websiteStep, hr] at h
      cases h
      exact hi.notify_listed hround
    | between | phase | probing | delivering | marking => simp [websiteStep, hr] at h
  | deliver call => exact hi.deliver hmeets h
  | mark => exact hi.mark hmeets h
  | finish =>
    cases hr : w.round with
    | phase now phases =>
      rw [hr] at hround
      rw [websiteStep, hr] at h
      cases phases with
      | nil =>
        cases h
        exact hmove _ hround
      | cons phase rest => cases h
    | between | listed | probing | delivering | marking => simp [websiteStep, hr] at h

end WebsiteWorld

/-! ## Runs -/

/-- What a run reaches whose steps meet the condition. -/
theorem website_inv {es : List WebsiteStep} {start : WebsiteWorld} (hstart : start.Begins texts)
    (hmeets : (websiteMachine texts).Along (fun w e _ => w.meets e = true) start es)
    (hrun : (websiteMachine texts).run start es = some w) : w.Inv texts :=
  (websiteMachine texts).run_inv_along (fun _ _ _ hi hm hs => hi.step hm hs) es _ _ hstart.inv hmeets hrun

/-- **Website alerts and recoveries alternate** along a run in which no alert is forgotten, and whenever
    the monitor is handled as up without a failed delivery, no alert is left without its recovery. -/
theorem website_notices_alternate (texts : WebsiteTexts) (start w : WebsiteWorld) (es : List WebsiteStep)
    (hstart : start.Begins texts)
    (hmeets : (websiteMachine texts).Along (fun w e _ => w.meets e = true) start es)
    (hrun : (websiteMachine texts).run start es = some w) :
    (w.completed.IsChain (· ≠ ·) ∧ ∀ turn ∈ w.completed.getLast?, turn = .opens) ∧ w.unrecovered = 0 :=
  have hi := website_inv hstart hmeets hrun
  ⟨(Turn.alternating_iff w.completed).mp hi.alternating, hi.recovered⟩

/-! ## A delivered alert without its mark -/

/-- Texts of the times in microseconds since the epoch. -/
def shownTexts : WebsiteTexts := ⟨Nat.repr, Int.repr⟩

/-- A site that a node probes, and a worker where the node has no success. -/
def shownConfig : Website.MonitorConfig where
  url := "https://example.com"
  method := "GET"
  expectedStatusMin := 200
  expectedStatusMax := 399
  intervalSec := 60
  timeoutSec := 10
  gracePeriodSec := 30
  enabled := true
  agentProbeMode := .selected
  agentProbeClients := ["node"]
  agentProbeLimit := 3
  agentProbeStatusEnabled := true

/-- The site has just been created. -/
def shownSite : WebsiteWorld where
  monitor := MonitorState.created 0 "Site" false false shownConfig
  row := none
  round := .between
  completed := []
  unrecovered := 0

/-- What a check at some second says. -/
def checkAt (second : Int) (ok : Bool) : CheckInput where
  configRevision := some 0
  checkedAt := some (second * 1000000)
  ok := some ok
  effectiveStatus := some (if ok then "up" else "down")
  effectiveReason := none
  statusCode := none
  rawStatusCode := none
  latencyMs := none
  error := none
  sourceType := none
  sourceClient := none

/-- A round that probes at some second and has a notice to deliver: the notice, up to the mark. -/
def probingRound (second : Int) (ok : Bool) (token : String) : List WebsiteStep :=
  [.begin (second * 1000) false, .read true, .probe (checkAt second ok) (second * 1000000),
    .deliver (.claim token), .deliver (.send true), .deliver .complete]

/-- The rest of the round: nothing is pending. -/
def restOfRound : List WebsiteStep := [.mark, .read false, .finish]

/-- The first failure, before the grace period is over. -/
def firstFailure : List WebsiteStep :=
  [.begin 100000 false, .read true, .probe (checkAt 100 false) 100000000, .read false, .finish]

/-- An outage with its alert and its recovery. -/
def markedOutage : List WebsiteStep :=
  firstFailure ++ probingRound 160 false "a" ++ restOfRound ++ probingRound 220 true "b" ++ restOfRound

/-- What the node reports at some second. -/
def nodeCheckAt (second : Int) (ok : Bool) : CheckInput :=
  { checkAt second ok with sourceType := some "agent", sourceClient := some "node" }

/-- The node reports the site up while the alert is sent; later a probe finds it up as well. -/
def flappingSite : List WebsiteStep :=
  firstFailure ++ probingRound 160 false "a" ++ [.check (nodeCheckAt 161 true) 161000000] ++ restOfRound ++
  [.begin 400000 false, .read true, .probe (checkAt 400 true) 400000000]

theorem shownSite_begins : shownSite.Begins shownTexts where
  unmarked := rfl
  upSince h := absurd h (by decide)
  retired r h := absurd h (by simp [shownSite])
  other r h := absurd h (by simp [shownSite])
  between := rfl
  completed := rfl
  unrecovered := rfl

/-- An outage that is told and recovered from. -/
theorem marked_outage_alternates : ∃ w, (websiteMachine shownTexts).run shownSite markedOutage = some w ∧
      w.completed = [.closes, .opens] ∧
      (w.completed.IsChain (· ≠ ·) ∧ ∀ turn ∈ w.completed.getLast?, turn = .opens) ∧ w.unrecovered = 0 := by
  have hcompleted : ((websiteMachine shownTexts).run shownSite markedOutage).map (·.completed)
      = some [.closes, .opens] := by decide +kernel
  obtain ⟨w, hrun, hw⟩ := Option.map_eq_some_iff.mp hcompleted
  exact ⟨w, hrun, hw, website_notices_alternate shownTexts shownSite w markedOutage shownSite_begins
    (by decide +kernel) hrun⟩

/-- An alert whose recovery is never told. -/
theorem flapping_site_forgotten : ¬ ∀ (texts : WebsiteTexts) (start w : WebsiteWorld)
    (es : List WebsiteStep), start.Begins texts → (websiteMachine texts).run start es = some w →
      (w.completed.IsChain (· ≠ ·) ∧ ∀ turn ∈ w.completed.getLast?, turn = .opens) ∧
      w.unrecovered = 0 := by
  intro h
  have hcounted : ((websiteMachine shownTexts).run shownSite flappingSite).map
      (fun w => (w.completed, w.unrecovered)) = some ([.opens], 1) := by decide +kernel
  obtain ⟨w, hrun, hw⟩ := Option.map_eq_some_iff.mp hcounted
  obtain ⟨-, hrecovered⟩ := h shownTexts shownSite w flappingSite shownSite_begins hrun
  exact absurd ((congrArg Prod.snd hw).symm.trans hrecovered) (by decide)

end CfMonitor.Ledger
