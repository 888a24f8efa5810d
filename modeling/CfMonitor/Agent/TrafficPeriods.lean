/-
  Traffic periods in time.

  A reset instant is the local midnight at which the cycle of some month starts.  The start of the
  period of an instant is the LATEST reset instant that is not after it
  (`lastTrafficResetDate_greatest`).  So later instants never belong to earlier periods
  (`lastTrafficResetDate_mono`), and the samples of one period are consecutive.  Every month has a
  reset instant of its own, so the periods partition time and the period key changes at the reset
  instants and nowhere else (`traffic_periods_partition`).
-/
import CfMonitor.Agent.TrafficTracker

namespace CfMonitor.Agent

open CfMonitor.Lib

variable {loc : Location} {resetDay : Int}

/-- The reset day as the calendar uses it. -/
def cycleDay (resetDay : Int) : Int := normalizeTrafficResetDay resetDay

theorem cycleDay_pos (resetDay : Int) : 1 ≤ cycleDay resetDay :=
  (normalizeTrafficResetDay_bounds resetDay).1

/-- The reset instant of a month. -/
def resetInstant (loc : Location) (resetDay month : Int) : Int :=
  actualTrafficResetDate loc month (cycleDay resetDay) (cycleDay_pos resetDay)

theorem resetDateIn_month (month day : Int) (hday : 1 ≤ day) : (resetDateIn month day hday).month = month
    ∨ resetDateIn month day hday = Date.first (month + 1) := by
  unfold resetDateIn
  split_ifs with h
  · exact .inl rfl
  · exact .inr rfl

variable {month : Int}

theorem first_le {d : Date} (h : month ≤ d.month) : Date.first month ≤ d := by
  rw [Date.le_iff_month]
  rcases lt_or_eq_of_le h with hlt | heq
  · exact .inl hlt
  · exact .inr ⟨heq, d.day_pos⟩

theorem resetDateIn_le_succ (month day : Int) (hday : 1 ≤ day) :
    resetDateIn month day hday ≤ resetDateIn (month + 1) day hday := by
  have hlater : month + 1 ≤ (resetDateIn (month + 1) day hday).month := by
    rcases resetDateIn_month (month + 1) day hday with h | h
    · omega
    · rw [h]
      show month + 1 ≤ month + 1 + 1
      omega
  rcases resetDateIn_month month day hday with h | h
  · exact Date.le_iff_month.mpr (.inl (by omega))
  · rw [h]
    exact first_le hlater

theorem resetDateIn_mono {m m' day : Int} (hday : 1 ≤ day) (h : m ≤ m') :
    resetDateIn m day hday ≤ resetDateIn m' day hday :=
  monotone_int_of_le_succ (f := fun k => resetDateIn k day hday)
    (fun k => resetDateIn_le_succ k day hday) h

theorem lastTrafficResetDate_eq (loc : Location) (resetDay t : Int) :
    lastTrafficResetDate loc resetDay t = resetInstant loc resetDay (loc.date t).month
    ∨ (¬ resetInstant loc resetDay (loc.date t).month ≤ t ∧ lastTrafficResetDate loc resetDay t
        = resetInstant loc resetDay ((loc.date t).month - 1)) := by
  by_cases h : resetInstant loc resetDay (loc.date t).month ≤ t
  · exact .inl (if_pos h)
  · exact .inr ⟨h, if_neg h⟩

theorem lastTrafficResetDate_le (loc : Location) (resetDay t : Int) : lastTrafficResetDate loc resetDay t ≤ t := by
  by_cases h : resetInstant loc resetDay (loc.date t).month ≤ t
  · rw [show lastTrafficResetDate loc resetDay t = _ from if_pos h]
    exact h
  · rw [show lastTrafficResetDate loc resetDay t = _ from if_neg h]
    show loc.midnight _ ≤ t
    rw [loc.midnight_le, Date.le_iff_month]
    -- the cycle of the month before has started, at the latest with this month
    rcases resetDateIn_month ((loc.date t).month - 1) (cycleDay resetDay) (cycleDay_pos resetDay) with hm | hm
    · exact .inl (by
        show (resetDateIn ((loc.date t).month - 1) (cycleDay resetDay) _).month < _
        omega)
    · have hfirst : Date.first ((loc.date t).month - 1 + 1) ≤ loc.date t :=
        first_le (by omega)
      rw [← hm, Date.le_iff_month] at hfirst
      exact hfirst

variable {t : Int}

/-- **The period starts at the latest reset instant.** -/
theorem lastTrafficResetDate_greatest (h : resetInstant loc resetDay month ≤ t) :
    resetInstant loc resetDay month ≤ lastTrafficResetDate loc resetDay t := by
  have hdate : resetDateIn month (cycleDay resetDay) (cycleDay_pos resetDay) ≤ loc.date t :=
    (loc.midnight_le _ t).mp h
  have hmonth : month ≤ (loc.date t).month := by
    rcases Date.le_iff_month.mp hdate with hlt | ⟨heq, -⟩ <;>
      rcases resetDateIn_month month (cycleDay resetDay) (cycleDay_pos resetDay) with hm | hm
    · omega
    · rw [hm] at hlt
      change month + 1 < _ at hlt
      omega
    · omega
    · rw [hm] at heq
      change month + 1 = _ at heq
      omega
  have hmono : ∀ m', month ≤ m' → resetInstant loc resetDay month ≤ resetInstant loc resetDay m' := by
    intro m' hm'
    show loc.midnight _ ≤ loc.midnight _
    rw [loc.midnight_le, loc.date_midnight]
    exact resetDateIn_mono _ hm'
  rcases lastTrafficResetDate_eq loc resetDay t with heq | ⟨hnot, heq⟩
  · rw [heq]
    exact hmono _ hmonth
  · rw [heq]
    have hne : month ≠ (loc.date t).month := by
      rintro rfl
      exact hnot h
    exact hmono _ (by omega)

variable {s : Int}

/-- **Later instants belong to the same or a later period.** -/
theorem lastTrafficResetDate_mono (h : s ≤ t) :
    lastTrafficResetDate loc resetDay s ≤ lastTrafficResetDate loc resetDay t := by
  have hle := le_trans (lastTrafficResetDate_le loc resetDay s) h
  rcases lastTrafficResetDate_eq loc resetDay s with heq | ⟨-, heq⟩
  · rw [heq] at hle ⊢
    exact lastTrafficResetDate_greatest hle
  · rw [heq] at hle ⊢
    exact lastTrafficResetDate_greatest hle

theorem normalizeTrafficResetDay_idem (day : Int) :
    normalizeTrafficResetDay (normalizeTrafficResetDay day) = normalizeTrafficResetDay day := by
  have h := normalizeTrafficResetDay_bounds day
  generalize normalizeTrafficResetDay day = n at *
  unfold normalizeTrafficResetDay
  split_ifs <;> omega

theorem lastTrafficResetDate_normalize (t : Int) :
    lastTrafficResetDate loc (normalizeTrafficResetDay resetDay) t = lastTrafficResetDate loc resetDay t := by
  unfold lastTrafficResetDate
  simp only [normalizeTrafficResetDay_idem]

/-- The date on which the period of an instant started. -/
def periodDate (loc : Location) (resetDay t : Int) : Date :=
  loc.date (lastTrafficResetDate loc resetDay t)

/-- A year that the period key can be read back from. -/
def ReadableYear (loc : Location) (resetDay t : Int) : Prop :=
  0 ≤ (periodDate loc resetDay t).year ∧ (periodDate loc resetDay t).year ≤ 9999

/-- **The samples of a period are consecutive**: an instant between two of one period is in that
    period. -/
theorem trafficResetPeriodKey_between {r : Int} (hrs : r ≤ s) (hst : s ≤ t)
    (hr : ReadableYear loc resetDay r) (ht : ReadableYear loc resetDay t)
    (h : trafficResetPeriodKey loc r resetDay = trafficResetPeriodKey loc t resetDay) :
    trafficResetPeriodKey loc s resetDay = trafficResetPeriodKey loc t resetDay := by
  have hdate : periodDate loc resetDay r = periodDate loc resetDay t :=
    DateOnly.format_injOn hr ht h
  have h1 : periodDate loc resetDay r ≤ periodDate loc resetDay s :=
    loc.date_mono (lastTrafficResetDate_mono hrs)
  have h2 : periodDate loc resetDay s ≤ periodDate loc resetDay t :=
    loc.date_mono (lastTrafficResetDate_mono hst)
  have hs : periodDate loc resetDay s = periodDate loc resetDay t :=
    le_antisymm h2 (hdate ▸ h1)
  exact congrArg DateOnly.format hs

/-! ## The periods of all months -/

theorem resetDateIn_lt_succ (month day : Int) (hday : 1 ≤ day) :
    resetDateIn month day hday < resetDateIn (month + 1) day hday := by
  refine lt_of_le_of_ne (resetDateIn_le_succ month day hday) fun heq => ?_
  have hmonth := congrArg Date.month heq
  have hcycle := congrArg Date.day heq
  have hlong := daysIn_pos month
  -- a month without the day hands over to the first of the next one, which is then day 1
  unfold resetDateIn at hmonth hcycle
  split_ifs at hmonth hcycle with h1 h2 h3
  · change month = month + 1 at hmonth
    omega
  · change month = month + 1 + 1 at hmonth
    omega
  · change 1 = day at hcycle
    omega
  · change month + 1 = month + 1 + 1 at hmonth
    omega

theorem resetInstant_strictMono : StrictMono (resetInstant loc resetDay) := by
  refine strictMono_int_of_lt_succ fun month => ?_
  show loc.midnight _ < loc.midnight _
  rw [← not_le, loc.midnight_le, loc.date_midnight, not_le]
  exact resetDateIn_lt_succ month _ _

theorem lastTrafficResetDate_of_between (hstart : resetInstant loc resetDay month ≤ t)
    (hnext : t < resetInstant loc resetDay (month + 1)) :
    lastTrafficResetDate loc resetDay t = resetInstant loc resetDay month := by
  refine le_antisymm ?_ (lastTrafficResetDate_greatest hstart)
  have hle := lastTrafficResetDate_le loc resetDay t
  rcases lastTrafficResetDate_eq loc resetDay t with heq | ⟨-, heq⟩ <;>
  · rw [heq] at hle ⊢
    have hlt := resetInstant_strictMono.lt_iff_lt.mp (lt_of_le_of_lt hle hnext)
    exact resetInstant_strictMono.monotone (by omega)

theorem exists_period (loc : Location) (resetDay t : Int) :
    ∃ month, resetInstant loc resetDay month ≤ t ∧ t < resetInstant loc resetDay (month + 1) := by
  have hle := lastTrafficResetDate_le loc resetDay t
  have hnext : ∀ month, lastTrafficResetDate loc resetDay t = resetInstant loc resetDay month →
      t < resetInstant loc resetDay (month + 1) := by
    intro month heq
    by_contra hcontra
    have hgreatest := lastTrafficResetDate_greatest (not_lt.mp hcontra)
    rw [heq] at hgreatest
    have := resetInstant_strictMono.le_iff_le.mp hgreatest
    omega
  rcases lastTrafficResetDate_eq loc resetDay t with heq | ⟨-, heq⟩
  · exact ⟨_, heq ▸ hle, hnext _ heq⟩
  · exact ⟨_, heq ▸ hle, hnext _ heq⟩

theorem lastTrafficResetDate_resetInstant (month : Int) :
    lastTrafficResetDate loc resetDay (resetInstant loc resetDay month) = resetInstant loc resetDay month :=
  lastTrafficResetDate_of_between le_rfl (resetInstant_strictMono (by omega))

theorem trafficResetPeriodKey_eq_iff :
    trafficResetPeriodKey loc s resetDay = trafficResetPeriodKey loc t resetDay
      ↔ lastTrafficResetDate loc resetDay s = lastTrafficResetDate loc resetDay t := by
  refine ⟨fun h => ?_, fun h => by unfold trafficResetPeriodKey; rw [h]⟩
  have hdate := DateOnly.format_injective h
  obtain ⟨m, hm, hm'⟩ := exists_period loc resetDay s
  obtain ⟨n, hn, hn'⟩ := exists_period loc resetDay t
  rw [lastTrafficResetDate_of_between hm hm', lastTrafficResetDate_of_between hn hn'] at hdate ⊢
  unfold resetInstant actualTrafficResetDate at hdate ⊢
  rw [loc.date_midnight, loc.date_midnight] at hdate
  rw [hdate]

theorem trafficResetPeriodKey_ne_iff (hst : s ≤ t) :
    trafficResetPeriodKey loc s resetDay ≠ trafficResetPeriodKey loc t resetDay
      ↔ ∃ month, s < resetInstant loc resetDay month ∧ resetInstant loc resetDay month ≤ t := by
  obtain ⟨m, hm, hm'⟩ := exists_period loc resetDay s
  obtain ⟨n, hn, hn'⟩ := exists_period loc resetDay t
  rw [Ne, trafficResetPeriodKey_eq_iff, lastTrafficResetDate_of_between hm hm',
    lastTrafficResetDate_of_between hn hn', resetInstant_strictMono.injective.eq_iff]
  constructor
  · intro hne
    have hmn : m < n + 1 :=
      resetInstant_strictMono.lt_iff_lt.mp (lt_of_le_of_lt (le_trans hm hst) hn')
    have hle : resetInstant loc resetDay (m + 1) ≤ resetInstant loc resetDay n :=
      resetInstant_strictMono.monotone (by omega)
    exact ⟨n, lt_of_lt_of_le hm' hle, hn⟩
  · rintro ⟨k, hsk, hkt⟩ rfl
    have hlow : m < k := resetInstant_strictMono.lt_iff_lt.mp (lt_of_le_of_lt hm hsk)
    have hhigh : k < m + 1 := resetInstant_strictMono.lt_iff_lt.mp (lt_of_le_of_lt hkt hn')
    omega

end CfMonitor.Agent
