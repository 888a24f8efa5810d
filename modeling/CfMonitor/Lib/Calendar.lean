/-
  The proleptic Gregorian calendar, instants, and locations.

  Data
    * A MONTH is an integer: twelve times the year plus the month of the year, January being 0.
      Month arithmetic (`month + 1`, `AddDate(0, -1, 0)`) is then integer arithmetic.
    * A `Date` is a month together with a day that exists in it.  The 30th of February cannot be
      built.
    * An instant is an integer number of nanoseconds since the Unix epoch.
    * A `Location` reads the civil date of an instant and gives the instant at which a date
      begins.  Its two laws say that these belong together: a date has begun at `t` exactly when
      it is not after the date of `t`, and the date of a midnight is the date it begins.
      Every fixed offset satisfies them (`Location.fixed`).  A zone that skips a local midnight,
      or shows one twice, does not.

  The day count follows the usual trick: years start in March, so that the leap day is the last
  day of its year and the months before it have the regular lengths of `(153 * k + 2) / 5`.
-/
import Mathlib.Data.Int.ConditionallyCompleteOrder
import Mathlib.Order.Monotone.Basic
import Mathlib.Order.Basic
import Mathlib.Tactic.Common
import Mathlib.Tactic.IntervalCases

namespace CfMonitor.Lib

/-! ## Months -/

/-- The year of a month. -/
def yearOf (m : Int) : Int := m / 12

/-- The month of the year, January being 1. -/
def monthOfYear (m : Int) : Int := m % 12 + 1

/-- The Gregorian leap year rule. -/
def isLeap (y : Int) : Bool := y % 4 == 0 && (y % 100 != 0 || y % 400 == 0)

/-- Number of days in a month. -/
def daysIn (m : Int) : Int :=
  if monthOfYear m = 2 then (if isLeap (yearOf m) then 29 else 28)
  else if monthOfYear m = 4 ∨ monthOfYear m = 6 ∨ monthOfYear m = 9 ∨ monthOfYear m = 11 then 30
  else 31

/-- Days before the first of March of year `y`, counted from the first of March of year 0. -/
def daysBeforeYear (y : Int) : Int := 365 * y + y / 4 - y / 100 + y / 400

/-- Days before the first day of the month `m`, counted from the first of March of year 0. -/
def daysBeforeMonth (m : Int) : Int :=
  daysBeforeYear ((m - 2) / 12) + (153 * ((m - 2) % 12) + 2) / 5

theorem isLeap_iff (y : Int) : isLeap y = true ↔ y % 4 = 0 ∧ (y % 100 ≠ 0 ∨ y % 400 = 0) := by
  simp [isLeap]

theorem daysIn_pos (m : Int) : 28 ≤ daysIn m ∧ daysIn m ≤ 31 := by
  unfold daysIn
  split_ifs <;> omega

theorem daysBeforeYear_succ (y : Int) :
    daysBeforeYear (y + 1) = daysBeforeYear y + (if isLeap (y + 1) then 366 else 365) := by
  unfold daysBeforeYear
  by_cases h : isLeap (y + 1) = true
  · rw [if_pos h]
    rw [isLeap_iff] at h
    omega
  · rw [if_neg h]
    rw [isLeap_iff] at h
    omega

/-- **The day count advances by the length of the month.** -/
theorem daysBeforeMonth_succ (m : Int) : daysBeforeMonth (m + 1) = daysBeforeMonth m + daysIn m := by
  have hk : 0 ≤ (m - 2) % 12 ∧ (m - 2) % 12 < 12 := by omega
  unfold daysBeforeMonth daysIn monthOfYear yearOf
  obtain ⟨h0, h12⟩ := hk
  by_cases hfeb : (m - 2) % 12 = 11
  · -- February closes the year of the day count
    have hy : (m + 1 - 2) / 12 = (m - 2) / 12 + 1 := by omega
    have hm : (m + 1 - 2) % 12 = 0 := by omega
    have hm2 : m % 12 + 1 = 2 := by omega
    have hyear : m / 12 = (m - 2) / 12 + 1 := by omega
    rw [hy, hm, hfeb, daysBeforeYear_succ, if_pos hm2, hyear]
    split_ifs <;> omega
  · have hy : (m + 1 - 2) / 12 = (m - 2) / 12 := by omega
    have hm : (m + 1 - 2) % 12 = (m - 2) % 12 + 1 := by omega
    have hm2 : ¬ m % 12 + 1 = 2 := by omega
    rw [hy, hm, if_neg hm2]
    -- eleven months remain; in each of them the lengths are numerals
    have hlt : (m - 2) % 12 < 11 := by omega
    interval_cases hmon : (m - 2) % 12 <;> split_ifs with h30 <;> omega

theorem daysBeforeMonth_strictMono : StrictMono daysBeforeMonth := by
  refine strictMono_int_of_lt_succ fun m => ?_
  have h := daysBeforeMonth_succ m
  have hpos := daysIn_pos m
  omega

/-! ## Dates -/

/-- A calendar date: a month and a day that exists in it. -/
@[ext] structure Date where
  /-- Twelve times the year, plus the month of the year counted from 0. -/
  month : Int
  /-- The day of the month. -/
  day : Int
  day_pos : 1 ≤ day
  day_le : day ≤ daysIn month
  deriving DecidableEq

namespace Date

/-- The year of a date. -/
def year (d : Date) : Int := yearOf d.month

/-- Days from the first of March of year 0 to a date. -/
def dayNumber (d : Date) : Int := daysBeforeMonth d.month + (d.day - 1)

/-- The first day of a month. -/
def first (m : Int) : Date := ⟨m, 1, by omega, by have := daysIn_pos m; omega⟩

variable {d e : Date}

theorem dayNumber_lt_of_month (h : d.month < e.month) : d.dayNumber < e.dayNumber := by
  have hs := daysBeforeMonth_succ d.month
  have hm := daysBeforeMonth_strictMono.monotone (show d.month + 1 ≤ e.month by omega)
  have hd := d.day_le
  have he := e.day_pos
  unfold dayNumber
  omega

theorem dayNumber_injective : Function.Injective dayNumber := by
  intro d e h
  have hm : d.month = e.month := by
    rcases lt_trichotomy d.month e.month with hlt | heq | hgt
    · exact absurd (dayNumber_lt_of_month hlt) (by omega)
    · exact heq
    · exact absurd (dayNumber_lt_of_month hgt) (by omega)
  refine Date.ext hm ?_
  unfold dayNumber at h
  rw [hm] at h
  omega

/-- Dates are ordered by their day count. -/
instance : LinearOrder Date := LinearOrder.lift' dayNumber dayNumber_injective

theorem le_iff : d ≤ e ↔ d.dayNumber ≤ e.dayNumber := Iff.rfl

theorem le_iff_month : d ≤ e ↔ d.month < e.month ∨ (d.month = e.month ∧ d.day ≤ e.day) := by
  rw [le_iff]
  rcases lt_trichotomy d.month e.month with hlt | heq | hgt
  · have := dayNumber_lt_of_month hlt
    omega
  · unfold dayNumber
    rw [heq]
    omega
  · have := dayNumber_lt_of_month hgt
    omega

end Date

/-! ## From a day count back to a date -/

/-- The March-based year a day falls in: an estimate from the mean length of a year, corrected
    by at most one. -/
def yearOfDay (n : Int) : Int :=
  let y := 400 * n / 146097
  if n < daysBeforeYear y then y - 1
  else if daysBeforeYear (y + 1) ≤ n then y + 1
  else y

theorem yearOfDay_spec (n : Int) :
    daysBeforeYear (yearOfDay n) ≤ n ∧ n < daysBeforeYear (yearOfDay n + 1) := by
  unfold yearOfDay
  simp only
  split_ifs with h1 h2
  · unfold daysBeforeYear at *
    omega
  · unfold daysBeforeYear at *
    omega
  · omega

/-- The month a day falls in. -/
def monthOfDay (n : Int) : Int :=
  let y := yearOfDay n
  12 * y + (5 * (n - daysBeforeYear y) + 2) / 153 + 2

theorem monthOfDay_spec (n : Int) :
    daysBeforeMonth (monthOfDay n) ≤ n ∧ n < daysBeforeMonth (monthOfDay n + 1) := by
  obtain ⟨hlo, hhi⟩ := yearOfDay_spec n
  have hlen := daysBeforeYear_succ (yearOfDay n)
  unfold monthOfDay
  simp only
  generalize hy : yearOfDay n = y at *
  generalize hr : n - daysBeforeYear y = r
  have hr0 : 0 ≤ r := by omega
  have hr1 : r ≤ 365 := by
    split_ifs at hlen <;> omega
  generalize hk : (5 * r + 2) / 153 = k
  have hk0 : 0 ≤ k := by omega
  have hk1 : k ≤ 11 := by omega
  have hyk : (12 * y + k + 2 - 2) / 12 = y := by omega
  have hmk : (12 * y + k + 2 - 2) % 12 = k := by omega
  constructor
  · unfold daysBeforeMonth
    rw [hyk, hmk]
    omega
  · unfold daysBeforeMonth
    by_cases h11 : k = 11
    · have hyk' : (12 * y + k + 2 + 1 - 2) / 12 = y + 1 := by omega
      have hmk' : (12 * y + k + 2 + 1 - 2) % 12 = 0 := by omega
      rw [hyk', hmk']
      omega
    · have hyk' : (12 * y + k + 2 + 1 - 2) / 12 = y := by omega
      have hmk' : (12 * y + k + 2 + 1 - 2) % 12 = k + 1 := by omega
      rw [hyk', hmk']
      omega

/-- The date of a day count. -/
def Date.ofDayNumber (n : Int) : Date where
  month := monthOfDay n
  day := n - daysBeforeMonth (monthOfDay n) + 1
  day_pos := by have := monthOfDay_spec n; omega
  day_le := by
    have h := monthOfDay_spec n
    have hs := daysBeforeMonth_succ (monthOfDay n)
    omega

@[simp] theorem Date.dayNumber_ofDayNumber (n : Int) : (Date.ofDayNumber n).dayNumber = n := by
  unfold Date.dayNumber Date.ofDayNumber
  simp only
  omega

@[simp] theorem Date.ofDayNumber_dayNumber (d : Date) : Date.ofDayNumber d.dayNumber = d :=
  Date.dayNumber_injective (by simp)

/-! ## Instants and locations -/

namespace Instant

/-- Nanoseconds in a second. -/
def second : Int := 1000000000

/-- Nanoseconds in a day. -/
def dayLength : Int := 86400 * second

/-- The zero value of an instant: the first of January of year 1, midnight UTC. -/
def zero : Int := -62135596800 * second

/-- Is this the zero value? -/
def isZero (t : Int) : Bool := t == zero

/-- Whole seconds since the Unix epoch. -/
def unix (t : Int) : Int := t / second

end Instant

/-- The day count of the first of January 1970. -/
def epochDay : Int := 719468

/-- A place with a calendar: `date` reads the civil date of an instant, `midnight` is the instant
    at which a date begins. -/
structure Location where
  date : Int → Date
  midnight : Date → Int
  /-- A date has begun exactly when it is not after the present one. -/
  midnight_le : ∀ d t, midnight d ≤ t ↔ d ≤ date t
  /-- Midnight belongs to the date that it begins. -/
  date_midnight : ∀ d, date (midnight d) = d

namespace Location

attribute [simp] date_midnight

theorem date_mono (loc : Location) : Monotone loc.date := by
  intro s t hst
  rw [← loc.midnight_le]
  exact le_trans ((loc.midnight_le (loc.date s) s).mpr le_rfl) hst

/-- A zone at a fixed offset, in nanoseconds east of UTC. -/
def fixed (offset : Int) : Location where
  date t := Date.ofDayNumber ((t + offset) / Instant.dayLength + epochDay)
  midnight d := (d.dayNumber - epochDay) * Instant.dayLength - offset
  midnight_le := by
    intro d t
    rw [Date.le_iff, Date.dayNumber_ofDayNumber]
    unfold Instant.dayLength Instant.second
    constructor <;> intro h <;> omega
  date_midnight := by
    intro d
    have h : ((d.dayNumber - epochDay) * Instant.dayLength - offset + offset)
        / Instant.dayLength + epochDay = d.dayNumber := by
      unfold Instant.dayLength Instant.second
      omega
    rw [h, Date.ofDayNumber_dayNumber]

/-- Coordinated universal time. -/
def utc : Location := fixed 0

end Location

/-- The day count starts where it should: the epoch is the first of January 1970. -/
example : Date.ofDayNumber epochDay = Date.first (12 * 1970) := by decide

end CfMonitor.Lib
