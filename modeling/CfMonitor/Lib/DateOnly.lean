/-
  The `2006-01-02` layout: writing a date and reading it back.

  The writer pads the year to four digits and puts a sign before a negative one.  The reader wants
  exactly four, two and two digits, a month from 1 to 12 and a day that exists in that month; it
  accepts no sign and no further text.  So reading inverts writing for the years 0 to 9999
  (`parse_format`) and rejects what is written for every other year.  What is written still tells
  every two dates apart (`format_injective`).
-/
import CfMonitor.Lib.Calendar
import Mathlib.Data.List.Basic
import Mathlib.Tactic.Ring

namespace CfMonitor.Lib.DateOnly

/-! ## Decimal fields -/

/-- The last `w` decimal digits of `n`, most significant first. -/
def fixedDigits : Nat → Nat → List Char
  | 0, _ => []
  | w + 1, n => Nat.digitChar (n / 10 ^ w % 10) :: fixedDigits w n

/-- Decimal digits of `n`, padded with zeros to at least `w`. -/
def padded (w n : Nat) : List Char :=
  if n < 10 ^ w then fixedDigits w n else Nat.toDigits 10 n

/-- A signed number, its magnitude padded to at least `w` digits. -/
def appendInt (w : Nat) (x : Int) : List Char :=
  if x < 0 then '-' :: padded w x.natAbs else padded w x.natAbs

/-- Read exactly `w` digits after the value `acc` read so far. -/
def readDigits : Nat → Nat → List Char → Option (Nat × List Char)
  | 0, acc, cs => some (acc, cs)
  | _ + 1, _, [] => none
  | w + 1, acc, c :: cs =>
    if c.isDigit then readDigits w (10 * acc + (c.toNat - '0'.toNat)) cs else none

theorem digitChar_read {d : Nat} (h : d < 10) :
    (Nat.digitChar d).isDigit = true ∧ (Nat.digitChar d).toNat - '0'.toNat = d := by
  interval_cases d <;> decide

theorem readDigits_fixedDigits (w : Nat) : ∀ (acc n : Nat) (rest : List Char),
      readDigits w acc (fixedDigits w n ++ rest) = some (acc * 10 ^ w + n % 10 ^ w, rest) := by
  induction w with
  | zero =>
    intro acc n rest
    simp [fixedDigits, readDigits, Nat.mod_one]
  | succ w ih =>
    intro acc n rest
    obtain ⟨hdig, hval⟩ := digitChar_read (Nat.mod_lt (n / 10 ^ w) (show 0 < 10 by decide))
    rw [fixedDigits, List.cons_append, readDigits, if_pos hdig, hval, ih]
    congr 2
    rw [Nat.mod_pow_succ, pow_succ]
    ring

theorem padded_of_lt {w n : Nat} (h : n < 10 ^ w) : padded w n = fixedDigits w n := if_pos h

/-! ## Dates -/

/-- Write a date as `2006-01-02`. -/
def format (d : Date) : String :=
  String.ofList (appendInt 4 d.year ++ '-' :: padded 2 (monthOfYear d.month).toNat
    ++ '-' :: padded 2 d.day.toNat)

/-- The date with these fields, when there is one. -/
def ofFields (y m d : Nat) : Option Date :=
  if 1 ≤ m ∧ m ≤ 12 then
    if hd : (1 : Int) ≤ d ∧ (d : Int) ≤ daysIn (12 * y + (m - 1)) then
      some ⟨12 * y + (m - 1), d, hd.1, hd.2⟩
    else none
  else none

/-- Read a date written as `2006-01-02`; `none` when the text has another shape or names no
    date. -/
def parse (s : String) : Option Date :=
  match readDigits 4 0 s.toList with
  | some (y, '-' :: afterYear) =>
    match readDigits 2 0 afterYear with
    | some (m, '-' :: afterMonth) =>
      match readDigits 2 0 afterMonth with
      | some (d, []) => ofFields y m d
      | _ => none
    | _ => none
  | _ => none

theorem format_ne_empty (d : Date) : format d ≠ "" := by
  intro h
  have h' : (format d).toList = [] := by rw [h]; rfl
  simp [format] at h'

theorem ofFields_date (d : Date) (hy : 0 ≤ d.year) :
    ofFields d.year.toNat (monthOfYear d.month).toNat d.day.toNat = some d := by
  have hpos := d.day_pos
  have hm : monthOfYear d.month = d.month % 12 + 1 := rfl
  have hyear : d.year = d.month / 12 := rfl
  have hmonth : (12 * (d.year.toNat : Int) + ((monthOfYear d.month).toNat - 1)) = d.month := by
    omega
  have hday : (d.day.toNat : Int) = d.day := by omega
  unfold ofFields
  rw [if_pos (by omega), dif_pos ⟨by omega, by rw [hmonth, hday]; exact d.day_le⟩]
  congr 1
  exact Date.ext hmonth hday

/-- **Reading inverts writing** for every date whose year has at most four digits. -/
theorem parse_format (d : Date) (h0 : 0 ≤ d.year) (h1 : d.year ≤ 9999) : parse (format d) = some d := by
  have hy : d.year.natAbs < 10 ^ 4 := by omega
  have hyn : d.year.natAbs = d.year.toNat := by omega
  have hm : (monthOfYear d.month).toNat < 10 ^ 2 := by unfold monthOfYear; omega
  have hd : d.day.toNat < 10 ^ 2 := by
    have := daysIn_pos d.month
    have := d.day_le
    omega
  have hchars : (format d).toList = fixedDigits 4 d.year.toNat
      ++ ('-' :: (fixedDigits 2 (monthOfYear d.month).toNat
        ++ ('-' :: (fixedDigits 2 d.day.toNat ++ [])))) := by
    unfold format appendInt
    rw [if_neg (by omega), padded_of_lt hy, padded_of_lt hm, padded_of_lt hd, hyn]
    simp
  unfold parse
  rw [hchars, readDigits_fixedDigits]
  simp only [readDigits_fixedDigits]
  rw [Nat.mod_eq_of_lt (hyn ▸ hy), Nat.mod_eq_of_lt hm, Nat.mod_eq_of_lt hd]
  simpa using ofFields_date d h0

/-- The writer loses nothing for the years it can read back. -/
theorem format_injOn {d e : Date} (hd : 0 ≤ d.year ∧ d.year ≤ 9999)
    (he : 0 ≤ e.year ∧ e.year ≤ 9999) (h : format d = format e) : d = e := by
  have hpd := parse_format d hd.1 hd.2
  rw [h, parse_format e he.1 he.2] at hpd
  exact (Option.some.inj hpd).symm

/-! ## The writer loses nothing -/

theorem fixedDigits_digits (w n : Nat) : ∀ c ∈ fixedDigits w n, c.isDigit = true := by
  induction w with
  | zero => simp [fixedDigits]
  | succ w ih =>
    intro c hc
    rw [fixedDigits, List.mem_cons] at hc
    rcases hc with rfl | hc
    · exact (digitChar_read (Nat.mod_lt _ (by decide))).1
    · exact ih c hc

theorem padded_digits (w n : Nat) : ∀ c ∈ padded w n, c.isDigit = true := by
  unfold padded
  split_ifs with h
  · exact fixedDigits_digits w n
  · exact fun c hc => Nat.isDigit_of_mem_toDigits (by decide) (by decide) hc

theorem fixedDigits_length (w n : Nat) : (fixedDigits w n).length = w := by
  induction w with
  | zero => rfl
  | succ w ih => rw [fixedDigits, List.length_cons, ih]

theorem fixedDigits_value (w n acc : Nat) :
    Nat.ofDigitChars 10 (fixedDigits w n) acc = acc * 10 ^ w + n % 10 ^ w := by
  induction w generalizing acc with
  | zero => simp [fixedDigits, Nat.mod_one]
  | succ w ih =>
    rw [fixedDigits, Nat.ofDigitChars_cons_digitChar_of_lt_ten (Nat.mod_lt _ (by decide)), ih,
      Nat.mod_pow_succ, pow_succ]
    ring

theorem padded_value (w n : Nat) : Nat.ofDigitChars 10 (padded w n) 0 = n := by
  unfold padded
  split_ifs with h
  · rw [fixedDigits_value, Nat.mod_eq_of_lt h]
    omega
  · exact Nat.ofDigitChars_ten_toDigits

theorem padded_injective (w : Nat) : Function.Injective (padded w) := by
  intro m n h
  rw [← padded_value w m, h, padded_value]

/-- The sign is told from a digit. -/
theorem minus_ne_padded (w m n : Nat) : '-' :: padded w m ≠ padded w n := by
  intro h
  have hdigit := padded_digits w n '-' (h ▸ List.mem_cons_self)
  cases hdigit

theorem appendInt_injective (w : Nat) : Function.Injective (appendInt w) := by
  intro x y h
  unfold appendInt at h
  split_ifs at h with hx hy hy
  · have := padded_injective w (List.cons.inj h).2
    omega
  · exact absurd h (minus_ne_padded w _ _)
  · exact absurd h.symm (minus_ne_padded w _ _)
  · have := padded_injective w h
    omega

/-- **Different dates are written differently**, in every year. -/
theorem format_injective : Function.Injective format := by
  intro d e h
  have hchars := congrArg String.toList h
  simp only [format, String.toList_ofList, List.append_assoc, List.cons_append] at hchars
  have hmonthBound : ∀ m : Int, (monthOfYear m).toNat < 10 ^ 2 := by
    intro m
    unfold monthOfYear
    omega
  have hdayBound : ∀ f : Date, f.day.toNat < 10 ^ 2 := by
    intro f
    have := daysIn_pos f.month
    have := f.day_le
    omega
  have hlength : ∀ f : Date, (padded 2 f.day.toNat).length = 2 := by
    intro f
    rw [padded_of_lt (hdayBound f), fixedDigits_length]
  have hmonthLength : ∀ f : Date, (padded 2 (monthOfYear f.month).toNat).length = 2 := by
    intro f
    rw [padded_of_lt (hmonthBound f.month), fixedDigits_length]
  -- the text after the year has six characters, whatever the date
  obtain ⟨hyear, hrest⟩ := List.append_inj' hchars (by simp [hlength, hmonthLength])
  obtain ⟨hmonth, hday⟩ := List.append_inj (List.cons.inj hrest).2 (by simp [hmonthLength])
  have hy : yearOf d.month = yearOf e.month := appendInt_injective 4 hyear
  have hm := padded_injective 2 hmonth
  have hd := padded_injective 2 (List.cons.inj hday).2
  have h1 := d.day_pos
  have h2 := e.day_pos
  unfold monthOfYear at hm
  unfold yearOf at hy
  exact Date.ext (by omega) (by omega)

/-- A year of five digits is written and not read back. -/
example : format (Date.first (12 * 10000)) = "10000-01-01" ∧ parse "10000-01-01" = none := by decide

end CfMonitor.Lib.DateOnly
