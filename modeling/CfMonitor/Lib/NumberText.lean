/-
  Decimal texts of exact numbers, as ECMAScript writes and reads them.

  1. **Writer** — `numberText`, the layout of `Number::toString`: the digits without zeros at either end,
     a point among them, in front of them or behind them, or an exponent when the point is far away.

  2. **Reader** — `numberOf`, the grammar of `Number(text)`.

  3. **Both** — a positive number with a decimal text is read back (`readDecimal_numberText`), and the
     writer gives a text of digits and a point back exactly when it is a plain one
     (`numberText_plain_iff`).
-/
import CfMonitor.Lib.HostPort
import CfMonitor.Lib.Json
import Mathlib.Data.Nat.Log
import Mathlib.Data.Nat.GCD.Basic
import Mathlib.Data.Nat.Factorization.Basic
import Mathlib.Data.Rat.Lemmas
import Mathlib.Algebra.Order.Field.Basic
import Mathlib.Algebra.Order.Field.Rat
import Mathlib.Tactic.FieldSimp
import Mathlib.Tactic.Ring

namespace CfMonitor.Lib

open List (cons length_append mem_append mem_cons replicate)

/-! ## Writing -/

def withoutZeros (digits : List Char) : List Char := digits.rdropWhile (· == '0')

/-- The digits of `m / 10 ^ j`, and where the point stands, counted from their front. -/
def decimalParts (m j : Nat) : List Char × Int := (withoutZeros (decimalText m), (decimalText m).length - j)

def exponentText (e : Int) : List Char := 'e' :: (if e < 0 then '-' else '+') :: decimalText e.natAbs

/-- The text of digits with the point behind the first `n` of them. -/
def layout (digits : List Char) (n : Int) : List Char :=
  if digits.length ≤ n ∧ n ≤ 21 then digits ++ List.replicate (n - digits.length).toNat '0'
  else if 0 < n ∧ n ≤ 21 then digits.take n.toNat ++ '.' :: digits.drop n.toNat
  else if -6 < n ∧ n ≤ 0 then '0' :: '.' :: (List.replicate (-n).toNat '0' ++ digits)
  else digits.take 1 ++ (if digits.drop 1 = [] then [] else '.' :: digits.drop 1) ++ exponentText (n - 1)

/-- As many places behind the point as a decimal with this denominator can have. -/
def places (x : ℚ) : Nat := Nat.log 2 x.den

/-- `String(x)`, for a number with a decimal text. -/
def numberText (x : ℚ) : List Char :=
  if x = 0 then ['0']
  else
    let parts := decimalParts (x.num.natAbs * 10 ^ places x / x.den) (places x)
    (if x < 0 then ['-'] else []) ++ layout parts.1 parts.2

/-! ## Reading -/

/-- A number of the language. -/
inductive JsNumber where
  | nan
  | infinite (negative : Bool)
  | finite (x : ℚ)
  deriving DecidableEq

def JsNumber.neg : JsNumber → JsNumber
  | .nan => .nan
  | .infinite negative => .infinite !negative
  | .finite x => .finite (-x)

/-- Digits, perhaps with a point among them. -/
def readMantissa (text : List Char) : Option ℚ :=
  let front := text.takeWhile (· != '.')
  let back := (text.dropWhile (· != '.')).drop 1
  if front ++ back ≠ [] ∧ (front ++ back).all Char.isDigit = true then
    some ((Nat.ofDigitChars 10 (front ++ back) 0 : ℚ) / 10 ^ back.length)
  else none

def readExponent : List Char → Option Int
  | '-' :: digits => (portNumber digits).map fun n : Nat => -(n : Int)
  | '+' :: digits => (portNumber digits).map fun n : Nat => (n : Int)
  | digits => (portNumber digits).map fun n : Nat => (n : Int)

def isExponentMark (c : Char) : Bool := c == 'e' || c == 'E'

def readDecimal (text : List Char) : Option ℚ :=
  match text.dropWhile (fun c => !isExponentMark c) with
  | [] => readMantissa text
  | _ :: exponent =>
    (readMantissa (text.takeWhile fun c => !isExponentMark c)).bind fun x =>
      (readExponent exponent).map fun e => x * 10 ^ e

def readUnsigned (text : List Char) : JsNumber :=
  if text = "Infinity".toList then .infinite false
  else (readDecimal text).elim .nan .finite

/-- The base behind a leading zero. -/
def radix (c : Char) : Option Nat :=
  if c = 'x' ∨ c = 'X' then some 16 else if c = 'o' ∨ c = 'O' then some 8
  else if c = 'b' ∨ c = 'B' then some 2 else none

def readRadix (base : Nat) (digits : List Char) : JsNumber :=
  if digits ≠ [] ∧ digits.all (fun c => isHexDigitChar c && decide (hexDigitValue c < base)) = true then
    .finite ((digits.foldl (fun n c => base * n + hexDigitValue c) 0 : Nat) : ℚ)
  else .nan

/-- `Number(text)`. -/
def numberOf (text : List Char) : JsNumber :=
  match trimWhere isTrimmed text with
  | [] => .finite 0
  | '-' :: rest => (readUnsigned rest).neg
  | '+' :: rest => readUnsigned rest
  | '0' :: c :: rest => (radix c).elim (readUnsigned ('0' :: c :: rest)) fun base => readRadix base rest
  | text => readUnsigned text

/-! ## The digits of a number -/

theorem withoutZeros_append (digits : List Char) : ∃ z, digits = withoutZeros digits ++ replicate z '0' := by
  refine ⟨(digits.rtakeWhile (· == '0')).length, ?_⟩
  have hzeros : digits.rtakeWhile (· == '0') = replicate (digits.rtakeWhile (· == '0')).length '0' :=
    List.eq_replicate_of_mem fun c hc => beq_iff_eq.mp (List.mem_rtakeWhile_imp (p := (· == '0')) hc)
  rw [withoutZeros, ← hzeros]
  exact List.rdropWhile_append_rtakeWhile.symm

theorem withoutZeros_zeros (digits : List Char) (z : Nat) :
    withoutZeros (digits ++ replicate z '0') = withoutZeros digits := by
  induction z with
  | zero => simp
  | succ z ih =>
    rw [List.replicate_succ', ← List.append_assoc, withoutZeros, List.rdropWhile_concat_pos _ _ _ (by decide)]
    exact ih

variable {m : Nat}

theorem decimalText_shift (hm : 0 < m) (k : Nat) :
    decimalText (m * 10 ^ k) = decimalText m ++ replicate k '0' := by
  induction k with
  | zero => simp
  | succ k ih =>
    have hpos : 0 < m * 10 ^ k := by positivity
    have happend := Nat.toDigits_append_toDigits (b := 10) (by decide) hpos (show 0 < 10 by decide)
    rw [List.replicate_succ', ← List.append_assoc, ← ih]
    rw [show m * 10 ^ (k + 1) = 10 * (m * 10 ^ k) + 0 by ring, decimalText, ← happend]
    rfl

theorem decimalParts_shift (hm : 0 < m) (j k : Nat) :
    decimalParts (m * 10 ^ k) (j + k) = decimalParts m j := by
  rw [decimalParts, decimalParts, decimalText_shift hm, withoutZeros_zeros]
  simp

variable {x : ℚ}

theorem den_dvd_places {j : Nat} (h : x.den ∣ 10 ^ j) : x.den ∣ 10 ^ places x := by
  have hten : ∀ k, 10 ^ k = 2 ^ k * 5 ^ k := fun k => by rw [← Nat.mul_pow]
  have hpow : ∀ {p : Nat}, p.Prime → Nat.gcd x.den (p ^ j) ∣ p ^ places x := by
    intro p hp
    obtain ⟨a, -, ha⟩ := (Nat.dvd_prime_pow hp).mp (Nat.gcd_dvd_right x.den (p ^ j))
    have hle : 2 ^ a ≤ x.den := by
      calc 2 ^ a ≤ p ^ a := Nat.pow_le_pow_left hp.two_le a
        _ ≤ x.den := Nat.le_of_dvd x.den_pos (ha ▸ Nat.gcd_dvd_left x.den (p ^ j))
    rw [ha]
    exact Nat.pow_dvd_pow p ((Nat.le_log_iff_pow_le (by decide) x.den_pos.ne').mpr hle)
  have hcoprime : Nat.Coprime (2 ^ j) (5 ^ j) := Nat.Coprime.pow _ _ (by decide)
  have hsplit : x.den = Nat.gcd x.den (2 ^ j) * Nat.gcd x.den (5 ^ j) := by
    rw [← Nat.Coprime.gcd_mul x.den hcoprime, ← hten]
    exact (Nat.gcd_eq_left h).symm
  rw [hten, hsplit]
  exact Nat.mul_dvd_mul (hpow Nat.prime_two) (hpow Nat.prime_five)

/-- **The text of a positive decimal.** -/
theorem numberText_eq (hm : 0 < m) (j : Nat) :
    numberText ((m : ℚ) / 10 ^ j) = layout (decimalParts m j).1 (decimalParts m j).2 := by
  generalize hx : (m : ℚ) / 10 ^ j = x
  have hpos : 0 < x := by
    rw [← hx]
    exact div_pos (by exact_mod_cast hm) (by positivity)
  have hnum : x.num.natAbs = x.num := by
    have := Rat.num_pos.mpr hpos
    omega
  have hcross : x.num.natAbs * 10 ^ j = m * x.den := by
    have hden : (x.den : ℚ) ≠ 0 := by exact_mod_cast x.den_pos.ne'
    have hfrac : (x.num : ℚ) * 10 ^ j = m * x.den := by
      have hself := Rat.num_div_den x
      rw [div_eq_iff hden] at hself
      rw [hself, ← hx]
      field_simp
    rw [← hnum] at hfrac
    exact_mod_cast hfrac
  have hdvd : x.den ∣ 10 ^ j := by
    have hall : x.den ∣ x.num.natAbs * 10 ^ j := hcross ▸ Nat.dvd_mul_left _ _
    exact (Nat.Coprime.dvd_of_dvd_mul_left x.reduced.symm hall)
  obtain ⟨c, hc⟩ := den_dvd_places hdvd
  have hscaled : x.num.natAbs * 10 ^ places x / x.den = x.num.natAbs * c := by
    rw [hc, Nat.mul_left_comm]
    exact Nat.mul_div_cancel_left _ x.den_pos
  have hscaledPos : 0 < x.num.natAbs * c := by
    have hc0 : 0 < c := by
      rcases Nat.eq_zero_or_pos c with rfl | hc0
      · exact absurd hc (by simp)
      · exact hc0
    have := Rat.num_pos.mpr hpos
    exact Nat.mul_pos (by omega) hc0
  -- Both fractions have the same parts as their common expansion.
  have hsame : x.num.natAbs * c * 10 ^ j = m * 10 ^ places x := by
    rw [hc, Nat.mul_right_comm, hcross]
    ring
  have hparts : decimalParts (x.num.natAbs * c) (places x) = decimalParts m j := by
    rw [← decimalParts_shift hscaledPos (places x) j, hsame, Nat.add_comm, decimalParts_shift hm]
  rw [numberText, if_neg hpos.ne', hscaled, hparts, if_neg (not_lt.mpr hpos.le), List.nil_append]

/-! ## Reading what was written -/

theorem withoutZeros_text (hm : 0 < m) :
    ∃ z, decimalText m = withoutZeros (decimalText m) ++ replicate z '0' ∧
      withoutZeros (decimalText m) ≠ [] ∧ m = Nat.ofDigitChars 10 (withoutZeros (decimalText m)) 0 * 10 ^ z := by
  obtain ⟨z, hz⟩ := withoutZeros_append (decimalText m)
  refine ⟨z, hz, fun hempty => ?_, ?_⟩
  · -- a positive number does not consist of zeros
    rw [hempty, List.nil_append] at hz
    cases z with
    | zero => exact decimalText_ne_nil m hz
    | succ z => exact head_decimalText hm (by rw [hz]; rfl)
  · have hvalue : Nat.ofDigitChars 10 (decimalText m) 0 = m := Nat.ofDigitChars_ten_toDigits
    rw [hz, Nat.ofDigitChars_append, Nat.ofDigitChars_replicate_zero, Nat.mul_comm] at hvalue
    exact hvalue.symm

variable {digits : List Char} {c : Char}

theorem mem_withoutZeros (h : c ∈ withoutZeros digits) : c ∈ digits :=
  (List.rdropWhile_prefix (· == '0') digits).subset h

theorem not_point_of_digit (h : c.isDigit = true) : (c != '.') = true := by
  rw [bne_iff_ne]
  rintro rfl
  cases h

theorem split_point {front : List Char} (h : ∀ c ∈ front, c.isDigit = true) (back : List Char) :
    (front ++ '.' :: back).takeWhile (· != '.') = front ∧
      ((front ++ '.' :: back).dropWhile (· != '.')).drop 1 = back := by
  have hpoint : ∀ c ∈ front, (c != '.') = true := fun c hc => not_point_of_digit (h c hc)
  rw [List.takeWhile_append_of_pos hpoint, List.dropWhile_append_of_pos hpoint]
  simp

theorem readMantissa_point {front back : List Char} (hfront : ∀ c ∈ front, c.isDigit = true)
    (hback : ∀ c ∈ back, c.isDigit = true) (hne : front ++ back ≠ []) :
    readMantissa (front ++ '.' :: back) = some ((Nat.ofDigitChars 10 (front ++ back) 0 : ℚ) / 10 ^ back.length) := by
  have hall : (front ++ back).all Char.isDigit = true := by
    rw [List.all_append, Bool.and_eq_true, List.all_eq_true, List.all_eq_true]
    exact ⟨hfront, hback⟩
  simp only [readMantissa, split_point hfront back]
  rw [if_pos ⟨hne, hall⟩]

theorem readMantissa_digits (hdigits : ∀ c ∈ digits, c.isDigit = true) (hne : digits ≠ []) :
    readMantissa digits = some (Nat.ofDigitChars 10 digits 0 : ℚ) := by
  have hpoint : ∀ c ∈ digits, (c != '.') = true := fun c hc => not_point_of_digit (hdigits c hc)
  have htake : digits.takeWhile (· != '.') = digits := List.takeWhile_eq_self_iff.mpr hpoint
  have hdrop : digits.dropWhile (· != '.') = [] := List.dropWhile_eq_nil_iff.mpr hpoint
  simp only [readMantissa, htake, hdrop, List.drop_nil, List.append_nil, List.length_nil]
  rw [if_pos ⟨hne, List.all_eq_true.mpr hdigits⟩]
  simp

/-- A digit or a point. -/
def isAmountChar (c : Char) : Bool := c.isDigit || c == '.'

theorem isAmountChar_of_isDigit (h : c.isDigit = true) : isAmountChar c = true := by
  rw [isAmountChar, h, Bool.true_or]

theorem amount_point {front back : List Char} (hfront : ∀ c ∈ front, c.isDigit = true)
    (hback : ∀ c ∈ back, c.isDigit = true) : ∀ c ∈ front ++ '.' :: back, isAmountChar c = true := by
  intro c hc
  rcases mem_append.mp hc with hc | hc
  · exact isAmountChar_of_isDigit (hfront c hc)
  · rcases mem_cons.mp hc with rfl | hc
    · decide
    · exact isAmountChar_of_isDigit (hback c hc)

theorem not_mark_of_amount (h : isAmountChar c = true) : (!isExponentMark c) = true := by
  rw [isExponentMark, Bool.not_eq_true', Bool.or_eq_false_iff, beq_eq_false_iff_ne, beq_eq_false_iff_ne]
  constructor <;> rintro rfl <;> cases h

theorem readDecimal_amount {text : List Char} (h : ∀ c ∈ text, isAmountChar c = true) :
    readDecimal text = readMantissa text := by
  have hdrop : text.dropWhile (fun c => !isExponentMark c) = [] :=
    List.dropWhile_eq_nil_iff.mpr fun c hc => not_mark_of_amount (h c hc)
  rw [readDecimal, hdrop]

theorem readExponent_text (e : Int) :
    readExponent ((if e < 0 then '-' else '+') :: decimalText e.natAbs) = some e := by
  split_ifs with h
  · rw [readExponent, portNumber_decimal, Option.map_some]
    congr 1
    omega
  · rw [readExponent, portNumber_decimal, Option.map_some]
    congr 1
    omega

theorem readDecimal_exponent {text : List Char} (h : ∀ c ∈ text, isAmountChar c = true)
    (hx : readMantissa text = some x) (e : Int) :
    readDecimal (text ++ exponentText e) = some (x * 10 ^ e) := by
  have hmarks : ∀ c ∈ text, (!isExponentMark c) = true := fun c hc => not_mark_of_amount (h c hc)
  have hdrop : (text ++ exponentText e).dropWhile (fun c => !isExponentMark c) = exponentText e := by
    rw [List.dropWhile_append_of_pos hmarks]
    rfl
  have htake : (text ++ exponentText e).takeWhile (fun c => !isExponentMark c) = text := by
    rw [List.takeWhile_append_of_pos hmarks, exponentText, List.takeWhile_cons_of_neg (by decide), List.append_nil]
  rw [readDecimal, hdrop, htake, hx]
  simp only [exponentText, Option.bind_some, readExponent_text, Option.map_some]

section

variable {digits : List Char} (hdigits : ∀ c ∈ digits, c.isDigit = true) (hne : digits ≠ [])

include hdigits hne

/-- **Each layout is read as its digits, moved by where the point stands.** -/
theorem readDecimal_layout (n : Int) :
    readDecimal (layout digits n) = some ((Nat.ofDigitChars 10 digits 0 : ℚ) * 10 ^ (n - digits.length)) := by
  have hzeros : ∀ k, ∀ c ∈ replicate k '0', c.isDigit = true := by
    intro k c hc
    rw [List.eq_of_mem_replicate hc]
    decide
  have hlength := List.length_pos_iff.mpr hne
  unfold layout
  split_ifs with hwhole hpoint hsmall hone
  · have hall : ∀ c ∈ digits ++ replicate (n - digits.length).toNat '0', c.isDigit = true := by
      intro c hc
      rcases mem_append.mp hc with hc | hc
      · exact hdigits c hc
      · exact hzeros _ c hc
    rw [readDecimal_amount fun c hc => isAmountChar_of_isDigit (hall c hc),
      readMantissa_digits hall (by simp [hne]), Nat.ofDigitChars_append, Nat.ofDigitChars_replicate_zero]
    have hpow : (10 : ℚ) ^ (n - digits.length) = 10 ^ (n - digits.length).toNat := by
      rw [← zpow_natCast]
      congr 1
      omega
    rw [hpow]
    push_cast
    rw [mul_comm]
  · have hfront : ∀ c ∈ digits.take n.toNat, c.isDigit = true := fun c hc => hdigits c (List.mem_of_mem_take hc)
    have hback : ∀ c ∈ digits.drop n.toNat, c.isDigit = true := fun c hc => hdigits c (List.mem_of_mem_drop hc)
    rw [readDecimal_amount (amount_point hfront hback), readMantissa_point hfront hback (by rw [List.take_append_drop]; exact hne),
      List.take_append_drop, List.length_drop]
    congr 1
    have hplaces : (n - digits.length : Int) = -((digits.length - n.toNat : Nat) : Int) := by omega
    rw [hplaces, zpow_neg, zpow_natCast, div_eq_mul_inv]
  · have hback : ∀ c ∈ replicate (-n).toNat '0' ++ digits, c.isDigit = true := by
      intro c hc
      rcases mem_append.mp hc with hc | hc
      · exact hzeros _ c hc
      · exact hdigits c hc
    have hall := @amount_point ['0'] _ (by simp) hback
    have hread := @readMantissa_point ['0'] _ (by simp) hback (by simp)
    rw [List.singleton_append] at hall hread
    rw [readDecimal_amount hall, hread]
    congr 1
    have hvalue : Nat.ofDigitChars 10 (['0'] ++ (replicate (-n).toNat '0' ++ digits)) 0
        = Nat.ofDigitChars 10 digits 0 := by
      rw [Nat.ofDigitChars_append, Nat.ofDigitChars_append, Nat.ofDigitChars_replicate_zero]
      rfl
    have hplaces : (n - digits.length : Int) = -((replicate (-n).toNat '0' ++ digits).length : Int) := by
      rw [length_append, List.length_replicate]
      omega
    rw [hvalue, hplaces, zpow_neg, zpow_natCast, div_eq_mul_inv]
  · -- one digit in front of the exponent
    have hsame : digits.take 1 = digits := by
      rw [← List.take_append_drop 1 digits, hone, List.append_nil, List.take_take]
      rfl
    have hsingle : digits.length = 1 := by
      have := congrArg List.length hone
      rw [List.length_drop, List.length_nil] at this
      omega
    rw [List.append_nil, hsame, readDecimal_exponent (fun c hc => isAmountChar_of_isDigit (hdigits c hc))
      (readMantissa_digits hdigits hne), hsingle]
    rfl
  · have hfront : ∀ c ∈ digits.take 1, c.isDigit = true := fun c hc => hdigits c (List.mem_of_mem_take hc)
    have hback : ∀ c ∈ digits.drop 1, c.isDigit = true := fun c hc => hdigits c (List.mem_of_mem_drop hc)
    have hread := readMantissa_point hfront hback (by rw [List.take_append_drop]; exact hne)
    rw [readDecimal_exponent (amount_point hfront hback) hread, List.take_append_drop, List.length_drop]
    congr 1
    have hplaces : (n - digits.length : Int) = (n - 1) - ((digits.length - 1 : Nat) : Int) := by omega
    rw [hplaces, zpow_sub₀ (by decide : (10 : ℚ) ≠ 0) (n - 1), zpow_natCast]
    ring

end

/-- **A positive decimal is read back.** -/
theorem readDecimal_numberText (hm : 0 < m) (j : Nat) :
    readDecimal (numberText ((m : ℚ) / 10 ^ j)) = some ((m : ℚ) / 10 ^ j) := by
  obtain ⟨z, hz, hne, hvalue⟩ := withoutZeros_text hm
  have hdigits : ∀ c ∈ withoutZeros (decimalText m), c.isDigit = true :=
    fun c hc => isDigit_of_mem_decimalText (mem_withoutZeros hc)
  have hlength := congrArg List.length hz
  rw [length_append, List.length_replicate] at hlength
  rw [numberText_eq hm, decimalParts, readDecimal_layout hdigits hne]
  congr 1
  have hplaces : ((decimalText m).length - j - (withoutZeros (decimalText m)).length : Int) = (z : Int) - (j : Int) := by
    omega
  rw [hplaces, zpow_sub₀ (by decide : (10 : ℚ) ≠ 0), zpow_natCast, zpow_natCast]
  have hcast : (m : ℚ) = Nat.ofDigitChars 10 (withoutZeros (decimalText m)) 0 * 10 ^ z := by exact_mod_cast hvalue
  rw [hcast]
  ring

/-! ## Plain amounts -/

/-- Digits, perhaps a point and more digits. -/
inductive AmountText : List Char → Prop where
  | whole (front : List Char) (hne : front ≠ []) (h : ∀ c ∈ front, c.isDigit = true) : AmountText front
  | point (front back : List Char) (hne : front ≠ []) (hne' : back ≠ []) (h : ∀ c ∈ front, c.isDigit = true)
      (h' : ∀ c ∈ back, c.isDigit = true) : AmountText (front ++ '.' :: back)

/-- A positive amount without needless zeros, of at most 21 digits in front of the point and with at
    most five zeros behind it before the first other digit. -/
def isPlainAmount (text : List Char) : Bool :=
  let front := text.takeWhile (· != '.')
  let back := (text.dropWhile (· != '.')).drop 1
  if back = [] then front.head? != some '0' && decide (front.length ≤ 21)
  else back.getLast? != some '0' && (front.head? != some '0' && decide (front.length ≤ 21) ||
      front == ['0'] && back.take 6 != List.replicate 6 '0')

theorem isPlainAmount_whole {front : List Char} (h : ∀ c ∈ front, c.isDigit = true) :
    isPlainAmount front = true ↔ front.head? ≠ some '0' ∧ front.length ≤ 21 := by
  have htake : front.takeWhile (· != '.') = front :=
    List.takeWhile_eq_self_iff.mpr fun c hc => not_point_of_digit (h c hc)
  have hdrop : front.dropWhile (· != '.') = [] :=
    List.dropWhile_eq_nil_iff.mpr fun c hc => not_point_of_digit (h c hc)
  simp only [isPlainAmount, htake, hdrop, List.drop_nil]
  simp

theorem isPlainAmount_point {front back : List Char} (h : ∀ c ∈ front, c.isDigit = true) (hne : back ≠ []) :
    isPlainAmount (front ++ '.' :: back) = true ↔ back.getLast? ≠ some '0' ∧
      (front.head? ≠ some '0' ∧ front.length ≤ 21 ∨ front = ['0'] ∧ back.take 6 ≠ replicate 6 '0') := by
  simp only [isPlainAmount, split_point h back]
  rw [if_neg hne]
  simp

theorem isPlainAmount_layout (hdigits : ∀ c ∈ digits, c.isDigit = true) (hne : digits ≠ [])
    (hhead : digits.head? ≠ some '0') (hlast : digits.getLast? ≠ some '0') (n : Int) :
    isPlainAmount (layout digits n) = true ∨ 'e' ∈ layout digits n := by
  have hlength := List.length_pos_iff.mpr hne
  unfold layout
  split_ifs with hwhole hpoint hsmall hone
  · have hall : ∀ c ∈ digits ++ replicate (n - digits.length).toNat '0', c.isDigit = true := by
      intro c hc
      rcases mem_append.mp hc with hc | hc
      · exact hdigits c hc
      · rw [List.eq_of_mem_replicate hc]
        decide
    refine .inl ((isPlainAmount_whole hall).mpr ⟨?_, ?_⟩)
    · rw [List.head?_append_of_ne_nil _ hne]
      exact hhead
    · rw [length_append, List.length_replicate]
      omega
  · have hback : digits.drop n.toNat ≠ [] := by
      rw [Ne, List.drop_eq_nil_iff]
      omega
    refine .inl ((isPlainAmount_point (fun c hc => hdigits c (List.mem_of_mem_take hc)) hback).mpr
      ⟨?_, .inl ⟨?_, ?_⟩⟩)
    · rw [List.getLast?_drop, if_neg (by omega)]
      exact hlast
    · rw [List.head?_take, if_neg (by omega)]
      exact hhead
    · rw [List.length_take]
      omega
  · have hback : replicate (-n).toNat '0' ++ digits ≠ [] := by simp [hne]
    have hplain := (@isPlainAmount_point ['0'] _ (by simp) hback).mpr ⟨?_, .inr ⟨rfl, ?_⟩⟩
    · exact .inl hplain
    · rw [List.getLast?_append_of_ne_nil _ hne]
      exact hlast
    · -- the first other digit stands among the first six
      intro hzeros
      obtain ⟨c, rest, rfl⟩ := List.exists_cons_of_ne_nil hne
      have hget : ((replicate (-n).toNat '0' ++ c :: rest).take 6)[(-n).toNat]? = some c := by
        rw [List.getElem?_take_of_lt (by omega), List.getElem?_append_right (by simp)]
        simp
      rw [hzeros, List.getElem?_replicate] at hget
      split_ifs at hget
      exact hhead (by rw [List.head?_cons, ← Option.some.inj hget])
  · exact .inr (by simp [exponentText])
  · exact .inr (by simp [exponentText])

theorem withoutZeros_eq_self (h : digits.getLast? ≠ some '0') : withoutZeros digits = digits := by
  rw [withoutZeros, List.rdropWhile_eq_self_iff]
  intro hne hlast
  exact h (by rw [List.getLast?_eq_getLast_of_ne_nil hne, beq_iff_eq.mp hlast])

theorem numberText_digits (hdigits : ∀ c ∈ digits, c.isDigit = true) (hne : digits ≠ [])
    (hhead : digits.head? ≠ some '0') (j : Nat) :
    0 < Nat.ofDigitChars 10 digits 0 ∧ numberText ((Nat.ofDigitChars 10 digits 0 : ℚ) / 10 ^ j)
      = layout (withoutZeros digits) (digits.length - j) := by
  obtain ⟨hpos, hsame⟩ := decimalText_ofDigitChars digits hne hdigits hhead
  refine ⟨hpos, ?_⟩
  rw [numberText_eq hpos, decimalParts, hsame]

theorem layout_whole (hshort : digits.length ≤ 21) : layout (withoutZeros digits) digits.length = digits := by
  obtain ⟨z, hz⟩ := withoutZeros_append digits
  have hlength := congrArg List.length hz
  rw [length_append, List.length_replicate] at hlength
  rw [layout, if_pos ⟨by omega, by omega⟩]
  have hcount : ((digits.length : Int) - (withoutZeros digits).length).toNat = z := by omega
  rw [hcount, ← hz]

variable {back : List Char}

theorem layout_point {front : List Char} (hne : front ≠ []) (hne' : back ≠ []) (hshort : front.length ≤ 21) :
    layout (front ++ back) front.length = front ++ '.' :: back := by
  have hfront := List.length_pos_iff.mpr hne
  have hback := List.length_pos_iff.mpr hne'
  rw [layout, if_neg (by rw [length_append]; omega), if_pos ⟨by omega, by omega⟩, Int.toNat_natCast,
    List.take_left, List.drop_left]

theorem layout_small (hne : digits ≠ []) {z : Nat} (hz : z < 6) :
    layout digits (-(z : Int)) = '0' :: '.' :: (replicate z '0' ++ digits) := by
  have hlength := List.length_pos_iff.mpr hne
  have hcount : (- -(z : Int)).toNat = z := by omega
  rw [layout, if_neg (by omega), if_neg (by omega), if_pos ⟨by omega, by omega⟩, hcount]

theorem isPlainAmount_numberText (hm : 0 < m) {j : Nat} {text : List Char} (hmark : 'e' ∉ text)
    (h : numberText ((m : ℚ) / 10 ^ j) = text) : isPlainAmount text = true := by
  obtain ⟨z, hz, hne, -⟩ := withoutZeros_text hm
  rw [numberText_eq hm, decimalParts] at h
  have hhead : (withoutZeros (decimalText m)).head? ≠ some '0' := by
    have hpos := head_decimalText hm
    rw [hz, List.head?_append_of_ne_nil _ hne] at hpos
    exact hpos
  have hlast : (withoutZeros (decimalText m)).getLast? ≠ some '0' := by
    rw [List.getLast?_eq_getLast_of_ne_nil hne]
    intro hcontra
    exact List.rdropWhile_last_not (· == '0') (decimalText m) hne (by rw [beq_iff_eq]; exact Option.some.inj hcontra)
  rcases isPlainAmount_layout (fun c hc => isDigit_of_mem_decimalText (mem_withoutZeros hc)) hne hhead hlast
    ((decimalText m).length - j) with hplain | hmem
  · rw [h] at hplain
    exact hplain
  · exact absurd (h ▸ hmem) hmark

theorem numberText_whole_iff (hdigits : ∀ c ∈ digits, c.isDigit = true) (hne : digits ≠ []) :
    isPlainAmount digits = true ↔ 0 < Nat.ofDigitChars 10 digits 0 ∧
      numberText (Nat.ofDigitChars 10 digits 0 : ℚ) = digits := by
  constructor
  · intro hplain
    obtain ⟨hhead, hshort⟩ := (isPlainAmount_whole hdigits).mp hplain
    obtain ⟨hpos, htext⟩ := numberText_digits hdigits hne hhead 0
    rw [pow_zero, div_one, Nat.cast_zero, sub_zero, layout_whole hshort] at htext
    exact ⟨hpos, htext⟩
  · rintro ⟨hpos, htext⟩
    have hmark : 'e' ∉ digits := fun hmem => absurd (hdigits _ hmem) (by decide)
    exact isPlainAmount_numberText hpos (j := 0) hmark (by rw [pow_zero, div_one]; exact htext)

theorem numberText_point_iff {front : List Char} (hne : front ≠ []) (hne' : back ≠ [])
    (h : ∀ c ∈ front, c.isDigit = true) (h' : ∀ c ∈ back, c.isDigit = true) :
    isPlainAmount (front ++ '.' :: back) = true ↔ 0 < Nat.ofDigitChars 10 (front ++ back) 0 ∧
      numberText ((Nat.ofDigitChars 10 (front ++ back) 0 : ℚ) / 10 ^ back.length) = front ++ '.' :: back := by
  have hall : ∀ c ∈ front ++ back, c.isDigit = true := by
    intro c hc
    rcases mem_append.mp hc with hc | hc
    · exact h c hc
    · exact h' c hc
  constructor
  · intro hplain
    obtain ⟨hlast, ⟨hhead, hshort⟩ | ⟨rfl, hzeros⟩⟩ := (isPlainAmount_point h hne').mp hplain
    · -- digits in front of the point
      obtain ⟨hpos, htext⟩ := numberText_digits hall (by simp [hne]) (by rw [List.head?_append_of_ne_nil _ hne]; exact hhead)
        back.length
      have hlast' : (front ++ back).getLast? ≠ some '0' := by
        rw [List.getLast?_append_of_ne_nil _ hne']
        exact hlast
      have hcount : ((front ++ back).length : Int) - back.length = front.length := by
        rw [length_append]
        omega
      rw [withoutZeros_eq_self hlast', hcount, layout_point hne hne' hshort] at htext
      exact ⟨hpos, htext⟩
    · -- a zero in front of the point; the zeros behind it come apart
      obtain ⟨z, rest, rfl, hhead⟩ : ∃ z rest, back = replicate z '0' ++ rest ∧ rest.head? ≠ some '0' := by
        refine ⟨(back.takeWhile (· == '0')).length, back.dropWhile (· == '0'), ?_, ?_⟩
        · have hrun : back.takeWhile (· == '0') = replicate (back.takeWhile (· == '0')).length '0' :=
            List.eq_replicate_of_mem fun c hc => beq_iff_eq.mp (List.mem_takeWhile_imp (p := (· == '0')) hc)
          rw [← hrun, List.takeWhile_append_dropWhile]
        · intro hcontra
          have := List.head?_dropWhile_not (· == '0') back
          rw [hcontra] at this
          cases this
      have hrest : rest ≠ [] := by
        rintro rfl
        rw [List.append_nil] at hlast hne'
        have hz : z ≠ 0 := by
          rintro rfl
          exact hne' rfl
        exact hlast (by rw [List.getLast?_replicate, if_neg hz])
      have hz : z < 6 := by
        by_contra hlarge
        refine hzeros ?_
        rw [List.take_append_of_le_length (by simp; omega), List.take_replicate]
        congr 1
        omega
      have hdigits : ∀ c ∈ rest, c.isDigit = true := fun c hc => h' c (List.mem_append_right _ hc)
      obtain ⟨hpos, htext⟩ := numberText_digits hdigits hrest hhead (replicate z '0' ++ rest).length
      have hvalue : Nat.ofDigitChars 10 (['0'] ++ (replicate z '0' ++ rest)) 0 = Nat.ofDigitChars 10 rest 0 := by
        rw [Nat.ofDigitChars_append, Nat.ofDigitChars_append, Nat.ofDigitChars_replicate_zero]
        rfl
      have hlast' : rest.getLast? ≠ some '0' := by
        rw [List.getLast?_append_of_ne_nil _ hrest] at hlast
        exact hlast
      have hcount : (rest.length : Int) - (replicate z '0' ++ rest).length = -(z : Int) := by
        rw [length_append, List.length_replicate]
        omega
      rw [withoutZeros_eq_self hlast', hcount, layout_small hrest hz] at htext
      rw [hvalue]
      exact ⟨hpos, htext⟩
  · rintro ⟨hpos, htext⟩
    have hmark : 'e' ∉ front ++ '.' :: back := by
      intro hmem
      rcases mem_append.mp hmem with hmem | hmem
      · cases h _ hmem
      · rcases mem_cons.mp hmem with hmem | hmem
        · cases hmem
        · cases h' _ hmem
    exact isPlainAmount_numberText hpos hmark htext

/-- **Plain amounts, and no others, are written as they were read.** -/
theorem numberText_plain_iff {text : List Char} (htext : AmountText text) :
    ∃ m j : Nat, readDecimal text = some ((m : ℚ) / 10 ^ j) ∧
      (isPlainAmount text = true ↔ 0 < m ∧ numberText ((m : ℚ) / 10 ^ j) = text) := by
  cases htext with
  | whole _ hne h =>
    refine ⟨Nat.ofDigitChars 10 text 0, 0, ?_, ?_⟩
    · rw [readDecimal_amount fun c hc => isAmountChar_of_isDigit (h c hc), readMantissa_digits h hne, pow_zero, div_one]
    · rw [pow_zero, div_one, numberText_whole_iff h hne]
  | point front back hne hne' h h' =>
    refine ⟨Nat.ofDigitChars 10 (front ++ back) 0, back.length, ?_, numberText_point_iff hne hne' h h'⟩
    rw [readDecimal_amount (amount_point h h'), readMantissa_point h h' (by simp [hne])]

/-! ## From the reader of decimals to `Number(text)` -/

/-- A character of the text of a positive number. -/
def isNumberChar (c : Char) : Bool := isAmountChar c || ['e', '+', '-'].contains c

theorem isNumberChar_cases (h : isNumberChar c = true) : c.isDigit = true ∨ c ∈ ['.', 'e', '+', '-'] := by
  rw [isNumberChar, isAmountChar, Bool.or_eq_true, Bool.or_eq_true, beq_iff_eq, List.contains_iff_mem] at h
  rcases h with (h | rfl) | h
  · exact .inl h
  · exact .inr (by decide)
  · exact .inr (List.mem_cons_of_mem _ h)

theorem digit_facts (h : c.isDigit = true) : isTrimmed c = false ∧ radix c = none ∧ c ≠ 'I' ∧ c ≠ '-' ∧ c ≠ '+' := by
  have hall : ∀ n : Fin 128, (Char.ofNat n).isDigit = true → isTrimmed (Char.ofNat n) = false ∧
      radix (Char.ofNat n) = none ∧ Char.ofNat n ≠ 'I' ∧ Char.ofNat n ≠ '-' ∧ Char.ofNat n ≠ '+' := by decide +kernel
  have hrange : c.toNat < 128 := Nat.lt_trans (toNat_lt_of_hex (by rw [isHexDigitChar, h, Bool.true_or, Bool.true_or])) (by decide)
  have hc := hall ⟨c.toNat, hrange⟩
  rw [Char.ofNat_toNat] at hc
  exact hc h

theorem numberChar_facts (h : isNumberChar c = true) : isTrimmed c = false ∧ radix c = none ∧ c ≠ 'I' := by
  rcases isNumberChar_cases h with h | h
  · obtain ⟨htrim, hradix, hne, -⟩ := digit_facts h
    exact ⟨htrim, hradix, hne⟩
  · have hall : ∀ c ∈ ['.', 'e', '+', '-'], isTrimmed c = false ∧ radix c = none ∧ c ≠ 'I' := by decide
    exact hall c h

theorem numberOf_decimal {rest : List Char} (hc : c.isDigit = true) (hrest : ∀ d ∈ rest, isNumberChar d = true)
    (h : readDecimal (c :: rest) = some x) : numberOf (c :: rest) = .finite x := by
  have hfirst := digit_facts hc
  have htrim : trimWhere isTrimmed (c :: rest) = c :: rest := by
    refine trimWhere_eq_self fun d hd => ?_
    rcases mem_cons.mp hd with rfl | hd
    · exact hfirst.1
    · exact (numberChar_facts (hrest d hd)).1
  have hunsigned : readUnsigned (c :: rest) = .finite x := by
    rw [readUnsigned, if_neg, h]
    · rfl
    · intro hinfinity
      exact hfirst.2.2.1 (cons.inj hinfinity).1
  rw [numberOf, htrim]
  split
  · rename_i heq
    exact absurd heq (List.cons_ne_nil _ _)
  · rename_i heq
    exact absurd (cons.inj heq).1 hfirst.2.2.2.1
  · rename_i heq
    exact absurd (cons.inj heq).1 hfirst.2.2.2.2
  · rename_i d rest' heq
    obtain ⟨rfl, rfl⟩ := cons.inj heq
    rw [(numberChar_facts (hrest d List.mem_cons_self)).2.1, Option.elim_none]
    exact hunsigned
  · exact hunsigned

theorem isNumberChar_of_amount (h : isAmountChar c = true) : isNumberChar c = true := by
  rw [isNumberChar, h, Bool.true_or]

theorem isNumberChar_exponentText {e : Int} (h : c ∈ exponentText e) : isNumberChar c = true := by
  rw [exponentText, mem_cons, mem_cons] at h
  rcases h with rfl | h | h
  · decide
  · rw [h]
    split_ifs <;> decide
  · exact isNumberChar_of_amount (isAmountChar_of_isDigit (isDigit_of_mem_decimalText h))

theorem layout_chars (hdigits : ∀ c ∈ digits, c.isDigit = true) (hne : digits ≠ []) (n : Int) :
    ∃ c rest, layout digits n = c :: rest ∧ c.isDigit = true ∧ ∀ d ∈ rest, isNumberChar d = true := by
  obtain ⟨c, rest, rfl⟩ := List.exists_cons_of_ne_nil hne
  have hfirst := hdigits c List.mem_cons_self
  have hnumber : ∀ d ∈ rest, isNumberChar d = true := fun d hd =>
    isNumberChar_of_amount (isAmountChar_of_isDigit (hdigits d (List.mem_cons_of_mem _ hd)))
  have hzeros : ∀ k, ∀ d ∈ replicate k '0', isNumberChar d = true := by
    intro k d hd
    rw [List.eq_of_mem_replicate hd]
    decide
  unfold layout
  split_ifs with hwhole hpoint hsmall hone
  · refine ⟨c, _, rfl, hfirst, fun d hd => ?_⟩
    rcases mem_append.mp hd with hd | hd
    · exact hnumber d hd
    · exact hzeros _ d hd
  · obtain ⟨k, hk⟩ : ∃ k, n.toNat = k + 1 := ⟨n.toNat - 1, by omega⟩
    rw [hk]
    refine ⟨c, _, rfl, hfirst, fun d hd => ?_⟩
    rcases mem_append.mp hd with hd | hd
    · exact hnumber d (List.mem_of_mem_take hd)
    · rcases mem_cons.mp hd with rfl | hd
      · decide
      · exact hnumber d (List.mem_of_mem_drop hd)
  · refine ⟨'0', _, rfl, by decide, fun d hd => ?_⟩
    rcases mem_cons.mp hd with rfl | hd
    · decide
    · rcases mem_append.mp hd with hd | hd
      · exact hzeros _ d hd
      · rcases mem_cons.mp hd with rfl | hd
        · exact isNumberChar_of_amount (isAmountChar_of_isDigit hfirst)
        · exact hnumber d hd
  · exact ⟨c, _, rfl, hfirst, fun d hd => isNumberChar_exponentText hd⟩
  · refine ⟨c, _, rfl, hfirst, fun d hd => ?_⟩
    rcases mem_cons.mp hd with rfl | hd
    · decide
    · rcases mem_append.mp hd with hd | hd
      · exact hnumber d hd
      · exact isNumberChar_exponentText hd

theorem numberText_chars (hm : 0 < m) (j : Nat) :
    ∃ c rest, numberText ((m : ℚ) / 10 ^ j) = c :: rest ∧ c.isDigit = true ∧ ∀ d ∈ rest, isNumberChar d = true := by
  obtain ⟨z, hz, hne, -⟩ := withoutZeros_text hm
  rw [numberText_eq hm]
  exact layout_chars (fun c hc => isDigit_of_mem_decimalText (mem_withoutZeros hc)) hne (decimalParts m j).2

/-- **What is written of a positive decimal, `Number(text)` reads.** -/
theorem numberOf_numberText (hm : 0 < m) (j : Nat) :
    numberOf (numberText ((m : ℚ) / 10 ^ j)) = .finite ((m : ℚ) / 10 ^ j) := by
  have hread := readDecimal_numberText hm j
  obtain ⟨c, rest, htext, hc, hrest⟩ := numberText_chars hm j
  rw [htext] at hread ⊢
  exact numberOf_decimal hc hrest hread

theorem AmountText.chars {text : List Char} (h : AmountText text) :
    ∃ c rest, text = c :: rest ∧ c.isDigit = true ∧ ∀ d ∈ rest, isAmountChar d = true := by
  cases h with
  | whole _ hne h =>
    obtain ⟨c, rest, rfl⟩ := List.exists_cons_of_ne_nil hne
    exact ⟨c, rest, rfl, h c List.mem_cons_self, fun d hd => isAmountChar_of_isDigit (h d (List.mem_cons_of_mem _ hd))⟩
  | point front back hne hne' h h' =>
    obtain ⟨c, rest, rfl⟩ := List.exists_cons_of_ne_nil hne
    refine ⟨c, rest ++ '.' :: back, rfl, h c List.mem_cons_self, fun d hd => ?_⟩
    rcases mem_append.mp hd with hd | hd
    · exact isAmountChar_of_isDigit (h d (List.mem_cons_of_mem _ hd))
    · rcases mem_cons.mp hd with rfl | hd
      · decide
      · exact isAmountChar_of_isDigit (h' d hd)

theorem numberOf_amount {text : List Char} (h : AmountText text) (hx : readDecimal text = some x) :
    numberOf text = .finite x := by
  obtain ⟨c, rest, rfl, hc, hrest⟩ := h.chars
  exact numberOf_decimal hc (fun d hd => isNumberChar_of_amount (hrest d hd)) hx

end CfMonitor.Lib
