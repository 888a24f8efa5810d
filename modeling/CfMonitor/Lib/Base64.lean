/-
  Base64 as `btoa` and `atob` have it.

  * `btoa`  — four characters for three bytes, filled up with `=`;
  * `atob`  — blanks are skipped, up to two `=` at the end of whole groups are dropped, and what is no
              character of the alphabet or one character too many is refused;
  * `atob_padded` — the characters of some bytes, filled up again, give the bytes.
-/
import Mathlib.Data.List.Basic
import Mathlib.Data.List.DropRight
import Mathlib.Tactic.IntervalCases

namespace CfMonitor.Lib

/-- The alphabet. -/
def base64Alphabet : List Char := "ABCDEFGHIJKLMNOPQRSTUVWXYZabcdefghijklmnopqrstuvwxyz0123456789+/".toList

/-- The character of a value below 64. -/
def base64Char (n : Nat) : Char := base64Alphabet.getD n 'A'

/-- The value of a character. -/
def base64Value (c : Char) : Option Nat := base64Alphabet.idxOf? c

/-- The bytes in pieces of six bits, the last piece filled up with zeros. -/
def sextets : List UInt8 → List Nat
  | [] => []
  | [a] => [a.toNat / 4, a.toNat % 4 * 16]
  | [a, b] => [a.toNat / 4, a.toNat % 4 * 16 + b.toNat / 16, b.toNat % 16 * 4]
  | a :: b :: c :: rest =>
    a.toNat / 4 :: (a.toNat % 4 * 16 + b.toNat / 16) :: (b.toNat % 16 * 4 + c.toNat / 64) :: c.toNat % 64 ::
      sextets rest

/-- The bytes of pieces of six bits; bits that fill no byte are dropped. -/
def bytesOfSextets : List Nat → List UInt8
  | [p, q] => [UInt8.ofNat (p * 4 + q / 16)]
  | [p, q, r] => [UInt8.ofNat (p * 4 + q / 16), UInt8.ofNat (q % 16 * 16 + r / 4)]
  | p :: q :: r :: s :: rest =>
    UInt8.ofNat (p * 4 + q / 16) :: UInt8.ofNat (q % 16 * 16 + r / 4) :: UInt8.ofNat (r % 4 * 64 + s) ::
      bytesOfSextets rest
  | _ => []

/-- `padEnd` to a multiple of four. -/
def padToFour (text : List Char) : List Char := text ++ List.replicate ((4 - text.length % 4) % 4) '='

def btoa (bytes : List UInt8) : List Char := padToFour ((sextets bytes).map base64Char)

/-- ASCII white space. -/
def isAsciiBlank (c : Char) : Bool := c == '\t' || c == '\n' || c == '\x0C' || c == '\r' || c == ' '

/-- One or two `=` are taken from the end. -/
def dropPadding (text : List Char) : List Char :=
  if text.getLast? = some '=' then
    if text.dropLast.getLast? = some '=' then text.dropLast.dropLast else text.dropLast
  else text

def atob (text : List Char) : Option (List UInt8) :=
  let data := text.filter fun c => !isAsciiBlank c
  let data := if data.length % 4 = 0 then dropPadding data else data
  if data.length % 4 = 1 then none else (data.mapM base64Value).map bytesOfSextets

/-! ## Round trip -/

theorem base64Value_char {n : Nat} (h : n < 64) : base64Value (base64Char n) = some n := by
  have hall : ∀ i : Fin 64, base64Value (base64Char i) = some i.val := by decide +kernel
  exact hall ⟨n, h⟩

theorem base64Char_plain {n : Nat} (h : n < 64) : isAsciiBlank (base64Char n) = false ∧ base64Char n ≠ '=' := by
  have hall : ∀ i : Fin 64, isAsciiBlank (base64Char i) = false ∧ base64Char i ≠ '=' := by decide +kernel
  exact hall ⟨n, h⟩

theorem sextets_lt : ∀ (bytes : List UInt8), ∀ n ∈ sextets bytes, n < 64
  | [] => nofun
  | [a] => by
    have ha := a.toNat_lt
    simp only [sextets, List.mem_cons, List.not_mem_nil, or_false, forall_eq_or_imp, forall_eq]
    omega
  | [a, b] => by
    have ha := a.toNat_lt
    have hb := b.toNat_lt
    simp only [sextets, List.mem_cons, List.not_mem_nil, or_false, forall_eq_or_imp, forall_eq]
    omega
  | a :: b :: c :: rest => by
    have ha := a.toNat_lt
    have hb := b.toNat_lt
    have hc := c.toNat_lt
    have hrest := sextets_lt rest
    simp only [sextets, List.mem_cons, forall_eq_or_imp]
    exact ⟨by omega, by omega, by omega, by omega, hrest⟩

theorem length_sextets : ∀ (bytes : List UInt8), (sextets bytes).length = (bytes.length * 4 + 2) / 3
  | [] => rfl
  | [_] => by simp [sextets]
  | [_, _] => by simp [sextets]
  | _ :: _ :: _ :: rest => by
    have hrest := length_sextets rest
    simp only [sextets, List.length_cons]
    omega

/-- **The bytes** are put together again from their pieces. -/
theorem bytesOfSextets_sextets : ∀ (bytes : List UInt8), bytesOfSextets (sextets bytes) = bytes
  | [] => rfl
  | [a] => by
    have ha := a.toNat_lt
    have hbyte : a.toNat / 4 * 4 + a.toNat % 4 * 16 / 16 = a.toNat := by omega
    rw [sextets, bytesOfSextets, hbyte, UInt8.ofNat_toNat]
  | [a, b] => by
    have ha := a.toNat_lt
    have hb := b.toNat_lt
    have hfirst : a.toNat / 4 * 4 + (a.toNat % 4 * 16 + b.toNat / 16) / 16 = a.toNat := by omega
    have hsecond : (a.toNat % 4 * 16 + b.toNat / 16) % 16 * 16 + b.toNat % 16 * 4 / 4 = b.toNat := by omega
    rw [sextets, bytesOfSextets, hfirst, hsecond, UInt8.ofNat_toNat, UInt8.ofNat_toNat]
  | a :: b :: c :: rest => by
    have ha := a.toNat_lt
    have hb := b.toNat_lt
    have hc := c.toNat_lt
    have hfirst : a.toNat / 4 * 4 + (a.toNat % 4 * 16 + b.toNat / 16) / 16 = a.toNat := by omega
    have hsecond : (a.toNat % 4 * 16 + b.toNat / 16) % 16 * 16 + (b.toNat % 16 * 4 + c.toNat / 64) / 4 = b.toNat := by
      omega
    have hthird : (b.toNat % 16 * 4 + c.toNat / 64) % 4 * 64 + c.toNat % 64 = c.toNat := by omega
    rw [sextets, bytesOfSextets, hfirst, hsecond, hthird, UInt8.ofNat_toNat, UInt8.ofNat_toNat, UInt8.ofNat_toNat,
      bytesOfSextets_sextets rest]

theorem mapM_base64Value : ∀ {values : List Nat}, (∀ n ∈ values, n < 64) →
    (values.map base64Char).mapM base64Value = some values := by
  intro values
  induction values with
  | nil => exact fun _ => rfl
  | cons n rest ih =>
    intro h
    rw [List.map_cons, List.mapM_cons, base64Value_char (h n List.mem_cons_self),
      ih fun m hm => h m (List.mem_cons_of_mem _ hm)]
    rfl

theorem getLast?_base64 {values : List Nat} (h : ∀ n ∈ values, n < 64) :
    (values.map base64Char).getLast? ≠ some '=' := by
  intro hlast
  obtain ⟨n, hn, hc⟩ := List.mem_map.mp (List.mem_of_getLast? hlast)
  exact (base64Char_plain (h n hn)).2 hc

theorem dropPadding_replicate {text : List Char} (h : text.getLast? ≠ some '=') {k : Nat} (hk : k ≤ 2) :
    dropPadding (text ++ List.replicate k '=') = text := by
  rw [dropPadding]
  interval_cases k
  · rw [List.replicate_zero, List.append_nil, if_neg h]
  · simp [h]
  · have htwo : text ++ List.replicate 2 '=' = text ++ ['='] ++ ['='] := by simp
    rw [htwo]
    simp

/-- **The characters of some bytes**, filled up again, give the bytes. -/
theorem atob_padded (bytes : List UInt8) : atob (padToFour ((sextets bytes).map base64Char)) = some bytes := by
  have hvalues := sextets_lt bytes
  have hplain : (padToFour ((sextets bytes).map base64Char)).filter (fun c => !isAsciiBlank c) =
      padToFour ((sextets bytes).map base64Char) := by
    refine List.filter_eq_self.mpr fun c hc => ?_
    rcases List.mem_append.mp hc with hc | hc
    · obtain ⟨n, hn, rfl⟩ := List.mem_map.mp hc
      rw [(base64Char_plain (hvalues n hn)).1]
      rfl
    · rw [List.eq_of_mem_replicate hc]
      rfl
  have hlength : (sextets bytes).length % 4 ≠ 1 := by
    rw [length_sextets]
    omega
  have hfour : (padToFour ((sextets bytes).map base64Char)).length % 4 = 0 := by
    rw [padToFour, List.length_append, List.length_replicate, List.length_map]
    omega
  have hdrop : dropPadding (padToFour ((sextets bytes).map base64Char)) = (sextets bytes).map base64Char := by
    rw [padToFour]
    refine dropPadding_replicate (getLast?_base64 hvalues) ?_
    rw [List.length_map]
    omega
  simp only [atob, hplain, hfour, if_true, hdrop, List.length_map, if_neg hlength]
  rw [mapM_base64Value hvalues, Option.map_some, bytesOfSextets_sextets]

end CfMonitor.Lib
