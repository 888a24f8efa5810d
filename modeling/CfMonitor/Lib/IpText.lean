/-
  Texts of IP addresses.

  1. **Numbers** — the value of hexadecimal digits and the shortest text of a value.

  2. **Addresses** — an IPv4 address has four octets, an IPv6 address eight groups of 16 bits.

  3. **Spellings** — groups of one to four digits of either case; one `::` may stand for groups of
     zeros; the last two groups may be written as an IPv4 address.

  4. **Lower case and brackets** — a text in lower case has the same address, and brackets around it
     can be taken away.

  5. **Reading** — `Number.parseInt(text, 16)`, which reads a group.
-/
import CfMonitor.Lib.Json
import CfMonitor.Lib.Split
import Mathlib

namespace CfMonitor.Lib

open List (append_nil cons_append map_cons mem_append)

/-! ## Numbers -/

def isHexDigitChar (c : Char) : Bool := c.isDigit || ('a' ≤ c && c ≤ 'f') || ('A' ≤ c && c ≤ 'F')

/-- The value of a hexadecimal digit. -/
def hexDigitValue (c : Char) : Nat :=
  if c.isDigit then c.toNat - '0'.toNat
  else if 'a' ≤ c then c.toNat - 'a'.toNat + 10
  else c.toNat - 'A'.toNat + 10

/-- The value of hexadecimal digits. -/
def hexValue (digits : List Char) : Nat := digits.foldl (fun n c => 16 * n + hexDigitValue c) 0

/-- The shortest hexadecimal text of a value, in lower case. -/
def hexText (n : Nat) : List Char := Nat.toDigits 16 n

/-- The decimal text of a value. -/
def decimalText (n : Nat) : List Char := Nat.toDigits 10 n

variable {n : Nat}

theorem hexDigitValue_digitChar (h : n < 16) : hexDigitValue (Nat.digitChar n) = n := by
  interval_cases n <;> decide

theorem isHexDigitChar_digitChar (h : n < 16) : isHexDigitChar (Nat.digitChar n) = true := by
  interval_cases n <;> decide

theorem hexValue_append (digits : List Char) (c : Char) :
    hexValue (digits ++ [c]) = 16 * hexValue digits + hexDigitValue c := by
  rw [hexValue, List.foldl_append]
  rfl

/-- **A value** is read back from its text. -/
theorem hexValue_hexText (n : Nat) : hexValue (hexText n) = n := by
  induction n using Nat.strong_induction_on with
  | _ n ih =>
    rw [hexText, Nat.toDigits_eq_if (by decide)]
    split_ifs with hsmall
    · rw [hexValue, List.foldl_cons, List.foldl_nil, hexDigitValue_digitChar hsmall]
      omega
    · rw [hexValue_append, hexDigitValue_digitChar (Nat.mod_lt _ (by decide))]
      have hquotient := ih (n / 16) (by omega)
      rw [hexText] at hquotient
      omega

theorem hexText_inj {m : Nat} (h : hexText m = hexText n) : m = n := by
  rw [← hexValue_hexText m, h, hexValue_hexText]

variable {c : Char}

theorem isHexDigitChar_of_mem_hexText (h : c ∈ hexText n) : isHexDigitChar c = true := by
  induction n using Nat.strong_induction_on with
  | _ n ih =>
    rw [hexText, Nat.toDigits_eq_if (by decide)] at h
    split_ifs at h with hsmall
    · rw [List.mem_singleton.mp h]
      exact isHexDigitChar_digitChar hsmall
    · rcases mem_append.mp h with h | h
      · exact ih (n / 16) (by omega) h
      · rw [List.mem_singleton.mp h]
        exact isHexDigitChar_digitChar (Nat.mod_lt _ (by decide))

theorem toLower_of_mem_hexText (h : c ∈ hexText n) : c.toLower = c := by
  have hdigit : ∀ n < 16, (Nat.digitChar n).toLower = Nat.digitChar n := by decide
  induction n using Nat.strong_induction_on with
  | _ n ih =>
    rw [hexText, Nat.toDigits_eq_if (by decide)] at h
    split_ifs at h with hsmall
    · rw [List.mem_singleton.mp h]
      exact hdigit n hsmall
    · rcases mem_append.mp h with h | h
      · exact ih (n / 16) (by omega) h
      · rw [List.mem_singleton.mp h]
        exact hdigit (n % 16) (Nat.mod_lt _ (by decide))

theorem hexText_ne_nil (n : Nat) : hexText n ≠ [] := Nat.toDigits_ne_nil

theorem decimalText_inj {m : Nat} (h : decimalText m = decimalText n) : m = n := by
  have hm := Nat.ofDigitChars_ten_toDigits (n := m)
  rw [decimalText, decimalText] at h
  rw [← hm, h, Nat.ofDigitChars_ten_toDigits]

theorem isDigit_of_mem_decimalText (h : c ∈ decimalText n) : c.isDigit = true :=
  Nat.isDigit_of_mem_toDigits (by decide) (by decide) h

theorem decimalText_ne_nil (n : Nat) : decimalText n ≠ [] := Nat.toDigits_ne_nil

/-! ## Addresses -/

/-- An IPv4 address. -/
structure Ipv4 where
  a : Nat
  b : Nat
  c : Nat
  d : Nat
  bounds : a < 256 ∧ b < 256 ∧ c < 256 ∧ d < 256

/-- Dotted decimal. -/
def Ipv4.text (x : Ipv4) : List Char :=
  joinWith '.' [decimalText x.a, decimalText x.b, decimalText x.c, decimalText x.d]

/-- The two groups that an IPv4 address fills. -/
def Ipv4.groups (x : Ipv4) : List Nat := [x.a * 256 + x.b, x.c * 256 + x.d]

/-- An IPv6 address. -/
structure Ipv6 where
  groups : List Nat
  length : groups.length = 8
  bounds : ∀ g ∈ groups, g < 65536

@[ext] theorem Ipv6.ext' {x y : Ipv6} (h : x.groups = y.groups) : x = y := by
  cases x
  cases y
  cases h
  rfl

/-! ## Spellings -/

/-- A group as it is written. -/
structure Hextet where
  digits : List Char
  hex : ∀ c ∈ digits, isHexDigitChar c = true
  length : 1 ≤ digits.length ∧ digits.length ≤ 4

/-- A group of up to four digits. -/
def hextetOf (text : String) (h : text.toList.all isHexDigitChar = true ∧ 1 ≤ text.toList.length ∧ text.toList.length ≤ 4) :
    Hextet := ⟨text.toList, List.all_eq_true.mp h.1, h.2⟩

/-- The parts of a text of an IPv6 address: the groups in front of `::`, those behind it, and an IPv4 address at the
    end. -/
structure Ipv6Text where
  front : List Hextet
  back : Option (List Hextet)
  tail : Option Ipv4

namespace Ipv6Text

/-- The groups of the IPv4 address. -/
def tailGroups (t : Ipv6Text) : List Nat := (t.tail.map Ipv4.groups).getD []

/-- There are eight groups, or `::` stands for at least one. -/
def Valid (t : Ipv6Text) : Prop :=
  match t.back with
  | none => t.front.length + t.tailGroups.length = 8
  | some back => t.front.length + back.length + t.tailGroups.length ≤ 7

instance : (t : Ipv6Text) → Decidable t.Valid
  | ⟨front, none, tail⟩ => inferInstanceAs (Decidable (front.length + (tailGroups ⟨front, none, tail⟩).length = 8))
  | ⟨front, some back, tail⟩ =>
    inferInstanceAs (Decidable (front.length + back.length + (tailGroups ⟨front, some back, tail⟩).length ≤ 7))

/-- What is written of some groups and the IPv4 address behind them. -/
def parts (groups : List Hextet) (tail : Option Ipv4) : List (List Char) :=
  groups.map Hextet.digits ++ (tail.map Ipv4.text).toList

def text (t : Ipv6Text) : List Char :=
  match t.back with
  | none => joinWith ':' (parts t.front t.tail)
  | some back => joinWith ':' (t.front.map Hextet.digits) ++ [':', ':'] ++ joinWith ':' (parts back t.tail)

def values (groups : List Hextet) : List Nat := groups.map fun g => hexValue g.digits

/-- The groups of the address. -/
def groups (t : Ipv6Text) : List Nat :=
  match t.back with
  | none => values t.front ++ t.tailGroups
  | some back =>
    values t.front ++ List.replicate (8 - t.front.length - back.length - t.tailGroups.length) 0 ++ values back ++
      t.tailGroups

end Ipv6Text

theorem hexDigitValue_lt (h : isHexDigitChar c = true) : hexDigitValue c < 16 := by
  simp only [isHexDigitChar, Bool.or_eq_true, Bool.and_eq_true, decide_eq_true_eq] at h
  rw [hexDigitValue]
  split_ifs with hdigit hlower
  · have hbounds : 48 ≤ c.toNat ∧ c.toNat ≤ 57 := by
      simp only [Char.isDigit, Bool.and_eq_true, decide_eq_true_eq] at hdigit
      exact ⟨hdigit.1, hdigit.2⟩
    have hzero : '0'.toNat = 48 := by decide
    omega
  · rcases h with (h | ⟨-, h⟩) | ⟨-, h⟩
    · exact absurd h hdigit
    · have hhigh : c.toNat ≤ 102 := h
      have hlow : 97 ≤ c.toNat := hlower
      have ha : 'a'.toNat = 97 := by decide
      omega
    · have hhigh : c.toNat ≤ 70 := h
      have hlow : 97 ≤ c.toNat := hlower
      omega
  · rcases h with (h | ⟨h, -⟩) | ⟨hlow, hhigh⟩
    · exact absurd h hdigit
    · exact absurd h hlower
    · have hhigh : c.toNat ≤ 70 := hhigh
      have hlow : 65 ≤ c.toNat := hlow
      have ha : 'A'.toNat = 65 := by decide
      omega

theorem hexValue_lt : ∀ (digits : List Char), (∀ c ∈ digits, isHexDigitChar c = true) →
    hexValue digits < 16 ^ digits.length := by
  intro digits
  induction digits using List.reverseRecOn with
  | nil => exact fun _ => by decide
  | append_singleton digits c ih =>
    intro h
    have hdigits := ih fun d hd => h d (List.mem_append_left _ hd)
    have hc := hexDigitValue_lt (h c (by simp))
    rw [hexValue_append, List.length_append, List.length_singleton, Nat.pow_succ]
    omega

variable (g : Hextet) (groups : List Hextet)

theorem Hextet.value_lt : hexValue g.digits < 65536 := by
  have hlt := hexValue_lt g.digits g.hex
  have hpow : 16 ^ g.digits.length ≤ 16 ^ 4 := Nat.pow_le_pow_right (by decide) g.length.2
  omega

namespace Ipv6Text

theorem length_values : (values groups).length = groups.length := List.length_map _

theorem tailGroups_lt (t : Ipv6Text) : ∀ g ∈ t.tailGroups, g < 65536 := by
  intro g hg
  rw [tailGroups] at hg
  cases htail : t.tail with
  | none => simp [htail] at hg
  | some x =>
    rw [htail, Option.map_some, Option.getD_some, Ipv4.groups] at hg
    obtain ⟨ha, hb, hc, hd⟩ := x.bounds
    rcases List.mem_pair.mp hg with rfl | rfl
    · omega
    · omega

/-- **The address** of a valid text. -/
def address (t : Ipv6Text) (h : t.Valid) : Ipv6 where
  groups := t.groups
  length := by
    rw [Valid] at h
    rw [Ipv6Text.groups]
    cases hback : t.back with
    | none =>
      simp only [hback] at h
      rw [List.length_append, length_values]
      exact h
    | some back =>
      simp only [hback] at h
      simp only [List.length_append, length_values, List.length_replicate]
      omega
  bounds := by
    have hvalues : ∀ groups : List Hextet, ∀ g ∈ values groups, g < 65536 := by
      intro groups g hg
      obtain ⟨x, -, rfl⟩ := List.mem_map.mp hg
      exact x.value_lt
    intro g hg
    rw [Ipv6Text.groups] at hg
    cases hback : t.back with
    | none =>
      simp only [hback, List.mem_append] at hg
      rcases hg with hg | hg
      · exact hvalues _ g hg
      · exact t.tailGroups_lt g hg
    | some back =>
      simp only [hback, List.mem_append] at hg
      rcases hg with ((hg | hg) | hg) | hg
      · exact hvalues _ g hg
      · rw [List.eq_of_mem_replicate hg]
        decide
      · exact hvalues _ g hg
      · exact t.tailGroups_lt g hg

end Ipv6Text

/-! ## Lower case -/

/-- `toLowerCase` maps ASCII characters one by one, whatever follows them. -/
def LowersAscii (lower : String → String) : Prop :=
  ∀ front rest : List Char, (∀ c ∈ front, c.val < 128) →
    ∃ rest', lower (String.ofList (front ++ rest)) = String.ofList (front.map Char.toLower ++ rest') ∧
      (rest = [] → rest' = [])

/-- `replace(/^\[|\]$/g, '')`. -/
def stripBrackets (text : List Char) : List Char :=
  let front := if text.head? = some '[' then text.tail else text
  if front.getLast? = some ']' then front.dropLast else front

/-- `f` is the last of the digits. -/
theorem toNat_lt_of_hex (h : isHexDigitChar c = true) : c.toNat < 103 := by
  simp only [isHexDigitChar, Bool.or_eq_true, Bool.and_eq_true, decide_eq_true_eq] at h
  rcases h with (h | ⟨-, h⟩) | ⟨-, h⟩
  · simp only [Char.isDigit, Bool.and_eq_true, decide_eq_true_eq] at h
    have hhigh : c.toNat ≤ 57 := h.2
    omega
  · have hhigh : c.toNat ≤ 102 := h
    omega
  · have hhigh : c.toNat ≤ 70 := h
    omega

theorem toLower_hexDigit (h : isHexDigitChar c = true) :
    isHexDigitChar c.toLower = true ∧ hexDigitValue c.toLower = hexDigitValue c := by
  have hrange : c.toNat < 103 := toNat_lt_of_hex h
  have hall : ∀ n : Fin 103, isHexDigitChar (Char.ofNat n) = true →
      isHexDigitChar (Char.ofNat n).toLower = true ∧
        hexDigitValue (Char.ofNat n).toLower = hexDigitValue (Char.ofNat n) := by decide +kernel
  have hc := hall ⟨c.toNat, hrange⟩
  rw [Char.ofNat_toNat] at hc
  exact hc h

theorem toLower_toLower (h : isHexDigitChar c = true) : c.toLower.toLower = c.toLower := by
  have hall : ∀ n : Fin 103, (Char.ofNat n).toLower.toLower = (Char.ofNat n).toLower := by decide +kernel
  have hc := hall ⟨c.toNat, toNat_lt_of_hex h⟩
  rwa [Char.ofNat_toNat] at hc

def Hextet.lower (g : Hextet) : Hextet where
  digits := g.digits.map Char.toLower
  hex := by
    intro c hc
    obtain ⟨d, hd, rfl⟩ := List.mem_map.mp hc
    exact (toLower_hexDigit (g.hex d hd)).1
  length := by rw [List.length_map]; exact g.length

theorem Hextet.value_lower : hexValue g.lower.digits = hexValue g.digits := by
  have hfold : ∀ (digits : List Char) (n : Nat), (∀ c ∈ digits, isHexDigitChar c = true) →
      (digits.map Char.toLower).foldl (fun n c => 16 * n + hexDigitValue c) n =
        digits.foldl (fun n c => 16 * n + hexDigitValue c) n := by
    intro digits
    induction digits with
    | nil => exact fun _ _ => rfl
    | cons c rest ih =>
      intro n h
      rw [map_cons, List.foldl_cons, List.foldl_cons, (toLower_hexDigit (h c List.mem_cons_self)).2]
      exact ih _ fun d hd => h d (List.mem_cons_of_mem _ hd)
  exact hfold g.digits 0 g.hex

theorem map_joinWith {f : Char → Char} {sep : Char} (hsep : f sep = sep) : ∀ parts : List (List Char),
    (joinWith sep parts).map f = joinWith sep (parts.map (List.map f)) := by
  intro parts
  induction parts with
  | nil => rfl
  | cons part rest ih =>
    by_cases hrest : rest = []
    · subst hrest
      rw [map_cons, List.map_nil, joinWith_singleton, joinWith_singleton]
    · rw [joinWith_cons sep part hrest, List.map_append, map_cons, hsep, ih, map_cons,
        joinWith_cons sep _ (by simp [hrest])]

theorem toLower_digit (h : c.isDigit = true) : c.toLower = c := by
  simp only [Char.isDigit, Bool.and_eq_true, decide_eq_true_eq] at h
  have hhigh : c.val ≤ 57 := h.2
  rw [Char.toLower, dif_neg fun hupper => ?_]
  have hlow : 65 ≤ c.val := hupper.1
  exact absurd (UInt32.le_trans hlow hhigh) (by decide)

/-- Dotted decimal has no letters. -/
theorem Ipv4.text_lower (x : Ipv4) : x.text.map Char.toLower = x.text := by
  have hdigits : ∀ n, (decimalText n).map Char.toLower = decimalText n := by
    intro n
    conv_rhs => rw [← List.map_id (decimalText n)]
    exact List.map_congr_left fun c hc => toLower_digit (isDigit_of_mem_decimalText hc)
  rw [text, map_joinWith (by decide)]
  simp only [map_cons, List.map_nil, hdigits]

theorem Hextet.plain : Plain ':' (groups.map Hextet.digits) := by
  intro part hpart
  obtain ⟨g, -, rfl⟩ := List.mem_map.mp hpart
  refine ⟨List.ne_nil_of_length_pos g.length.1, fun hcolon => ?_⟩
  have hhex := g.hex _ hcolon
  revert hhex
  decide

namespace Ipv6Text

def lower (t : Ipv6Text) : Ipv6Text := ⟨t.front.map Hextet.lower, t.back.map (List.map Hextet.lower), t.tail⟩

variable {t : Ipv6Text}

theorem valid_lower (h : t.Valid) : t.lower.Valid := by
  rw [Valid] at h ⊢
  cases hback : t.back with
  | none =>
    simp only [hback] at h
    simpa [lower, hback, tailGroups] using h
  | some back =>
    simp only [hback] at h
    simpa [lower, hback, tailGroups] using h

theorem values_lower : values (groups.map Hextet.lower) = values groups := by
  rw [values, values, List.map_map]
  exact List.map_congr_left fun g _ => g.value_lower

/-- **The address** is the same in lower case. -/
theorem groups_lower (t : Ipv6Text) : t.lower.groups = t.groups := by
  rw [groups, groups]
  cases hback : t.back with
  | none => simp [lower, hback, tailGroups, values_lower]
  | some back => simp [lower, hback, tailGroups, values_lower]

theorem length_tailGroups (t : Ipv6Text) : t.tailGroups.length ≤ 2 := by
  rw [tailGroups]
  cases t.tail with
  | none => exact Nat.zero_le 2
  | some x => exact Nat.le_refl 2

/-- There are at least two groups, or `::`. -/
theorem colon_mem_text (h : t.Valid) : ':' ∈ t.text := by
  rw [Valid] at h
  rw [text]
  cases hback : t.back with
  | none =>
    simp only [hback] at h ⊢
    have htail := t.length_tailGroups
    match hfront : t.front, h with
    | [], h => simp only [List.length_nil] at h; omega
    | [_], h => simp only [List.length_singleton] at h; omega
    | g :: g' :: rest, _ =>
      rw [parts, map_cons, cons_append, joinWith_cons ':' _ (by simp)]
      simp
  | some back => simp

theorem text_ne_nil (h : t.Valid) : t.text ≠ [] := List.ne_nil_of_mem (colon_mem_text h)

theorem parts_none : parts groups none = groups.map Hextet.digits := by
  rw [parts, Option.map_none, Option.toList_none, append_nil]

theorem digits_lower :
    (groups.map Hextet.lower).map Hextet.digits = (groups.map Hextet.digits).map (List.map Char.toLower) := by
  rw [List.map_map, List.map_map]
  rfl

theorem parts_lower (tail : Option Ipv4) :
    parts (groups.map Hextet.lower) tail = (parts groups tail).map (List.map Char.toLower) := by
  rw [parts, parts, List.map_append, digits_lower]
  cases tail with
  | none => rfl
  | some x => simp [x.text_lower]

theorem text_lower (t : Ipv6Text) : t.lower.text = t.text.map Char.toLower := by
  have hcolon : ':'.toLower = ':' := by decide
  rw [text, text]
  cases hback : t.back with
  | none =>
    simp only [lower, hback, Option.map_none]
    rw [map_joinWith hcolon, parts_lower]
  | some back =>
    simp only [lower, hback, Option.map_some]
    rw [List.map_append, List.map_append, map_joinWith hcolon, map_joinWith hcolon, parts_lower, digits_lower]
    rfl

end Ipv6Text

/-! ## Characters of addresses -/

/-- What no address is written with is not there. -/
structure AddressChar (c : Char) : Prop where
  ascii : c.val < 128
  kept : isTrimmed c = false
  zone : c ≠ '%'
  opening : c ≠ '['
  closing : c ≠ ']'

theorem AddressChar.lower (h : AddressChar c) : c.toLower ≠ '[' ∧ c.toLower ≠ ']' := by
  have hall : ∀ n : Fin 128, Char.ofNat n ≠ '[' → Char.ofNat n ≠ ']' →
      (Char.ofNat n).toLower ≠ '[' ∧ (Char.ofNat n).toLower ≠ ']' := by decide +kernel
  have hc := hall ⟨c.toNat, h.ascii⟩
  rw [Char.ofNat_toNat] at hc
  exact hc h.opening h.closing

theorem addressChar_of_hex (h : isHexDigitChar c = true) : AddressChar c := by
  have hrange : c.toNat < 103 := toNat_lt_of_hex h
  have hall : ∀ n : Fin 103, isHexDigitChar (Char.ofNat n) = true → (Char.ofNat n).val < 128 ∧
      isTrimmed (Char.ofNat n) = false ∧ Char.ofNat n ≠ '%' ∧ Char.ofNat n ≠ '[' ∧ Char.ofNat n ≠ ']' := by
    decide +kernel
  have hc := hall ⟨c.toNat, hrange⟩
  rw [Char.ofNat_toNat] at hc
  obtain ⟨hascii, hkept, hzone, hopening, hclosing⟩ := hc h
  exact ⟨hascii, hkept, hzone, hopening, hclosing⟩

theorem digit_or_dot {x : Ipv4} (h : c ∈ x.text) : c.isDigit = true ∨ c = '.' := by
  rcases mem_joinWith h with rfl | ⟨part, hpart, h⟩
  · exact .inr rfl
  · simp only [List.mem_cons, List.not_mem_nil, or_false] at hpart
    rcases hpart with rfl | rfl | rfl | rfl <;> exact .inl (isDigit_of_mem_decimalText h)

theorem Ipv4.text_ne_nil (x : Ipv4) : x.text ≠ [] := by
  rw [Ipv4.text, joinWith_cons '.' _ (by simp)]
  simp

theorem Ipv4.colon_notMem_text (x : Ipv4) : ':' ∉ x.text := by
  intro h
  rcases digit_or_dot h with h | h
  · cases h
  · cases h

theorem Ipv4.splitOn_text (x : Ipv4) :
    x.text.splitOn '.' = [decimalText x.a, decimalText x.b, decimalText x.c, decimalText x.d] := by
  refine splitOn_join (List.cons_ne_nil _ _) fun part hpart hdot => ?_
  simp only [List.mem_cons, List.not_mem_nil, or_false] at hpart
  rcases hpart with rfl | rfl | rfl | rfl <;> cases isDigit_of_mem_decimalText hdot

theorem addressChar_of_ipv4 {x : Ipv4} (h : c ∈ x.text) : AddressChar c := by
  rcases digit_or_dot h with hdigit | rfl
  · exact addressChar_of_hex (by rw [isHexDigitChar, hdigit, Bool.true_or, Bool.true_or])
  · exact ⟨by decide, by decide, by decide, by decide, by decide⟩

theorem Ipv6Text.plain_parts (tail : Option Ipv4) : Plain ':' (Ipv6Text.parts groups tail) := by
  intro part hpart
  rcases mem_append.mp hpart with hpart | hpart
  · exact Hextet.plain groups part hpart
  · obtain ⟨x, -, rfl⟩ := Option.map_eq_some_iff.mp (Option.mem_toList.mp hpart)
    exact ⟨x.text_ne_nil, x.colon_notMem_text⟩

/-- **A text of an address** has digits, colons and dots. -/
theorem hex_or_sign {t : Ipv6Text} (h : c ∈ t.text) : isHexDigitChar c = true ∨ c = ':' ∨ c = '.' := by
  have hdigits : ∀ groups : List Hextet, ∀ part ∈ groups.map Hextet.digits, c ∈ part → isHexDigitChar c = true := by
    intro groups part hpart h
    obtain ⟨g, -, rfl⟩ := List.mem_map.mp hpart
    exact g.hex c h
  have hjoin : ∀ groups : List Hextet, c ∈ joinWith ':' (groups.map Hextet.digits) →
      isHexDigitChar c = true ∨ c = ':' ∨ c = '.' := by
    intro groups h
    rcases mem_joinWith h with h | ⟨part, hpart, h⟩
    · exact .inr (.inl h)
    · exact .inl (hdigits groups part hpart h)
  have hparts : ∀ groups : List Hextet, c ∈ joinWith ':' (Ipv6Text.parts groups t.tail) →
      isHexDigitChar c = true ∨ c = ':' ∨ c = '.' := by
    intro groups h
    rcases mem_joinWith h with h | ⟨part, hpart, h⟩
    · exact .inr (.inl h)
    · rcases mem_append.mp hpart with hpart | hpart
      · exact .inl (hdigits groups part hpart h)
      · obtain ⟨x, -, rfl⟩ := Option.map_eq_some_iff.mp (Option.mem_toList.mp hpart)
        rcases digit_or_dot h with hdigit | hdot
        · exact .inl (by rw [isHexDigitChar, hdigit, Bool.true_or, Bool.true_or])
        · exact .inr (.inr hdot)
  rw [Ipv6Text.text] at h
  cases hback : t.back with
  | none =>
    simp only [hback] at h
    exact hparts _ h
  | some back =>
    simp only [hback] at h
    rcases mem_append.mp h with h | h
    · rcases mem_append.mp h with h | h
      · exact hjoin _ h
      · rcases List.mem_pair.mp h with h | h
        · exact .inr (.inl h)
        · exact .inr (.inl h)
    · exact hparts _ h

theorem addressChar_of_text {t : Ipv6Text} (h : c ∈ t.text) : AddressChar c := by
  rcases hex_or_sign h with h | rfl | rfl
  · exact addressChar_of_hex h
  · exact ⟨by decide, by decide, by decide, by decide, by decide⟩
  · exact ⟨by decide, by decide, by decide, by decide, by decide⟩

/-! ## Reading -/

/-- `Number.parseInt(text, 16)`. -/
def parseHex (text : List Char) : Option Int :=
  let text := text.dropWhile isTrimmed
  let negative := text.head? == some '-'
  let text := if negative || text.head? == some '+' then text.tail else text
  let text := if text.take 2 == ['0', 'x'] || text.take 2 == ['0', 'X'] then text.drop 2 else text
  let digits := text.takeWhile isHexDigitChar
  if digits.isEmpty then none else some (if negative then -hexValue digits else hexValue digits)

theorem trim_front {front : List Char} (rest : List Char) (hne : front ≠ []) (h : ∀ c ∈ front, isTrimmed c = false) :
    ∃ rest', trim (String.ofList (front ++ rest)) = String.ofList (front ++ rest') ∧ (rest = [] → rest' = []) := by
  refine ⟨(rest.reverse.dropWhile isTrimmed).reverse, ?_, fun hrest => by rw [hrest]; rfl⟩
  have hfront : (front ++ rest).dropWhile isTrimmed = front ++ rest := by
    obtain ⟨c, more, rfl⟩ := List.exists_cons_of_ne_nil hne
    rw [cons_append, List.dropWhile_cons_of_neg (by rw [h c List.mem_cons_self]; exact Bool.false_ne_true)]
  have hback : front.reverse.dropWhile isTrimmed = front.reverse := by
    rw [List.dropWhile_eq_self_iff]
    intro hpos
    rw [h _ (List.mem_reverse.mp (List.getElem_mem hpos))]
    exact Bool.false_ne_true
  rw [trim, String.toList_ofList, hfront, List.reverse_append, List.dropWhile_append, hback]
  split_ifs with hempty
  · rw [List.isEmpty_iff.mp hempty, List.reverse_reverse, List.reverse_nil, append_nil]
  · rw [List.reverse_append, List.reverse_reverse]

theorem stripBrackets_around {text opening closing : List Char} (hne : text ≠ []) (hchars : ∀ c ∈ text, c ≠ '[' ∧ c ≠ ']')
    (hopening : opening = [] ∨ opening = ['[']) (hclosing : closing = [] ∨ closing = [']']) :
    stripBrackets (opening ++ text ++ closing) = text := by
  have hfront : (if (opening ++ text ++ closing).head? = some '[' then (opening ++ text ++ closing).tail
      else opening ++ text ++ closing) = text ++ closing := by
    rcases hopening with rfl | rfl
    · obtain ⟨c, more, rfl⟩ := List.exists_cons_of_ne_nil hne
      rw [List.nil_append, cons_append, List.head?_cons, if_neg]
      exact fun h => (hchars c List.mem_cons_self).1 (Option.some.inj h)
    · rfl
  rw [stripBrackets]
  simp only [hfront]
  rcases hclosing with rfl | rfl
  · rw [append_nil, if_neg]
    exact fun h => (hchars _ (List.mem_of_getLast? h)).2 rfl
  · rw [List.getLast?_concat, if_pos rfl, List.dropLast_concat]

variable {digits : List Char}

theorem parseHex_digits {rest : List Char} (hne : digits ≠ []) (hhex : ∀ c ∈ digits, isHexDigitChar c = true)
    (hrest : ∀ c ∈ rest.head?, isHexDigitChar c = false ∧ c ≠ 'x' ∧ c ≠ 'X') :
    parseHex (digits ++ rest) = some (hexValue digits : Int) := by
  obtain ⟨c, more, hdigits⟩ := List.exists_cons_of_ne_nil hne
  have hc := hhex c (by rw [hdigits]; exact List.mem_cons_self)
  have hplain : ∀ d, isHexDigitChar d = true → isTrimmed d = false ∧ d ≠ '-' ∧ d ≠ '+' ∧ d ≠ 'x' ∧ d ≠ 'X' := by
    intro d hd
    refine ⟨(addressChar_of_hex hd).kept, ?_, ?_, ?_, ?_⟩ <;> (rintro rfl; revert hd; decide)
  have hdrop : (digits ++ rest).dropWhile isTrimmed = digits ++ rest := by
    rw [hdigits, cons_append, List.dropWhile_cons_of_neg (by rw [(hplain c hc).1]; exact Bool.false_ne_true)]
  have hminus : ((digits ++ rest).head? == some '-') = false := by
    rw [hdigits, cons_append, List.head?_cons]
    exact beq_false_of_ne fun h => (hplain c hc).2.1 (Option.some.inj h)
  have hplus : ((digits ++ rest).head? == some '+') = false := by
    rw [hdigits, cons_append, List.head?_cons]
    exact beq_false_of_ne fun h => (hplain c hc).2.2.1 (Option.some.inj h)
  -- The second character is a digit, or the first that is none.
  have hsecond : ∀ x, (digits ++ rest).take 2 = ['0', x] → x ≠ 'x' ∧ x ≠ 'X' := by
    intro x hx
    rw [hdigits] at hx
    cases more with
    | nil =>
      cases rest with
      | nil => cases congrArg List.length hx
      | cons d rest =>
        obtain rfl : d = x := by simpa using (List.cons.inj hx).2
        exact (hrest d (by simp)).2
    | cons d more =>
      obtain rfl : d = x := by simpa using (List.cons.inj hx).2
      exact (hplain d (hhex d (by rw [hdigits]; simp))).2.2.2
  have hnox : ((digits ++ rest).take 2 == ['0', 'x'] || (digits ++ rest).take 2 == ['0', 'X']) = false := by
    rw [Bool.or_eq_false_iff]
    exact ⟨beq_false_of_ne fun h => (hsecond _ h).1 rfl, beq_false_of_ne fun h => (hsecond _ h).2 rfl⟩
  have htake : (digits ++ rest).takeWhile isHexDigitChar = digits := by
    rw [List.takeWhile_append_of_pos hhex]
    cases rest with
    | nil => rw [List.takeWhile_nil, append_nil]
    | cons d rest =>
      rw [List.takeWhile_cons_of_neg (by rw [(hrest d (by simp)).1]; exact Bool.false_ne_true), append_nil]
  have hempty : digits.isEmpty = false := List.isEmpty_eq_false_iff.mpr hne
  simp only [parseHex, hdrop, hminus, hplus, hnox, htake, hempty, Bool.or_self, Bool.false_eq_true, if_false]

theorem parseHex_hextet : parseHex g.digits = some (hexValue g.digits : Int) := by
  have hread := parseHex_digits (List.ne_nil_of_length_pos g.length.1) g.hex (fun c hc => by simp at hc :
    ∀ c ∈ ([] : List Char).head?, isHexDigitChar c = false ∧ c ≠ 'x' ∧ c ≠ 'X')
  rwa [append_nil] at hread

theorem hexValue_inj : ∀ {digits digits' : List Char}, digits.length = digits'.length →
    (∀ c ∈ digits, isHexDigitChar c = true ∧ c.toLower = c) → (∀ c ∈ digits', isHexDigitChar c = true ∧ c.toLower = c) →
    hexValue digits = hexValue digits' → digits = digits' := by
  have hdigit : ∀ {c d : Char}, isHexDigitChar c = true ∧ c.toLower = c → isHexDigitChar d = true ∧ d.toLower = d →
      hexDigitValue c = hexDigitValue d → c = d := by
    intro c d hc hd h
    have hall : ∀ m n : Fin 103, isHexDigitChar (Char.ofNat m) = true ∧ (Char.ofNat m).toLower = Char.ofNat m →
        isHexDigitChar (Char.ofNat n) = true ∧ (Char.ofNat n).toLower = Char.ofNat n →
        hexDigitValue (Char.ofNat m) = hexDigitValue (Char.ofNat n) → Char.ofNat m = Char.ofNat n := by decide +kernel
    have hcd := hall ⟨c.toNat, toNat_lt_of_hex hc.1⟩ ⟨d.toNat, toNat_lt_of_hex hd.1⟩
    rw [Char.ofNat_toNat, Char.ofNat_toNat] at hcd
    exact hcd hc hd h
  intro digits
  induction digits using List.reverseRecOn with
  | nil => exact fun hlength _ _ _ => (List.length_eq_zero_iff.mp hlength.symm).symm
  | append_singleton digits c ih =>
    intro digits' hlength h h' hvalue
    obtain rfl | ⟨front, d, rfl⟩ := List.eq_nil_or_concat digits'
    · simp at hlength
    rw [List.concat_eq_append] at hlength hvalue h' ⊢
    rw [hexValue_append, hexValue_append] at hvalue
    have hc := h c (by simp)
    have hd := h' d (by simp)
    have hclt := hexDigitValue_lt hc.1
    have hdlt := hexDigitValue_lt hd.1
    obtain rfl := hdigit hc hd (by omega)
    rw [ih (by simpa using hlength) (fun x hx => h x (List.mem_append_left _ hx))
      (fun x hx => h' x (List.mem_append_left _ hx)) (by omega)]

/-- **A group in lower case** is told by its length and its value. -/
theorem Hextet.lower_eq_iff (h : ∀ c ∈ digits, isHexDigitChar c = true ∧ c.toLower = c) :
    g.lower.digits = digits ↔ g.digits.length = digits.length ∧ hexValue g.digits = hexValue digits := by
  have hlower : ∀ c ∈ g.lower.digits, isHexDigitChar c = true ∧ c.toLower = c := by
    intro c hc
    obtain ⟨d, hd, rfl⟩ := List.mem_map.mp hc
    exact ⟨(toLower_hexDigit (g.hex d hd)).1, toLower_toLower (g.hex d hd)⟩
  have hlength : g.lower.digits.length = g.digits.length := List.length_map _
  refine ⟨fun heq => ?_, fun ⟨hsame, hvalue⟩ => ?_⟩
  · rw [← hlength, ← g.value_lower, heq]
    exact ⟨rfl, rfl⟩
  · exact hexValue_inj (hlength.trans hsame) hlower h (g.value_lower.trans hvalue)

/-- Groups with a first digit other than zero have four digits. -/
theorem Hextet.length_of_value (h : 0x1000 ≤ hexValue g.digits) : g.digits.length = 4 := by
  have hlt := hexValue_lt g.digits g.hex
  by_contra hne
  have hle : g.digits.length ≤ 3 := by
    have hfour := g.length.2
    omega
  have hpow : 16 ^ g.digits.length ≤ 16 ^ 3 := Nat.pow_le_pow_right (by decide) hle
  omega

theorem Hextet.lower_ffff : g.lower.digits = "ffff".toList ↔ hexValue g.digits = 0xffff := by
  rw [g.lower_eq_iff (by decide)]
  have hvalue : hexValue "ffff".toList = 0xffff := by decide
  rw [hvalue]
  exact ⟨And.right, fun h => ⟨g.length_of_value (by omega), h⟩⟩

theorem Hextet.lower_2001 : g.lower.digits = "2001".toList ↔ hexValue g.digits = 0x2001 := by
  rw [g.lower_eq_iff (by decide)]
  have hvalue : hexValue "2001".toList = 0x2001 := by decide
  rw [hvalue]
  exact ⟨And.right, fun h => ⟨g.length_of_value (by omega), h⟩⟩

end CfMonitor.Lib
