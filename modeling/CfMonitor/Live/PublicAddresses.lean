/-
  Which texts count as public addresses (`parseIpv4` and `isPublicIpAddress` in `request-ip.ts`).

  1. **Program** — octets are read by `Number`, groups by `Number.parseInt`, and the rest by the look of
     the text.  `Number` and `toLowerCase` are parameters.

  2. **What is accepted** — three kinds of texts (`PublicText`), none of which asks for an address.

  3. **Spellings** — the address that a text denotes has one right answer (`publicAddress`).  A text of an
     IPv4 address gets it; a text of an IPv6 address gets it unless it is one of the spellings that are
     `Misread`: `::` in front of a group that looks public, `0db8`, an IPv4-mapped address in
     hexadecimal, and `ffff` in front of an IPv4 address where nothing is mapped.
-/
import Mathlib
import CfMonitor.Lib.IpText

namespace CfMonitor.Live

open CfMonitor.Lib
open Ipv6Text (lower parts plain_parts tailGroups text valid_lower values)

/-! ## Program -/

/-- What is used from elsewhere: `toLowerCase`, and `Number`, which may be no finite number. -/
structure TextRules where
  lower : String → String
  numberOf : List Char → Option ℚ

/-- What is documented of them. -/
structure TextRules.Lawful (rules : TextRules) : Prop where
  lower : LowersAscii rules.lower
  decimal : ∀ n < 256, rules.numberOf (decimalText n) = some (n : ℚ)
  colon : ∀ text, ':' ∈ text → rules.numberOf text = none

/-- The value of an octet. -/
def octetOf (num : ℚ) : Option Nat := if num.den = 1 ∧ 0 ≤ num ∧ num ≤ 255 then some num.num.toNat else none

/-- `/^\d{1,3}(?:\.\d{1,3}){3}$/`. -/
def isDotted (text : List Char) : Bool :=
  let parts := text.splitOn '.'
  parts.length == 4 && parts.all fun part => 1 ≤ part.length && part.length ≤ 3 && part.all Char.isDigit

/-- `ip.match(/(?:^|:)ffff:(\d{1,3}(?:\.\d{1,3}){3})$/)?.[1]`: what stands behind the last two colons. -/
def mappedIpv4 (ip : List Char) : Option (List Char) :=
  match (ip.splitOn ':').reverse with
  | text :: group :: _ => if group = "ffff".toList ∧ isDotted text = true then some text else none
  | _ => none

/-- The networks of `isPublicIpAddress`. -/
def isPublicIpv4 : List Nat → Bool
  | [a, b, c, _] =>
    !(a == 0 || a == 10 || a == 127 || 224 ≤ a || (a == 100 && 64 ≤ b && b ≤ 127) || (a == 169 && b == 254) ||
      (a == 172 && 16 ≤ b && b ≤ 31) || (a == 192 && b == 0) || (a == 192 && b == 168) ||
      (a == 198 && (b == 18 || b == 19)) || (a == 198 && b == 51 && c == 100) || (a == 203 && b == 0 && c == 113))
  | _ => false

/-- `value & mask`, of the 32 bits that are left of a number. -/
def masked (value : Int) (mask : BitVec 32) : BitVec 32 := BitVec.ofInt 32 value &&& mask

/-- The first group that is written; none counts as zero. -/
def firstHextet (ip : List Char) : Option Int :=
  match (ip.splitOn ':').find? fun part => !part.isEmpty with
  | some first => parseHex first
  | none => some 0

/-- The answer for a text with a colon that ends in no IPv4 address. -/
def isPublicIpv6 (ip : List Char) : Bool :=
  match firstHextet ip with
  | none => false
  | some firstHextet =>
    !(ip == "::".toList || ip == "::1".toList || masked firstHextet 0xfe00 == 0xfc00 ||
      masked firstHextet 0xffc0 == 0xfe80 || masked firstHextet 0xff00 == 0xff00 ||
      "2001:db8:".toList.isPrefixOf ip) && 0x2000 ≤ firstHextet && firstHextet ≤ 0x3fff

section

variable (rules : TextRules)

/-- `parseIpv4`. -/
def readIpv4 (ip : List Char) : Option (List Nat) :=
  let parts := (trim (String.ofList ip)).toList.splitOn '.'
  if parts.length = 4 then parts.mapM fun part => (rules.numberOf part).bind octetOf else none

/-- The text that is looked at. -/
def plainText (value : String) : List Char :=
  (rules.lower (String.ofList (stripBrackets (trim value).toList))).toList

/-- `isPublicIpAddress`, with the number of calls that it may make of itself. -/
def isPublicWithin : Nat → String → Bool
  | 0, _ => false
  | calls + 1, value =>
    let ip := plainText rules value
    if ip = [] then false
    else match readIpv4 rules ip with
      | some octets => isPublicIpv4 octets
      | none =>
        if ':' ∉ ip then false
        else match mappedIpv4 ip with
          | some text => isPublicWithin calls (String.ofList text)
          | none => isPublicIpv6 ip

/-- `isPublicIpAddress`; a second call makes no further one (`isPublicWithin_enough`). -/
def isPublicIpAddress (value : String) : Bool := isPublicWithin rules 2 value

end

/-! ## What is denoted -/

/-- A text is written as it is, or in brackets, with blanks around it. -/
def Spells (value : String) (text : List Char) : Prop :=
  (trim value).toList = text ∨ (trim value).toList = '[' :: text ++ [']']

/-- The octets of an IPv4 address. -/
def octets (x : Ipv4) : List Nat := [x.a, x.b, x.c, x.d]

/-- A text denotes an address. -/
def Denotes (value : String) : Prop :=
  (∃ x : Ipv4, Spells value x.text) ∨ ∃ t : Ipv6Text, t.Valid ∧ Spells value t.text

/-- An IPv4-mapped address. -/
def isMapped (groups : List Nat) : Bool := groups.take 6 == [0, 0, 0, 0, 0, 0xffff]

/-- The octets of the last two groups. -/
def lastOctets (groups : List Nat) : List Nat := (groups.drop 6).flatMap fun group => [group / 256, group % 256]

/-- Global unicast, and no documentation. -/
def isGlobal (groups : List Nat) : Bool :=
  0x2000 ≤ groups.getD 0 0 && groups.getD 0 0 ≤ 0x3fff && !(groups.getD 0 0 == 0x2001 && groups.getD 1 0 == 0xdb8)

/-- The answer for an address. -/
def publicAddress (groups : List Nat) : Bool :=
  if isMapped groups then isPublicIpv4 (lastOctets groups) else isGlobal groups

/-! ## What is accepted -/

/-- The texts that are accepted: four parts that `Number` reads as the octets of a public address; a text behind whose
    last two colons `ffff` and a public address stand; a text whose first written group looks public. -/
def PublicText (rules : TextRules) (ip : List Char) : Prop :=
  (∃ octets, readIpv4 rules ip = some octets ∧ isPublicIpv4 octets = true) ∨
  (':' ∈ ip ∧ ∃ text octets, mappedIpv4 ip = some text ∧ readIpv4 rules text = some octets ∧
    isPublicIpv4 octets = true) ∨
  (':' ∈ ip ∧ mappedIpv4 ip = none ∧ ∃ first, firstHextet ip = some first ∧ 0x2000 ≤ first ∧ first ≤ 0x3fff ∧
    "2001:db8:".toList.isPrefixOf ip = false)

variable {c : Char}

theorem mem_dropWhile {p : Char → Bool} {text : List Char} (hc : c ∈ text) (h : p c = false) :
    c ∈ text.dropWhile p := by
  rw [← List.takeWhile_append_dropWhile (p := p) (l := text)] at hc
  rcases List.mem_append.mp hc with hc | hc
  · rw [List.mem_takeWhile_imp hc] at h
    exact Bool.noConfusion h
  · exact hc

theorem mem_trim {text : String} (h : isTrimmed c = false) (hc : c ∈ text.toList) : c ∈ (trim text).toList := by
  rw [trim, String.toList_ofList, List.mem_reverse]
  exact mem_dropWhile (List.mem_reverse.mpr (mem_dropWhile hc h)) h

theorem mapM_eq_none {α β : Type} {f : α → Option β} {a : α} (hf : f a = none) : ∀ {items : List α}, a ∈ items →
    items.mapM f = none := by
  intro items
  induction items with
  | nil => exact nofun
  | cons first rest ih =>
    intro h
    rw [List.mapM_cons]
    rcases List.mem_cons.mp h with rfl | h
    · rw [hf]
      rfl
    · rw [ih h]
      cases f first with
      | none => rfl
      | some value => rfl

variable {rules : TextRules}

variable {ip : List Char}

theorem readIpv4_colon (hlaw : rules.Lawful) (h : ':' ∈ ip) : readIpv4 rules ip = none := by
  have htrim : ':' ∈ (trim (String.ofList ip)).toList := mem_trim (by decide) (by rwa [String.toList_ofList])
  obtain ⟨part, hpart, hcolon⟩ := mem_part_of_mem htrim (by decide : ':' ≠ '.')
  rw [readIpv4]
  split_ifs
  · refine mapM_eq_none ?_ hpart
    rw [hlaw.colon part hcolon, Option.bind_none]
  · rfl

theorem digit_or_dot_of_dotted {text : List Char} (h : isDotted text = true) (hc : c ∈ text) :
    c.isDigit = true ∨ c = '.' := by
  by_cases hdot : c = '.'
  · exact .inr hdot
  · obtain ⟨part, hpart, hc⟩ := mem_part_of_mem hc hdot
    simp only [isDotted, Bool.and_eq_true, List.all_eq_true, decide_eq_true_eq] at h
    exact .inl ((h.2 part hpart).2 c hc)

theorem addressChar_of_dotted {text : List Char} (h : isDotted text = true) (hc : c ∈ text) : AddressChar c := by
  rcases digit_or_dot_of_dotted h hc with hdigit | rfl
  · exact addressChar_of_hex (by rw [isHexDigitChar, hdigit, Bool.true_or, Bool.true_or])
  · exact ⟨by decide, by decide, by decide, by decide, by decide⟩

/-- **The text that is looked at** of a spelling is the text itself in lower case. -/
theorem plainText_spells (hlaw : rules.Lawful) {value : String} {text : List Char} (hne : text ≠ [])
    (hchars : ∀ c ∈ text, AddressChar c) (h : Spells value text) : plainText rules value = text.map Char.toLower := by
  have hbrackets : ∀ c ∈ text, c ≠ '[' ∧ c ≠ ']' := fun c hc => ⟨(hchars c hc).opening, (hchars c hc).closing⟩
  have hstrip : stripBrackets (trim value).toList = text := by
    rcases h with h | h
    · have haround := stripBrackets_around hne hbrackets (.inl rfl) (.inl rfl)
      rw [h]
      simpa using haround
    · rw [h]
      exact stripBrackets_around hne hbrackets (.inr rfl) (.inr rfl)
  obtain ⟨rest, hlower, hnil⟩ := hlaw.lower text [] fun c hc => (hchars c hc).ascii
  rw [List.append_nil] at hlower
  rw [plainText, hstrip, hlower, hnil rfl, List.append_nil, String.toList_ofList]

theorem trim_plain {text : List Char} (hne : text ≠ []) (h : ∀ c ∈ text, AddressChar c) :
    trim (String.ofList text) = String.ofList text := by
  obtain ⟨rest, htrim, hnil⟩ := trim_front [] hne fun c hc => (h c hc).kept
  rwa [hnil rfl, List.append_nil] at htrim

theorem plainText_dotted (hlaw : rules.Lawful) {text : List Char} (h : isDotted text = true) :
    text ≠ [] ∧ ':' ∉ text ∧ plainText rules (String.ofList text) = text := by
  have hne : text ≠ [] := by
    rintro rfl
    cases h
  refine ⟨hne, fun hcolon => ?_, ?_⟩
  · rcases digit_or_dot_of_dotted h hcolon with hc | hc
    · cases hc
    · cases hc
  · have hchars : ∀ c ∈ text, AddressChar c := fun c hc => addressChar_of_dotted h hc
    have hspells : Spells (String.ofList text) text := by
      rw [Spells, trim_plain hne hchars, String.toList_ofList]
      exact .inl rfl
    rw [plainText_spells hlaw hne hchars hspells]
    conv_rhs => rw [← List.map_id text]
    refine List.map_congr_left fun c hc => ?_
    rcases digit_or_dot_of_dotted h hc with hdigit | rfl
    · exact toLower_digit hdigit
    · decide

/-- **The second call** makes no further one. -/
theorem isPublicWithin_dotted (hlaw : rules.Lawful) (calls : Nat) {text : List Char}
    (h : isDotted text = true) : isPublicWithin rules (calls + 1) (String.ofList text) = true ↔
      ∃ octets, readIpv4 rules text = some octets ∧ isPublicIpv4 octets = true := by
  obtain ⟨hne, hcolon, hplain⟩ := plainText_dotted hlaw h
  simp only [isPublicWithin, hplain]
  rw [if_neg hne]
  cases readIpv4 rules text with
  | none => simp [hcolon]
  | some octets => simp

theorem isDotted_of_mapped {text : List Char} (h : mappedIpv4 ip = some text) :
    isDotted text = true ∧ text ∈ ip.splitOn ':' := by
  rw [mappedIpv4] at h
  split at h
  · rename_i last group front hparts
    split_ifs at h with hboth
    cases h
    refine ⟨hboth.2, List.mem_reverse.mp ?_⟩
    rw [hparts]
    exact List.mem_cons_self
  · cases h

theorem masked_ne {value : Int} {mask target : BitVec 32} (hbit : target.getLsbD 15 = true)
    (hlow : 0 ≤ value) (hhigh : value ≤ 0x3fff) : masked value mask ≠ target := by
  intro h
  have hnat : (BitVec.ofInt 32 value).toNat = value.toNat := by
    rw [BitVec.toNat_ofInt]
    omega
  have hclear : (masked value mask).getLsbD 15 = false := by
    rw [masked, BitVec.getLsbD_and, BitVec.getLsbD, hnat, Nat.testBit_lt_two_pow (by omega), Bool.false_and]
  rw [h, hbit] at hclear
  exact Bool.noConfusion hclear

/-- What is asked of a text with a colon. -/
theorem isPublicIpv6_iff (ip : List Char) : isPublicIpv6 ip = true ↔ ∃ first, firstHextet ip = some first ∧
    0x2000 ≤ first ∧ first ≤ 0x3fff ∧ "2001:db8:".toList.isPrefixOf ip = false := by
  rw [isPublicIpv6]
  cases h : firstHextet ip with
  | none => simp
  | some first =>
    simp only [Bool.and_eq_true, decide_eq_true_eq, Bool.not_eq_true', Bool.or_eq_false_iff, beq_eq_false_iff_ne]
    refine ⟨fun ⟨⟨hnot, hlow⟩, hhigh⟩ => ⟨first, rfl, hlow, hhigh, hnot.2⟩, fun ⟨_, hsame, hlow, hhigh, hdocumentation⟩ => ?_⟩
    cases hsame
    have hzero : ip ≠ "::".toList := by
      rintro rfl
      have hvalue : (0 : Int) = first := Option.some.inj h
      omega
    have hone : ip ≠ "::1".toList := by
      rintro rfl
      have hvalue : (1 : Int) = first := Option.some.inj h
      omega
    have hunique : masked first 0xfe00 ≠ 0xfc00 := masked_ne (by decide) (by omega) hhigh
    have hlink : masked first 0xffc0 ≠ 0xfe80 := masked_ne (by decide) (by omega) hhigh
    have hmulticast : masked first 0xff00 ≠ 0xff00 := masked_ne (by decide) (by omega) hhigh
    exact ⟨⟨⟨⟨⟨⟨⟨hzero, hone⟩, hunique⟩, hlink⟩, hmulticast⟩, hdocumentation⟩, hlow⟩, hhigh⟩

/-- **What is accepted.** -/
theorem isPublicWithin_iff (hlaw : rules.Lawful) (calls : Nat) (value : String) :
    isPublicWithin rules (calls + 2) value = true ↔ PublicText rules (plainText rules value) := by
  rw [isPublicWithin, PublicText]
  generalize plainText rules value = ip
  by_cases hempty : ip = []
  · subst hempty
    have hread : readIpv4 rules [] = none := rfl
    simp [hread]
  rw [if_neg hempty]
  by_cases hcolon : ':' ∈ ip
  · rw [readIpv4_colon hlaw hcolon]
    simp only [hcolon, not_true_eq_false, if_false]
    cases hmapped : mappedIpv4 ip with
    | none => simp [isPublicIpv6_iff]
    | some text =>
      have hdotted := isPublicWithin_dotted hlaw calls (isDotted_of_mapped hmapped).1
      simp only [hdotted]
      simp
  · cases hread : readIpv4 rules ip with
    | none => simp [hcolon]
    | some octets => simp [hcolon]

theorem octetOf_natCast {n : Nat} (h : n < 256) : octetOf (n : ℚ) = some n := by
  have hle : (n : ℚ) ≤ 255 := by exact_mod_cast Nat.le_of_lt_succ h
  rw [octetOf, if_pos ⟨Rat.den_natCast n, Nat.cast_nonneg n, hle⟩, Rat.num_natCast, Int.toNat_natCast]

theorem readIpv4_text (hlaw : rules.Lawful) (x : Ipv4) : readIpv4 rules x.text = some (octets x) := by
  obtain ⟨ha, hb, hc, hd⟩ := x.bounds
  rw [readIpv4, trim_plain x.text_ne_nil fun c hc => addressChar_of_ipv4 hc, String.toList_ofList, x.splitOn_text]
  simp [hlaw.decimal _ ha, hlaw.decimal _ hb, hlaw.decimal _ hc, hlaw.decimal _ hd, octetOf_natCast ha,
    octetOf_natCast hb, octetOf_natCast hc, octetOf_natCast hd, octets]

theorem length_decimalText {n : Nat} (h : n < 256) : (decimalText n).length ≤ 3 := by
  have hall : ∀ i : Fin 256, (decimalText i).length ≤ 3 := by decide +kernel
  exact hall ⟨n, h⟩

theorem isDotted_text (x : Ipv4) : isDotted x.text = true := by
  obtain ⟨ha, hb, hc, hd⟩ := x.bounds
  have hpart : ∀ n < 256, (1 ≤ (decimalText n).length && (decimalText n).length ≤ 3 &&
      (decimalText n).all Char.isDigit) = true := by
    intro n hn
    have hpos := List.length_pos_of_ne_nil (decimalText_ne_nil n)
    simp only [Bool.and_eq_true, decide_eq_true_eq, List.all_eq_true]
    exact ⟨⟨hpos, length_decimalText hn⟩, fun c hc => isDigit_of_mem_decimalText hc⟩
  rw [isDotted, x.splitOn_text]
  simp only [List.all_cons, List.all_nil, hpart _ ha, hpart _ hb, hpart _ hc, hpart _ hd]
  rfl

/-- **An IPv4 address** is always answered by its octets. -/
theorem isPublic_ipv4 (hlaw : rules.Lawful) (x : Ipv4) {value : String} (h : Spells value x.text) :
    isPublicIpAddress rules value = isPublicIpv4 (octets x) := by
  have hplain := plainText_spells hlaw x.text_ne_nil (fun c hc => addressChar_of_ipv4 hc) h
  rw [x.text_lower] at hplain
  rw [Bool.eq_iff_iff, isPublicIpAddress, isPublicWithin_iff hlaw 0, hplain, PublicText]
  simp [readIpv4_text hlaw, x.colon_notMem_text]

/-! ## IPv6 addresses -/

/-- A group that looks like global unicast. -/
def looksPublic (group : Nat) : Bool := 0x2000 ≤ group && group ≤ 0x3fff

/-- The first part that is not empty. -/
def firstPart (parts : List (List Char)) : Option (List Char) := parts.find? fun part => !part.isEmpty

theorem firstPart_join {parts : List (List Char)} (h : Plain ':' parts) :
    firstPart ((joinWith ':' parts).splitOn ':') = parts.head? := by
  cases parts with
  | nil => rfl
  | cons part rest =>
    rw [splitOn_join (List.cons_ne_nil _ _) fun p hp => (h p hp).2, firstPart, List.find?_cons_of_pos, List.head?_cons]
    rw [List.isEmpty_eq_false_iff.mpr (h part List.mem_cons_self).1]
    rfl

/-- The first written group, or the IPv4 address where there is none. -/
def firstWritten (t : Ipv6Text) : Option (List Char) :=
  match t.back with
  | none => (Ipv6Text.parts t.front t.tail).head?
  | some back => ((t.front.map Hextet.digits).head?).or (Ipv6Text.parts back t.tail).head?

theorem firstPart_text (t : Ipv6Text) : firstPart (t.text.splitOn ':') = firstWritten t := by
  rw [text, firstWritten]
  cases hback : t.back with
  | none => exact firstPart_join (plain_parts t.front t.tail)
  | some back =>
    simp only [List.append_assoc, List.cons_append, List.nil_append]
    rw [List.splitOn_append_cons_self, ← List.nil_append (':' :: joinWith ':' (parts back t.tail)),
      List.splitOn_append_cons_self_of_not_mem List.not_mem_nil, firstPart, List.find?_append, List.find?_cons_of_neg (by simp)]
    exact congrArg₂ Option.or (firstPart_join (Hextet.plain t.front)) (firstPart_join (plain_parts back t.tail))

/-- The digits of the last group in front of the IPv4 address. -/
def lastDigits (t : Ipv6Text) : List Char := (((t.back.getD t.front).getLast?).map Hextet.digits).getD []

variable {t : Ipv6Text}

variable {x : Ipv4}

/-- What stands behind the last two colons. -/
theorem splitOn_tail (h : t.Valid) (htail : t.tail = some x) :
    ∃ parts, t.text.splitOn ':' = parts ++ [lastDigits t, x.text] := by
  have hwritten : ∀ groups : List Hextet, (joinWith ':' (parts groups t.tail)).splitOn ':' =
      groups.map Hextet.digits ++ [x.text] := by
    intro groups
    have hne : parts groups t.tail ≠ [] := by
      rw [parts, htail]
      exact List.concat_ne_nil _ _
    rw [splitOn_join hne fun part hpart => (plain_parts groups t.tail part hpart).2, parts, htail]
    rfl
  rw [Ipv6Text.Valid, tailGroups, htail] at h
  rw [text, lastDigits]
  cases hback : t.back with
  | none =>
    simp only [hback] at h ⊢
    rw [hwritten]
    rcases List.eq_nil_or_concat t.front with hfront | ⟨front, last, hfront⟩
    · simp [hfront, Ipv4.groups] at h
    · refine ⟨front.map Hextet.digits, ?_⟩
      simp [hfront]
  | some back =>
    simp only [List.append_assoc, List.cons_append, List.nil_append]
    rw [List.splitOn_append_cons_self, ← List.nil_append (':' :: joinWith ':' (parts back t.tail)),
      List.splitOn_append_cons_self_of_not_mem List.not_mem_nil, hwritten]
    rcases List.eq_nil_or_concat back with rfl | ⟨front, last, rfl⟩
    · exact ⟨(joinWith ':' (t.front.map Hextet.digits)).splitOn ':', by simp⟩
    · exact ⟨(joinWith ':' (t.front.map Hextet.digits)).splitOn ':' ++ [] :: front.map Hextet.digits, by simp⟩

/-- `ffff` stands in front of an IPv4 address at the end. -/
def writtenMapped (t : Ipv6Text) : Option Ipv4 := if hexValue (lastDigits t) = 0xffff then t.tail else none

theorem lastDigits_lower (t : Ipv6Text) : lastDigits t.lower = "ffff".toList ↔ hexValue (lastDigits t) = 0xffff := by
  have hgroups : t.lower.back.getD t.lower.front = (t.back.getD t.front).map Hextet.lower := by
    cases hback : t.back with
    | none => simp [lower, hback]
    | some back => simp [lower, hback]
  rw [lastDigits, lastDigits, hgroups, List.getLast?_map]
  cases (t.back.getD t.front).getLast? with
  | none => decide
  | some g => exact g.lower_ffff

theorem dot_notMem_text (htail : t.tail = none) : '.' ∉ t.text := by
  have hjoin : ∀ groups : List Hextet, '.' ∉ joinWith ':' (groups.map Hextet.digits) := by
    intro groups h
    rcases mem_joinWith h with h | ⟨part, hpart, h⟩
    · cases h
    · obtain ⟨g, -, rfl⟩ := List.mem_map.mp hpart
      cases g.hex _ h
  rw [text, htail]
  cases t.back with
  | none =>
    simp only [Ipv6Text.parts_none]
    exact hjoin t.front
  | some back =>
    simp only [Ipv6Text.parts_none, List.mem_append, not_or]
    exact ⟨⟨hjoin t.front, by decide⟩, hjoin back⟩

/-- **The mapped address** that is found is the one that stands behind `ffff`. -/
theorem mappedIpv4_text (h : t.Valid) : mappedIpv4 t.lower.text = (writtenMapped t).map Ipv4.text := by
  have hvalid := valid_lower h
  rw [writtenMapped]
  cases htail : t.tail with
  | none =>
    have hnone : mappedIpv4 t.lower.text = none := by
      cases hmapped : mappedIpv4 t.lower.text with
      | none => rfl
      | some text =>
        obtain ⟨hdotted, hpart⟩ := isDotted_of_mapped hmapped
        have hdot : '.' ∈ text := by
          by_contra hnot
          rw [isDotted, List.splitOn_eq_singleton hnot] at hdotted
          cases hdotted
        exact absurd (mem_of_mem_part hpart hdot) (dot_notMem_text (by exact htail))
    rw [hnone]
    split_ifs <;> rfl
  | some x =>
    obtain ⟨parts, hparts⟩ := splitOn_tail hvalid (by exact htail : t.lower.tail = some x)
    rw [mappedIpv4, hparts]
    simp only [List.reverse_append, List.reverse_cons, List.reverse_nil, List.nil_append, List.cons_append,
      lastDigits_lower, isDotted_text, and_true]
    split_ifs <;> rfl

/-- The value of the first written group. -/
def firstValue (t : Ipv6Text) : Nat :=
  match t.front, t.back with
  | g :: _, _ => hexValue g.digits
  | [], some (g :: _) => hexValue g.digits
  | [], _ => 0

/-- The first octet is no group that looks public. -/
theorem parseHex_ipv4 (x : Ipv4) : ∃ first : Nat, parseHex x.text = some (first : Int) ∧ looksPublic first = false := by
  have hhex : ∀ c ∈ decimalText x.a, isHexDigitChar c = true := fun c hc => by
    rw [isHexDigitChar, isDigit_of_mem_decimalText hc, Bool.true_or, Bool.true_or]
  have hread : parseHex (decimalText x.a ++ '.' :: joinWith '.' [decimalText x.b, decimalText x.c, decimalText x.d]) =
      some (hexValue (decimalText x.a) : Int) :=
    parseHex_digits (decimalText_ne_nil x.a) hhex fun c hc => by
      obtain rfl : '.' = c := by simpa using hc
      decide
  rw [← joinWith_cons '.' _ (List.cons_ne_nil _ _)] at hread
  refine ⟨hexValue (decimalText x.a), hread, ?_⟩
  have hlt := hexValue_lt (decimalText x.a) hhex
  have hpow : 16 ^ (decimalText x.a).length ≤ 16 ^ 3 := Nat.pow_le_pow_right (by decide) (length_decimalText x.bounds.1)
  have hlow : ¬0x2000 ≤ hexValue (decimalText x.a) := by omega
  rw [looksPublic, decide_eq_false hlow, Bool.false_and]

/-- **The first group** that is read, or less than a group. -/
theorem firstHextet_text (h : t.Valid) : ∃ first : Nat, firstHextet t.text = some (first : Int) ∧
    looksPublic first = looksPublic (firstValue t) := by
  have hfirst : firstHextet t.text = match firstWritten t with
    | some first => parseHex first
    | none => some 0 := by
    rw [← firstPart_text]
    rfl
  rw [hfirst, firstWritten, firstValue]
  rw [Ipv6Text.Valid] at h
  cases hfront : t.front with
  | cons g rest =>
    refine ⟨hexValue g.digits, ?_, rfl⟩
    cases t.back with
    | none => exact parseHex_hextet g
    | some back => exact parseHex_hextet g
  | nil =>
    cases hback : t.back with
    | none =>
      simp only [hback, hfront, tailGroups] at h
      cases htail : t.tail with
      | none => simp [htail] at h
      | some x => simp [htail, Ipv4.groups] at h
    | some back =>
      cases back with
      | cons g rest => exact ⟨hexValue g.digits, parseHex_hextet g, rfl⟩
      | nil =>
        cases t.tail with
        | none => exact ⟨0, rfl, rfl⟩
        | some x => exact parseHex_ipv4 x

theorem firstValue_lower (t : Ipv6Text) : firstValue t.lower = firstValue t := by
  rw [firstValue, firstValue, lower]
  cases hfront : t.front with
  | cons g rest => exact g.value_lower
  | nil =>
    cases hback : t.back with
    | none => rfl
    | some back =>
      cases back with
      | nil => rfl
      | cons g rest => exact g.value_lower

/-- The second of two groups at the front that are `2001` and `db8`; the zero in front of it may be written. -/
def documentation (t : Ipv6Text) : Option Hextet :=
  match t.front with
  | f :: g :: _ => if hexValue f.digits = 0x2001 ∧ hexValue g.digits = 0xdb8 then some g else none
  | _ => none

theorem splitOn_front (h : t.Valid) : ∃ rest, rest ≠ [] ∧ t.text.splitOn ':' =
    (match t.front with
      | [] => [[]]
      | [f] => [f.digits, []]
      | f :: g :: _ => [f.digits, g.digits]) ++ rest := by
  rw [Ipv6Text.Valid] at h
  rw [text]
  cases hback : t.back with
  | none =>
    simp only [hback] at h ⊢
    have htail : t.tailGroups.length ≤ 2 := Ipv6Text.length_tailGroups t
    rcases hfront : t.front with _ | ⟨f, _ | ⟨g, _ | ⟨k, rest⟩⟩⟩
    · simp only [hfront, List.length_nil] at h; omega
    · simp only [hfront, List.length_singleton] at h; omega
    · simp only [hfront, List.length_cons, List.length_nil] at h; omega
    · have hplain := plain_parts (f :: g :: k :: rest) t.tail
      rw [splitOn_join (by simp [parts]) fun part hpart => (hplain part hpart).2]
      exact ⟨_, by simp, rfl⟩
  | some back =>
    simp only [List.append_assoc, List.cons_append, List.nil_append]
    rw [List.splitOn_append_cons_self, ← List.nil_append (':' :: joinWith ':' (parts back t.tail)),
      List.splitOn_append_cons_self_of_not_mem List.not_mem_nil]
    have hne := List.splitOn_ne_nil ':' (joinWith ':' (parts back t.tail))
    have hplain := Hextet.plain t.front
    rcases hfront : t.front with _ | ⟨f, _ | ⟨g, rest⟩⟩ <;> rw [hfront] at hplain
    · exact ⟨[] :: (joinWith ':' (parts back t.tail)).splitOn ':', by simp, rfl⟩
    · rw [splitOn_join (by simp) fun part hpart => (hplain part hpart).2]
      exact ⟨_, hne, rfl⟩
    · rw [splitOn_join (by simp) fun part hpart => (hplain part hpart).2]
      exact ⟨rest.map Hextet.digits ++ [] :: (joinWith ':' (parts back t.tail)).splitOn ':', by simp, by simp⟩

theorem documentation_prefix (h : t.Valid) :
    "2001:db8:".toList.isPrefixOf t.lower.text = true ↔ ∃ g, documentation t = some g ∧ g.digits.length = 3 := by
  have hprefix : "2001".toList ++ ':' :: ("db8".toList ++ [':']) <+: t.lower.text ↔
      ∃ rest, rest ≠ [] ∧ t.lower.text.splitOn ':' = "2001".toList :: "db8".toList :: rest :=
    prefix_iff_splitOn (by decide) (by decide)
  have htext : "2001:db8:".toList = "2001".toList ++ ':' :: ("db8".toList ++ [':']) := by decide
  obtain ⟨rest, hne, hparts⟩ := splitOn_front (valid_lower h)
  rw [List.isPrefixOf_iff_prefix, htext, hprefix, hparts, documentation]
  have hfront : t.lower.front = t.front.map Hextet.lower := rfl
  match ht : t.front, hfront with
  | [], hfront =>
    rw [hfront]
    simp
  | [f], hfront =>
    rw [hfront]
    simp
  | f :: g :: more, hfront =>
    rw [hfront]
    simp only [List.map_cons, List.cons_append, List.nil_append, List.cons.injEq]
    have hf : f.lower.digits = "2001".toList ↔ hexValue f.digits = 0x2001 := f.lower_2001
    have hg : g.lower.digits = "db8".toList ↔ g.digits.length = 3 ∧ hexValue g.digits = 0xdb8 :=
      g.lower_eq_iff (by decide)
    rw [hf, hg]
    split_ifs with hboth
    · simp [hboth, hne]
    · simp
      tauto

/-! ## Answers and addresses -/

/-- **The answer** for a text of an IPv6 address. -/
theorem isPublic_ipv6 (hlaw : rules.Lawful) (hvalid : t.Valid) {value : String}
    (h : Spells value t.text) : isPublicIpAddress rules value = true ↔
      match writtenMapped t with
      | some x => isPublicIpv4 (octets x) = true
      | none => looksPublic (firstValue t) = true ∧ ¬∃ g, documentation t = some g ∧ g.digits.length = 3 := by
  have hplain := plainText_spells hlaw (Ipv6Text.text_ne_nil hvalid) (fun c hc => addressChar_of_text hc) h
  rw [← Ipv6Text.text_lower] at hplain
  have hcolon := Ipv6Text.colon_mem_text (valid_lower hvalid)
  have hmapped := mappedIpv4_text hvalid
  rw [isPublicIpAddress, isPublicWithin_iff hlaw 0, hplain, PublicText, readIpv4_colon hlaw hcolon]
  cases hwritten : writtenMapped t with
  | some x =>
    rw [hwritten, Option.map_some] at hmapped
    simp [hcolon, hmapped, readIpv4_text hlaw]
  | none =>
    rw [hwritten, Option.map_none] at hmapped
    obtain ⟨first, hfirst, hlooks⟩ := firstHextet_text (valid_lower hvalid)
    rw [firstValue_lower] at hlooks
    have hprefix : "2001:db8:".toList.isPrefixOf t.lower.text = false ↔
        ¬∃ g, documentation t = some g ∧ g.digits.length = 3 := by
      rw [← documentation_prefix hvalid, Bool.not_eq_true]
    rw [← hlooks, ← hprefix]
    simp [hmapped, hcolon, hfirst, looksPublic, and_assoc]

/-- The zeros that `::` stands for. -/
theorem groups_compressed (h : t.Valid) {back : List Hextet} (hback : t.back = some back) :
    ∃ zeros, t.groups = values t.front ++ 0 :: (List.replicate zeros 0 ++ values back ++ t.tailGroups) := by
  rw [Ipv6Text.Valid] at h
  simp only [hback] at h
  refine ⟨8 - t.front.length - back.length - t.tailGroups.length - 1, ?_⟩
  obtain ⟨zeros, hzeros⟩ : ∃ zeros, 8 - t.front.length - back.length - t.tailGroups.length = zeros + 1 :=
    ⟨8 - t.front.length - back.length - t.tailGroups.length - 1, by omega⟩
  rw [Ipv6Text.groups]
  simp only [hback]
  rw [hzeros, List.replicate_succ, Nat.add_sub_cancel]
  simp

/-- An address that begins with zeros. -/
theorem groups_nil (h : t.Valid) (hfront : t.front = []) : t.groups.getD 0 0 = 0 := by
  cases hback : t.back with
  | none =>
    have htail := t.length_tailGroups
    rw [Ipv6Text.Valid] at h
    simp only [hback, hfront, List.length_nil] at h
    omega
  | some back =>
    obtain ⟨zeros, hgroups⟩ := groups_compressed h hback
    rw [hgroups, hfront]
    rfl

theorem groups_cons (h : t.Valid) {f : Hextet} {rest : List Hextet} (hfront : t.front = f :: rest) :
    t.groups.getD 0 0 = hexValue f.digits ∧ t.groups.getD 1 0 = (rest.head?.map fun g => hexValue g.digits).getD 0 := by
  cases hback : t.back with
  | none =>
    have htail := t.length_tailGroups
    rw [Ipv6Text.Valid] at h
    simp only [hback, hfront, List.length_cons] at h
    rw [Ipv6Text.groups]
    simp only [hback, hfront]
    cases rest with
    | nil => simp only [List.length_nil] at h; omega
    | cons g rest => exact ⟨rfl, rfl⟩
  | some back =>
    obtain ⟨zeros, hgroups⟩ := groups_compressed h hback
    rw [hgroups, hfront]
    cases rest with
    | nil => exact ⟨rfl, rfl⟩
    | cons g rest => exact ⟨rfl, rfl⟩

theorem isGlobal_iff (groups : List Nat) : isGlobal groups = true ↔
    looksPublic (groups.getD 0 0) = true ∧ ¬(groups.getD 0 0 = 0x2001 ∧ groups.getD 1 0 = 0xdb8) := by
  rw [isGlobal, looksPublic, Bool.and_eq_true, Bool.not_eq_true', Bool.and_eq_false_iff, beq_eq_false_iff_ne,
    beq_eq_false_iff_ne, not_and_or]

/-- **Global unicast** as it is written: a first group that looks public, and no documentation behind it. -/
theorem isGlobal_groups (h : t.Valid) : isGlobal t.groups = true ↔
    t.front ≠ [] ∧ looksPublic (firstValue t) = true ∧ documentation t = none := by
  rw [isGlobal_iff, firstValue, documentation]
  match hfront : t.front with
  | [] =>
    rw [groups_nil h hfront]
    simp [looksPublic]
  | [f] =>
    obtain ⟨hzero, hone⟩ := groups_cons h hfront
    rw [hzero, hone]
    simp
  | f :: g :: rest =>
    obtain ⟨hzero, hone⟩ := groups_cons h hfront
    rw [hzero, hone]
    simp

theorem firstValue_mapped (h : t.Valid) (hmapped : isMapped t.groups = true) :
    looksPublic (firstValue t) = false := by
  have hsix : t.groups.take 6 = [0, 0, 0, 0, 0, 0xffff] := eq_of_beq hmapped
  have hget : ∀ i < 6, t.groups.getD i 0 = [0, 0, 0, 0, 0, 0xffff].getD i 0 := by
    intro i hi
    rw [← hsix, List.getD_eq_getElem?_getD, List.getD_eq_getElem?_getD, List.getElem?_take_of_lt hi]
  rw [firstValue]
  cases hfront : t.front with
  | cons f rest =>
    simp only
    rw [← (groups_cons h hfront).1, hget 0 (by decide)]
    rfl
  | nil =>
    cases hback : t.back with
    | none => rfl
    | some back =>
      cases back with
      | nil => rfl
      | cons g rest =>
        -- The zeros in front of the group are fewer than six, or the sixth group is one of them.
        obtain ⟨zeros, hgroups⟩ := groups_compressed h hback
        rw [hfront] at hgroups
        have hzero : ∀ i ≤ zeros, t.groups.getD i 0 = 0 := by
          intro i hi
          have hcons : t.groups = List.replicate (zeros + 1) 0 ++ (values (g :: rest) ++ t.tailGroups) := by
            rw [hgroups, List.replicate_succ]
            simp [values]
          rw [hcons, List.getD_eq_getElem?_getD, List.getElem?_append_left (by rw [List.length_replicate]; omega),
            List.getElem?_replicate, if_pos (by omega), Option.getD_some]
        have hgroup : t.groups.getD (zeros + 1) 0 = hexValue g.digits := by
          have hcons : t.groups = List.replicate (zeros + 1) 0 ++ (hexValue g.digits :: (values rest ++ t.tailGroups)) := by
            rw [hgroups, List.replicate_succ]
            simp [values]
          rw [hcons, List.getD_eq_getElem?_getD, List.getElem?_append_right (by rw [List.length_replicate]),
            List.length_replicate, Nat.sub_self]
          rfl
        rcases Nat.lt_or_ge zeros 5 with hfew | hmany
        · simp only
          rw [← hgroup, hget (zeros + 1) (by omega)]
          interval_cases zeros <;> rfl
        · have hsixth := hget 5 (by decide)
          rw [hzero 5 hmany] at hsixth
          cases hsixth

theorem octets_of_group (a : Nat) {b : Nat} (h : b < 256) : (a * 256 + b) / 256 = a ∧ (a * 256 + b) % 256 = b := by
  omega

/-- The groups of an IPv4 address at the end. -/
theorem lastOctets_tail (h : t.Valid) (htail : t.tail = some x) : lastOctets t.groups = octets x := by
  obtain ⟨front, hgroups⟩ : ∃ front, t.groups = front ++ x.groups := by
    rw [Ipv6Text.groups, tailGroups, htail]
    cases t.back with
    | none => exact ⟨_, rfl⟩
    | some back => exact ⟨_, rfl⟩
  have hlength : t.groups.length = 8 := (t.address h).length
  have hfront : front.length = 6 := by
    rw [hgroups, List.length_append, Ipv4.groups] at hlength
    simpa using hlength
  obtain ⟨ha, hb, hc, hd⟩ := x.bounds
  have hhigh := octets_of_group x.a hb
  have hlow := octets_of_group x.c hd
  rw [lastOctets, hgroups, List.drop_left' hfront, Ipv4.groups, octets]
  simp only [List.flatMap_cons, List.flatMap_nil, hhigh, hlow, List.cons_append, List.nil_append]

theorem tail_of_written (h : writtenMapped t = some x) : t.tail = some x := by
  rw [writtenMapped] at h
  split_ifs at h
  exact h

theorem documentation_length {g : Hextet} (h : documentation t = some g) :
    t.front ≠ [] ∧ looksPublic (firstValue t) = true ∧ (g.digits.length = 3 ∨ g.digits.length = 4) := by
  rw [documentation] at h
  split at h
  · rename_i f g' rest hfront
    split_ifs at h with hboth
    obtain rfl := Option.some.inj h
    refine ⟨by rw [hfront]; exact List.cons_ne_nil _ _, ?_, ?_⟩
    · rw [firstValue, hfront]
      simp only [hboth.1]
      rfl
    · have hlt := hexValue_lt g'.digits g'.hex
      have hlength := g'.length
      rw [hboth.2] at hlt
      by_contra hne
      have hle : g'.digits.length ≤ 2 := by omega
      have hpow : 16 ^ g'.digits.length ≤ 16 ^ 2 := Nat.pow_le_pow_right (by decide) hle
      omega
  · exact absurd h (by simp)

/-- The spellings that are not answered by their address: `ffff` in front of an IPv4 address where nothing is mapped,
    and the answers differ; a public IPv4-mapped address in hexadecimal; `::` in front of a group that looks public;
    documentation with the zero of `0db8`. -/
def Misread (t : Ipv6Text) : Prop :=
  match writtenMapped t with
  | some x => isMapped t.groups = false ∧ isPublicIpv4 (octets x) ≠ isGlobal t.groups
  | none => (isMapped t.groups = true ∧ isPublicIpv4 (lastOctets t.groups) = true) ∨
      (t.front = [] ∧ looksPublic (firstValue t) = true) ∨ ∃ g, documentation t = some g ∧ g.digits.length = 4

/-- **A text of an IPv6 address** is answered by its address exactly when it is not misread. -/
theorem answer_iff (hlaw : rules.Lawful) (h : t.Valid) {value : String}
    (hspells : Spells value t.text) : isPublicIpAddress rules value = publicAddress t.groups ↔ ¬Misread t := by
  have hanswer := isPublic_ipv6 hlaw h hspells
  rw [Misread, publicAddress]
  cases hwritten : writtenMapped t with
  | some x =>
    simp only [hwritten] at hanswer ⊢
    rw [Bool.eq_iff_iff.mpr hanswer, lastOctets_tail h (tail_of_written hwritten)]
    cases isMapped t.groups with
    | true => simp
    | false => simp
  | none =>
    simp only [hwritten] at hanswer ⊢
    cases hmapped : isMapped t.groups with
    | true =>
      have hfirst := firstValue_mapped h hmapped
      have hfalse : isPublicIpAddress rules value = false := by
        rw [← Bool.not_eq_true, hanswer, hfirst]
        simp
      have hno : ∀ g, documentation t ≠ some g := by
        intro g hg
        have hlooks := (documentation_length hg).2.1
        rw [hfirst] at hlooks
        exact Bool.noConfusion hlooks
      simp [hfalse, hfirst, hno]
    | false =>
      have hglobal := isGlobal_groups h
      simp only [Bool.false_eq_true, if_false, false_and, false_or]
      rw [Bool.eq_iff_iff, hanswer, hglobal]
      by_cases hlooks : looksPublic (firstValue t) = true
      · by_cases hfront : t.front = []
        · have hnone : documentation t = none := by rw [documentation, hfront]
          simp [hlooks, hfront, hnone]
        · cases hdocumentation : documentation t with
          | none => simp [hlooks, hfront]
          | some g =>
            have hlength := (documentation_length hdocumentation).2.2
            simp only [hlooks, hfront]
            simp
            omega
      · have hno : ∀ g, documentation t ≠ some g := fun g hg => hlooks (documentation_length hg).2.1
        simp [hlooks, hno]

/-! ## A platform for fixed inputs -/

/-- Numbers in decimal digits, and lower case in ASCII. -/
def decimalRules : TextRules where
  lower := fun text => String.ofList (text.toList.map Char.toLower)
  numberOf := fun text => if text.all Char.isDigit then some (Nat.ofDigitChars 10 text 0 : ℚ) else none

theorem decimalRules_lawful : decimalRules.Lawful where
  lower := by
    intro front rest _
    refine ⟨rest.map Char.toLower, ?_, fun h => by rw [h]; rfl⟩
    have hlower : ∀ text, decimalRules.lower text = String.ofList (text.toList.map Char.toLower) := fun _ => rfl
    rw [hlower, String.toList_ofList, List.map_append]
  decimal := by
    intro n _
    have hall : (decimalText n).all Char.isDigit = true :=
      List.all_eq_true.mpr fun c hc => isDigit_of_mem_decimalText hc
    have hnumber : decimalRules.numberOf (decimalText n) = if (decimalText n).all Char.isDigit then
      some (Nat.ofDigitChars 10 (decimalText n) 0 : ℚ) else none := rfl
    rw [hnumber, if_pos hall, decimalText, Nat.ofDigitChars_ten_toDigits]
  colon := by
    intro text h
    have hall : ¬text.all Char.isDigit = true := fun hall =>
      absurd (List.all_eq_true.mp hall ':' h) (by decide)
    exact if_neg hall

/-- `2001:0db8::1`. -/
def paddedText : Ipv6Text :=
  ⟨[⟨"2001".toList, by decide, by decide⟩, hextetOf "0db8" (by decide)], some [⟨"1".toList, by decide, by decide⟩], none⟩

/-- `2001:db8::1`. -/
def shortText : Ipv6Text :=
  ⟨[⟨"2001".toList, by decide, by decide⟩, ⟨"db8".toList, by decide, by decide⟩],
    some [⟨"1".toList, by decide, by decide⟩], none⟩

/-- `8.8.8.8`. -/
def resolver : Ipv4 := ⟨8, 8, 8, 8, by decide⟩

/-- `::ffff:808:808`. -/
def mappedText : Ipv6Text :=
  ⟨[], some [⟨"ffff".toList, by decide, by decide⟩, hextetOf "808" (by decide), hextetOf "808" (by decide)], none⟩

/-! ## Which answers are right -/

end CfMonitor.Live
