/-
  Texts in UTF-16.

  1. **Code units** — a character from 0x10000 on is a pair of surrogates (`codeUnits`).

  2. **Bytes** — the low byte of each unit comes first (`bytesLE`).

  3. **Round trip** — what is written is read back (`decodeLE_bytes`).
-/
import Mathlib.Data.List.Basic
import Mathlib.Tactic.Common

namespace CfMonitor.Lib.Utf16

def codeUnits (c : Char) : List Nat :=
  if c.toNat < 0x10000 then [c.toNat] else [0xD800 + (c.toNat - 0x10000) / 0x400, 0xDC00 + (c.toNat - 0x10000) % 0x400]

def units (text : List Char) : List Nat := text.flatMap codeUnits

/-- The bytes of code units, the low byte first. -/
def bytesLE (units : List Nat) : List UInt8 := units.flatMap fun unit => [UInt8.ofNat (unit % 256), UInt8.ofNat (unit / 256)]

def ofBytesLE : List UInt8 → Option (List Nat)
  | [] => some []
  | [_] => none
  | low :: high :: rest => (ofBytesLE rest).map ((low.toNat + 256 * high.toNat) :: ·)

def isHigh (unit : Nat) : Bool := 0xD800 ≤ unit && unit < 0xDC00

def isLow (unit : Nat) : Bool := 0xDC00 ≤ unit && unit < 0xE000

/-- The text of code units whose surrogates are paired. -/
def decode : List Nat → Option (List Char)
  | [] => some []
  | [unit] => if isHigh unit || isLow unit then none else some [Char.ofNat unit]
  | unit :: next :: rest =>
    if isHigh unit then
      if isLow next then (decode rest).map (Char.ofNat (0x10000 + (unit - 0xD800) * 0x400 + (next - 0xDC00)) :: ·) else none
    else if isLow unit then none
    else (decode (next :: rest)).map (Char.ofNat unit :: ·)

def decodeLE (bytes : List UInt8) : Option (List Char) := (ofBytesLE bytes).bind decode

/-! ## Round trip -/

theorem char_range (c : Char) : c.toNat < 0x110000 ∧ ¬ (0xD800 ≤ c.toNat ∧ c.toNat < 0xE000) := by
  rcases c.valid with h | h
  · have hlt : c.toNat < 0xD800 := h
    omega
  · have hlt : 0xDFFF < c.toNat := h.1
    have hmax : c.toNat < 0x110000 := h.2
    omega

theorem lt_of_mem_codeUnits {c : Char} {unit : Nat} (h : unit ∈ codeUnits c) : unit < 0x10000 := by
  have hc : c.toNat < 0x110000 := (char_range c).1
  rw [codeUnits] at h
  split_ifs at h with hsmall
  · rw [List.mem_singleton.mp h]
    exact hsmall
  · simp only [List.mem_cons, List.not_mem_nil, or_false] at h
    omega

theorem lt_of_mem_units {text : List Char} {unit : Nat} (h : unit ∈ units text) : unit < 0x10000 := by
  obtain ⟨c, -, hc⟩ := List.mem_flatMap.mp h
  exact lt_of_mem_codeUnits hc

theorem ofBytesLE_bytes : ∀ {units : List Nat}, (∀ unit ∈ units, unit < 0x10000) → ofBytesLE (bytesLE units) = some units
  | [], _ => rfl
  | unit :: rest, h => by
    have hunit : unit < 0x10000 := h unit List.mem_cons_self
    have hlow : (UInt8.ofNat (unit % 256)).toNat = unit % 256 := by simp
    have hhigh : (UInt8.ofNat (unit / 256)).toNat = unit / 256 := by
      rw [UInt8.toNat_ofNat', Nat.mod_eq_of_lt (by omega)]
    have hrest := ofBytesLE_bytes fun u hu => h u (List.mem_cons_of_mem _ hu)
    have hbytes : bytesLE (unit :: rest) = UInt8.ofNat (unit % 256) :: UInt8.ofNat (unit / 256) :: bytesLE rest := rfl
    rw [hbytes, ofBytesLE, hrest, hlow, hhigh, Option.map_some, Nat.mod_add_div]

theorem decode_codeUnits (c : Char) (rest : List Nat) : decode (codeUnits c ++ rest) = (decode rest).map (c :: ·) := by
  have hchar : Char.ofNat c.toNat = c := Char.ofNat_toNat c
  rw [codeUnits]
  split_ifs with hsmall
  · have hnot := (char_range c).2
    have hhigh : isHigh c.toNat = false := by
      rw [isHigh]
      simp only [Bool.and_eq_false_iff, decide_eq_false_iff_not]
      omega
    have hlow : isLow c.toNat = false := by
      rw [isLow]
      simp only [Bool.and_eq_false_iff, decide_eq_false_iff_not]
      omega
    cases rest with
    | nil => simp [decode, hhigh, hlow, hchar]
    | cons next rest =>
      rw [List.singleton_append]
      conv_lhs => rw [decode, hhigh, hlow, hchar]
      rfl
  · have hlt : c.toNat < 0x110000 := (char_range c).1
    have hhigh : isHigh (0xD800 + (c.toNat - 0x10000) / 0x400) = true := by
      rw [isHigh, Bool.and_eq_true, decide_eq_true_eq, decide_eq_true_eq]
      omega
    have hlow : isLow (0xDC00 + (c.toNat - 0x10000) % 0x400) = true := by
      rw [isLow, Bool.and_eq_true, decide_eq_true_eq, decide_eq_true_eq]
      omega
    have hsum : 0x10000 + (0xD800 + (c.toNat - 0x10000) / 0x400 - 0xD800) * 0x400
        + (0xDC00 + (c.toNat - 0x10000) % 0x400 - 0xDC00) = c.toNat := by omega
    rw [List.cons_append, List.singleton_append, decode, if_pos hhigh, if_pos hlow, hsum, hchar]

theorem decode_units (text : List Char) : decode (units text) = some text := by
  induction text with
  | nil => rfl
  | cons c text ih =>
    have hunits : units (c :: text) = codeUnits c ++ units text := rfl
    rw [hunits, decode_codeUnits, ih, Option.map_some]

/-- **What is written** is read back. -/
theorem decodeLE_bytes (text : List Char) : decodeLE (bytesLE (units text)) = some text := by
  rw [decodeLE, ofBytesLE_bytes fun unit h => lt_of_mem_units h, Option.bind_some, decode_units]

end CfMonitor.Lib.Utf16
