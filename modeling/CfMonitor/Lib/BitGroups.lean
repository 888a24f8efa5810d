/-
  A stream of bits in groups, and an accumulator that is never masked.

  1. **Streams** — `cut w` takes whole groups of `w` bits from a stream; a stream that arrives in two parts is
     cut as if it were one (`cut_append`).

  2. **Accumulator** — of a 32-bit word only the low bits count, as many as are pending (`Low`).  Pushing
     bits in and taking a group out keep this, whatever the high bits are.
-/
import Mathlib.Data.List.Induction
import Mathlib.Tactic.Ring

namespace CfMonitor.Lib

/-! ## Bits of a number -/

/-- The last `w` bits of a number, the highest first. -/
def bitsOf : Nat → Nat → List Bool
  | 0, _ => []
  | w + 1, n => bitsOf w (n / 2) ++ [decide (n % 2 = 1)]

/-- The number of bits, the highest first. -/
def ofBits (bits : List Bool) : Nat := bits.foldl (fun n b => 2 * n + b.toNat) 0

theorem length_bitsOf (w n : Nat) : (bitsOf w n).length = w := by
  induction w generalizing n with
  | zero => rfl
  | succ w ih => rw [bitsOf, List.length_append, ih]; rfl

theorem ofBits_concat (bits : List Bool) (b : Bool) : ofBits (bits ++ [b]) = 2 * ofBits bits + b.toNat := by
  rw [ofBits, List.foldl_append]
  rfl

theorem ofBits_append (bits more : List Bool) : ofBits (bits ++ more) = ofBits bits * 2 ^ more.length + ofBits more := by
  induction more using List.reverseRecOn with
  | nil => simp [ofBits]
  | append_singleton more b ih =>
    rw [← List.append_assoc, ofBits_concat, ofBits_concat, ih, List.length_append, List.length_singleton, pow_succ]
    ring

theorem ofBits_lt (bits : List Bool) : ofBits bits < 2 ^ bits.length := by
  induction bits using List.reverseRecOn with
  | nil => exact Nat.one_pos
  | append_singleton bits b ih =>
    rw [ofBits_concat, List.length_append, List.length_singleton, pow_succ]
    have hb := Bool.toNat_lt b
    omega

theorem ofBits_bitsOf {w n : Nat} (h : n < 2 ^ w) : ofBits (bitsOf w n) = n := by
  induction w generalizing n with
  | zero => rw [Nat.lt_one_iff.mp h]; rfl
  | succ w ih =>
    rw [pow_succ] at h
    rw [bitsOf, ofBits_concat, ih (by omega)]
    rcases Nat.mod_two_eq_zero_or_one n with hn | hn <;> simp [hn] <;> omega

theorem bitsOf_ofBits (bits : List Bool) : bitsOf bits.length (ofBits bits) = bits := by
  induction bits using List.reverseRecOn with
  | nil => rfl
  | append_singleton bits b ih =>
    have hhalf : (2 * ofBits bits + b.toNat) / 2 = ofBits bits := by
      have hb := Bool.toNat_lt b
      omega
    rw [ofBits_concat, List.length_append, List.length_singleton, bitsOf, hhalf, ih]
    cases b <;> simp

theorem ofBits_zeros (k : Nat) : ofBits (List.replicate k false) = 0 := by
  induction k with
  | zero => rfl
  | succ k ih => rw [List.replicate_succ', ofBits_concat, ih]; rfl

/-! ## Groups -/

/-- Whole groups of `w` bits, and what is left. -/
def cut (w : Nat) (bits : List Bool) : List (List Bool) × List Bool :=
  if 0 < w ∧ w ≤ bits.length then
    let rest := cut w (bits.drop w)
    (bits.take w :: rest.1, rest.2)
  else ([], bits)
termination_by bits.length
decreasing_by
  rw [List.length_drop]
  omega

/-- The groups of a stream, the last one filled with zeros. -/
def groups (w : Nat) (bits : List Bool) : List (List Bool) :=
  let (whole, left) := cut w bits
  whole ++ if left = [] then [] else [left ++ List.replicate (w - left.length) false]

variable {w : Nat}

variable {bits : List Bool}

theorem cut_short (h : bits.length < w) : cut w bits = ([], bits) := by
  rw [cut, if_neg (by omega)]

variable {group : List Bool}

theorem cut_group (hw : 0 < w) (h : group.length = w) (rest : List Bool) :
    cut w (group ++ rest) = (group :: (cut w rest).1, (cut w rest).2) := by
  have hlong : 0 < w ∧ w ≤ (group ++ rest).length := ⟨hw, by rw [List.length_append]; omega⟩
  rw [cut, if_pos hlong, List.drop_left' h, List.take_left' h]

theorem cut_left_lt (hw : 0 < w) (bits : List Bool) : (cut w bits).2.length < w := by
  induction bits using cut.induct w with
  | case1 bits h ih => rw [cut, if_pos h]; exact ih
  | case2 bits h => rw [cut, if_neg h]; exact Nat.lt_of_not_le fun hle => h ⟨hw, hle⟩

/-- **A stream in two parts**: what is left of the first goes in front of the second. -/
theorem cut_append (bits more : List Bool) :
    cut w (bits ++ more) = ((cut w bits).1 ++ (cut w ((cut w bits).2 ++ more)).1, (cut w ((cut w bits).2 ++ more)).2) := by
  induction bits using cut.induct w with
  | case1 bits h ih =>
    conv_lhs => rw [← List.take_append_drop w bits, List.append_assoc]
    rw [cut_group h.1 (List.length_take_of_le h.2), ih]
    conv_rhs => rw [cut, if_pos h]
    rfl
  | case2 bits h =>
    rw [show cut w bits = ([], bits) by rw [cut, if_neg h]]
    rfl

theorem flatten_cut (bits : List Bool) : (cut w bits).1.flatten ++ (cut w bits).2 = bits := by
  induction bits using cut.induct w with
  | case1 bits h ih =>
    rw [cut, if_pos h]
    show bits.take w ++ (cut w (bits.drop w)).1.flatten ++ _ = _
    rw [List.append_assoc, ih, List.take_append_drop]
  | case2 bits h => rw [cut, if_neg h]; rfl

theorem length_of_mem_cut (h : group ∈ (cut w bits).1) : group.length = w := by
  induction bits using cut.induct w with
  | case1 bits hlong ih =>
    rw [cut, if_pos hlong] at h
    rcases List.mem_cons.mp h with rfl | h
    · exact List.length_take_of_le hlong.2
    · exact ih h
  | case2 bits hshort => rw [cut, if_neg hshort] at h; cases h

theorem length_of_mem_groups (hw : 0 < w) (h : group ∈ groups w bits) : group.length = w := by
  rcases List.mem_append.mp h with h | h
  · exact length_of_mem_cut h
  · split_ifs at h with hleft
    · cases h
    · have hlt := cut_left_lt hw bits
      rw [List.mem_singleton.mp h, List.length_append, List.length_replicate]
      omega

theorem flatten_groups (hw : 0 < w) (bits : List Bool) :
    ∃ k < w, (groups w bits).flatten = bits ++ List.replicate k false := by
  have hlt := cut_left_lt hw bits
  rw [groups, List.flatten_append]
  split_ifs with hleft
  · refine ⟨0, hw, ?_⟩
    have hall := flatten_cut (w := w) bits
    rw [hleft, List.append_nil] at hall
    rw [hall]
    rfl
  · have hpos := List.length_pos_iff.mpr hleft
    refine ⟨w - (cut w bits).2.length, by omega, ?_⟩
    rw [List.flatten_singleton, ← List.append_assoc, flatten_cut]

/-- Whole groups are found again, also with a few bits behind them. -/
theorem cut_flatten (hw : 0 < w) {whole : List (List Bool)} (h : ∀ group ∈ whole, group.length = w) {left : List Bool}
    (hleft : left.length < w) : cut w (whole.flatten ++ left) = (whole, left) := by
  induction whole with
  | nil => exact cut_short hleft
  | cons group whole ih =>
    rw [List.flatten_cons, List.append_assoc, cut_group hw (h group List.mem_cons_self),
      ih fun g hg => h g (List.mem_cons_of_mem _ hg)]

/-! ## Accumulator -/

/-- The pending bits are the low bits of the word. -/
def Low (value : BitVec 32) (pending : List Bool) : Prop := value.toNat % 2 ^ pending.length = ofBits pending

theorem Low.nil (value : BitVec 32) : Low value [] := Nat.mod_one _

/-- **Bits are pushed in.**  What overflows was pending no more. -/
theorem Low.push {value : BitVec 32} {pending : List Bool} (h : Low value pending)
    (hroom : pending.length + bits.length ≤ 32) :
    Low (value <<< bits.length ||| BitVec.ofNat 32 (ofBits bits)) (pending ++ bits) := by
  have hlt := ofBits_lt bits
  have hpow : 2 ^ bits.length * 2 ^ (32 - bits.length) = 2 ^ 32 := by rw [← pow_add]; congr 1; omega
  have hsmall : ofBits bits < 2 ^ 32 := lt_of_lt_of_le hlt (Nat.pow_le_pow_right (by decide) (by omega))
  have hshift : value.toNat <<< bits.length % 2 ^ 32 = (value.toNat % 2 ^ (32 - bits.length)) <<< bits.length := by
    rw [Nat.shiftLeft_eq, Nat.shiftLeft_eq, ← hpow, mul_comm (2 ^ bits.length), Nat.mul_mod_mul_right]
  have hvalue : (value <<< bits.length ||| BitVec.ofNat 32 (ofBits bits)).toNat =
      value.toNat % 2 ^ (32 - bits.length) * 2 ^ bits.length + ofBits bits := by
    rw [BitVec.toNat_or, BitVec.toNat_shiftLeft, BitVec.toNat_ofNat, Nat.mod_eq_of_lt hsmall, hshift,
      ← Nat.shiftLeft_add_eq_or_of_lt hlt, Nat.shiftLeft_eq]
  rw [Low, hvalue, ofBits_append, List.length_append, pow_add, ← h]
  have hdvd : 2 ^ pending.length ∣ 2 ^ (32 - bits.length) := Nat.pow_dvd_pow 2 (by omega)
  generalize value.toNat = v at hdvd ⊢
  rw [← Nat.mod_mod_of_dvd v hdvd, Nat.mul_comm (2 ^ pending.length), Nat.mod_mul, Nat.mul_comm (v % _),
    Nat.mul_add_mod, Nat.mul_add_div (Nat.two_pow_pos _), Nat.mod_eq_of_lt hlt, Nat.div_eq_of_lt hlt, Nat.add_zero]
  ring

/-- **A group is taken out**, from above the bits that stay pending. -/
theorem Low.pop {value : BitVec 32} {rest : List Bool} (h : Low value (group ++ rest)) :
    value.toNat >>> rest.length % 2 ^ group.length = ofBits group ∧ Low value rest := by
  have hlt := ofBits_lt rest
  rw [Low, List.length_append, Nat.add_comm, pow_add, ofBits_append] at h
  constructor
  · rw [Nat.shiftRight_eq_div_pow, ← Nat.mod_mul_right_div_self, h, Nat.mul_comm, Nat.mul_add_div (Nat.two_pow_pos _),
      Nat.div_eq_of_lt hlt, Nat.add_zero]
  · have hdvd : 2 ^ rest.length ∣ 2 ^ rest.length * 2 ^ group.length := Nat.dvd_mul_right _ _
    rw [Low, ← Nat.mod_mod_of_dvd _ hdvd, h, Nat.add_comm, Nat.add_mul_mod_self_right, Nat.mod_eq_of_lt hlt]

end CfMonitor.Lib
