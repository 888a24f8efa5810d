/-
  Signed and unsigned 64-bit words: when they are the numbers they stand for.

  The words are Lean's own `Int64` and `UInt64`, whose addition and conversion wrap around.  The
  lemmas here read a word operation as one on integers, for operands that are not negative.
-/
import Mathlib.Algebra.BigOperators.Group.List.Basic
import Mathlib.Algebra.GroupWithZero.Nat
import Mathlib.Tactic.Common

namespace CfMonitor.Lib

/-- A word below `2 ^ 63` converts to the signed word of the same value. -/
theorem toInt_toInt64_of_lt {x : UInt64} (h : x.toNat < 2 ^ 63) : x.toInt64.toInt = (x.toNat : Int) := by
  show x.toBitVec.toInt = _
  rw [BitVec.toInt_eq_toNat_of_lt]
  · rfl
  · show 2 * x.toNat < 2 ^ 64
    omega

variable {a b : Int64}

/-- A sum of two words that are not negative is exact, or it wraps to a negative one. -/
theorem toInt_add_cases (ha : 0 ≤ a.toInt) (hb : 0 ≤ b.toInt) :
    (a.toInt + b.toInt < 2 ^ 63 ∧ (a + b).toInt = a.toInt + b.toInt) ∨
    (2 ^ 63 ≤ a.toInt + b.toInt ∧ (a + b).toInt = a.toInt + b.toInt - 2 ^ 64) := by
  have hla := a.toInt_lt
  have hlb := b.toInt_lt
  rw [Int64.toInt_add, Int.bmod_def]
  by_cases h : a.toInt + b.toInt < 2 ^ 63
  · refine .inl ⟨h, ?_⟩
    rw [if_pos (by omega)]
    omega
  · refine .inr ⟨by omega, ?_⟩
    rw [if_neg (by omega)]
    omega

/-- A sum below `2 ^ 63` is exact. -/
theorem toInt_add_of_lt (ha : 0 ≤ a.toInt) (hb : 0 ≤ b.toInt)
    (h : a.toInt + b.toInt < 2 ^ 63) : (a + b).toInt = a.toInt + b.toInt := by
  rcases toInt_add_cases ha hb with h' | h'
  · exact h'.2
  · omega

/-- A wrapped sum is never above the true one. -/
theorem toInt_add_le (ha : 0 ≤ a.toInt) (hb : 0 ≤ b.toInt) : (a + b).toInt ≤ a.toInt + b.toInt := by
  rcases toInt_add_cases ha hb with h | h <;> omega

/-- A difference of two words that are not negative is exact. -/
theorem toInt_sub_of_nonneg (ha : 0 ≤ a.toInt) (hb : 0 ≤ b.toInt) : (a - b).toInt = a.toInt - b.toInt := by
  have hla := a.toInt_lt
  have hlb := b.toInt_lt
  rw [Int64.toInt_sub, Int.bmod_def]
  split_ifs <;> omega

/-- **An accumulating loop over words is exact** while every term stands for a natural number and
    the sum of these stays below `2 ^ 63`. -/
theorem toInt_foldl_add {β : Type} {f : β → Int64} {g : β → Nat} :
    ∀ (l : List β) (acc : Int64), 0 ≤ acc.toInt → (∀ e ∈ l, (f e).toInt = (g e : Int)) →
      acc.toInt + (l.map g).sum < 2 ^ 63 →
      (l.foldl (fun acc e => acc + f e) acc).toInt = acc.toInt + (l.map g).sum := by
  intro l
  induction l with
  | nil => intro acc _ _ _; simp
  | cons e l ih =>
    intro acc hacc hf hsum
    have he : (f e).toInt = (g e : Int) := hf e List.mem_cons_self
    rw [List.map_cons, List.sum_cons] at hsum ⊢
    have hadd : (acc + f e).toInt = acc.toInt + (f e).toInt :=
      toInt_add_of_lt hacc (by omega) (by omega)
    rw [List.foldl_cons, ih (acc + f e) (by omega)
      (fun e' h => hf e' (List.mem_cons_of_mem e h)) (by omega), hadd]
    omega

/-- An accumulating loop over words wraps once, at its end. -/
theorem toInt_foldl_add_bmod {β : Type} {f : β → Int64} {g : β → Nat} :
    ∀ (l : List β) (acc : Int64), (∀ e ∈ l, (f e).toInt = (g e : Int).bmod (2 ^ 64)) →
      (l.foldl (fun acc e => acc + f e) acc).toInt = (acc.toInt + (l.map g).sum).bmod (2 ^ 64) := by
  intro l
  induction l with
  | nil =>
    intro acc _
    have hlo := acc.le_toInt
    have hhi := acc.toInt_lt
    rw [List.foldl_nil, List.map_nil, List.sum_nil, Int.bmod_def]
    split_ifs <;> omega
  | cons e l ih =>
    intro acc hf
    have he : (f e).toInt = (g e : Int).bmod (2 ^ 64) := hf e List.mem_cons_self
    have hrest := ih (acc + f e) fun e' h => hf e' (List.mem_cons_of_mem e h)
    rw [List.foldl_cons, hrest, Int64.toInt_add, he, Int.add_bmod_bmod, Int.bmod_add_bmod,
      List.map_cons, List.sum_cons]
    congr 1
    push_cast
    omega

/-- A wrapped number is the number itself exactly when it is in range and they are congruent. -/
theorem bmod_eq_iff {x y : Int} :
    x.bmod (2 ^ 64) = y ↔ x % 2 ^ 64 = y % 2 ^ 64 ∧ -2 ^ 63 ≤ y ∧ y < 2 ^ 63 := by
  rw [Int.bmod_def]
  constructor
  · rintro rfl
    refine ⟨?_, ?_, ?_⟩ <;> split_ifs <;> omega
  · rintro ⟨hmod, hlo, hhi⟩
    split_ifs <;> omega

end CfMonitor.Lib
