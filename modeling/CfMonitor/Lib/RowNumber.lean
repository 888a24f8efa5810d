/-
  `row_number() over (partition by … order by …)` on the rows of one partition.

  * `RowNumbers`  — what the standard promises of the numbers: they are `1 … n`, each once, and follow
                    the order where it decides;
  * `rowNumber`   — one more than the rows in front, which are the numbers where the order decides
                    between any two rows (`rowNumber_numbers`);
  * `card_first`  — so many rows have one of the first numbers.
-/
import Mathlib.Data.Finset.Card
import Mathlib.Order.Interval.Finset.Nat
import Mathlib.Data.Set.Function

namespace CfMonitor.Lib

variable {α : Type*}

/-- Numbers of rows that follow an order; rows of equal rank are numbered in any way. -/
structure RowNumbers (before : α → α → Prop) (rows : List α) (number : α → Nat) : Prop where
  range : ∀ a ∈ rows, 1 ≤ number a ∧ number a ≤ rows.length
  injective : ∀ a ∈ rows, ∀ b ∈ rows, number a = number b → a = b
  ordered : ∀ a ∈ rows, ∀ b ∈ rows, before a b → number a < number b

/-- An order that decides between any two rows. -/
structure OrdersRows (before : α → α → Prop) (rows : List α) : Prop where
  irrefl : ∀ a, ¬ before a a
  trans : ∀ a b c, before a b → before b c → before a c
  total : ∀ a ∈ rows, ∀ b ∈ rows, a ≠ b → before a b ∨ before b a

theorem OrdersRows.sublist {before : α → α → Prop} {rows part : List α} (h : OrdersRows before rows)
    (hsub : part ⊆ rows) : OrdersRows before part :=
  ⟨h.irrefl, h.trans, fun a ha b hb => h.total a (hsub ha) b (hsub hb)⟩

/-- The number of a row under an order that decides between any two. -/
def rowNumber (before : α → α → Prop) [DecidableRel before] (rows : List α) (row : α) : Nat :=
  rows.countP (fun other => before other row) + 1

section

variable {before : α → α → Prop} [DecidableRel before] {rows : List α}

variable {a : α}

theorem rowNumber_lt (h : OrdersRows before rows) {b : α} (ha : a ∈ rows) (hab : before a b) :
    rowNumber before rows a < rowNumber before rows b := by
  rw [rowNumber, rowNumber, Nat.add_lt_add_iff_right]
  -- Everything in front of `a` is in front of `b`, and so is `a`.
  obtain ⟨front, back, rfl⟩ := List.append_of_mem ha
  have hmono : ∀ part : List α, part.countP (fun other => before other a) ≤ part.countP (fun other => before other b) :=
    fun part => List.countP_mono_left fun other _ hother =>
      decide_eq_true (h.trans _ _ _ (of_decide_eq_true hother) hab)
  have hfront := hmono front
  have hback := hmono back
  simp only [List.countP_append, List.countP_cons, decide_eq_true_eq, hab, h.irrefl a, if_true, if_false]
  omega

theorem rowNumber_le_length (h : OrdersRows before rows) (ha : a ∈ rows) :
    rowNumber before rows a ≤ rows.length := by
  obtain ⟨front, back, rfl⟩ := List.append_of_mem ha
  have hfront := List.countP_le_length (p := fun other => decide (before other a)) (l := front)
  have hback := List.countP_le_length (p := fun other => decide (before other a)) (l := back)
  rw [rowNumber]
  simp only [List.countP_append, List.countP_cons, decide_eq_true_eq, h.irrefl a, if_false, List.length_append,
    List.length_cons]
  omega

/-- **The rows in front of a row**, and one, are its number. -/
theorem rowNumber_numbers (h : OrdersRows before rows) : RowNumbers before rows (rowNumber before rows) where
  range a ha := ⟨Nat.le_add_left 1 _, rowNumber_le_length h ha⟩
  injective a ha b hb hab := by
    by_contra hne
    rcases h.total a ha b hb hne with hlt | hlt
    · have hless := rowNumber_lt h ha hlt
      omega
    · have hless := rowNumber_lt h hb hlt
      omega
  ordered a ha b _ hab := rowNumber_lt h ha hab

theorem rowNumber_eq_one : rowNumber before rows a = 1 ↔ ∀ b ∈ rows, ¬ before b a := by
  rw [rowNumber, Nat.add_eq_right, List.countP_eq_zero]
  simp

theorem exists_first (h : OrdersRows before rows) (hne : rows ≠ []) : ∃ a ∈ rows, ∀ b ∈ rows, ¬ before b a := by
  induction rows with
  | nil => exact absurd rfl hne
  | cons a rest ih =>
    by_cases hrest : rest = []
    · exact ⟨a, List.mem_cons_self, fun b hb => by
        rw [hrest, List.mem_singleton] at hb
        rw [hb]
        exact h.irrefl a⟩
    · obtain ⟨m, hm, hfirst⟩ := ih (h.sublist (List.subset_cons_self a rest)) hrest
      by_cases ham : before a m
      · refine ⟨a, List.mem_cons_self, fun b hb hba => ?_⟩
        rcases List.mem_cons.mp hb with rfl | hb
        · exact h.irrefl b hba
        · exact hfirst b hb (h.trans _ _ _ hba ham)
      · refine ⟨m, List.mem_cons_of_mem a hm, fun b hb => ?_⟩
        rcases List.mem_cons.mp hb with rfl | hb
        · exact ham
        · exact hfirst b hb

end

section

variable [DecidableEq α] {before : α → α → Prop} {rows : List α} {number : α → Nat}

/-- **The numbers** are `1 … n`. -/
theorem RowNumbers.image (h : RowNumbers before rows number) (hrows : rows.Nodup) :
    rows.toFinset.image number = Finset.Icc 1 rows.length := by
  refine Finset.eq_of_subset_of_card_le (fun n hn => ?_) ?_
  · obtain ⟨a, ha, rfl⟩ := Finset.mem_image.mp hn
    exact Finset.mem_Icc.mpr (h.range a (List.mem_toFinset.mp ha))
  · have hinjective : Set.InjOn number rows.toFinset := fun a ha b hb hab =>
      h.injective a (List.mem_toFinset.mp ha) b (List.mem_toFinset.mp hb) hab
    rw [Finset.card_image_of_injOn hinjective, List.toFinset_card_of_nodup hrows, Nat.card_Icc]
    omega

/-- **The first rows**: as many as there are, or as are asked for. -/
theorem RowNumbers.card_first (h : RowNumbers before rows number) (hrows : rows.Nodup) (k : Nat) :
    (rows.toFinset.filter fun a => number a ≤ k).card = min k rows.length := by
  have hinjective : Set.InjOn number (rows.toFinset.filter fun a => number a ≤ k) := by
    intro a ha b hb hab
    have ha := List.mem_toFinset.mp (Finset.mem_of_mem_filter a ha)
    have hb := List.mem_toFinset.mp (Finset.mem_of_mem_filter b hb)
    exact h.injective a ha b hb hab
  have himage : (rows.toFinset.filter fun a => number a ≤ k).image number = Finset.Icc 1 (min k rows.length) := by
    ext n
    constructor
    · intro hn
      obtain ⟨a, ha, rfl⟩ := Finset.mem_image.mp hn
      obtain ⟨ha, hk⟩ := Finset.mem_filter.mp ha
      have hrange := h.range a (List.mem_toFinset.mp ha)
      exact Finset.mem_Icc.mpr ⟨hrange.1, le_min hk hrange.2⟩
    · intro hn
      obtain ⟨hlow, hhigh⟩ := Finset.mem_Icc.mp hn
      have hmem : n ∈ rows.toFinset.image number := by
        rw [h.image hrows]
        exact Finset.mem_Icc.mpr ⟨hlow, hhigh.trans (min_le_right _ _)⟩
      obtain ⟨a, ha, rfl⟩ := Finset.mem_image.mp hmem
      exact Finset.mem_image_of_mem _ (Finset.mem_filter.mpr ⟨ha, hhigh.trans (min_le_left _ _)⟩)
  rw [← Finset.card_image_of_injOn hinjective, himage, Nat.card_Icc]
  omega

end

end CfMonitor.Lib
