/-
  Reading a table page by page, downwards from its largest key.

  1. **Order** — `descending` and `ascending` sort rows by a key.  Rows with distinct keys have one
     strictly descending order (`descending_eq`), and turning it round sorts upwards
     (`ascending_eq_reverse`).  A rising list is known by what is in it (`Rising.eq_of_mem`).

  2. **Cut** — what lies below the last row of a page is what the page left (`mem_drop_iff`).
-/
import Mathlib.Data.List.Sort
import Mathlib.Tactic.Common

namespace CfMonitor.Lib.Paging

/-! ## Order -/

section Order

variable {α κ : Type} [LinearOrder κ] (key : α → κ)

/-- The rows by decreasing key. -/
def descending (rows : List α) : List α := rows.insertionSort (fun a b => key b ≤ key a)

/-- The rows by increasing key. -/
def ascending (rows : List α) : List α := rows.insertionSort (fun a b => key a ≤ key b)

/-- In strictly decreasing order of the keys. -/
def Falling (rows : List α) : Prop := rows.Pairwise (fun a b => key b < key a)

variable {key} {rows l : List α}

theorem descending_perm : (descending key rows).Perm rows := List.perm_insertionSort _ rows

theorem ascending_perm : (ascending key rows).Perm rows := List.perm_insertionSort _ rows

theorem Falling.nodup (h : Falling key l) : l.Nodup :=
  h.imp fun hlt heq => absurd hlt (by rw [heq]; exact lt_irrefl _)

theorem falling_descending (h : (rows.map key).Nodup) : Falling key (descending key rows) := by
  have hsorted : (descending key rows).Pairwise (fun a b => key b ≤ key a) :=
    haveI : Std.Total (fun a b : α => key b ≤ key a) := ⟨fun a b => le_total (key b) (key a)⟩
    haveI : IsTrans α (fun a b : α => key b ≤ key a) := ⟨fun _ _ _ hab hbc => le_trans hbc hab⟩
    List.pairwise_insertionSort _ rows
  have hdistinct : (descending key rows).Pairwise (fun a b => key a ≠ key b) := by
    apply List.pairwise_map.mp
    exact (descending_perm.map key).nodup_iff.mpr h
  exact hsorted.imp₂ (fun a b hle hne => lt_of_le_of_ne hle (Ne.symm hne)) hdistinct

theorem Falling.eq_of_perm {l' : List α} (h : Falling key l) (h' : Falling key l') (hperm : l.Perm l') :
    l = l' := by
  apply hperm.eq_of_pairwise _ h h'
  intro a b _ _ hab hba
  exact absurd hab (lt_asymm hba)

theorem descending_eq (h : Falling key l) (hperm : rows.Perm l) : descending key rows = l := by
  have hkeys : (rows.map key).Nodup := by
    apply (hperm.map key).nodup_iff.mpr
    exact List.pairwise_map.mpr (h.imp fun hlt => ne_of_gt hlt)
  exact (falling_descending hkeys).eq_of_perm h (descending_perm.trans hperm)

theorem ascending_eq_reverse (h : Falling key l) : ascending key l = l.reverse := by
  have hsorted : (ascending key l).Pairwise (fun a b => key a ≤ key b) :=
    haveI : Std.Total (fun a b : α => key a ≤ key b) := ⟨fun a b => le_total (key a) (key b)⟩
    haveI : IsTrans α (fun a b : α => key a ≤ key b) := ⟨fun _ _ _ hab hbc => le_trans hab hbc⟩
    List.pairwise_insertionSort _ l
  have hdistinct : (ascending key l).Pairwise (fun a b => key a ≠ key b) := by
    apply List.pairwise_map.mp
    apply (ascending_perm.map key).nodup_iff.mpr
    exact List.pairwise_map.mpr (h.imp fun hlt => ne_of_gt hlt)
  have hrising : Falling key (ascending key l).reverse := by
    apply List.pairwise_reverse.mpr
    exact hsorted.imp₂ (fun a b hle hne => lt_of_le_of_ne hle hne) hdistinct
  have hrev : (ascending key l).reverse = l :=
    hrising.eq_of_perm h ((List.reverse_perm _).trans ascending_perm)
  exact List.reverse_eq_iff.mp hrev

/-- In strictly increasing order of the keys. -/
def Rising (key : α → κ) (rows : List α) : Prop := rows.Pairwise (fun a b => key a < key b)

/-- Rows with distinct keys, sorted upwards, rise strictly. -/
theorem rising_ascending (h : (rows.map key).Nodup) : Rising key (ascending key rows) := by
  have hsorted : (ascending key rows).Pairwise (fun a b => key a ≤ key b) :=
    haveI : Std.Total (fun a b : α => key a ≤ key b) := ⟨fun a b => le_total (key a) (key b)⟩
    haveI : IsTrans α (fun a b : α => key a ≤ key b) := ⟨fun _ _ _ hab hbc => le_trans hab hbc⟩
    List.pairwise_insertionSort _ rows
  have hdistinct : (ascending key rows).Pairwise (fun a b => key a ≠ key b) := by
    apply List.pairwise_map.mp
    exact (ascending_perm.map key).nodup_iff.mpr h
  exact hsorted.imp₂ (fun a b hle hne => lt_of_le_of_ne hle hne) hdistinct

theorem Falling.reverse (h : Falling key l) : Rising key l.reverse := List.pairwise_reverse.mpr h

theorem Rising.eq_of_mem {l' : List α} (h : Rising key l) (h' : Rising key l')
    (hmem : ∀ x, x ∈ l ↔ x ∈ l') : l = l' := by
  have hnodup : ∀ {m : List α}, Rising key m → m.Nodup :=
    fun hm => hm.imp fun hlt heq => absurd hlt (by rw [heq]; exact lt_irrefl _)
  have hperm : l.Perm l' := (List.perm_ext_iff_of_nodup (hnodup h) (hnodup h')).mpr hmem
  apply hperm.eq_of_pairwise _ h h'
  intro a b _ _ hab hba
  exact absurd hab (lt_asymm hba)

/-! ## Cut -/

variable {n : Nat}

/-- The rows below the last one of a page are the rows after the page. -/
theorem mem_drop_iff {c : α} (h : Falling key l) (hc : l[n]? = some c) (x : α) :
    x ∈ l.drop (n + 1) ↔ x ∈ l ∧ key x < key c := by
  obtain ⟨hn, rfl⟩ := List.getElem?_eq_some_iff.mp hc
  have hsplit : l = l.take n ++ l[n] :: l.drop (n + 1) := by
    rw [List.getElem_cons_drop, List.take_append_drop]
  have hfall : Falling key (l.take n ++ l[n] :: l.drop (n + 1)) := hsplit ▸ h
  obtain ⟨-, hcons, habove⟩ := List.pairwise_append.mp hfall
  have hbelow := (List.pairwise_cons.mp hcons).1
  constructor
  · intro hx
    exact ⟨List.mem_of_mem_drop hx, hbelow x hx⟩
  · rintro ⟨hx, hlt⟩
    rw [hsplit] at hx
    rcases List.mem_append.mp hx with hfront | htail
    · have habove := habove x hfront l[n] (List.mem_cons_self ..)
      exact absurd hlt (lt_asymm habove)
    · rcases List.mem_cons.mp htail with rfl | hrest
      · exact absurd hlt (lt_irrefl _)
      · exact hrest

theorem Falling.drop (h : Falling key l) : Falling key (l.drop n) :=
  List.Pairwise.sublist (List.drop_sublist n l) h

theorem Falling.take (h : Falling key l) : Falling key (l.take n) :=
  List.Pairwise.sublist (List.take_sublist n l) h

end Order

end CfMonitor.Lib.Paging
