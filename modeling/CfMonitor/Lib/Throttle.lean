/-
  Regular events that are sampled when enough time has passed since the last sample.

  1. **Throttle** — an event is sampled when at least a threshold has passed (`throttle`).

  2. **Regular events** — events at equal distances give samples at equal distances: the threshold
     rounded up to whole distances, but at least one (`throttle_progression`).

  3. **Windows** — a closed window of two of these distances has two samples (`two_samples`).
-/
import Mathlib.Algebra.Order.Floor.Ring
import Mathlib.Data.Rat.Floor
import Mathlib.Data.List.Perm.Subperm
import Mathlib.Data.List.Nodup
import Mathlib.Tactic.Linarith
import Mathlib.Tactic.Ring

namespace CfMonitor.Lib

/-- The times that are sampled, with the time of the last sample before them. -/
def throttle (threshold : ℚ) : ℤ → List ℤ → List ℤ
  | _, [] => []
  | last, t :: times =>
    if threshold ≤ ((t - last : ℤ) : ℚ) then t :: throttle threshold t times else throttle threshold last times

/-- Times at equal distances. -/
def progression (start step : ℤ) (n : Nat) : List ℤ := (List.range n).map fun i : Nat => start + (i : ℤ) * step

/-- How many events lie from one sample to the next. -/
def eventsPerSample (threshold : ℚ) (step : ℤ) : ℤ := max 1 ⌈threshold / step⌉

theorem progression_succ (start step : ℤ) (n : Nat) :
    progression start step (n + 1) = start :: progression (start + step) step n := by
  rw [progression, List.range_succ_eq_map, List.map_cons, List.map_map, progression]
  congr 1
  · simp
  · refine List.map_congr_left fun i _ => ?_
    simp only [Function.comp_apply, Nat.cast_succ]
    ring

/-- An event is sampled when this many events have come since the last sample. -/
theorem due_iff {threshold : ℚ} {step j : ℤ} (hstep : 0 < step) (hj : 1 ≤ j) :
    threshold ≤ ((j * step : ℤ) : ℚ) ↔ eventsPerSample threshold step ≤ j := by
  have hpos : (0 : ℚ) < step := by exact_mod_cast hstep
  rw [eventsPerSample, max_le_iff, Int.ceil_le, div_le_iff₀ hpos, Int.cast_mul]
  exact ⟨fun h => ⟨hj, h⟩, fun h => h.2⟩

/-- **Behind a sample** the next one comes after as many events, and so on. -/
theorem throttle_after (threshold : ℚ) {step : ℤ} (hstep : 0 < step) (n : Nat) : ∀ (last j : ℤ), 1 ≤ j →
    j ≤ eventsPerSample threshold step →
    ∃ m : Nat, throttle threshold last (progression (last + j * step) step n) =
        progression (last + eventsPerSample threshold step * step) (eventsPerSample threshold step * step) m ∧
      last + j * step + n * step ≤ last + (m + 1) * (eventsPerSample threshold step * step) := by
  have hk : 1 ≤ eventsPerSample threshold step := le_max_left _ _
  induction n with
  | zero =>
    intro last j _ hle
    refine ⟨0, rfl, ?_⟩
    have hmul := Int.mul_le_mul_of_nonneg_right hle hstep.le
    push_cast
    linarith
  | succ n ih =>
    intro last j hj hle
    have hnext : last + j * step + step = last + (j + 1) * step := by ring
    rw [progression_succ, throttle, show last + j * step - last = j * step by ring, hnext]
    by_cases hdue : eventsPerSample threshold step ≤ j
    · -- The event is sampled, and the count begins again.
      obtain rfl : j = eventsPerSample threshold step := le_antisymm hle hdue
      obtain ⟨m, hsamples, hcover⟩ := ih (last + eventsPerSample threshold step * step) 1 le_rfl hk
      refine ⟨m + 1, ?_, ?_⟩
      · rw [if_pos ((due_iff hstep hj).mpr hdue), progression_succ, ← hsamples]
        congr 2
        congr 1
        ring
      · push_cast at hcover ⊢
        linarith
    · obtain ⟨m, hsamples, hcover⟩ := ih last (j + 1) (by omega) (by omega)
      refine ⟨m, ?_, ?_⟩
      · rw [if_neg fun h => hdue ((due_iff hstep hj).mp h), hsamples]
      · push_cast at hcover ⊢
        linarith

/-- **Regular events** are sampled at equal distances, from some event on. -/
theorem throttle_progression (threshold : ℚ) {step : ℤ} (hstep : 0 < step) (n : Nat) : ∀ (last start : ℤ),
    throttle threshold last (progression start step n) = [] ∨
    ∃ (first : ℤ) (m : Nat), throttle threshold last (progression start step n) =
        progression first (eventsPerSample threshold step * step) (m + 1) ∧
      start + n * step ≤ first + (m + 1) * (eventsPerSample threshold step * step) := by
  induction n with
  | zero => exact fun _ _ => .inl rfl
  | succ n ih =>
    intro last start
    rw [progression_succ, throttle]
    by_cases hdue : threshold ≤ ((start - last : ℤ) : ℚ)
    · right
      rw [if_pos hdue]
      obtain ⟨m, hsamples, hcover⟩ := throttle_after threshold hstep n start 1 le_rfl (le_max_left _ _)
      refine ⟨start, m, ?_, ?_⟩
      · rw [progression_succ, ← hsamples, one_mul]
      · push_cast at hcover ⊢
        linarith
    · rw [if_neg hdue]
      rcases ih last (start + step) with h | ⟨first, m, hsamples, hcover⟩
      · exact .inl h
      · refine .inr ⟨first, m, hsamples, ?_⟩
        push_cast at hcover ⊢
        linarith

/-- **Two samples**: a closed window that is as long as two distances, between the first sample and the next one to come. -/
theorem two_samples {first step low high : ℤ} {m : Nat} (hstep : 0 < step) (hlow : first ≤ low)
    (hhigh : high < first + m * step) (hlong : low + 2 * step ≤ high) :
    2 ≤ ((progression first step m).filter fun t => low ≤ t ∧ t ≤ high).length := by
  -- The first sample in the window and the one behind it.
  have hdiv := Int.mul_ediv_add_emod (first - low) step
  have hrest := Int.emod_nonneg (first - low) hstep.ne'
  have hsmall := Int.emod_lt_of_pos (first - low) hstep
  have hneg : (first - low) / step ≤ 0 := Int.ediv_nonpos_of_nonpos_of_neg (by omega) hstep
  obtain ⟨j, hj⟩ : ∃ j : Nat, (j : ℤ) = -((first - low) / step) :=
    ⟨(-((first - low) / step)).toNat, Int.toNat_of_nonneg (by omega)⟩
  have hjstep : first + (j : ℤ) * step = low + (first - low) % step := by
    rw [hj]
    linarith
  have hnext : first + ((j + 1 : Nat) : ℤ) * step = low + (first - low) % step + step := by
    push_cast
    linarith
  have hlast : j + 1 < m := by
    by_contra hle
    have hmul : (m : ℤ) * step ≤ ((j + 1 : Nat) : ℤ) * step :=
      Int.mul_le_mul_of_nonneg_right (by exact_mod_cast not_lt.mp hle) hstep.le
    linarith
  have hmem : ∀ i : Nat, i < m → first + (i : ℤ) * step ∈ progression first step m := fun i hi =>
    List.mem_map.mpr ⟨i, List.mem_range.mpr hi, rfl⟩
  have hpair : [first + (j : ℤ) * step, first + ((j + 1 : Nat) : ℤ) * step] ⊆
      (progression first step m).filter fun t => low ≤ t ∧ t ≤ high := by
    intro t ht
    rcases List.mem_pair.mp ht with rfl | rfl
    · exact List.mem_filter.mpr ⟨hmem j (by omega), by rw [hjstep, decide_eq_true_eq]; omega⟩
    · exact List.mem_filter.mpr ⟨hmem (j + 1) hlast, by rw [hnext, decide_eq_true_eq]; omega⟩
  have hdistinct : [first + (j : ℤ) * step, first + ((j + 1 : Nat) : ℤ) * step].Nodup := by
    rw [List.nodup_cons, List.mem_singleton, hjstep, hnext]
    exact ⟨by omega, List.nodup_singleton _⟩
  exact (List.subperm_of_subset hdistinct hpair).length_le

end CfMonitor.Lib
