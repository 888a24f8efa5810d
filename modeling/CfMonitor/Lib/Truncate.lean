/-
  Dropping the fraction of a number, towards zero (`new Date(x)`).

  Among the integers, the truncated number is a bound where the number is one (`truncMs_le`,
  `lt_of_lt_truncMs`); so nothing at or above the number is lost below its truncation.
-/
import Mathlib.Data.Rat.Floor
import Mathlib.Tactic.Linarith

namespace CfMonitor.Lib

/-- The milliseconds of `new Date(x)`. -/
def truncMs (x : ℚ) : Int := if 0 ≤ x then x.floor else -(-x).floor

variable {x : ℚ} {m : Int}

theorem truncMs_le (h : x ≤ m) : truncMs x ≤ m := by
  rw [truncMs]
  split_ifs with hx
  · have hfloor : (x.floor : ℚ) ≤ x := Rat.floor_le x
    exact_mod_cast hfloor.trans h
  · have hlow : -m ≤ (-x).floor := Rat.le_floor_iff.mpr (by push_cast; linarith)
    omega

theorem le_truncMs (hx : 0 ≤ x) (h : (m : ℚ) ≤ x) : m ≤ truncMs x := by
  rw [truncMs, if_pos hx]
  exact Rat.le_floor_iff.mpr h

theorem lt_of_lt_truncMs (h : m < truncMs x) : (m : ℚ) < x := by
  by_contra hle
  have hge := truncMs_le (not_lt.mp hle)
  omega

@[simp] theorem truncMs_intCast (m : Int) : truncMs m = m := by
  rw [truncMs]
  split_ifs
  · exact Rat.floor_intCast m
  · have hneg : (-(m : ℚ)).floor = -m := by exact_mod_cast Rat.floor_intCast (-m)
    omega

end CfMonitor.Lib
