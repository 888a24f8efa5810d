/-
  Readings of untrusted input that collect what is wrong with it and go on.

  A check never stops: it gives a value (a default where the input has none of use) and the errors
  found on the way, in their order.  A caller accepts the value when there are none (`Passes`).

  * `passes_bind` — a sequence passes when its parts do.
-/
import Mathlib.Data.List.Basic
import Mathlib.Tactic.Common

namespace CfMonitor.Lib

/-- A value, and what was wrong with the input that it was read from. -/
structure Checked (α : Type) where
  value : α
  errors : List String

namespace Checked

variable {α β σ ι : Type}

instance : Monad Checked where
  pure a := ⟨a, []⟩
  bind x f := ⟨(f x.value).value, x.errors ++ (f x.value).errors⟩

/-- An error beside a value. -/
def fault (a : α) (error : String) : Checked α := ⟨a, [error]⟩

/-- An error, where a condition holds. -/
def faultIf (c : Bool) (error : String) : Checked Unit := if c then fault () error else pure ()

/-- Nothing was wrong. -/
def Passes (x : Checked α) : Prop := x.errors = []

instance (x : Checked α) : Decidable x.Passes := inferInstanceAs (Decidable (x.errors = []))

@[simp] theorem value_pure (a : α) : (pure a : Checked α).value = a := rfl

@[simp] theorem value_bind (x : Checked α) (f : α → Checked β) : (x >>= f).value = (f x.value).value := rfl

@[simp] theorem passes_pure (a : α) : (pure a : Checked α).Passes := rfl

@[simp] theorem passes_bind (x : Checked α) (f : α → Checked β) :
    (x >>= f).Passes ↔ x.Passes ∧ (f x.value).Passes := List.append_eq_nil_iff

@[simp] theorem not_passes_fault (a : α) (error : String) : ¬ (fault a error).Passes := List.cons_ne_nil _ _

@[simp] theorem passes_faultIf (c : Bool) (error : String) : (faultIf c error).Passes ↔ c = false := by
  cases c
  · exact ⟨fun _ => rfl, fun _ => rfl⟩
  · exact ⟨fun h => absurd h (not_passes_fault _ _), nofun⟩

/-- Check the items of a list, numbered from `n`; what the earlier ones leave behind goes along. -/
def each (check : σ → Nat → ι → Checked (σ × List α)) : σ → Nat → List ι → Checked (List α)
  | _, _, [] => pure []
  | s, n, item :: rest => do
    let found ← check s n item
    let more ← each check found.1 (n + 1) rest
    pure (found.2 ++ more)

/-- Items that leave nothing behind. -/
def each' (check : Nat → ι → Checked (List α)) (items : List ι) : Checked (List α) :=
  each (fun _ n item => do
    let found ← check n item
    pure ((), found)) () 0 items

end Checked

end CfMonitor.Lib
