/-
  Histories: what happened, newest first.

  A history variable only grows at its front.  A statement about two entries and what lies between
  them is kept by a new entry when it holds between every old entry and the new one
  (`Related.push`); an old entry seen from the new front is an old entry with one more entry after
  it (`cons_cases`).
-/
import Mathlib.Data.List.Basic
import Mathlib.Tactic.Common

namespace CfMonitor.Lib.History

variable {ε : Type} {R : ε → List ε → ε → Prop} {e x : ε} {log mid pre : List ε}

/-- Any two entries are related, through what happened between them. -/
def Related (R : ε → List ε → ε → Prop) (log : List ε) : Prop :=
  ∀ post mid pre x y, log = post ++ y :: (mid ++ x :: pre) → R x mid y

theorem Related.nil : Related R ([] : List ε) := by
  intro post mid pre x y h
  exact absurd h (by simp)

/-- An entry of a history with a new front: the new one, or an old one. -/
theorem cons_cases (h : e :: log = mid ++ x :: pre) :
    (mid = [] ∧ x = e) ∨ ∃ mid', mid = e :: mid' ∧ log = mid' ++ x :: pre := by
  cases mid with
  | nil =>
    obtain ⟨rfl, -⟩ := List.cons.inj h
    exact .inl ⟨rfl, rfl⟩
  | cons f mid' =>
    obtain ⟨rfl, hrest⟩ := List.cons.inj h
    exact .inr ⟨mid', rfl, hrest⟩

theorem Related.push (h : Related R log) (hnew : ∀ mid pre x, log = mid ++ x :: pre → R x mid e) :
    Related R (e :: log) := by
  intro post mid pre x y heq
  rcases cons_cases heq with ⟨rfl, rfl⟩ | ⟨post', rfl, hrest⟩
  · exact hnew mid pre x (List.cons.inj heq).2
  · exact h post' mid pre x y hrest

end CfMonitor.Lib.History
