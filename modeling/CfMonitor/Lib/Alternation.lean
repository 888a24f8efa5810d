/-
  Events that open and close by turns.

  A history is a list of events, newest first.  It alternates when every event is the one whose turn
  it was: an opening one at first and after each closing one, a closing one after each opening one.
-/
import Mathlib.Data.List.Chain
import Mathlib.Tactic.Common

namespace CfMonitor.Lib

/-- An event that opens, or one that closes what is open. -/
inductive Turn where
  | opens
  | closes
  deriving DecidableEq, Repr

namespace Turn

/-- Something is open: the newest event opened. -/
def isOpen (history : List Turn) : Bool := decide (history.head? = some .opens)

/-- The event whose turn it is. -/
def next (history : List Turn) : Turn := if isOpen history then .closes else .opens

/-- Every event was the one whose turn it was. -/
def Alternating : List Turn → Prop
  | [] => True
  | turn :: history => turn = next history ∧ Alternating history

instance decidableAlternating : DecidablePred Alternating
  | [] => isTrue trivial
  | turn :: history =>
    have := decidableAlternating history
    inferInstanceAs (Decidable (turn = next history ∧ Alternating history))

@[simp] theorem isOpen_nil : isOpen [] = false := rfl
@[simp] theorem isOpen_opens (history : List Turn) : isOpen (.opens :: history) = true := rfl
@[simp] theorem isOpen_closes (history : List Turn) : isOpen (.closes :: history) = false := rfl

theorem alternating_iff (history : List Turn) :
    Alternating history ↔ history.IsChain (· ≠ ·) ∧ ∀ turn ∈ history.getLast?, turn = .opens := by
  induction history with
  | nil => simp [Alternating]
  | cons turn rest ih =>
    cases rest with
    | nil => cases turn <;> simp [Alternating, next]
    | cons previous rest =>
      rw [Alternating, ih, List.isChain_cons_cons, List.getLast?_cons_cons, and_assoc]
      refine and_congr_left fun _ => ?_
      cases turn <;> cases previous <;> simp [next]

end Turn

end CfMonitor.Lib
