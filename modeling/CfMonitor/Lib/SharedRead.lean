/-
  A cached value with one pending read that callers share.

  1. **Slot** — the value that was read last, until when it is fresh, and the read that is pending.

  2. **Ask** — a caller gets the fresh value, joins the pending read, or begins one.

  3. **Since** — the value is not older than a moment.  A read that settles writes its value whoever asked for it, so
     the slot stays so only if the value of the read is not older either.
-/
import Mathlib.Tactic.Common

namespace CfMonitor.Lib

/-- A value with the moment at which it was the current one. -/
structure Stamped (α : Type) where
  value : α
  readAt : Nat

structure Slot (α : Type) where
  cached : Option (Stamped α × Int)
  pending : Option Nat

/-- What a caller gets. -/
inductive Answer (α : Type) where
  | found (v : Stamped α)
  | joins (read : Nat)
  | reads

namespace Answer

variable {α : Type}

/-- The value that a caller has at once. -/
def value? : Answer α → Option (Stamped α)
  | found v => some v
  | _ => none

/-- The read that a caller waits for. -/
def read? : Answer α → Option Nat
  | joins read => some read
  | _ => none

end Answer

namespace Slot

variable {α : Type} (slot : Slot α)

def empty : Slot α := ⟨none, none⟩

/-- The cached value, if it is still fresh. -/
def fresh (now : Int) : Option (Stamped α) := (slot.cached.filter fun p => decide (now < p.2)).map Prod.fst

def ask (now : Int) (forced : Bool) : Answer α :=
  if forced then .reads
  else match slot.fresh now with
    | some v => .found v
    | none => match slot.pending with
      | some read => .joins read
      | none => .reads

/-- A read begins. -/
def awaits (read : Nat) : Slot α := { slot with pending := some read }

/-- A read settles: the value is kept, and the read is no longer pending. -/
def settle (read : Nat) (v : Stamped α) (expiresAt : Int) : Slot α :=
  ⟨some (v, expiresAt), if slot.pending = some read then none else slot.pending⟩

/-- The value is not older than a moment. -/
def Since (moment : Nat) : Prop := ∀ p, slot.cached = some p → moment ≤ p.1.readAt

variable {slot} {moment : Nat}

theorem since_empty : (empty : Slot α).Since moment := nofun

theorem Since.awaits (h : slot.Since moment) (read : Nat) : (slot.awaits read).Since moment := h

variable {v : Stamped α}

theorem since_settle {read : Nat} {expiresAt : Int} (h : moment ≤ v.readAt) :
    (slot.settle read v expiresAt).Since moment := by
  intro p hp
  cases hp
  exact h

variable {now : Int}

theorem cached_of_fresh (h : slot.fresh now = some v) : ∃ expiresAt, slot.cached = some (v, expiresAt) := by
  obtain ⟨p, hp, rfl⟩ := Option.map_eq_some_iff.mp h
  exact ⟨p.2, (Option.filter_eq_some_iff.mp hp).1⟩

theorem Since.of_fresh (h : slot.Since moment) (hfresh : slot.fresh now = some v) : moment ≤ v.readAt := by
  obtain ⟨expiresAt, hcached⟩ := cached_of_fresh hfresh
  exact h _ hcached

theorem ask_found {forced : Bool} (h : slot.ask now forced = .found v) :
    forced = false ∧ slot.fresh now = some v := by
  rw [ask] at h
  split_ifs at h with hforced
  cases hfresh : slot.fresh now with
  | some w =>
    rw [hfresh] at h
    obtain rfl := Answer.found.inj h
    exact ⟨by simpa using hforced, rfl⟩
  | none =>
    rw [hfresh] at h
    cases hpending : slot.pending with
    | none =>
      rw [hpending] at h
      cases h
    | some read =>
      rw [hpending] at h
      cases h

end Slot

end CfMonitor.Lib
