/-
  A versioned outbox for one item.

  The source has a value and bumps a version with every change that has to be delivered; the change
  is pending until a confirmation of the very version that is pending arrives.  A delivery carries
  the version and the value as they were read.  The receiver keeps a high-water mark: it begins a
  version that the mark does not cover, and completes the version that it began.

  Deliveries may be copied, delayed, lost and repeated, and so may confirmations: `read` and
  `confirmed` are everything that was ever read or may ever be confirmed.

  `Inv` is kept by each of the operations; from it, what is no longer pending has been applied as it
  is (`Inv.applied_of_settled`), and the version that was applied last never decreases.
-/
import Mathlib.Order.Basic
import Mathlib.Tactic.Common

namespace CfMonitor.Lib

/-- Both ends of an outbox, for one item. -/
structure Outbox (β : Type) where
  value : β
  latest : Nat
  pending : Bool
  mark : Option (Nat × Bool)
  applied : Option (Nat × β)
  read : Nat → β → Prop
  confirmed : Nat → Prop

namespace Outbox

variable {β : Type}

/-- A mark is beyond a version, or at it and complete. -/
def Covers (mark : Option (Nat × Bool)) (n : Nat) : Prop :=
  ∃ m b, mark = some (m, b) ∧ (n < m ∨ (n = m ∧ b = true))

/-- A version and its value are not newer than the source. -/
def Fresh (o : Outbox β) (n : Nat) (v : β) : Prop := n ≤ o.latest ∧ (n = o.latest → v = o.value)

theorem Fresh.change {o : Outbox β} {k : Nat} {w : β} (h : o.Fresh k w) (v : β) {n : Nat}
    (hn : o.latest < n) : ({ o with value := v, latest := n, pending := true } : Outbox β).Fresh k w := by
  have hle := h.1
  refine ⟨Nat.le_trans hle (Nat.le_of_lt hn), fun heq => ?_⟩
  have hk : k = n := heq
  omega

/-- What holds of both ends at every moment. -/
structure Inv (o : Outbox β) : Prop where
  read_fresh : ∀ {n v}, o.read n v → o.Fresh n v
  marked : ∀ {m b}, o.mark = some (m, b) → m ≤ o.latest
  complete : ∀ {m}, o.mark = some (m, true) → ∃ v, o.applied = some (m, v)
  applied_fresh : ∀ {n v}, o.applied = some (n, v) → o.Fresh n v
  applied_le : ∀ {n v}, o.applied = some (n, v) → ∃ m b, o.mark = some (m, b) ∧ n ≤ m
  confirmed_covered : ∀ {n}, o.confirmed n → Covers o.mark n
  settled : o.pending = false → o.latest = 0 ∨ Covers o.mark o.latest

namespace Inv

variable {o : Outbox β}

theorem applied_of_settled (h : o.Inv) (hpending : o.pending = false) (hlatest : o.latest ≠ 0) :
    o.applied = some (o.latest, o.value) := by
  rcases h.settled hpending with hzero | ⟨m, b, hmark, hcover⟩
  · exact absurd hzero hlatest
  · have hle := h.marked hmark
    obtain ⟨rfl, rfl⟩ : o.latest = m ∧ b = true := by
      rcases hcover with hlt | hat
      · omega
      · exact hat
    obtain ⟨v, hv⟩ := h.complete hmark
    rw [hv, (h.applied_fresh hv).2 rfl]

variable {n : Nat}

theorem change (h : o.Inv) (v : β) (hn : o.latest < n) :
    ({ o with value := v, latest := n, pending := true } : Outbox β).Inv where
  read_fresh hread := (h.read_fresh hread).change v hn
  marked hmark := by
    have hle := h.marked hmark
    exact Nat.le_trans hle (Nat.le_of_lt hn)
  complete := h.complete
  applied_fresh happ := (h.applied_fresh happ).change v hn
  applied_le := h.applied_le
  confirmed_covered := h.confirmed_covered
  settled hpending := absurd hpending (by simp)

theorem reading (h : o.Inv) (read : Nat → β → Prop)
    (hread : ∀ n v, read n v → o.read n v ∨ (n = o.latest ∧ v = o.value)) :
    ({ o with read := read } : Outbox β).Inv where
  read_fresh {n v} hr := by
    rcases hread n v hr with hold | ⟨rfl, rfl⟩
    · exact h.read_fresh hold
    · exact ⟨Nat.le_refl _, fun _ => rfl⟩
  marked := h.marked
  complete := h.complete
  applied_fresh := h.applied_fresh
  applied_le := h.applied_le
  confirmed_covered := h.confirmed_covered
  settled := h.settled

theorem covers_begin {mark : Option (Nat × Bool)} {k : Nat} (hnew : ¬ Covers mark n)
    (h : Covers mark k) : Covers (some (n, false)) k := by
  obtain ⟨m, b, hmark, hcover⟩ := h
  have hle : m ≤ n := by
    by_contra hlt
    exact hnew ⟨m, b, hmark, .inl (by omega)⟩
  have hne : ¬ (n = m ∧ b = true) := fun hat => hnew ⟨m, b, hmark, .inr hat⟩
  refine ⟨n, false, rfl, .inl ?_⟩
  rcases hcover with hlt | ⟨rfl, hb⟩
  · omega
  · exact Nat.lt_of_le_of_ne hle fun heq => hne ⟨heq.symm, hb⟩

theorem covers_complete {k : Nat} (h : Covers (some (n, false)) k) : Covers (some (n, true)) k := by
  obtain ⟨m, b, hmark, hcover⟩ := h
  cases hmark
  rcases hcover with hlt | ⟨-, hb⟩
  · exact ⟨n, true, rfl, .inl hlt⟩
  · cases hb

theorem begin_version (h : o.Inv) {v : β} (hread : o.read n v) (hnew : ¬ Covers o.mark n) :
    ({ o with mark := some (n, false) } : Outbox β).Inv where
  read_fresh := h.read_fresh
  marked hmark := by
    obtain ⟨rfl, -⟩ := Prod.mk.inj (Option.some.inj hmark)
    exact (h.read_fresh hread).1
  complete hmark := absurd (Prod.mk.inj (Option.some.inj hmark)).2 (by simp)
  applied_fresh := h.applied_fresh
  applied_le happ := by
    obtain ⟨m, b, hmark, hle⟩ := h.applied_le happ
    refine ⟨n, false, rfl, Nat.le_trans hle ?_⟩
    by_contra hlt
    exact hnew ⟨m, b, hmark, .inl (by omega)⟩
  confirmed_covered hc := covers_begin hnew (h.confirmed_covered hc)
  settled hpending := (h.settled hpending).imp id (covers_begin hnew)

theorem complete_version (h : o.Inv) {v : β} (hread : o.read n v) (hmark : o.mark = some (n, false)) :
    ({ o with mark := some (n, true), applied := some (n, v) } : Outbox β).Inv where
  read_fresh := h.read_fresh
  marked hm := by
    obtain ⟨rfl, -⟩ := Prod.mk.inj (Option.some.inj hm)
    exact h.marked hmark
  complete hm := by
    obtain ⟨rfl, -⟩ := Prod.mk.inj (Option.some.inj hm)
    exact ⟨v, rfl⟩
  applied_fresh happ := by
    cases happ
    exact h.read_fresh hread
  applied_le happ := by
    cases happ
    exact ⟨n, true, rfl, Nat.le_refl n⟩
  confirmed_covered hc := covers_complete (hmark ▸ h.confirmed_covered hc)
  settled hpending := (h.settled hpending).imp id fun hcover => covers_complete (hmark ▸ hcover)

theorem confirming (h : o.Inv) (confirmed : Nat → Prop)
    (hcovered : ∀ n, confirmed n → o.confirmed n ∨ Covers o.mark n) :
    ({ o with confirmed := confirmed } : Outbox β).Inv where
  read_fresh := h.read_fresh
  marked := h.marked
  complete := h.complete
  applied_fresh := h.applied_fresh
  applied_le := h.applied_le
  confirmed_covered {n} hc := (hcovered n hc).elim h.confirmed_covered id
  settled := h.settled

/-- A confirmation of the version that is pending. -/
theorem acknowledge (h : o.Inv) (hc : o.confirmed o.latest) :
    ({ o with pending := false } : Outbox β).Inv where
  read_fresh := h.read_fresh
  marked := h.marked
  complete := h.complete
  applied_fresh := h.applied_fresh
  applied_le := h.applied_le
  confirmed_covered := h.confirmed_covered
  settled _ := .inr (h.confirmed_covered hc)

end Inv

end Outbox

end CfMonitor.Lib
