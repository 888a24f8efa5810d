/-
  Computations that may fail.

  1. **Sequence** — a sequence succeeds when its parts do (`bind_eq_ok`).

  2. **Lists** — an item for each item (`mapM_eq_ok`), or one state after the other (`foldlM_concat`).
-/
import Mathlib.Data.List.Basic
import Mathlib.Tactic.Common

namespace CfMonitor.Lib.Fallible

variable {ε α β σ : Type}

/-- An error where a condition holds. -/
def failIf (c : Prop) [Decidable c] (error : ε) : Except ε Unit := if c then .error error else .ok ()

theorem failIf_eq_ok {c : Prop} [Decidable c] {error : ε} {u : Unit} : failIf c error = .ok u ↔ ¬ c := by
  rw [failIf]
  split_ifs with h
  · exact ⟨fun h => (nomatch h), fun hc => absurd h hc⟩
  · exact ⟨fun _ => h, fun _ => rfl⟩

variable {f : α → Except ε β}

variable {x : Except ε α} {b : β}

theorem bind_eq_ok : x >>= f = .ok b ↔ ∃ a, x = .ok a ∧ f a = .ok b := by
  cases x with
  | error e => exact ⟨fun h => (nomatch h), fun ⟨_, h, _⟩ => (nomatch h)⟩
  | ok a => exact ⟨fun h => ⟨a, rfl, h⟩, fun ⟨_, h, hf⟩ => by rw [Except.ok.inj h]; exact hf⟩

theorem map_eq_ok {f : α → β} : x.map f = .ok b ↔ ∃ a, x = .ok a ∧ f a = b := by
  cases x with
  | error e => exact ⟨fun h => (nomatch h), fun ⟨_, h, _⟩ => (nomatch h)⟩
  | ok a => exact ⟨fun h => ⟨a, rfl, Except.ok.inj h⟩, fun ⟨_, h, hf⟩ => by rw [Except.ok.inj h, ← hf]; rfl⟩

variable {results : List β}

/-- **A list** is read when each of its items is. -/
theorem mapM_eq_ok {items : List α} :
    items.mapM f = .ok results ↔ List.Forall₂ (fun a b => f a = .ok b) items results := by
  induction items generalizing results with
  | nil =>
    rw [List.mapM_nil]
    exact ⟨fun h => by rw [← Except.ok.inj h]; exact .nil, fun h => by cases h; rfl⟩
  | cons a items ih =>
    rw [List.mapM_cons, bind_eq_ok]
    constructor
    · rintro ⟨b, hb, h⟩
      obtain ⟨rest, hrest, h⟩ := bind_eq_ok.mp h
      rw [← Except.ok.inj h]
      exact .cons hb (ih.mp hrest)
    · intro h
      cases h with
      | @cons _ b _ rest hb hrest => exact ⟨b, hb, bind_eq_ok.mpr ⟨rest, ih.mpr hrest, rfl⟩⟩

theorem mapM_eq_some {f : α → Option β} {items : List α} :
    items.mapM f = some results ↔ List.Forall₂ (fun a b => f a = some b) items results := by
  induction items generalizing results with
  | nil =>
    rw [List.mapM_nil]
    exact ⟨fun h => by rw [← Option.some.inj h]; exact .nil, fun h => by cases h; rfl⟩
  | cons a items ih =>
    rw [List.mapM_cons]
    constructor
    · intro h
      obtain ⟨b, hb, h⟩ := Option.bind_eq_some_iff.mp h
      obtain ⟨rest, hrest, h⟩ := Option.bind_eq_some_iff.mp h
      cases h
      exact .cons hb (ih.mp hrest)
    · intro h
      cases h with
      | cons hb hrest => exact Option.bind_eq_some_iff.mpr ⟨_, hb, Option.bind_eq_some_iff.mpr ⟨_, ih.mpr hrest, rfl⟩⟩

theorem mem_of_mapM {items : List α} (h : items.mapM f = .ok results)
    (hb : b ∈ results) : ∃ a ∈ items, f a = .ok b := by
  have hread := mapM_eq_ok.mp h
  clear h
  induction hread with
  | nil => cases hb
  | cons ha _ ih =>
    rcases List.mem_cons.mp hb with rfl | hb
    · exact ⟨_, List.mem_cons_self, ha⟩
    · obtain ⟨a, hmem, hfa⟩ := ih hb
      exact ⟨a, List.mem_cons_of_mem _ hmem, hfa⟩

theorem foldlM_concat {f : σ → α → Except ε σ} {items : List α} {a : α} {s t : σ} :
    (items ++ [a]).foldlM f s = .ok t ↔ ∃ u, items.foldlM f s = .ok u ∧ f u a = .ok t := by
  rw [List.foldlM_append, bind_eq_ok]
  refine exists_congr fun u => and_congr_right fun _ => ?_
  rw [List.foldlM_cons, bind_eq_ok]
  exact ⟨fun ⟨v, hv, h⟩ => by rw [hv, Except.ok.inj h], fun h => ⟨t, h, rfl⟩⟩

end CfMonitor.Lib.Fallible
