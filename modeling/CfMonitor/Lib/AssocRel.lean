/-
  Two maps with the same keys in the same order and related values.

  1. **Lookup and update** (`Rel.get?`, `Rel.set`, `Rel.erase`) — related maps have a key both or
     neither, and stay related when related values are written or a key is removed.

  2. **Selection** (`filter_merge`, `map_merge`) — selecting keys and applying a function to the values
     commute with writing many pairs.
-/
import CfMonitor.Lib.Assoc
import Mathlib.Data.List.Forall2

namespace CfMonitor.Lib.Assoc

variable {κ α β : Type} [DecidableEq κ]

/-- The same keys in the same order, with related values. -/
def Rel (R : α → β → Prop) (l : List (κ × α)) (m : List (κ × β)) : Prop :=
  List.Forall₂ (fun p q => p.1 = q.1 ∧ R p.2 q.2) l m

namespace Rel

variable {R : α → β → Prop} {l : List (κ × α)} {m : List (κ × β)}

/-- A key is in both maps or in neither. -/
theorem get? (h : Rel R l m) (k : κ) : (Assoc.get? l k = none ∧ Assoc.get? m k = none) ∨
      ∃ a b, Assoc.get? l k = some a ∧ Assoc.get? m k = some b ∧ R a b := by
  induction h with
  | nil => exact .inl ⟨rfl, rfl⟩
  | @cons p q l m hpq _ ih =>
    obtain ⟨hkey, hvalue⟩ := hpq
    by_cases hk : k = p.1
    · refine .inr ⟨p.2, q.2, ?_, ?_, hvalue⟩
      · exact if_pos hk
      · exact if_pos (hk.trans hkey)
    · have hl : Assoc.get? (p :: l) k = Assoc.get? l k := if_neg hk
      have hm : Assoc.get? (q :: m) k = Assoc.get? m k := if_neg fun hq => hk (hq.trans hkey.symm)
      rw [hl, hm]
      exact ih

theorem set (h : Rel R l m) (k : κ) {a : α} {b : β} (hab : R a b) :
    Rel R (Assoc.set l k a) (Assoc.set m k b) := by
  induction h with
  | nil => exact .cons ⟨rfl, hab⟩ .nil
  | @cons p q l m hpq hrest ih =>
    obtain ⟨hkey, hvalue⟩ := hpq
    by_cases hk : k = p.1
    · have hl : Assoc.set (p :: l) k a = (p.1, a) :: l := if_pos hk
      have hm : Assoc.set (q :: m) k b = (q.1, b) :: m := if_pos (hk.trans hkey)
      rw [hl, hm]
      exact .cons ⟨hkey, hab⟩ hrest
    · have hl : Assoc.set (p :: l) k a = p :: Assoc.set l k a := if_neg hk
      have hm : Assoc.set (q :: m) k b = q :: Assoc.set m k b :=
        if_neg fun hq => hk (hq.trans hkey.symm)
      rw [hl, hm]
      exact .cons ⟨hkey, hvalue⟩ ih

theorem erase (h : Rel R l m) (k : κ) : Rel R (Assoc.erase l k) (Assoc.erase m k) := by
  induction h with
  | nil => exact .nil
  | @cons p q l m hpq hrest ih =>
    by_cases hp : p.1 = k
    · have hl : Assoc.erase (p :: l) k = Assoc.erase l k := List.filter_cons_of_neg (by simpa using hp)
      have hm : Assoc.erase (q :: m) k = Assoc.erase m k :=
        List.filter_cons_of_neg (by simpa [← hpq.1] using hp)
      rw [hl, hm]
      exact ih
    · have hl : Assoc.erase (p :: l) k = p :: Assoc.erase l k := List.filter_cons_of_pos (by simpa using hp)
      have hm : Assoc.erase (q :: m) k = q :: Assoc.erase m k :=
        List.filter_cons_of_pos (by simpa [← hpq.1] using hp)
      rw [hl, hm]
      exact .cons hpq ih

omit [DecidableEq κ] in
theorem tail (h : Rel R l m) : Rel R l.tail m.tail := by
  cases h with
  | nil => exact .nil
  | cons _ hrest => exact hrest

omit [DecidableEq κ] in
theorem of_map (f : β → α) {m : List (κ × β)} (hf : ∀ q ∈ m, R (f q.2) q.2) :
    Rel R (m.map fun q => (q.1, f q.2)) m := by
  induction m with
  | nil => exact .nil
  | cons q m ih =>
    exact .cons ⟨rfl, hf q List.mem_cons_self⟩ (ih fun q' hq' => hf q' (List.mem_cons_of_mem q hq'))

omit [DecidableEq κ] in
theorem values (h : Rel R l m) : List.Forall₂ R (l.map Prod.snd) (m.map Prod.snd) := by
  induction h with
  | nil => exact .nil
  | cons hpq _ ih => exact .cons hpq.2 ih

end Rel

/-- Selected members of related lists. -/
theorem forall₂_filter {R : α → β → Prop} {p : α → Bool} {q : β → Bool} {l : List α} {m : List β}
    (hpq : ∀ a b, R a b → p a = q b) (h : List.Forall₂ R l m) :
    List.Forall₂ R (l.filter p) (m.filter q) := by
  induction h with
  | nil => exact .nil
  | @cons a b l m hab _ ih =>
    rw [List.filter_cons, List.filter_cons, hpq a b hab]
    cases q b with
    | true => exact .cons hab ih
    | false => exact ih

theorem filter_set (keep : κ → Bool) (l : List (κ × α)) (k : κ) (v : α) :
    (set l k v).filter (fun p => keep p.1) =
      if keep k then set (l.filter fun p => keep p.1) k v else l.filter fun p => keep p.1 := by
  induction l with
  | nil => cases hk : keep k <;> simp [set, hk]
  | cons p l ih =>
    by_cases hp : k = p.1
    · have hset : set (p :: l) k v = (p.1, v) :: l := if_pos hp
      rw [hset, List.filter_cons, List.filter_cons, hp]
      cases hkeep : keep p.1 <;> simp [set]
    · have hset : set (p :: l) k v = p :: set l k v := if_neg hp
      rw [hset, List.filter_cons, List.filter_cons, ih]
      cases hkeep : keep p.1 <;> cases hk : keep k <;> simp [set, hp]

/-- Selecting keys before or after writing. -/
theorem filter_merge (keep : κ → Bool) (l l' : List (κ × α)) : (merge l l').filter (fun p => keep p.1) =
      merge (l.filter fun p => keep p.1) (l'.filter fun p => keep p.1) := by
  induction l' generalizing l with
  | nil => rfl
  | cons p l' ih =>
    show (merge (set l p.1 p.2) l').filter _ = _
    rw [ih, filter_set, List.filter_cons]
    cases hkeep : keep p.1 <;> rfl

theorem map_set (f : α → β) (l : List (κ × α)) (k : κ) (v : α) :
    (set l k v).map (fun p => (p.1, f p.2)) = set (l.map fun p => (p.1, f p.2)) k (f v) := by
  induction l with
  | nil => rfl
  | cons p l ih =>
    by_cases hp : k = p.1
    · simp [set, hp]
    · simp [set, hp, ih]

/-- Applying a function to the values before or after writing. -/
theorem map_merge (f : α → β) (l l' : List (κ × α)) : (merge l l').map (fun p => (p.1, f p.2)) =
      merge (l.map fun p => (p.1, f p.2)) (l'.map fun p => (p.1, f p.2)) := by
  induction l' generalizing l with
  | nil => rfl
  | cons p l' ih =>
    show (merge (set l p.1 p.2) l').map _ = _
    rw [ih, map_set]
    rfl

theorem foldl_erase (l : List (κ × α)) (ks : List κ) :
    ks.foldl erase l = l.filter fun p => !decide (p.1 ∈ ks) := by
  induction ks generalizing l with
  | nil => simp
  | cons k ks ih =>
    rw [List.foldl_cons, ih, erase, List.filter_filter]
    refine List.filter_congr fun p _ => ?_
    by_cases hk : p.1 = k <;> simp [hk]

end CfMonitor.Lib.Assoc
