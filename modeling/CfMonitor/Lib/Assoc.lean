/-
  Maps that keep the order of insertion, as lists of pairs.

  Writing a key that is there replaces its value in place; a new key goes to the end.  Lookup takes
  the first pair of a key, so no operation needs the keys to be distinct.
-/
import Mathlib.Data.List.Basic
import Mathlib.Tactic.Common

namespace CfMonitor.Lib.Assoc

variable {κ α : Type} [DecidableEq κ]

/-- The value of a key. -/
def get? : List (κ × α) → κ → Option α
  | [], _ => none
  | (m, v) :: rest, k => if k = m then some v else get? rest k

/-- Write a key. -/
def set : List (κ × α) → κ → α → List (κ × α)
  | [], k, v => [(k, v)]
  | (m, w) :: rest, k, v => if k = m then (m, v) :: rest else (m, w) :: set rest k v

/-- Remove a key. -/
def erase (l : List (κ × α)) (k : κ) : List (κ × α) := l.filter fun p => decide (p.1 ≠ k)

/-- Write all pairs of a second map over a first. -/
def merge (l l' : List (κ × α)) : List (κ × α) := l'.foldl (fun l p => set l p.1 p.2) l

theorem get?_set (l : List (κ × α)) (k m : κ) (v : α) :
    get? (set l k v) m = if m = k then some v else get? l m := by
  induction l with
  | nil => rfl
  | cons p rest ih =>
    obtain ⟨n, w⟩ := p
    rw [set]
    by_cases hk : k = n
    · subst hk
      rw [if_pos rfl, get?, get?]
      split_ifs <;> rfl
    · rw [if_neg hk, get?, get?, ih]
      by_cases hm : m = n
      · subst hm
        simp [Ne.symm hk]
      · simp [hm]

theorem get?_erase (l : List (κ × α)) (k m : κ) : get? (erase l k) m = if m = k then none else get? l m := by
  induction l with
  | nil => simp [erase, get?]
  | cons p rest ih =>
    obtain ⟨n, w⟩ := p
    by_cases hn : n = k
    · subst hn
      rw [erase, List.filter_cons_of_neg (by simp)]
      show get? (erase rest n) m = _
      rw [ih, get?]
      split_ifs <;> rfl
    · rw [erase, List.filter_cons_of_pos (by simpa using hn), get?, get?]
      show (if m = n then some w else get? (erase rest k) m) = _
      rw [ih]
      by_cases hm : m = n
      · subst hm
        simp [hn]
      · simp [hm]

variable {l : List (κ × α)} {k : κ} {v : α}

variable {p : κ × α}

theorem mem_set (h : p ∈ set l k v) : p = (k, v) ∨ p ∈ l := by
  induction l with
  | nil => exact .inl (List.mem_singleton.mp h)
  | cons q rest ih =>
    obtain ⟨n, w⟩ := q
    rw [set] at h
    split_ifs at h with hk
    · subst hk
      rcases List.mem_cons.mp h with h | h
      · exact .inl h
      · exact .inr (List.mem_cons_of_mem _ h)
    · rcases List.mem_cons.mp h with h | h
      · exact .inr (h ▸ List.mem_cons_self)
      · rcases ih h with h | h
        · exact .inl h
        · exact .inr (List.mem_cons_of_mem _ h)

/-- Writing what is there already under the key, or a new key, only adds. -/
theorem mem_set_iff (hsame : ∀ w, (k, w) ∈ l → w = v) : p ∈ set l k v ↔ p = (k, v) ∨ p ∈ l := by
  induction l with
  | nil => simp [set]
  | cons q rest ih =>
    obtain ⟨n, w⟩ := q
    rw [set]
    by_cases hk : k = n
    · subst hk
      obtain rfl := hsame w List.mem_cons_self
      rw [if_pos rfl, List.mem_cons]
      tauto
    · rw [if_neg hk, List.mem_cons, ih fun w hw => hsame w (List.mem_cons_of_mem _ hw), List.mem_cons]
      tauto

/-- The keys of a map, in order. -/
def keys (l : List (κ × α)) : List κ := l.map Prod.fst

variable {m : κ}

theorem mem_keys_set : m ∈ keys (set l k v) ↔ m = k ∨ m ∈ keys l := by
  induction l with
  | nil => simp [keys, set]
  | cons p rest ih =>
    obtain ⟨n, w⟩ := p
    rw [set]
    split_ifs with hk
    · subst hk
      simp [keys]
    · have hmem : m ∈ keys ((n, w) :: set rest k v) ↔ m = n ∨ m ∈ keys (set rest k v) := by
        simp [keys]
      rw [hmem, ih]
      simp only [keys, List.map_cons, List.mem_cons]
      tauto

variable {l' : List (κ × α)}

theorem mem_merge (h : p ∈ merge l l') : p ∈ l ∨ p ∈ l' := by
  induction l' generalizing l with
  | nil => exact .inl h
  | cons q rest ih =>
    rcases ih h with hset | hrest
    · rcases mem_set hset with rfl | hold
      · exact .inr List.mem_cons_self
      · exact .inl hold
    · exact .inr (List.mem_cons_of_mem q hrest)

theorem mem_keys_merge : m ∈ keys (merge l l') ↔ m ∈ keys l ∨ m ∈ keys l' := by
  induction l' generalizing l with
  | nil => simp [merge, keys]
  | cons p rest ih =>
    show m ∈ keys (merge (set l p.1 p.2) rest) ↔ _
    rw [ih, mem_keys_set]
    simp only [keys, List.map_cons, List.mem_cons]
    tauto

theorem get?_isSome : (get? l k).isSome ↔ k ∈ keys l := by
  induction l with
  | nil => simp [get?, keys]
  | cons p rest ih =>
    obtain ⟨n, w⟩ := p
    rw [get?]
    by_cases hk : k = n
    · simp [hk, keys]
    · rw [if_neg hk, ih]
      simp [keys, hk]

theorem mem_keys_erase : m ∈ keys (erase l k) ↔ m ≠ k ∧ m ∈ keys l := by
  rw [← get?_isSome, get?_erase, ← get?_isSome]
  by_cases hm : m = k
  · simp [hm]
  · simp [hm]

/-- A key that is not there need not be removed. -/
theorem erase_of_none (h : get? l k = none) : erase l k = l := by
  refine List.filter_eq_self.mpr fun p hp => decide_eq_true ?_
  rintro rfl
  have hsome := get?_isSome.mpr (List.mem_map_of_mem (f := Prod.fst) hp)
  rw [h] at hsome
  cases hsome

theorem get?_append (l l' : List (κ × α)) (k : κ) : get? (l ++ l') k = (get? l k).or (get? l' k) := by
  induction l with
  | nil => rfl
  | cons p rest ih =>
    obtain ⟨n, w⟩ := p
    rw [List.cons_append, get?, get?]
    split_ifs
    · rfl
    · exact ih

theorem set_new (h : k ∉ keys l) : set l k v = l ++ [(k, v)] := by
  induction l with
  | nil => rfl
  | cons p rest ih =>
    obtain ⟨n, w⟩ := p
    obtain ⟨hne, hrest⟩ := not_or.mp (fun hor => h (List.mem_cons.mpr hor))
    rw [set, if_neg hne, ih hrest, List.cons_append]

/-- A key that is there is written in its place. -/
theorem set_of_get? (h : get? l k = some v) :
    ∃ front back, l = front ++ (k, v) :: back ∧ ∀ w, set l k w = front ++ (k, w) :: back := by
  induction l with
  | nil => cases h
  | cons p rest ih =>
    obtain ⟨n, w⟩ := p
    rw [get?] at h
    split_ifs at h with hk
    · cases h
      subst hk
      exact ⟨[], rest, rfl, fun w => if_pos rfl⟩
    · obtain ⟨front, back, hrest, hset⟩ := ih h
      refine ⟨(n, w) :: front, back, by rw [hrest, List.cons_append], fun w' => ?_⟩
      rw [set, if_neg hk, hset, List.cons_append]

/-! ## Distinct keys -/

theorem get?_of_mem (hnodup : (keys l).Nodup) (h : (k, v) ∈ l) : get? l k = some v := by
  induction l with
  | nil => cases h
  | cons p rest ih =>
    obtain ⟨n, w⟩ := p
    obtain ⟨hnew, hrest⟩ := List.nodup_cons.mp hnodup
    rcases List.mem_cons.mp h with heq | hmem
    · cases heq
      rw [get?, if_pos rfl]
    · have hne : k ≠ n := by
        rintro rfl
        exact hnew (List.mem_map.mpr ⟨(k, v), hmem, rfl⟩)
      rw [get?, if_neg hne]
      exact ih hrest hmem

theorem mem_of_get? (h : get? l k = some v) : (k, v) ∈ l := by
  induction l with
  | nil => simp [get?] at h
  | cons p rest ih =>
    obtain ⟨n, w⟩ := p
    rw [get?] at h
    split_ifs at h with hk
    · cases h
      exact hk ▸ List.mem_cons_self
    · exact List.mem_cons_of_mem _ (ih h)

theorem keys_set_nodup (h : (keys l).Nodup) : (keys (set l k v)).Nodup := by
  induction l with
  | nil => simp [keys, set]
  | cons p rest ih =>
    obtain ⟨n, w⟩ := p
    obtain ⟨hnew, hrest⟩ := List.nodup_cons.mp h
    rw [set]
    split_ifs with hk
    · exact List.nodup_cons.mpr ⟨hnew, hrest⟩
    · refine List.nodup_cons.mpr ⟨?_, ih hrest⟩
      intro hmem
      rcases mem_keys_set.mp hmem with heq | hold
      · exact hk heq.symm
      · exact hnew hold

omit [DecidableEq κ] in
theorem keys_filter_nodup (p : κ × α → Bool) (h : (keys l).Nodup) : (keys (l.filter p)).Nodup :=
  h.sublist (List.filter_sublist.map Prod.fst)

/-- Lookup after rows were taken out. -/
theorem get?_filter (p : κ × α → Bool) (h : (keys l).Nodup) (k : κ) :
    get? (l.filter p) k = (get? l k).filter fun v => p (k, v) := by
  apply Option.ext
  intro v
  rw [Option.filter_eq_some_iff]
  constructor
  · intro hget
    obtain ⟨hmem, hp⟩ := List.mem_filter.mp (mem_of_get? hget)
    exact ⟨get?_of_mem h hmem, hp⟩
  · rintro ⟨hget, hp⟩
    exact get?_of_mem (keys_filter_nodup p h) (List.mem_filter.mpr ⟨mem_of_get? hget, hp⟩)

/-- Lookup in a map that was written over another: the new pairs come first. -/
theorem get?_merge (h : (keys l').Nodup) (k : κ) : get? (merge l l') k = (get? l' k).or (get? l k) := by
  induction l' generalizing l with
  | nil => rfl
  | cons p rest ih =>
    obtain ⟨n, w⟩ := p
    obtain ⟨hnew, hrest⟩ := List.nodup_cons.mp h
    show get? (merge (set l n w) rest) k = _
    rw [ih hrest, get?_set, get?]
    by_cases hk : k = n
    · subst hk
      have hnone : get? rest k = none := by
        rw [← Option.not_isSome_iff_eq_none, get?_isSome]
        exact hnew
      rw [hnone, if_pos rfl, if_pos rfl]
      rfl
    · rw [if_neg hk, if_neg hk]

theorem keys_merge_nodup (h : (keys l).Nodup) : (keys (merge l l')).Nodup := by
  induction l' generalizing l with
  | nil => exact h
  | cons p rest ih => exact ih (keys_set_nodup h)

/-- Lookup after the values were replaced one by one. -/
theorem get?_map {β : Type} (f : α → β) (l : List (κ × α)) (k : κ) :
    get? (l.map fun p => (p.1, f p.2)) k = (get? l k).map f := by
  induction l with
  | nil => rfl
  | cons p rest ih =>
    obtain ⟨n, w⟩ := p
    show (if k = n then some (f w) else get? (rest.map fun p => (p.1, f p.2)) k)
      = (if k = n then some w else get? rest k).map f
    split_ifs
    · rfl
    · exact ih

/-- Lookup in a map that is built key by key, with pairs of that key only. -/
theorem get?_flatMap {f : κ → List (κ × α)} (hf : ∀ m, ∀ p ∈ f m, p.1 = m) (l : List κ) (k : κ) :
    get? (l.flatMap f) k = if k ∈ l then get? (f k) k else none := by
  have hother : ∀ m, k ≠ m → get? (f m) k = none := by
    intro m hne
    rw [← Option.not_isSome_iff_eq_none, get?_isSome]
    intro hmem
    obtain ⟨p, hp, hpk⟩ := List.mem_map.mp hmem
    exact hne (hpk.symm.trans (hf m p hp))
  induction l with
  | nil => rfl
  | cons m rest ih =>
    rw [List.flatMap_cons, get?_append, ih]
    by_cases hm : k = m
    · subst hm
      rw [if_pos List.mem_cons_self]
      split_ifs
      · exact Option.or_self
      · exact Option.or_none
    · rw [hother m hm, Option.none_or]
      simp [hm]

end CfMonitor.Lib.Assoc
