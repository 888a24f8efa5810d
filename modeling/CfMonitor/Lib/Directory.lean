/-
  A directory: named entries in the order in which a directory is listed.

  The entries are kept sorted by name, a name at most once, as a field of the type.  The three
  operations are the atomic ones of a file system: write an entry, remove a name, and move an
  entry over another name.  `get?` after each of them is all a client needs, together with what
  they do to the LISTING (`names`), which decides the order in which a client meets the entries.
-/
import Mathlib.Data.List.Basic
import Mathlib.Order.Lattice
import Mathlib.Tactic.Common

namespace CfMonitor.Lib

variable {κ α : Type} [LinearOrder κ]

/-- Entries sorted by name; a name occurs once. -/
structure Directory (κ α : Type) [LinearOrder κ] where
  entries : List (κ × α)
  sorted : entries.Pairwise fun a b => a.1 < b.1

namespace Directory

/-- A directory without entries. -/
def empty : Directory κ α := ⟨[], List.Pairwise.nil⟩

/-- The entry of a name in a list. -/
def lookupName (n : κ) : List (κ × α) → Option α
  | [] => none
  | (m, e) :: rest => if n = m then some e else lookupName n rest

/-- The entry of a name. -/
def get? (d : Directory κ α) (n : κ) : Option α := lookupName n d.entries

/-- The names, in listing order. -/
def names (d : Directory κ α) : List κ := d.entries.map Prod.fst

/-- Put an entry where its name belongs, over an entry of that name. -/
def insertEntry (n : κ) (e : α) : List (κ × α) → List (κ × α)
  | [] => [(n, e)]
  | (m, f) :: rest =>
    if n < m then (n, e) :: (m, f) :: rest
    else if n = m then (n, e) :: rest
    else (m, f) :: insertEntry n e rest

variable {n : κ} {e : α} {l : List (κ × α)}

theorem mem_insertEntry {p : κ × α} (h : p ∈ insertEntry n e l) : p = (n, e) ∨ p ∈ l := by
  induction l with
  | nil => exact .inl (List.mem_singleton.mp h)
  | cons q rest ih =>
    obtain ⟨m, f⟩ := q
    rw [insertEntry] at h
    split_ifs at h with hlt heq
    · exact List.mem_cons.mp h
    · rcases List.mem_cons.mp h with h | h
      · exact .inl h
      · exact .inr (List.mem_cons_of_mem _ h)
    · rcases List.mem_cons.mp h with h | h
      · exact .inr (h ▸ List.mem_cons_self)
      · rcases ih h with h | h
        · exact .inl h
        · exact .inr (List.mem_cons_of_mem _ h)

theorem insertEntry_sorted (h : l.Pairwise fun a b => a.1 < b.1) :
    (insertEntry n e l).Pairwise fun a b => a.1 < b.1 := by
  induction l with
  | nil => exact List.pairwise_singleton _ _
  | cons q rest ih =>
    obtain ⟨m, f⟩ := q
    obtain ⟨hhead, htail⟩ := List.pairwise_cons.mp h
    rw [insertEntry]
    split_ifs with hlt heq
    · refine List.pairwise_cons.mpr ⟨?_, h⟩
      intro p hp
      rcases List.mem_cons.mp hp with rfl | hp
      · exact hlt
      · exact lt_trans hlt (hhead p hp)
    · subst heq
      exact List.pairwise_cons.mpr ⟨hhead, htail⟩
    · refine List.pairwise_cons.mpr ⟨?_, ih htail⟩
      intro p hp
      rcases mem_insertEntry hp with rfl | hp
      · exact lt_of_le_of_ne (not_lt.mp hlt) (Ne.symm heq)
      · exact hhead p hp

/-- Write an entry. -/
def put (d : Directory κ α) (n : κ) (e : α) : Directory κ α :=
  ⟨insertEntry n e d.entries, insertEntry_sorted d.sorted⟩

/-- Remove a name. -/
def remove (d : Directory κ α) (n : κ) : Directory κ α :=
  ⟨d.entries.filter fun p => decide (p.1 ≠ n), d.sorted.filter _⟩

/-- Move an entry over another name; nothing happens when there is no entry to move. -/
def rename (d : Directory κ α) (src dst : κ) : Directory κ α :=
  match d.get? src with
  | none => d
  | some e => (d.remove src).put dst e

/-! ## Lookup after an operation -/

theorem lookupName_insertEntry (n m : κ) (e : α) (l : List (κ × α)) :
    lookupName m (insertEntry n e l) = if m = n then some e else lookupName m l := by
  induction l with
  | nil => rfl
  | cons q rest ih =>
    obtain ⟨k, f⟩ := q
    rw [insertEntry]
    by_cases hm : m = n
    · subst hm
      rw [if_pos rfl] at ih ⊢
      split_ifs with hlt heq
      · exact if_pos rfl
      · exact if_pos rfl
      · rw [lookupName, if_neg heq, ih]
    · rw [if_neg hm] at ih ⊢
      split_ifs with hlt heq
      · exact if_neg hm
      · subst heq
        rw [lookupName, lookupName, if_neg hm, if_neg hm]
      · rw [lookupName, lookupName, ih]

@[simp] theorem get?_put (d : Directory κ α) (n m : κ) (e : α) :
    (d.put n e).get? m = if m = n then some e else d.get? m :=
  lookupName_insertEntry n m e d.entries

@[simp] theorem get?_remove (d : Directory κ α) (n m : κ) :
    (d.remove n).get? m = if m = n then none else d.get? m := by
  show lookupName m (d.entries.filter fun p => decide (p.1 ≠ n)) = _
  unfold get?
  induction d.entries with
  | nil => simp [lookupName]
  | cons q rest ih =>
    obtain ⟨k, f⟩ := q
    by_cases hk : k = n
    · subst hk
      rw [List.filter_cons_of_neg (by simp), ih, lookupName]
      by_cases hm : m = k <;> simp [hm]
    · rw [List.filter_cons_of_pos (by simpa using hk), lookupName, lookupName, ih]
      by_cases hm : m = k
      · subst hm
        simp [hk]
      · simp [hm]

theorem get?_rename (d : Directory κ α) {src : κ} (dst : κ) (h : d.get? src = some e) (m : κ) :
    (d.rename src dst).get? m = if m = dst then some e else if m = src then none else d.get? m := by
  unfold rename
  rw [h]
  simp

@[simp] theorem get?_empty (n : κ) : (empty : Directory κ α).get? n = none := rfl

variable {d : Directory κ α}

theorem mem_entries : (n, e) ∈ d.entries ↔ d.get? n = some e := by
  obtain ⟨l, hl⟩ := d
  show (n, e) ∈ l ↔ lookupName n l = some e
  induction l with
  | nil => simp [lookupName]
  | cons q rest ih =>
    obtain ⟨k, f⟩ := q
    obtain ⟨hhead, htail⟩ := List.pairwise_cons.mp hl
    rw [List.mem_cons, lookupName, ih htail]
    by_cases h : n = k
    · subst h
      -- the name of the head is below every name of the tail
      have hno : lookupName n rest ≠ some e := by
        intro hf
        exact lt_irrefl n (hhead (n, e) ((ih htail).mpr hf))
      simp [hno, eq_comm]
    · simp [h]

/-! ## How many entries there are -/

/-- Writing adds at most one entry, and none where the name has one. -/
theorem length_put (d : Directory κ α) (n : κ) (e : α) :
    (d.put n e).entries.length = if (d.get? n).isSome then d.entries.length else d.entries.length + 1 := by
  obtain ⟨l, hl⟩ := d
  show (insertEntry n e l).length = if (lookupName n l).isSome then l.length else l.length + 1
  induction l with
  | nil => rfl
  | cons q rest ih =>
    obtain ⟨m, f⟩ := q
    obtain ⟨hhead, htail⟩ := List.pairwise_cons.mp hl
    rw [insertEntry, lookupName]
    by_cases heq : n = m
    · rw [if_neg (by rw [heq]; exact lt_irrefl m), if_pos heq, if_pos heq]
      rfl
    · rw [if_neg heq, if_neg heq]
      by_cases hlt : n < m
      · -- below the head, so below every name
        have hnone : lookupName n rest = none := by
          cases hf : lookupName n rest with
          | none => rfl
          | some g =>
            have hmem : (n, g) ∈ rest := (mem_entries (d := ⟨rest, htail⟩)).mpr hf
            exact absurd (lt_trans hlt (hhead _ hmem)) (lt_irrefl n)
        rw [if_pos hlt, hnone]
        rfl
      · rw [if_neg hlt, List.length_cons, ih htail]
        split_ifs <;> rfl

theorem length_remove_le (d : Directory κ α) (n : κ) :
    (d.remove n).entries.length ≤ d.entries.length := List.length_filter_le _ _

theorem names_nodup (d : Directory κ α) : d.names.Nodup :=
  List.pairwise_map.mpr (d.sorted.imp fun h => ne_of_lt h)

theorem put_perm (h : d.get? n = none) (e : α) : (d.put n e).entries.Perm ((n, e) :: d.entries) := by
  have h' : lookupName n d.entries = none := h
  show (insertEntry n e d.entries).Perm ((n, e) :: d.entries)
  generalize d.entries = l at h'
  induction l with
  | nil => exact List.Perm.refl _
  | cons q rest ih =>
    obtain ⟨m, f⟩ := q
    rw [lookupName] at h'
    by_cases heq : n = m
    · rw [if_pos heq] at h'
      cases h'
    · rw [if_neg heq] at h'
      rw [insertEntry, if_neg heq]
      by_cases hlt : n < m
      · rw [if_pos hlt]
      · rw [if_neg hlt]
        exact ((ih h').cons (m, f)).trans (List.Perm.swap _ _ _)

theorem remove_perm (h : d.entries.Perm ((n, e) :: l)) : (d.remove n).entries.Perm l := by
  have hnodup : (((n, e) :: l).map Prod.fst).Nodup := ((h.map Prod.fst).nodup_iff).mp d.names_nodup
  obtain ⟨hout, -⟩ := List.nodup_cons.mp hnodup
  have hfilter := h.filter fun p => decide (p.1 ≠ n)
  rw [List.filter_cons_of_neg (by simp)] at hfilter
  refine hfilter.trans (List.Perm.of_eq (List.filter_eq_self.mpr fun p hp => ?_))
  have hne : p.1 ≠ n := fun heq => hout (List.mem_map.mpr ⟨p, hp, heq⟩)
  simpa using hne

/-! ## The listing after an operation -/

theorem mem_names : n ∈ d.names ↔ (d.get? n).isSome := by
  unfold names get?
  induction d.entries with
  | nil => simp [lookupName]
  | cons q rest ih =>
    obtain ⟨k, f⟩ := q
    rw [List.map_cons, List.mem_cons, lookupName, ih]
    by_cases h : n = k <;> simp [h]

variable {β : Type}

/-- A function of the names that says nothing about `n` does not see `n` being written. -/
theorem filterMap_names_put (d : Directory κ α) (n : κ) (e : α) {f : κ → Option β}
    (hf : f n = none) : (d.put n e).names.filterMap f = d.names.filterMap f := by
  show ((insertEntry n e d.entries).map Prod.fst).filterMap f = _
  unfold names
  induction d.entries with
  | nil => simp [insertEntry, hf]
  | cons q rest ih =>
    obtain ⟨k, g⟩ := q
    rw [insertEntry]
    split_ifs with hlt heq
    · simp [hf]
    · subst heq
      simp [hf]
    · rw [List.map_cons, List.map_cons, List.filterMap_cons, List.filterMap_cons, ih]

/-- A function of the names that says nothing about `n` does not see `n` being removed. -/
theorem filterMap_names_remove (d : Directory κ α) (n : κ) {f : κ → Option β}
    (hf : f n = none) : (d.remove n).names.filterMap f = d.names.filterMap f := by
  show ((d.entries.filter fun p => decide (p.1 ≠ n)).map Prod.fst).filterMap f = _
  unfold names
  induction d.entries with
  | nil => simp
  | cons q rest ih =>
    obtain ⟨k, g⟩ := q
    by_cases hk : k = n
    · subst hk
      rw [List.filter_cons_of_neg (by simp), ih, List.map_cons, List.filterMap_cons_none hf]
    · rw [List.filter_cons_of_pos (by simpa using hk), List.map_cons, List.map_cons,
        List.filterMap_cons, List.filterMap_cons, ih]

/-- Put the entries of a second directory, each through `f`. -/
def putEach {β : Type} (f : β → α) (d : Directory κ α) (u : Directory κ β) : Directory κ α :=
  u.entries.foldl (fun d e => d.put e.1 (f e.2)) d

theorem get?_putEach (f : β → α) (d : Directory κ α) (u : Directory κ β) (k : κ) :
    (d.putEach f u).get? k = match u.get? k with
      | some e => some (f e)
      | none => d.get? k := by
  have hall : ∀ (l : List (κ × β)), l.Pairwise (fun a b => a.1 < b.1) → ∀ d : Directory κ α,
      (l.foldl (fun d e => d.put e.1 (f e.2)) d).get? k = match lookupName k l with
        | some e => some (f e)
        | none => d.get? k := by
    intro l
    induction l with
    | nil => intro _ d; rfl
    | cons p rest ih =>
      intro hsorted d
      obtain ⟨m, e⟩ := p
      obtain ⟨hfirst, hrest⟩ := List.pairwise_cons.mp hsorted
      rw [List.foldl_cons, ih hrest, lookupName, get?_put]
      by_cases hk : k = m
      · -- the name does not come again
        have hnone : lookupName k rest = none := by
          cases hsome : lookupName k rest with
          | none => rfl
          | some e' =>
            have hmem : (k, e') ∈ rest := (mem_entries (d := ⟨rest, hrest⟩)).mpr hsome
            exact absurd (hfirst _ hmem) (by rw [hk]; exact lt_irrefl m)
        rw [hnone, if_pos hk, if_pos hk]
      · rw [if_neg hk, if_neg hk]
  exact hall u.entries u.sorted d

end Directory
end CfMonitor.Lib
