/-
  Maps that are keyed by a part of their values (`new Map(items.map(item => [item.id, item]))`).

  The values of such a map are a list whose identifiers are distinct, and lookup in the map is search in the list
  (`find_values`, `get?_index`).
-/
import CfMonitor.Lib.Assoc

namespace CfMonitor.Lib.Assoc

variable {κ α : Type} [DecidableEq κ] (id : α → κ)

/-- The map of the values of a list. -/
def index (values : List α) : List (κ × α) := merge [] (values.map fun value => (id value, value))

/-- The first value with an identifier. -/
def findBy (values : List α) (k : κ) : Option α := values.find? fun value => decide (id value = k)

/-- A map whose keys are the identifiers of its values. -/
structure Keyed (map : List (κ × α)) : Prop where
  nodup : (keys map).Nodup
  tagged : ∀ p ∈ map, id p.2 = p.1

variable {id}

theorem findBy_eq_some {values : List α} (hnodup : (values.map id).Nodup) {k : κ} {value : α} :
    findBy id values k = some value ↔ value ∈ values ∧ id value = k := by
  constructor
  · intro h
    exact ⟨List.mem_of_find?_eq_some h, by simpa using List.find?_some h⟩
  · rintro ⟨hmem, rfl⟩
    induction values with
    | nil => cases hmem
    | cons first rest ih =>
      obtain ⟨hnew, hrest⟩ := List.nodup_cons.mp hnodup
      rw [findBy, List.find?_cons]
      rcases List.mem_cons.mp hmem with rfl | hin
      · simp
      · have hne : id first ≠ id value := fun heq => hnew (heq ▸ List.mem_map_of_mem hin)
        simp only [hne, decide_false]
        exact ih hrest hin

theorem findBy_eq_none {values : List α} {k : κ} : findBy id values k = none ↔ k ∉ values.map id := by
  rw [findBy, List.find?_eq_none]
  constructor
  · intro hnone hmem
    obtain ⟨value, hvalue, rfl⟩ := List.mem_map.mp hmem
    exact hnone value hvalue (by simp)
  · intro hnot value hvalue hdec
    exact hnot (List.mem_map.mpr ⟨value, hvalue, of_decide_eq_true hdec⟩)

/-- Search among values that were taken out. -/
theorem findBy_filter {values : List α} (hnodup : (values.map id).Nodup) (p : α → Bool) (k : κ) :
    findBy id (values.filter p) k = (findBy id values k).filter p := by
  have hkept : ((values.filter p).map id).Nodup := hnodup.sublist (List.filter_sublist.map id)
  apply Option.ext
  intro value
  rw [Option.filter_eq_some_iff, findBy_eq_some hkept, findBy_eq_some hnodup, List.mem_filter]
  tauto

/-- All values with an identifier, where identifiers are distinct. -/
theorem filter_eq_findBy {values : List α} (hnodup : (values.map id).Nodup) (k : κ) :
    values.filter (fun value => decide (id value = k)) = (findBy id values k).toList := by
  induction values with
  | nil => rfl
  | cons first rest ih =>
    obtain ⟨hnew, hrest⟩ := List.nodup_cons.mp hnodup
    by_cases heq : id first = k
    · subst heq
      have hnone := findBy_eq_none.mpr hnew
      rw [List.filter_cons_of_pos (by simp), ih hrest, hnone, findBy, List.find?_cons_of_pos (by simp)]
      rfl
    · rw [List.filter_cons_of_neg (by simpa using heq), ih hrest, findBy, findBy,
        List.find?_cons_of_neg (by simpa using heq)]

namespace Keyed

variable {map : List (κ × α)}

theorem set (h : Keyed id map) (value : α) : Keyed id (Assoc.set map (id value) value) := by
  constructor
  · exact keys_set_nodup h.nodup
  · intro p hp
    rcases mem_set hp with rfl | hold
    · rfl
    · exact h.tagged p hold

theorem erase (h : Keyed id map) (k : κ) : Keyed id (Assoc.erase map k) := by
  constructor
  · exact keys_filter_nodup _ h.nodup
  · exact fun p hp => h.tagged p (List.mem_filter.mp hp).1

omit [DecidableEq κ] in
theorem ids_values (h : Keyed id map) : (map.map Prod.snd).map id = keys map := by
  rw [keys, List.map_map]
  exact List.map_congr_left h.tagged

omit [DecidableEq κ] in
theorem nodup_values (h : Keyed id map) : ((map.map Prod.snd).map id).Nodup := h.ids_values ▸ h.nodup

theorem find_values (h : Keyed id map) (k : κ) : findBy id (map.map Prod.snd) k = get? map k := by
  apply Option.ext
  intro value
  rw [findBy_eq_some h.nodup_values]
  constructor
  · rintro ⟨hmem, rfl⟩
    obtain ⟨⟨key, value⟩, hp, rfl⟩ := List.mem_map.mp hmem
    have hkey : id value = key := h.tagged _ hp
    rw [hkey]
    exact get?_of_mem h.nodup hp
  · intro hget
    have hp := mem_of_get? hget
    exact ⟨List.mem_map_of_mem hp, h.tagged _ hp⟩

end Keyed

theorem keyed_index (values : List α) : Keyed id (index id values) := by
  have hmerge : ∀ (rest : List α) (map : List (κ × α)), Keyed id map →
      Keyed id (merge map (rest.map fun value => (id value, value))) := by
    intro rest
    induction rest with
    | nil => exact fun map h => h
    | cons first rest ih => exact fun map h => ih _ (h.set first)
  exact hmerge values [] ⟨List.nodup_nil, nofun⟩

theorem get?_index {values : List α} (hnodup : (values.map id).Nodup) (k : κ) :
    get? (index id values) k = findBy id values k := by
  have hkeys : keys (values.map fun value => (id value, value)) = values.map id := by
    rw [keys, List.map_map]
    rfl
  have hlookup : ∀ rest : List α, get? (rest.map fun value => (id value, value)) k = findBy id rest k := by
    intro rest
    induction rest with
    | nil => rfl
    | cons first rest ih =>
      rw [List.map_cons, get?, findBy, List.find?_cons]
      by_cases heq : k = id first
      · simp [heq]
      · simp only [if_neg heq, Ne.symm heq, decide_false]
        exact ih
  rw [index, get?_merge (hkeys ▸ hnodup), hlookup, get?, Option.or_none]

end CfMonitor.Lib.Assoc
