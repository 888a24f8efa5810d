/-
  A new order of the nodes and of the ping tasks (`cfm_reorder_clients`, `cfm_reorder_ping_tasks`).

  1. **Tables** — a row has its key, the columns of the order, and the columns that neither is read nor
     written.

  2. **Nodes** — one statement.  What the request names is numbered as it stands there, the rest by
     `row_number()`; the order of the query leaves ties open, so the arrangement of the rest is any
     that follows it.

  3. **Ping tasks** — a list of ids that is filled up and then gone through.

  4. **Places** — after either call the rows have the places `1 … n`, each once (`Placed`).  Blank
     entries of a request, and those of the tasks that are no positive numbers, are passed over.
-/
import Mathlib
import CfMonitor.Clients.ReferencePruning
import CfMonitor.Lib.Assoc

namespace CfMonitor.Clients

open CfMonitor.Lib
open List (map_cons mem_filter mem_map mem_map_of_mem)

/-! ## Tables -/

/-- A row of `clients`. -/
structure ClientEntry (κ : Type) where
  uuid : String
  name : String
  createdAt : Int
  sortOrder : Int
  updatedAt : Int
  columns : κ

/-- A row of `ping_tasks`. -/
structure PingEntry (κ : Type) where
  id : Int
  sortOrder : Int
  columns : κ

/-- `lower` and the order of texts. -/
structure TextRules where
  lower : String → String
  collation : String → String → Prop

/-- The rows in an order that leaves ties open. -/
structure Arranged {ρ : Type} (before : ρ → ρ → Prop) (rows arranged : List ρ) : Prop where
  perm : arranged.Perm rows
  ordered : arranged.Pairwise fun a b => ¬ before b a

/-- Keys with the numbers that follow `n`. -/
def ranked {ι : Type} : Int → List ι → List (ι × Int)
  | _, [] => []
  | n, key :: rest => (key, n + 1) :: ranked (n + 1) rest

/-! ## Nodes -/

section

variable {κ : Type} (rules : TextRules)

/-- `order by c.sort_order asc, lower(c.name) asc, c.created_at asc`. -/
def ClientEntry.Before (c d : ClientEntry κ) : Prop :=
  c.sortOrder < d.sortOrder ∨ (c.sortOrder = d.sortOrder ∧
    (rules.collation (rules.lower c.name) (rules.lower d.name) ∨
      (rules.lower c.name = rules.lower d.name ∧ c.createdAt < d.createdAt)))

/-- `input_order`: the first place of each text. -/
def inputOrder (input : Elements) : List (String × Int) :=
  (nonBlank input).eraseDups.map fun uuid => (uuid, (input.idxOf (some uuid) : Int) + 1)

/-- The nodes that the request does not name. -/
def unnamed (input : Elements) (table : List (ClientEntry κ)) : List (ClientEntry κ) :=
  table.filter fun c => !(inputOrder input).any fun i => i.1 == c.uuid

/-- The update of a row. -/
def ClientEntry.moved (now : Int) (c : ClientEntry κ) (place : Int) : ClientEntry κ :=
  if c.sortOrder = place then c else { c with sortOrder := place, updatedAt := now }

/-- `cfm_reorder_clients`, with the arrangement of the nodes that are not named; the count that it returns is left
    out. -/
def cfm_reorder_clients (input : Elements) (rest : List (ClientEntry κ)) (now : Int) (table : List (ClientEntry κ)) :
    Except String (List (ClientEntry κ)) :=
  let order := inputOrder input
  if order.length = 0 then .ok table
  else if table.countP (fun c => order.any fun i => i.1 == c.uuid) ≠ order.length then
    .error "Client uuid does not exist"
  else
    let finalOrder := order ++ ranked order.length (rest.map ClientEntry.uuid)
    .ok (table.map fun c => match Assoc.get? finalOrder c.uuid with
      | some place => c.moved now place
      | none => c)

end

/-! ## Ping tasks -/

section

variable {κ : Type}

/-- `order by sort_order asc, id asc`. -/
def PingEntry.upTo (t u : PingEntry κ) : Bool :=
  t.sortOrder < u.sortOrder || (t.sortOrder == u.sortOrder && t.id ≤ u.id)

/-- `^[0-9]+$`. -/
def isDecimal (text : String) : Bool := !text.toList.isEmpty && text.toList.all Char.isDigit

/-- `value::bigint` of decimal digits. -/
def toBigint (text : String) : Except String Int :=
  let value : Int := Nat.ofDigitChars 10 text.toList 0
  if value < 2 ^ 63 then .ok value else .error "value out of range for type bigint"

/-- The ids of the request in the order of their first places. -/
def requestedIds (input : Elements) : Except String (List Int) := do
  let values ← ((input.filterMap id).filter isDecimal).mapM toBigint
  pure (values.filter (0 < ·)).eraseDups

/-- The loop over the final list: a task whose place differs gets the next one. -/
def renumber : List Int → Int → List (PingEntry κ) → List (PingEntry κ)
  | [], _, table => table
  | id :: rest, next, table =>
    renumber rest (next + 1)
      (table.map fun t => if t.id = id ∧ t.sortOrder ≠ next then { t with sortOrder := next } else t)

/-- `cfm_reorder_ping_tasks`, without the count that it returns. -/
def cfm_reorder_ping_tasks (input : Elements) (table : List (PingEntry κ)) : Except String (List (PingEntry κ)) := do
  let requested ← requestedIds input
  if requested = [] then pure table
  else if requested.any (fun id => !table.any fun t => t.id == id) then .error "Ping task id does not exist"
  else
    let rest := (table.filter fun t => !requested.contains t.id).mergeSort PingEntry.upTo
    pure (renumber (requested ++ rest.map PingEntry.id) 1 table)

end

/-! ## Places -/

/-- Rows have the places `1 … n` of a list of their keys. -/
structure Placed {ι : Type} [DecidableEq ι] (keys requested : List ι) (before : ι → ι → Prop) (place : ι → Int) : Prop where
  range : (keys.map place).Perm ((List.range keys.length).map fun n : Nat => (n : Int) + 1)
  first : ∀ n, ∀ h : n < requested.length, place requested[n] = n + 1
  rest : ∀ a ∈ keys, ∀ b ∈ keys, a ∉ requested → b ∉ requested → before a b → place a < place b

section

variable {ι : Type} [DecidableEq ι]

theorem get?_ranked (n : Int) (keys : List ι) (k : ι) :
    Assoc.get? (ranked n keys) k = if k ∈ keys then some (n + keys.idxOf k + 1) else none := by
  induction keys generalizing n with
  | nil => rfl
  | cons key rest ih =>
    rw [ranked, Assoc.get?]
    by_cases hk : k = key
    · subst hk
      simp
    · rw [if_neg hk, ih, List.idxOf_cons_ne _ (Ne.symm hk)]
      simp only [List.mem_cons, hk, false_or]
      split_ifs
      · exact congrArg some (by push_cast; omega)
      · rfl

omit [DecidableEq ι] in
theorem ranked_append (n : Int) (keys more : List ι) :
    ranked n keys ++ ranked (n + keys.length) more = ranked n (keys ++ more) := by
  induction keys generalizing n with
  | nil => simp [ranked]
  | cons key rest ih =>
    have hnext : n + ((key :: rest).length : Int) = n + 1 + rest.length := by
      rw [List.length_cons]
      push_cast
      omega
    rw [List.cons_append, ranked, ranked, List.cons_append, hnext, ih]

/-- **The places of a list** that has every key once: the requested ones in front, the others as they come. -/
theorem placed_idxOf {keys requested rest : List ι} {before : ι → ι → Prop} (hnodup : (requested ++ rest).Nodup)
    (hperm : (requested ++ rest).Perm keys) (hrest : rest.Pairwise fun a b => ¬ before b a)
    (hirrefl : ∀ a, ¬ before a a) :
    Placed keys requested before fun k => ((requested ++ rest).idxOf k : Int) + 1 where
  range := by
    refine (hperm.symm.map _).trans ?_
    have hsame : (requested ++ rest).map (fun k => ((requested ++ rest).idxOf k : Int) + 1) =
        (List.range keys.length).map fun n : Nat => (n : Int) + 1 := by
      refine List.ext_getElem (by simp [hperm.length_eq.symm]) fun n h h' => ?_
      rw [List.getElem_map, List.getElem_map, List.getElem_range, hnodup.idxOf_getElem]
    rw [hsame]
  first n h := by
    have hn : n < (requested ++ rest).length := by
      rw [List.length_append]
      omega
    have hget : (requested ++ rest)[n] = requested[n] := List.getElem_append_left h
    show (((requested ++ rest).idxOf requested[n] : Nat) : Int) + 1 = n + 1
    rw [← hget, hnodup.idxOf_getElem]
  rest a ha b hb hna hnb hab := by
    have hmem : ∀ k ∈ keys, k ∉ requested → k ∈ rest := fun k hk hnk =>
      (List.mem_append.mp (hperm.mem_iff.mpr hk)).resolve_left hnk
    show (((requested ++ rest).idxOf a : Nat) : Int) + 1 < ((requested ++ rest).idxOf b : Nat) + 1
    rw [List.idxOf_append_of_notMem hna, List.idxOf_append_of_notMem hnb]
    have hlt : rest.idxOf a < rest.idxOf b := by
      by_contra hge
      have ha' := List.idxOf_lt_length_of_mem (hmem a ha hna)
      have hb' := List.idxOf_lt_length_of_mem (hmem b hb hnb)
      rcases Nat.lt_or_ge (rest.idxOf b) (rest.idxOf a) with hless | hle
      · have hnot := List.pairwise_iff_getElem.mp hrest _ _ hb' ha' hless
        rw [List.getElem_idxOf, List.getElem_idxOf] at hnot
        exact hnot hab
      · have hsame : rest.idxOf a = rest.idxOf b := by omega
        have hab' : a = b := (List.idxOf_inj (hmem a ha hna)).mp hsame
        exact hirrefl b (hab' ▸ hab)
    omega

theorem ranked_eq {keys : List ι} (hnodup : keys.Nodup) (n : Int) :
    ranked n keys = keys.map fun k => (k, n + keys.idxOf k + 1) := by
  induction keys generalizing n with
  | nil => rfl
  | cons key rest ih =>
    obtain ⟨hnew, hrest⟩ := List.nodup_cons.mp hnodup
    rw [ranked, map_cons, ih hrest, List.idxOf_cons_self]
    refine congrArg₂ List.cons (by simp) (List.map_congr_left fun k hk => ?_)
    have hne : key ≠ k := fun h => hnew (h ▸ hk)
    rw [List.idxOf_cons_ne _ hne]
    push_cast
    exact congrArg (Prod.mk k) (by omega)

omit [DecidableEq ι] in
theorem ranked_keys (n : Int) (keys : List ι) : (ranked n keys).map Prod.fst = keys := by
  induction keys generalizing n with
  | nil => rfl
  | cons key rest ih => rw [ranked, map_cons, ih]

theorem eraseDups_of_nodup {keys : List ι} (hnodup : keys.Nodup) : keys.eraseDups = keys := by
  induction keys with
  | nil => rfl
  | cons key rest ih =>
    obtain ⟨hnew, hrest⟩ := List.nodup_cons.mp hnodup
    have hsame : rest.filter (fun k => !k == key) = rest := by
      refine List.filter_eq_self.mpr fun k hk => ?_
      have hne : k ≠ key := fun h => hnew (h ▸ hk)
      simpa using hne
    rw [List.eraseDups_cons, hsame, ih hrest]

theorem idxOf_some (keys : List ι) (k : ι) : (keys.map some).idxOf (some k) = keys.idxOf k := by
  induction keys with
  | nil => rfl
  | cons key rest ih =>
    by_cases hk : key = k
    · rw [hk, map_cons, List.idxOf_cons_self, List.idxOf_cons_self]
    · have hsome : some key ≠ some k := fun h => hk (Option.some.inj h)
      rw [map_cons, List.idxOf_cons_ne _ hsome, List.idxOf_cons_ne _ hk, ih]

end

/-! ## Requests for nodes -/

section

variable {κ : Type} {table : List (ClientEntry κ)} {requested : List String}

theorem nonBlank_some (h : ∀ u ∈ requested, btrim u ≠ "") : nonBlank (requested.map some) = requested := by
  induction requested with
  | nil => rfl
  | cons u rest ih =>
    have hu : (some u).filter (fun u => decide (btrim u ≠ "")) = some u := by
      rw [Option.filter_some, if_pos (decide_eq_true (h u List.mem_cons_self))]
    rw [map_cons, nonBlank, List.filterMap_cons_some hu]
    exact congrArg (List.cons u) (ih fun v hv => h v (List.mem_cons_of_mem _ hv))

theorem inputOrder_some (hnodup : requested.Nodup) (h : ∀ u ∈ requested, btrim u ≠ "") :
    inputOrder (requested.map some) = ranked 0 requested := by
  rw [inputOrder, nonBlank_some h, eraseDups_of_nodup hnodup, ranked_eq hnodup]
  refine List.map_congr_left fun u _ => ?_
  rw [idxOf_some, Int.zero_add]

theorem any_ranked (n : Int) (keys : List String) (u : String) :
    (ranked n keys).any (fun i => i.1 == u) = keys.contains u := by
  have hmap : (ranked n keys).any (fun i => i.1 == u) = ((ranked n keys).map Prod.fst).any (· == u) := by
    rw [List.any_map]
    rfl
  rw [hmap, ranked_keys, Bool.eq_iff_iff, List.any_eq_true, List.contains_iff_mem]
  simp

theorem count_requested (htable : (table.map ClientEntry.uuid).Nodup) (hnodup : requested.Nodup)
    (hexists : ∀ u ∈ requested, u ∈ table.map ClientEntry.uuid) :
    table.countP (fun c => requested.contains c.uuid) = requested.length := by
  have hperm : ((table.filter fun c => requested.contains c.uuid).map ClientEntry.uuid).Perm requested := by
    refine (List.perm_ext_iff_of_nodup ?_ hnodup).mpr fun u => ?_
    · exact htable.sublist (List.filter_sublist.map _)
    · simp only [mem_map, mem_filter, List.contains_iff_mem]
      constructor
      · rintro ⟨c, ⟨-, hc⟩, rfl⟩
        exact hc
      · intro hu
        obtain ⟨c, hc, rfl⟩ := mem_map.mp (hexists u hu)
        exact ⟨c, ⟨hc, hu⟩, rfl⟩
  rw [List.countP_eq_length_filter, ← List.length_map, hperm.length_eq]

variable {rules : TextRules}

/-- Keys whose rows stand in the order of the nodes. -/
def KeyBefore (rules : TextRules) (table : List (ClientEntry κ)) (a b : String) : Prop :=
  ∃ c ∈ table, ∃ d ∈ table, c.uuid = a ∧ d.uuid = b ∧ c.Before rules d

/-- **A new order of the nodes**: the requested ones in front, the others as they stood; no other column changes but
    the time of the update. -/
theorem cfm_reorder_clients_placed [Std.Irrefl rules.collation] (htable : (table.map ClientEntry.uuid).Nodup)
    (hnodup : requested.Nodup) (hne : requested ≠ []) (hexists : ∀ u ∈ requested, u ∈ table.map ClientEntry.uuid)
    (hblank : ∀ u ∈ requested, btrim u ≠ "") {rest : List (ClientEntry κ)}
    (hrest : Arranged (ClientEntry.Before rules) (unnamed (requested.map some) table) rest) (now : Int) :
    ∃ place, cfm_reorder_clients (requested.map some) rest now table =
        .ok (table.map fun c => c.moved now (place c.uuid)) ∧
      Placed (table.map ClientEntry.uuid) requested (KeyBefore rules table) place := by
  have horder := inputOrder_some hnodup hblank
  have hlength : (ranked 0 requested).length = requested.length := by
    rw [← List.length_map (f := Prod.fst), ranked_keys]
  have hmem : ∀ c, c ∈ rest ↔ c ∈ table ∧ c.uuid ∉ requested := by
    intro c
    rw [hrest.perm.mem_iff, unnamed, horder, mem_filter, any_ranked]
    simp
  -- The keys of the request and of the rest are the keys of the table.
  have hkeys : (requested ++ rest.map ClientEntry.uuid).Nodup := by
    refine List.nodup_append.mpr ⟨hnodup, ?_, fun a ha b hb hab => ?_⟩
    · refine ((hrest.perm.map _).nodup_iff).mpr ?_
      exact htable.sublist (List.filter_sublist.map _)
    · obtain ⟨c, hc, rfl⟩ := mem_map.mp hb
      exact ((hmem c).mp hc).2 (hab ▸ ha)
  have hperm : (requested ++ rest.map ClientEntry.uuid).Perm (table.map ClientEntry.uuid) := by
    refine (List.perm_ext_iff_of_nodup hkeys htable).mpr fun u => ?_
    rw [List.mem_append]
    constructor
    · rintro (hu | hu)
      · exact hexists u hu
      · obtain ⟨c, hc, rfl⟩ := mem_map.mp hu
        exact mem_map_of_mem ((hmem c).mp hc).1
    · intro hu
      obtain ⟨c, hc, rfl⟩ := mem_map.mp hu
      by_cases hreq : c.uuid ∈ requested
      · exact .inl hreq
      · exact .inr (mem_map_of_mem ((hmem c).mpr ⟨hc, hreq⟩))
  have hirrefl : ∀ a, ¬ KeyBefore rules table a a := by
    rintro a ⟨c, hc, d, hd, rfl, hcd, hbefore⟩
    obtain rfl := List.inj_on_of_nodup_map htable hd hc hcd
    rcases hbefore with h | ⟨-, h | ⟨-, h⟩⟩
    · exact lt_irrefl _ h
    · exact irrefl_of rules.collation _ h
    · exact lt_irrefl _ h
  have hpairwise : (rest.map ClientEntry.uuid).Pairwise fun a b => ¬ KeyBefore rules table b a := by
    refine List.pairwise_map.mpr (hrest.ordered.imp_of_mem fun {a b} ha hb hnot => ?_)
    rintro ⟨c, hc, d, hd, hcb, hda, hbefore⟩
    obtain rfl := List.inj_on_of_nodup_map htable hc ((hmem b).mp hb).1 hcb
    obtain rfl := List.inj_on_of_nodup_map htable hd ((hmem a).mp ha).1 hda
    exact hnot hbefore
  refine ⟨_, ?_, placed_idxOf hkeys hperm hpairwise hirrefl⟩
  have hcount := count_requested htable hnodup hexists
  have hsome : ¬ (ranked 0 requested).length = 0 := by
    rw [hlength]
    exact fun h => hne (List.eq_nil_of_length_eq_zero h)
  simp only [cfm_reorder_clients, horder, any_ranked, hcount, hlength]
  rw [if_neg (by rwa [hlength] at hsome), if_neg (not_not.mpr rfl)]
  refine congrArg Except.ok (List.map_congr_left fun c hc => ?_)
  have happend := ranked_append 0 requested (rest.map ClientEntry.uuid)
  rw [Int.zero_add] at happend
  rw [happend, get?_ranked, if_pos (hperm.mem_iff.mpr (mem_map_of_mem hc)), Int.zero_add]

/-- **A node that is not there** stops the request. -/
theorem cfm_reorder_clients_missing {input : Elements} (rest : List (ClientEntry κ)) (now : Int)
    (htable : (table.map ClientEntry.uuid).Nodup) {uuid : String} (hmem : some uuid ∈ input) (hblank : btrim uuid ≠ "")
    (hmissing : uuid ∉ table.map ClientEntry.uuid) :
    cfm_reorder_clients input rest now table = .error "Client uuid does not exist" := by
  have hkey : uuid ∈ (nonBlank input).eraseDups := by
    refine List.mem_eraseDups.mpr (List.mem_filterMap.mpr ⟨some uuid, hmem, ?_⟩)
    rw [Option.filter_some, if_pos (decide_eq_true hblank)]
  have hany : ∀ c : ClientEntry κ, (inputOrder input).any (fun i => i.1 == c.uuid) =
      (nonBlank input).eraseDups.contains c.uuid := by
    intro c
    rw [inputOrder, List.any_map, Bool.eq_iff_iff, List.any_eq_true, List.contains_iff_mem]
    simp
  have hlength : (inputOrder input).length = (nonBlank input).eraseDups.length := List.length_map _
  -- The rows that are found have other keys than the one that is missing.
  have hfew : table.countP (fun c => (nonBlank input).eraseDups.contains c.uuid) <
      (nonBlank input).eraseDups.length := by
    have hfound : ((table.filter fun c => (nonBlank input).eraseDups.contains c.uuid).map ClientEntry.uuid).Nodup :=
      htable.sublist (List.filter_sublist.map _)
    have hsub : ((table.filter fun c => (nonBlank input).eraseDups.contains c.uuid).map ClientEntry.uuid) ⊆
        (nonBlank input).eraseDups.erase uuid := by
      intro u hu
      obtain ⟨c, hc, rfl⟩ := mem_map.mp hu
      obtain ⟨hc, hin⟩ := mem_filter.mp hc
      have hne : c.uuid ≠ uuid := fun h => hmissing (h ▸ mem_map_of_mem hc)
      exact (List.mem_erase_of_ne hne).mpr (List.contains_iff_mem.mp hin)
    have hle := (List.subperm_of_subset hfound hsub).length_le
    have hpos := List.length_pos_of_mem hkey
    rw [List.length_map, List.length_erase_of_mem hkey] at hle
    rw [List.countP_eq_length_filter]
    omega
  have hpos := List.length_pos_of_mem hkey
  simp only [cfm_reorder_clients, hany, hlength]
  rw [if_neg (by omega), if_pos (by omega)]

end

/-! ## Requests for ping tasks -/

section

variable {κ : Type} {table : List (PingEntry κ)}

/-- **The loop** gives every task its place in the list. -/
theorem renumber_eq (ids : List Int) (hnodup : ids.Nodup) : ∀ (next : Int) (table : List (PingEntry κ)),
    renumber ids next table =
      table.map fun t => if t.id ∈ ids then { t with sortOrder := next + ids.idxOf t.id } else t := by
  induction ids with
  | nil =>
    intro next table
    simp [renumber]
  | cons id rest ih =>
    intro next table
    obtain ⟨hnew, hrest⟩ := List.nodup_cons.mp hnodup
    rw [renumber, ih hrest, List.map_map]
    refine List.map_congr_left fun t _ => ?_
    by_cases hid : t.id = id
    · have hplace : (if t.id = id ∧ t.sortOrder ≠ next then { t with sortOrder := next } else t) =
          { t with sortOrder := next } := by
        by_cases hsame : t.sortOrder = next
        · rw [if_neg fun h => h.2 hsame, ← hsame]
        · rw [if_pos ⟨hid, hsame⟩]
      have hout : t.id ∉ rest := by rwa [hid]
      rw [Function.comp_apply, hplace, if_neg hout, if_pos (by rw [hid]; exact List.mem_cons_self), hid,
        List.idxOf_cons_self]
      simp
    · have hkeep : (if t.id = id ∧ t.sortOrder ≠ next then { t with sortOrder := next } else t) = t :=
        if_neg fun h => hid h.1
      rw [Function.comp_apply, hkeep, List.idxOf_cons_ne _ (Ne.symm hid)]
      simp only [List.mem_cons, hid, false_or]
      split_ifs
      · congr 1
        push_cast
        omega
      · rfl

variable {requested : List Int}

theorem requestedIds_texts (hnodup : requested.Nodup) {texts : List String}
    (htexts : List.Forall₂ (fun text id => isDecimal text = true ∧ toBigint text = .ok id ∧ 0 < id) texts requested) :
    requestedIds (texts.map some) = .ok requested := by
  have hread : ((texts.map some).filterMap id).filter isDecimal = texts := by
    have hsome : (texts.map some).filterMap id = texts := by
      rw [List.filterMap_map]
      exact List.filterMap_some
    rw [hsome]
    refine List.filter_eq_self.mpr fun text htext => ?_
    obtain ⟨n, hn, hget⟩ := List.getElem_of_mem htext
    have hboth := htexts.get hn (htexts.length_eq ▸ hn)
    rw [← hget]
    exact hboth.1
  have hvalues : texts.mapM toBigint = .ok requested := by
    clear hread hnodup
    induction htexts with
    | nil => rfl
    | cons hhead _ ih => rw [List.mapM_cons, hhead.2.1, ih]; rfl
  have hpositive : requested.filter (0 < ·) = requested := by
    refine List.filter_eq_self.mpr fun id hid => decide_eq_true ?_
    obtain ⟨n, hn, hget⟩ := List.getElem_of_mem hid
    have hboth := htexts.get (htexts.length_eq ▸ hn) hn
    rw [← hget]
    exact hboth.2.2
  rw [requestedIds, hread, hvalues]
  show Except.ok (requested.filter (0 < ·)).eraseDups = _
  rw [hpositive, eraseDups_of_nodup hnodup]

/-- Ids whose tasks stand in the order of the tasks. -/
def TaskBefore (table : List (PingEntry κ)) (a b : Int) : Prop :=
  ∃ t ∈ table, ∃ u ∈ table, t.id = a ∧ u.id = b ∧
    (t.sortOrder < u.sortOrder ∨ (t.sortOrder = u.sortOrder ∧ t.id < u.id))

variable {input : Elements}

/-- **A new order of the ping tasks.** -/
theorem cfm_reorder_ping_tasks_placed (htable : (table.map PingEntry.id).Nodup)
    (hnodup : requested.Nodup) (hne : requested ≠ []) (hexists : ∀ id ∈ requested, id ∈ table.map PingEntry.id)
    (hinput : requestedIds input = .ok requested) :
    ∃ place, cfm_reorder_ping_tasks input table = .ok (table.map fun t => { t with sortOrder := place t.id }) ∧
      Placed (table.map PingEntry.id) requested (TaskBefore table) place := by
  let rest := (table.filter fun t => !requested.contains t.id).mergeSort PingEntry.upTo
  have hmem : ∀ t, t ∈ rest ↔ t ∈ table ∧ t.id ∉ requested := by
    intro t
    rw [List.mem_mergeSort, mem_filter]
    simp
  have hkeys : (requested ++ rest.map PingEntry.id).Nodup := by
    refine List.nodup_append.mpr ⟨hnodup, ?_, fun a ha b hb hab => ?_⟩
    · refine (((List.mergeSort_perm _ _).map _).nodup_iff).mpr ?_
      exact htable.sublist (List.filter_sublist.map _)
    · obtain ⟨t, ht, rfl⟩ := mem_map.mp hb
      exact ((hmem t).mp ht).2 (hab ▸ ha)
  have hperm : (requested ++ rest.map PingEntry.id).Perm (table.map PingEntry.id) := by
    refine (List.perm_ext_iff_of_nodup hkeys htable).mpr fun id => ?_
    rw [List.mem_append]
    constructor
    · rintro (hid | hid)
      · exact hexists id hid
      · obtain ⟨t, ht, rfl⟩ := mem_map.mp hid
        exact mem_map_of_mem ((hmem t).mp ht).1
    · intro hid
      obtain ⟨t, ht, rfl⟩ := mem_map.mp hid
      by_cases hreq : t.id ∈ requested
      · exact .inl hreq
      · exact .inr (mem_map_of_mem ((hmem t).mpr ⟨ht, hreq⟩))
  have hirrefl : ∀ a, ¬ TaskBefore table a a := by
    rintro a ⟨t, ht, u, hu, rfl, htu, hbefore⟩
    obtain rfl := List.inj_on_of_nodup_map htable hu ht htu
    rcases hbefore with h | ⟨-, h⟩
    · exact lt_irrefl _ h
    · exact lt_irrefl _ h
  have hsorted : rest.Pairwise fun t u => PingEntry.upTo t u = true := by
    refine List.pairwise_mergeSort (fun a b c hab hbc => ?_) (fun a b => ?_) _
    · simp only [PingEntry.upTo, Bool.or_eq_true, Bool.and_eq_true, decide_eq_true_eq, beq_iff_eq] at hab hbc ⊢
      omega
    · simp only [PingEntry.upTo, Bool.or_eq_true, Bool.and_eq_true, decide_eq_true_eq, beq_iff_eq]
      omega
  have hpairwise : (rest.map PingEntry.id).Pairwise fun a b => ¬ TaskBefore table b a := by
    refine List.pairwise_map.mpr (hsorted.imp_of_mem fun {a b} ha hb hle => ?_)
    rintro ⟨t, ht, u, hu, htb, hua, hbefore⟩
    obtain rfl := List.inj_on_of_nodup_map htable ht ((hmem b).mp hb).1 htb
    obtain rfl := List.inj_on_of_nodup_map htable hu ((hmem a).mp ha).1 hua
    simp only [PingEntry.upTo, Bool.or_eq_true, Bool.and_eq_true, decide_eq_true_eq, beq_iff_eq] at hle
    omega
  refine ⟨_, ?_, placed_idxOf hkeys hperm hpairwise hirrefl⟩
  have hfound : requested.any (fun id => !table.any fun t => t.id == id) = false := by
    refine List.any_eq_false.mpr fun id hid => ?_
    obtain ⟨t, ht, rfl⟩ := mem_map.mp (hexists id hid)
    have hany : (table.any fun u => u.id == t.id) = true := List.any_eq_true.mpr ⟨t, ht, by simp⟩
    simp [hany]
  rw [cfm_reorder_ping_tasks, hinput]
  show (if requested = [] then _ else _) = _
  rw [if_neg hne, hfound, if_neg Bool.false_ne_true]
  show Except.ok (renumber (requested ++ rest.map PingEntry.id) 1 table) = _
  rw [renumber_eq _ hkeys]
  refine congrArg Except.ok (List.map_congr_left fun t ht => ?_)
  rw [if_pos (hperm.mem_iff.mpr (mem_map_of_mem ht))]
  congr 1
  omega

theorem mapM_ok {f : String → Except String Int} : ∀ {texts : List String} {values : List Int},
    texts.mapM f = .ok values → ∀ text ∈ texts, ∃ value ∈ values, f text = .ok value := by
  intro texts
  induction texts with
  | nil => exact nofun
  | cons head rest ih =>
    intro values h text htext
    rw [List.mapM_cons] at h
    cases hhead : f head with
    | error e =>
      rw [hhead] at h
      simp [bind, Except.bind] at h
    | ok value =>
      cases hrest : rest.mapM f with
      | error e =>
        rw [hhead, hrest] at h
        simp [bind, Except.bind] at h
      | ok others =>
        rw [hhead, hrest] at h
        cases h
        rcases List.mem_cons.mp htext with rfl | htext
        · exact ⟨value, List.mem_cons_self, hhead⟩
        · obtain ⟨other, hother, hsame⟩ := ih hrest text htext
          exact ⟨other, List.mem_cons_of_mem _ hother, hsame⟩

theorem toBigint_eq (text : String) : toBigint text =
    if (Nat.ofDigitChars 10 text.toList 0 : Int) < 2 ^ 63 then .ok (Nat.ofDigitChars 10 text.toList 0 : Int)
    else .error "value out of range for type bigint" := rfl

theorem toBigint_ok {text : String} {value : Int} (h : toBigint text = .ok value) :
    value = (Nat.ofDigitChars 10 text.toList 0 : Int) := by
  rw [toBigint_eq] at h
  split_ifs at h
  exact (Except.ok.inj h).symm

/-- **A task that is not there** stops the request, and so does an id that is no `bigint`. -/
theorem cfm_reorder_ping_tasks_missing {text : String} (hmem : some text ∈ input)
    (hdecimal : isDecimal text = true) (hpositive : 0 < (Nat.ofDigitChars 10 text.toList 0 : Int))
    (hmissing : (Nat.ofDigitChars 10 text.toList 0 : Int) ∉ table.map PingEntry.id) :
    ∃ error, cfm_reorder_ping_tasks input table = .error error := by
  cases hvalues : ((input.filterMap id).filter isDecimal).mapM toBigint with
  | error e =>
    refine ⟨e, ?_⟩
    rw [cfm_reorder_ping_tasks, requestedIds, hvalues]
    simp only [bind, Except.bind]
  | ok values =>
    have htext : text ∈ (input.filterMap id).filter isDecimal :=
      mem_filter.mpr ⟨List.mem_filterMap.mpr ⟨some text, hmem, rfl⟩, hdecimal⟩
    obtain ⟨value, hvalue, hread⟩ := mapM_ok hvalues text htext
    have hread := toBigint_ok hread
    have hrequested : requestedIds input = .ok (values.filter (0 < ·)).eraseDups := by
      rw [requestedIds, hvalues]
      rfl
    have hin : value ∈ (values.filter (0 < ·)).eraseDups :=
      List.mem_eraseDups.mpr (mem_filter.mpr ⟨hvalue, decide_eq_true (hread ▸ hpositive)⟩)
    rw [← hread] at hmissing
    have hany : (values.filter (0 < ·)).eraseDups.any (fun id => !table.any fun t => t.id == id) = true := by
      refine List.any_eq_true.mpr ⟨_, hin, ?_⟩
      rw [Bool.not_eq_true', List.any_eq_false]
      exact fun t ht h => hmissing (mem_map.mpr ⟨t, ht, by simpa using h⟩)
    refine ⟨"Ping task id does not exist", ?_⟩
    rw [cfm_reorder_ping_tasks, hrequested]
    show (if _ = [] then _ else _) = _
    rw [if_neg (List.ne_nil_of_mem hin), if_pos hany]

/-- The text of an id of the table. -/
theorem toString_bigint {id : Int} (hpositive : 0 < id) (hbound : id < 2 ^ 63) :
    isDecimal (toString id) = true ∧ toBigint (toString id) = .ok id ∧ 0 < id := by
  obtain ⟨n, rfl⟩ := Int.eq_ofNat_of_zero_le hpositive.le
  have htext : (toString (n : Int)).toList = Nat.toDigits 10 n := by
    show (toString n).toList = _
    rw [Nat.toString_eq_repr, Nat.toList_repr]
  refine ⟨?_, ?_, hpositive⟩
  · rw [isDecimal, htext, Bool.and_eq_true, Bool.not_eq_true', List.isEmpty_eq_false_iff, List.all_eq_true]
    exact ⟨Nat.toDigits_ne_nil, fun c hc => Nat.isDigit_of_mem_toDigits (by decide) (by decide) hc⟩
  · rw [toBigint_eq, htext, Nat.ofDigitChars_ten_toDigits, if_pos hbound]

end

end CfMonitor.Clients
