/-
  A node dragged to another place (`moveAdminNodeInVisibleOrder`), and what is stored of it.

  1. **Move** — the visible nodes are moved among their own places; `arrayMove` of the list of the
     page is a parameter.

  2. **Places** — the list is a rearrangement that leaves the other nodes where they are
     (`placeVisible_spec`).

  3. **End to end** — the places of the page are those that the database stores of the request
     (`reordering_permutes`).
-/
import Mathlib
import CfMonitor.Clients.Reorder

namespace CfMonitor.Frontend

open CfMonitor.Lib CfMonitor.Clients

/-- A node of the administrator's list; `sort_order` can be missing. -/
structure AdminNode (κ : Type) where
  uuid : String
  sortOrder : Option Int
  columns : κ

section

variable {κ : Type}

/-! ## Move -/

/-- The first `map`: the next of the moved nodes, where a visible one stood.  Nothing is left when they run out. -/
def placeVisible (has : String → Bool) : List (AdminNode κ) → List (AdminNode κ) → List (Option (AdminNode κ))
  | _, [] => []
  | moved, client :: rest =>
    if !has client.uuid then some client :: placeVisible has moved rest
    else moved.head? :: placeVisible has moved.tail rest

def moveAdminNodeInVisibleOrder (arrayMove : List (AdminNode κ) → Nat → Nat → List (AdminNode κ))
    (allClients visibleClients : List (AdminNode κ)) (activeId overId : String) : List (Option (AdminNode κ)) :=
  match visibleClients.findIdx? (fun client => client.uuid == activeId),
      visibleClients.findIdx? (fun client => client.uuid == overId) with
  | some oldVisibleIndex, some newVisibleIndex =>
    let movedVisible := arrayMove visibleClients oldVisibleIndex newVisibleIndex
    let has (uuid : String) : Bool := movedVisible.any fun client => client.uuid == uuid
    (placeVisible has movedVisible allClients).mapIdx fun index client =>
      client.map fun client => { client with sortOrder := some (index + 1) }
  | _, _ => allClients.map some

/-- The identifiers of a list, as a request carries them. -/
def sentUuids (nodes : List (Option (AdminNode κ))) : Elements := nodes.map fun node => node.map AdminNode.uuid

/-- What is documented of `arrayMove`: an element is taken out and put in at its new index. -/
def MovesOne (arrayMove : List (AdminNode κ) → Nat → Nat → List (AdminNode κ)) : Prop :=
  ∀ (l : List (AdminNode κ)) (i j : Nat) (hi : i < l.length), j < l.length →
    arrayMove l i j = (l.eraseIdx i).insertIdx j l[i]

/-! ## Places -/

variable {arrayMove : List (AdminNode κ) → Nat → Nat → List (AdminNode κ)}

theorem MovesOne.perm (h : MovesOne arrayMove)
    {l : List (AdminNode κ)} {i j : Nat} (hi : i < l.length) (hj : j < l.length) : (arrayMove l i j).Perm l := by
  rw [h l i j hi hj]
  refine (List.perm_insertIdx _ _ ?_).trans (List.getElem_cons_eraseIdx_perm hi)
  rw [List.length_eraseIdx_of_lt hi]
  omega

/-- The visible nodes in their new order, and the others in their places. -/
structure Rearranged (has : String → Bool) (allClients moved placed : List (AdminNode κ)) : Prop where
  visible : placed.filter (fun c => has c.uuid) = moved
  others : placed.filter (fun c => !has c.uuid) = allClients.filter fun c => !has c.uuid
  kept : List.Forall₂ (fun c p => has c.uuid = false → p = c) allClients placed

theorem placeVisible_spec (has : String → Bool) : ∀ (allClients moved : List (AdminNode κ)),
    (∀ c ∈ moved, has c.uuid = true) → moved.length = (allClients.filter fun c => has c.uuid).length →
    ∃ placed, placeVisible has moved allClients = placed.map some ∧ Rearranged has allClients moved placed := by
  intro allClients
  induction allClients with
  | nil =>
    intro moved _ hlength
    obtain rfl := List.eq_nil_of_length_eq_zero hlength
    exact ⟨[], rfl, rfl, rfl, .nil⟩
  | cons client rest ih =>
    intro moved hmoved hlength
    cases hhas : has client.uuid with
    | false =>
      rw [List.filter_cons_of_neg (by simp [hhas])] at hlength
      obtain ⟨placed, hplaced, h⟩ := ih moved hmoved hlength
      refine ⟨client :: placed, by simp [placeVisible, hhas, hplaced], ?_, ?_, .cons (fun _ => rfl) h.kept⟩
      · rw [List.filter_cons_of_neg (by simp [hhas]), h.visible]
      · rw [List.filter_cons_of_pos (by simp [hhas]), List.filter_cons_of_pos (by simp [hhas]), h.others]
    | true =>
      rw [List.filter_cons_of_pos (by simp [hhas]), List.length_cons] at hlength
      cases moved with
      | nil => cases hlength
      | cons next moved =>
        have hnext := hmoved next List.mem_cons_self
        obtain ⟨placed, hplaced, h⟩ := ih moved (fun c hc => hmoved c (List.mem_cons_of_mem _ hc)) (by simpa using hlength)
        refine ⟨next :: placed, by simp [placeVisible, hhas, hplaced], ?_, ?_, .cons (fun hno => ?_) h.kept⟩
        · rw [List.filter_cons_of_pos (by exact hnext), h.visible]
        · rw [List.filter_cons_of_neg (by simp [hnext]), List.filter_cons_of_neg (by simp [hhas]), h.others]
        · rw [hhas] at hno
          cases hno

variable {allClients : List (AdminNode κ)}

/-- **A rearrangement** has every node once. -/
theorem Rearranged.perm {has : String → Bool} {moved placed : List (AdminNode κ)}
    (h : Rearranged has allClients moved placed) (hmoved : moved.Perm (allClients.filter fun c => has c.uuid)) :
    placed.Perm allClients := by
  have hplaced := List.filter_append_perm (fun c : AdminNode κ => has c.uuid) placed
  have hall := List.filter_append_perm (fun c : AdminNode κ => has c.uuid) allClients
  rw [h.visible, h.others] at hplaced
  exact hplaced.symm.trans ((hmoved.append_right _).trans hall)

/-- The index of a node that is in a list. -/
theorem findIdx?_uuid {nodes : List (AdminNode κ)} {uuid : String} (h : uuid ∈ nodes.map AdminNode.uuid) :
    ∃ i, ∃ hi : i < nodes.length, nodes.findIdx? (fun client => client.uuid == uuid) = some i ∧ nodes[i].uuid = uuid := by
  obtain ⟨c, hc, rfl⟩ := List.mem_map.mp h
  cases hfound : nodes.findIdx? (fun client => client.uuid == c.uuid) with
  | none => exact absurd (List.findIdx?_eq_none_iff.mp hfound c hc) (by simp)
  | some i =>
    obtain ⟨hi, huuid, -⟩ := List.findIdx?_eq_some_iff_getElem.mp hfound
    exact ⟨i, hi, rfl, by simpa using huuid⟩

variable {activeId overId : String}

theorem moveAdminNode_unseen (arrayMove : List (AdminNode κ) → Nat → Nat → List (AdminNode κ))
    (allClients : List (AdminNode κ)) {visibleClients : List (AdminNode κ)}
    (hout : activeId ∉ visibleClients.map AdminNode.uuid ∨ overId ∉ visibleClients.map AdminNode.uuid) :
    moveAdminNodeInVisibleOrder arrayMove allClients visibleClients activeId overId = allClients.map some := by
  have hnone : ∀ uuid ∉ visibleClients.map AdminNode.uuid,
      visibleClients.findIdx? (fun client => client.uuid == uuid) = none := by
    intro uuid huuid
    refine List.findIdx?_eq_none_iff.mpr fun c hc => ?_
    exact beq_false_of_ne fun h => huuid (h ▸ List.mem_map_of_mem hc)
  rw [moveAdminNodeInVisibleOrder]
  rcases hout with hout | hout
  · rw [hnone activeId hout]
  · rw [hnone overId hout]
    cases visibleClients.findIdx? (fun client => client.uuid == activeId) <;> rfl

/-- **A moved node**: the page shows a rearrangement, in which the visible nodes are moved among their own places and
    every node has its number. -/
theorem moveAdminNode_rearranged (hmove : MovesOne arrayMove) {visibleClients : List (AdminNode κ)}
    (hnodup : (allClients.map AdminNode.uuid).Nodup) (hsub : visibleClients.Sublist allClients)
    (hactive : activeId ∈ visibleClients.map AdminNode.uuid) (hover : overId ∈ visibleClients.map AdminNode.uuid) :
    ∃ i j placed, ∃ (hi : i < visibleClients.length) (hj : j < visibleClients.length),
      visibleClients[i].uuid = activeId ∧ visibleClients[j].uuid = overId ∧ placed.Perm allClients ∧
      placed.filter (fun c => decide (c.uuid ∈ visibleClients.map AdminNode.uuid)) = arrayMove visibleClients i j ∧
      List.Forall₂ (fun c p => c ∉ visibleClients → p = c) allClients placed ∧
      moveAdminNodeInVisibleOrder arrayMove allClients visibleClients activeId overId =
        placed.mapIdx fun index c => some { c with sortOrder := some ((index : Int) + 1) } := by
  obtain ⟨i, hi, hfindActive, huuidActive⟩ := findIdx?_uuid hactive
  obtain ⟨j, hj, hfindOver, huuidOver⟩ := findIdx?_uuid hover
  have hperm := hmove.perm hi hj
  -- The map of the moved nodes has the visible ones.
  have hhas : ∀ uuid, (arrayMove visibleClients i j).any (fun client => client.uuid == uuid) =
      decide (uuid ∈ visibleClients.map AdminNode.uuid) := by
    intro uuid
    rw [Bool.eq_iff_iff, List.any_eq_true, decide_eq_true_eq, List.mem_map]
    constructor
    · rintro ⟨c, hc, huuid⟩
      exact ⟨c, hperm.mem_iff.mp hc, by simpa using huuid⟩
    · rintro ⟨c, hc, huuid⟩
      exact ⟨c, hperm.mem_iff.mpr hc, by simpa using huuid⟩
  let has (uuid : String) : Bool := decide (uuid ∈ visibleClients.map AdminNode.uuid)
  have hvisible : ∀ c ∈ allClients, has c.uuid = true ↔ c ∈ visibleClients := by
    intro c hc
    rw [decide_eq_true_eq, List.mem_map]
    constructor
    · rintro ⟨d, hd, huuid⟩
      exact List.inj_on_of_nodup_map hnodup (hsub.subset hd) hc huuid ▸ hd
    · exact fun hc => ⟨c, hc, rfl⟩
  have hall : allClients.Nodup := List.Nodup.of_map _ hnodup
  have hfilter : visibleClients.Perm (allClients.filter fun c => has c.uuid) := by
    refine (List.perm_ext_iff_of_nodup (hall.sublist hsub) (hall.filter _)).mpr fun c => ?_
    rw [List.mem_filter]
    exact ⟨fun hc => ⟨hsub.subset hc, (hvisible c (hsub.subset hc)).mpr hc⟩, fun hc => (hvisible c hc.1).mp hc.2⟩
  have hmoved : ∀ c ∈ arrayMove visibleClients i j, has c.uuid = true := fun c hc =>
    decide_eq_true (List.mem_map_of_mem (hperm.mem_iff.mp hc))
  obtain ⟨placed, hplaced, h⟩ := placeVisible_spec has allClients (arrayMove visibleClients i j) hmoved
    (hperm.trans hfilter).length_eq
  refine ⟨i, j, placed, hi, hj, huuidActive, huuidOver, h.perm (hperm.trans hfilter), h.visible, ?_, ?_⟩
  · have hboth := (List.forall₂_and_left allClients placed).mpr ⟨fun c hc => hvisible c hc, h.kept⟩
    refine hboth.imp fun c p hcp hno => hcp.2 ?_
    exact Bool.eq_false_of_not_eq_true fun hyes => hno (hcp.1.mp hyes)
  · rw [moveAdminNodeInVisibleOrder, hfindActive, hfindOver]
    simp only [hhas]
    rw [hplaced]
    exact List.ext_getElem (by simp) fun n h h' => by simp

end

/-! ## End to end -/

/-- A request for the nodes gives the table the places that it asks for, or is refused. -/
structure ReordersClients (rules : TextRules) (κ : Type) : Prop where
  placed : ∀ (table : List (ClientEntry κ)) (requested : List String) (rest : List (ClientEntry κ)) (now : Int),
    (table.map ClientEntry.uuid).Nodup → requested.Nodup → requested ≠ [] →
    (∀ uuid ∈ requested, uuid ∈ table.map ClientEntry.uuid ∧ btrim uuid ≠ "") →
    Arranged (ClientEntry.Before rules) (unnamed (requested.map some) table) rest →
    ∃ place, cfm_reorder_clients (requested.map some) rest now table =
        .ok (table.map fun c => c.moved now (place c.uuid)) ∧
      Clients.Placed (table.map ClientEntry.uuid) requested (KeyBefore rules table) place
  missing : ∀ (table : List (ClientEntry κ)) (input : Elements) (rest : List (ClientEntry κ)) (now : Int) (uuid : String),
    (table.map ClientEntry.uuid).Nodup → some uuid ∈ input → btrim uuid ≠ "" → uuid ∉ table.map ClientEntry.uuid →
    cfm_reorder_clients input rest now table = .error "Client uuid does not exist"

/-- So does a request for the ping tasks. -/
structure ReordersPingTasks (κ : Type) : Prop where
  placed : ∀ (table : List (PingEntry κ)) (requested : List Int),
    (table.map PingEntry.id).Nodup → requested.Nodup → requested ≠ [] →
    (∀ id ∈ requested, id ∈ table.map PingEntry.id ∧ 0 < id ∧ id < 2 ^ 63) →
    ∃ place, cfm_reorder_ping_tasks (requested.map fun id => some (toString id)) table =
        .ok (table.map fun t => { t with sortOrder := place t.id }) ∧
      Clients.Placed (table.map PingEntry.id) requested (TaskBefore table) place
  missing : ∀ (table : List (PingEntry κ)) (input : Elements) (text : String), some text ∈ input →
    isDecimal text = true → 0 < (Nat.ofDigitChars 10 text.toList 0 : Int) →
    (Nat.ofDigitChars 10 text.toList 0 : Int) ∉ table.map PingEntry.id →
    ∃ error, cfm_reorder_ping_tasks input table = .error error

/-- A moved node gives a rearrangement of the page, and the database stores the places that the page shows. -/
structure MovesNode (rules : TextRules) {κ : Type} (arrayMove : List (AdminNode κ) → Nat → Nat → List (AdminNode κ))
    (allClients visibleClients : List (AdminNode κ)) (activeId overId : String) (i j : Nat)
    (placed : List (AdminNode κ)) : Prop where
  perm : placed.Perm allClients
  moved : placed.filter (fun c => decide (c.uuid ∈ visibleClients.map AdminNode.uuid)) = arrayMove visibleClients i j
  kept : List.Forall₂ (fun c p => c ∉ visibleClients → p = c) allClients placed
  shown : moveAdminNodeInVisibleOrder arrayMove allClients visibleClients activeId overId =
    placed.mapIdx fun index c => some { c with sortOrder := some ((index : Int) + 1) }
  stored : ∀ (κ' : Type) (table : List (ClientEntry κ')) (rest : List (ClientEntry κ')) (now : Int),
    (table.map ClientEntry.uuid).Nodup →
    (∀ c ∈ allClients, c.uuid ∈ table.map ClientEntry.uuid ∧ btrim c.uuid ≠ "") →
    Arranged (ClientEntry.Before rules)
      (unnamed (sentUuids (moveAdminNodeInVisibleOrder arrayMove allClients visibleClients activeId overId)) table) rest →
    ∃ table', cfm_reorder_clients
        (sentUuids (moveAdminNodeInVisibleOrder arrayMove allClients visibleClients activeId overId)) rest now table =
        .ok table' ∧
      ∀ node, some node ∈ moveAdminNodeInVisibleOrder arrayMove allClients visibleClients activeId overId →
        ∀ c ∈ table', c.uuid = node.uuid → node.sortOrder = some c.sortOrder

theorem moved_sortOrder {κ : Type} (now : Int) (c : ClientEntry κ) (place : Int) :
    (c.moved now place).sortOrder = place ∧ (c.moved now place).uuid = c.uuid := by
  rw [ClientEntry.moved]
  split_ifs with hsame
  · exact ⟨hsame, rfl⟩
  · exact ⟨rfl, rfl⟩

/-- **Reordering is a permutation**, in the tables and from the page to the table. -/
theorem reordering_permutes (rules : TextRules) [Std.Irrefl rules.collation] (κ : Type) :
    ReordersClients rules κ ∧ ReordersPingTasks κ ∧
    (∀ arrayMove (allClients visibleClients : List (AdminNode κ)) (activeId overId : String),
      activeId ∉ visibleClients.map AdminNode.uuid ∨ overId ∉ visibleClients.map AdminNode.uuid →
      moveAdminNodeInVisibleOrder arrayMove allClients visibleClients activeId overId = allClients.map some) ∧
    ∀ (arrayMove : List (AdminNode κ) → Nat → Nat → List (AdminNode κ)), MovesOne arrayMove →
      ∀ (allClients visibleClients : List (AdminNode κ)) (activeId overId : String),
        (allClients.map AdminNode.uuid).Nodup → visibleClients.Sublist allClients →
        activeId ∈ visibleClients.map AdminNode.uuid → overId ∈ visibleClients.map AdminNode.uuid →
        ∃ i j placed, ∃ (hi : i < visibleClients.length) (hj : j < visibleClients.length),
          visibleClients[i].uuid = activeId ∧ visibleClients[j].uuid = overId ∧
          MovesNode rules arrayMove allClients visibleClients activeId overId i j placed := by
  refine ⟨⟨?_, ?_⟩, ⟨?_, ?_⟩, ?_, ?_⟩
  · intro table requested rest now htable hnodup hne hrequested hrest
    exact cfm_reorder_clients_placed htable hnodup hne (fun uuid h => (hrequested uuid h).1)
      (fun uuid h => (hrequested uuid h).2) hrest now
  · intro table input rest now uuid htable hmem hblank hmissing
    exact cfm_reorder_clients_missing rest now htable hmem hblank hmissing
  · intro table requested htable hnodup hne hrequested
    have htexts : List.Forall₂ (fun text id => isDecimal text = true ∧ toBigint text = .ok id ∧ 0 < id)
        (requested.map toString) requested := by
      refine List.forall₂_map_left_iff.mpr (List.forall₂_same.mpr fun id hid => ?_)
      obtain ⟨-, hpositive, hbound⟩ := hrequested id hid
      exact toString_bigint hpositive hbound
    have hread := requestedIds_texts hnodup htexts
    rw [List.map_map] at hread
    exact cfm_reorder_ping_tasks_placed htable hnodup hne (fun id h => (hrequested id h).1) hread
  · intro table input text hmem hdecimal hpositive hmissing
    exact cfm_reorder_ping_tasks_missing hmem hdecimal hpositive hmissing
  · intro arrayMove allClients visibleClients activeId overId hout
    exact moveAdminNode_unseen arrayMove allClients hout
  · intro arrayMove hmove allClients visibleClients activeId overId hnodup hsub hactive hover
    obtain ⟨i, j, placed, hi, hj, huuid, huuid', hperm, hfilter, hkept, hshown⟩ :=
      moveAdminNode_rearranged hmove hnodup hsub hactive hover
    refine ⟨i, j, placed, hi, hj, huuid, huuid', hperm, hfilter, hkept, hshown, ?_⟩
    intro κ' table rest now htable hall hrest
    have hsent : sentUuids (moveAdminNodeInVisibleOrder arrayMove allClients visibleClients activeId overId) =
        (placed.map AdminNode.uuid).map some := by
      rw [hshown]
      exact List.ext_getElem (by simp [sentUuids]) fun n h h' => by simp [sentUuids]
    rw [hsent] at hrest ⊢
    have hplacedNodup : (placed.map AdminNode.uuid).Nodup := ((hperm.map _).nodup_iff).mpr hnodup
    have hne : placed.map AdminNode.uuid ≠ [] := by
      obtain ⟨c, hc, -⟩ := List.mem_map.mp hactive
      exact List.ne_nil_of_mem (List.mem_map_of_mem (hperm.mem_iff.mpr (hsub.subset hc)))
    have hknown : ∀ uuid ∈ placed.map AdminNode.uuid, uuid ∈ table.map ClientEntry.uuid ∧ btrim uuid ≠ "" := by
      intro uuid huuid
      obtain ⟨c, hc, rfl⟩ := List.mem_map.mp huuid
      exact hall c (hperm.mem_iff.mp hc)
    obtain ⟨place, hresult, hplace⟩ := cfm_reorder_clients_placed htable hplacedNodup hne
      (fun uuid h => (hknown uuid h).1) (fun uuid h => (hknown uuid h).2) hrest now
    refine ⟨_, hresult, fun node hnode c hc hsame => ?_⟩
    rw [hshown] at hnode
    obtain ⟨n, hn, hnode⟩ := List.getElem_of_mem hnode
    rw [List.length_mapIdx] at hn
    simp only [List.getElem_mapIdx, Option.some.injEq] at hnode
    obtain ⟨row, -, rfl⟩ := List.mem_map.mp hc
    obtain ⟨hsort, hkey⟩ := moved_sortOrder now row (place row.uuid)
    have hfirst := hplace.first n (by rwa [List.length_map])
    rw [List.getElem_map] at hfirst
    rw [hkey, ← hnode] at hsame
    rw [hsort, ← hnode, hsame, hfirst]

/-! ## Three nodes -/

/-- Texts as they are. -/
def plainTexts : TextRules := ⟨fun text => text, fun a b => a < b⟩

instance : Std.Irrefl plainTexts.collation := ⟨fun a => lt_irrefl a⟩

/-- `arrayMove`, as it is documented. -/
def moveOne (nodes : List (AdminNode Unit)) (i j : Nat) : List (AdminNode Unit) :=
  match nodes[i]? with
  | some node => (nodes.eraseIdx i).insertIdx j node
  | none => nodes

theorem moveOne_moves : MovesOne moveOne := by
  intro l i j hi _
  rw [moveOne, List.getElem?_eq_getElem hi]

def threeNodes : List (AdminNode Unit) := [⟨"a", some 1, ()⟩, ⟨"b", some 2, ()⟩, ⟨"c", some 3, ()⟩]

/-- A blank entry names no node, and stops nothing. -/
theorem blank_uuid_passes :
    ¬ ∀ (table : List (ClientEntry Unit)) (input : Elements) (uuid : String), (table.map ClientEntry.uuid).Nodup →
      some uuid ∈ input → uuid ∉ table.map ClientEntry.uuid →
      ∃ error, cfm_reorder_clients input [] 0 table = .error error := by
  intro h
  obtain ⟨error, herror⟩ := h [⟨"a", "a", 0, 1, 0, ()⟩] [some "a", some ""] "" (by decide) (by decide) (by decide)
  have hok : ∃ table, cfm_reorder_clients [some "a", some ""] [] 0 [(⟨"a", "a", 0, 1, 0, ()⟩ : ClientEntry Unit)] =
      .ok table := ⟨_, rfl⟩
  obtain ⟨table, htable⟩ := hok
  rw [htable] at herror
  cases herror

/-- The last of two visible nodes goes in front of the other; the hidden one between them stays. -/
theorem moved_past_hidden :
    ∃ i j placed, MovesNode plainTexts moveOne threeNodes [⟨"a", some 1, ()⟩, ⟨"c", some 3, ()⟩] "c" "a" i j placed := by
  obtain ⟨i, j, placed, -, -, -, -, h⟩ := (reordering_permutes plainTexts Unit).2.2.2 moveOne moveOne_moves threeNodes
    [⟨"a", some 1, ()⟩, ⟨"c", some 3, ()⟩] "c" "a" (by decide)
    (.cons_cons _ (.cons _ (.cons_cons _ .slnil))) (by decide) (by decide)
  exact ⟨i, j, placed, h⟩

end CfMonitor.Frontend
