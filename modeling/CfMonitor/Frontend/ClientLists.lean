/-
  Client lists as maps from `uuid` to client.

  1. **Lookup** — a list with distinct `uuid`s is the values of a map, and lookup in the list is lookup in the map.

  2. **Order** — `comparePublicClients` sorts.  Two sorted lists with the same lookups are the same list, provided
     that the collation tells their `uuid`s apart.
-/
import CfMonitor.Frontend.PublicClients
import Mathlib.Data.List.Nodup
import Mathlib.Tactic.Linarith
import Mathlib.Tactic.SplitIfs

namespace CfMonitor.Frontend

open CfMonitor.Lib

/-! ## Lookup -/

def findClient (clients : List ClientInfo) (uuid : String) : Option ClientInfo :=
  Assoc.findBy ClientInfo.uuid clients uuid

def uuids (clients : List ClientInfo) : List String := clients.map ClientInfo.uuid

theorem keyed_clientMap (clients : List ClientInfo) : Assoc.Keyed ClientInfo.uuid (clientMap clients) :=
  Assoc.keyed_index clients

/-- Lookup among the clients that are not removed. -/
theorem get?_filtered {clients : List ClientInfo} (hnodup : (uuids clients).Nodup) (remove : List String)
    (uuid : String) :
    Assoc.get? (clientMap (clients.filter fun client => !remove.contains client.uuid)) uuid =
      if uuid ∈ remove then none else findClient clients uuid := by
  have hkept : (uuids (clients.filter fun client => !remove.contains client.uuid)).Nodup :=
    hnodup.sublist (List.filter_sublist.map ClientInfo.uuid)
  rw [clientMap, Assoc.get?_index hkept, Assoc.findBy_filter hnodup]
  show (findClient clients uuid).filter _ = _
  cases hfind : findClient clients uuid with
  | none => rw [Option.filter_none, ite_self]
  | some client =>
    have huuid : client.uuid = uuid := ((Assoc.findBy_eq_some hnodup).mp hfind).2
    rw [Option.filter_some, huuid]
    by_cases hremoved : uuid ∈ remove
    · simp [hremoved]
    · simp [hremoved]

/-! ## Order -/

namespace Collation

variable (c : Collation)

/-- The order of a list: by `sort_order`, then by name, then by `uuid`. -/
def Before (a b : ClientInfo) : Prop :=
  orderOf a < orderOf b ∨ orderOf a = orderOf b ∧
    (c.le (nameOf b) (nameOf a) = false ∨ c.le (nameOf a) (nameOf b) = true ∧ c.le a.uuid b.uuid = true)

theorem le_of_not_le {a b : String} (h : c.le a b = false) : c.le b a = true := by
  have htotal := c.le_total a b
  rw [h, Bool.false_or] at htotal
  exact htotal

theorem localeCompare_le_iff (a b : String) : c.localeCompare a b ≤ 0 ↔ c.le a b = true := by
  rw [localeCompare]
  split_ifs with hab hba
  · exact ⟨fun _ => hab, fun _ => le_refl 0⟩
  · exact ⟨fun _ => hab, fun _ => by norm_num⟩
  · exact ⟨fun h => absurd h (by norm_num), fun h => absurd h hab⟩

theorem localeCompare_eq_zero_iff (a b : String) :
    c.localeCompare a b = 0 ↔ c.le a b = true ∧ c.le b a = true := by
  rw [localeCompare]
  split_ifs with hab hba
  · exact ⟨fun _ => ⟨hab, hba⟩, fun _ => rfl⟩
  · exact ⟨fun h => absurd h (by norm_num), fun h => absurd h.2 hba⟩
  · exact ⟨fun h => absurd h (by norm_num), fun h => absurd h.1 hab⟩

theorem compare_le_iff (a b : ClientInfo) : c.comparePublicClients a b ≤ 0 ↔ c.Before a b := by
  rw [comparePublicClients, Before]
  split_ifs with horder hname
  · constructor
    · intro hle
      exact .inl (lt_of_le_of_ne (by linarith) (sub_ne_zero.mp horder))
    · rintro (hlt | ⟨heq, -⟩)
      · linarith
      · exact absurd (sub_eq_zero.mpr heq) horder
  · have heq : orderOf a = orderOf b := sub_eq_zero.mp (not_not.mp horder)
    rw [localeCompare_le_iff]
    rw [ne_eq, localeCompare_eq_zero_iff] at hname
    constructor
    · intro hle
      refine .inr ⟨heq, .inl ?_⟩
      by_contra hback
      exact hname ⟨hle, by simpa using hback⟩
    · rintro (hlt | ⟨-, hback | ⟨hle, -⟩⟩)
      · exact absurd heq (ne_of_lt hlt)
      · exact c.le_of_not_le hback
      · exact hle
  · have heq : orderOf a = orderOf b := sub_eq_zero.mp (not_not.mp horder)
    obtain ⟨hle, hback⟩ := (c.localeCompare_eq_zero_iff _ _).mp (not_not.mp hname)
    rw [localeCompare_le_iff]
    constructor
    · exact fun huuid => .inr ⟨heq, .inr ⟨hle, huuid⟩⟩
    · rintro (hlt | ⟨-, hfalse | ⟨-, huuid⟩⟩)
      · exact absurd heq (ne_of_lt hlt)
      · simp [hfalse] at hback
      · exact huuid

variable {a b : ClientInfo}

theorem before_trans {d : ClientInfo} (hab : c.Before a b) (hbd : c.Before b d) : c.Before a d := by
  rcases hab with hlt | ⟨heq, hname⟩
  · rcases hbd with hlt' | ⟨heq', -⟩
    · exact .inl (lt_trans hlt hlt')
    · exact .inl (heq' ▸ hlt)
  · rcases hbd with hlt' | ⟨heq', hname'⟩
    · exact .inl (heq ▸ hlt')
    · refine .inr ⟨heq.trans heq', ?_⟩
      rcases hname with hstrict | ⟨hle, huuid⟩
      · -- `d` before `a` by name would put `b` before `a`
        left
        by_contra hda
        have hback : c.le (nameOf d) (nameOf a) = true := by simpa using hda
        have hbd : c.le (nameOf b) (nameOf d) = true := hname'.elim c.le_of_not_le And.left
        rw [c.le_trans _ _ _ hbd hback] at hstrict
        cases hstrict
      · rcases hname' with hstrict | ⟨hle', huuid'⟩
        · left
          by_contra hda
          have hback : c.le (nameOf d) (nameOf a) = true := by simpa using hda
          rw [c.le_trans _ _ _ hback hle] at hstrict
          cases hstrict
        · exact .inr ⟨c.le_trans _ _ _ hle hle', c.le_trans _ _ _ huuid huuid'⟩

theorem before_total (a b : ClientInfo) : c.Before a b ∨ c.Before b a := by
  rcases lt_trichotomy (orderOf a) (orderOf b) with hlt | heq | hlt
  · exact .inl (.inl hlt)
  · by_cases hab : c.le (nameOf a) (nameOf b) = true
    · by_cases hba : c.le (nameOf b) (nameOf a) = true
      · have huuid := c.le_total a.uuid b.uuid
        rw [Bool.or_eq_true] at huuid
        rcases huuid with hle | hle
        · exact .inl (.inr ⟨heq, .inr ⟨hab, hle⟩⟩)
        · exact .inr (.inr ⟨heq.symm, .inr ⟨hba, hle⟩⟩)
      · exact .inl (.inr ⟨heq, .inl (by simpa using hba)⟩)
    · exact .inr (.inr ⟨heq.symm, .inl (by simpa using hab)⟩)
  · exact .inr (.inl hlt)

theorem uuid_le_of_before (hab : c.Before a b) (hba : c.Before b a) : c.le a.uuid b.uuid = true := by
  rcases hab with hlt | ⟨heq, hname⟩
  · rcases hba with hlt' | ⟨heq', -⟩
    · exact absurd hlt (lt_asymm hlt')
    · exact absurd heq' (ne_of_gt hlt)
  · rcases hba with hlt' | ⟨-, hname'⟩
    · exact absurd heq (ne_of_gt hlt')
    · rcases hname with hstrict | ⟨hle, huuid⟩
      · rcases hname' with hstrict' | ⟨hle', -⟩
        · exact absurd (c.le_of_not_le hstrict) (by simp [hstrict'])
        · simp [hstrict] at hle'
      · exact huuid

/-- A list in order. -/
def Sorted (clients : List ClientInfo) : Prop := clients.Pairwise c.Before

theorem sort_sorted (clients : List ClientInfo) : c.Sorted (c.sortPublicClients clients) := by
  let le : ClientInfo → ClientInfo → Bool := fun a b => decide (c.comparePublicClients a b ≤ 0)
  have hle : ∀ a b, le a b = true ↔ c.Before a b := fun a b => decide_eq_true_iff.trans (c.compare_le_iff a b)
  have htrans : ∀ a b d, le a b = true → le b d = true → le a d = true := by
    intro a b d hab hbd
    rw [hle] at hab hbd ⊢
    exact c.before_trans hab hbd
  have htotal : ∀ a b, (le a b || le b a) = true := by
    intro a b
    rw [Bool.or_eq_true, hle, hle]
    exact c.before_total a b
  exact (List.pairwise_mergeSort htrans htotal clients).imp fun h => (hle _ _).mp h

theorem sort_perm (clients : List ClientInfo) : (c.sortPublicClients clients).Perm clients :=
  List.mergeSort_perm clients _

/-- The collation tells these `uuid`s apart. -/
def Separates (ids : List String) : Prop :=
  ∀ a ∈ ids, ∀ b ∈ ids, c.le a b = true → c.le b a = true → a = b

/-- A list of clients as the page has it: in order, and one client for a `uuid`. -/
structure PublicList (clients : List ClientInfo) : Prop where
  sorted : c.Sorted clients
  nodup : (uuids clients).Nodup

variable {clients : List ClientInfo}

theorem publicList_sort (h : (uuids clients).Nodup) : c.PublicList (c.sortPublicClients clients) :=
  ⟨c.sort_sorted clients, ((c.sort_perm clients).map ClientInfo.uuid).nodup_iff.mpr h⟩

theorem find_sort (h : (uuids clients).Nodup) (uuid : String) :
    findClient (c.sortPublicClients clients) uuid = findClient clients uuid := by
  apply Option.ext
  intro client
  rw [findClient, findClient, Assoc.findBy_eq_some h, Assoc.findBy_eq_some (c.publicList_sort h).nodup,
    (c.sort_perm clients).mem_iff]

variable {c}

/-- **Two lists** with the same lookups are the same. -/
theorem PublicList.eq_of_find {l l' : List ClientInfo} (h : c.PublicList l) (h' : c.PublicList l')
    (hfind : ∀ uuid, findClient l uuid = findClient l' uuid) (hseparates : c.Separates (uuids l)) : l = l' := by
  have hmem : ∀ client, client ∈ l ↔ client ∈ l' := by
    intro client
    have hiff : findClient l client.uuid = some client ↔ client ∈ l ∧ client.uuid = client.uuid :=
      Assoc.findBy_eq_some h.nodup
    have hiff' : findClient l' client.uuid = some client ↔ client ∈ l' ∧ client.uuid = client.uuid :=
      Assoc.findBy_eq_some h'.nodup
    rw [hfind] at hiff
    constructor
    · exact fun hin => (hiff'.mp (hiff.mpr ⟨hin, rfl⟩)).1
    · exact fun hin => (hiff.mp (hiff'.mpr ⟨hin, rfl⟩)).1
  have hperm : l.Perm l' :=
    (List.perm_ext_iff_of_nodup (List.Nodup.of_map _ h.nodup) (List.Nodup.of_map _ h'.nodup)).mpr hmem
  refine hperm.eq_of_pairwise ?_ h.sorted h'.sorted
  intro a b ha hb hab hba
  have hb' : b ∈ l := (hmem b).mpr hb
  have huuid : a.uuid = b.uuid := hseparates _ (List.mem_map_of_mem ha) _ (List.mem_map_of_mem hb')
    (c.uuid_le_of_before hab hba) (c.uuid_le_of_before hba hab)
  exact List.inj_on_of_nodup_map h.nodup ha hb' huuid

end Collation

end CfMonitor.Frontend
