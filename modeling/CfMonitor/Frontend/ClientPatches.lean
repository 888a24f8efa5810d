/-
  The live list and the cached list, client by client.

  1. **Entries** — an entry of `upsert` hides a client or shows it with a patch.  For one `uuid`, both lists depend
     on the entries of that `uuid` only (`get?_upserts`, `patchCached_spec`).

  2. **Composition** — the live list takes in the patches one by one; the cached list takes in their composition.
     That is the same (`places_view`).
-/
import CfMonitor.Frontend.ClientLists

namespace CfMonitor.Frontend

open CfMonitor.Lib
open List (filterMap_cons_some foldl_cons mem_cons)
open Assoc (get? get?_set)

/-! ## Entries -/

/-- What an entry does to its client. -/
inductive Upsert where
  | hides (plainly : Bool)
  | shows (patch : ClientPatch)

/-- The fields that a record carries. -/
def carried (uuid : String) (record : Fields) : ClientPatch where
  uuid := uuid
  field f := (Assoc.get? record f.key).map fun value => normalizeField uuid f (some value)

/-- The client and the effect of an entry. -/
def upsertOf (raw : Json) : Option (String × Upsert) :=
  match raw.obj? with
  | none => none
  | some record =>
    if recordUuid record = "" then none
    else if booleanField (Assoc.get? record "hidden") = true then
      some (recordUuid record, .hides (isTrue (Assoc.get? record "hidden")))
    else some (recordUuid record, .shows (carried (recordUuid record) record))

def entriesOf (delta : ClientDelta) : List (String × Upsert) := delta.upsert.filterMap upsertOf

/-- A patch over what is there. -/
def place : Option ClientInfo → ClientPatch → ClientInfo
  | none, patch => ⟨patch.uuid, fun f => (patch.field f).getD (normalizeField patch.uuid f none)⟩
  | some existing, patch => patch.onto existing

/-- The client of a `uuid` after an entry. -/
def act (uuid : String) (current : Option ClientInfo) (entry : String × Upsert) : Option ClientInfo :=
  if entry.1 = uuid then
    match entry.2 with
    | .hides _ => none
    | .shows patch => some (place current patch)
  else current

/-- The patches that show a `uuid`. -/
def showsOf (uuid : String) (entries : List (String × Upsert)) : List ClientPatch :=
  entries.filterMap fun entry =>
    if entry.1 = uuid then
      match entry.2 with
      | .hides _ => none
      | .shows patch => some patch
    else none

/-- The client of a record. -/
def clientOf (uuid : String) (record : Fields) : ClientInfo :=
  ⟨uuid, fun f => normalizeField uuid f (Assoc.get? record f.key)⟩

theorem normalizePublicClient_eq {raw : Json} {record : Fields} (hrecord : raw.obj? = some record) :
    normalizePublicClient raw =
      if recordUuid record = "" then none else some (clientOf (recordUuid record) record) := by
  rw [normalizePublicClient, hrecord]
  rfl

theorem clientOf_eq_place (uuid : String) (record : Fields) :
    clientOf uuid record = place none (carried uuid record) := by
  have hfield : ∀ f : ClientField, normalizeField uuid f (get? record f.key) =
      ((get? record f.key).map fun value => normalizeField uuid f (some value)).getD (normalizeField uuid f none) := by
    intro f
    cases get? record f.key <;> rfl
  exact congrArg (ClientInfo.mk uuid) (funext hfield)

theorem overwrite_eq_place (existing : ClientInfo) (uuid : String) (record : Fields) :
    overwrite existing (clientOf uuid record) record = place (some existing) (carried uuid record) := by
  have hfield : ∀ f : ClientField,
      (if (get? record f.key).isSome then normalizeField uuid f (get? record f.key) else existing.field f) =
        ((get? record f.key).map fun value => normalizeField uuid f (some value)).getD (existing.field f) := by
    intro f
    cases get? record f.key <;> rfl
  exact congrArg (ClientInfo.mk uuid) (funext hfield)

theorem hidden_clientOf (uuid : String) (record : Fields) :
    (clientOf uuid record).field .hidden = .bool (booleanField (get? record "hidden")) := rfl

theorem booleanField_bool (b : Bool) : booleanField (some (.bool b)) = b := rfl

theorem booleanField_of_isTrue {value : Option Json} (h : isTrue value = true) : booleanField value = true := by
  unfold isTrue at h
  split at h
  · rfl
  · cases h

/-- **An entry of the live list.** -/
theorem upsertClient_eq (byUuid : List (String × ClientInfo)) (raw : Json) : upsertClient false byUuid raw =
      match upsertOf raw with
      | none => byUuid
      | some (uuid, .hides _) => Assoc.erase byUuid uuid
      | some (uuid, .shows patch) => Assoc.set byUuid uuid (place (get? byUuid uuid) patch) := by
  rw [upsertClient, upsertOf]
  cases hrecord : raw.obj? with
  | none => rfl
  | some record =>
    simp only [normalizePublicClient_eq hrecord]
    by_cases huuid : recordUuid record = ""
    · simp only [huuid, if_true]
    · by_cases hhidden : booleanField (get? record "hidden") = true
      · simp only [huuid, hhidden, if_true, if_false, Bool.not_false, Bool.and_self]
      · have hshown : booleanField (get? record "hidden") = false := by simpa using hhidden
        simp only [huuid, hshown, if_false, Bool.and_false, Bool.false_eq_true, hidden_clientOf, booleanField_bool]
        cases get? byUuid (recordUuid record) with
        | none => simp only [clientOf_eq_place]
        | some existing => simp only [overwrite_eq_place]

/-- **An entry of the recorded parts.** -/
theorem recordUpsert_eq (parts : PatchParts) (raw : Json) : recordUpsert parts raw =
      match upsertOf raw with
      | none => parts
      | some (uuid, .hides plainly) => ⟨parts.upsert, if plainly then parts.remove.insert uuid else parts.remove⟩
      | some (uuid, .shows patch) =>
        if uuid ∈ parts.remove then parts else ⟨parts.upsert ++ [patch], parts.remove⟩ := by
  rw [recordUpsert, normalizePublicClientPatch, upsertOf]
  cases hrecord : raw.obj? with
  | none => rfl
  | some record =>
    simp only [normalizePublicClient_eq hrecord]
    by_cases huuid : recordUuid record = ""
    · simp [huuid]
    · have hpatch : (⟨(clientOf (recordUuid record) record).uuid, fun f =>
          if (get? record f.key).isSome then some ((clientOf (recordUuid record) record).field f) else none⟩ :
            ClientPatch) = carried (recordUuid record) record := by
        have hfield : ∀ f : ClientField,
            (if (get? record f.key).isSome then
              some (normalizeField (recordUuid record) f (get? record f.key)) else none) =
              (get? record f.key).map fun value => normalizeField (recordUuid record) f (some value) := by
          intro f
          cases get? record f.key <;> rfl
        exact congrArg (ClientPatch.mk (recordUuid record)) (funext hfield)
      have hhidden : isTrue ((carried (recordUuid record) record).field .hidden) =
          booleanField (get? record "hidden") := by
        show isTrue ((get? record "hidden").map fun value => Json.bool (booleanField (some value))) = _
        cases get? record "hidden" with
        | none => rfl
        | some value => cases hvalue : booleanField (some value) <;> simp [isTrue, hvalue]
      simp only [huuid, if_false, hpatch, hhidden]
      by_cases hhide : booleanField (get? record "hidden") = true
      · cases hplainly : isTrue (get? record "hidden") <;> simp [hhide, huuid]
      · have hnot : isTrue (get? record "hidden") = false := by
          rw [← Bool.not_eq_true]
          exact fun h => hhide (booleanField_of_isTrue h)
        by_cases hin : recordUuid record ∈ parts.remove
        · simp [hhide, hnot, hin, carried]
        · simp [hhide, hnot, hin, carried]

/-! ## Normal patches -/

/-- A patch whose values `normalizePublicClient` leaves as they are. -/
structure ClientPatch.Normal (patch : ClientPatch) : Prop where
  trimmed : trim patch.uuid = patch.uuid
  named : patch.uuid ≠ ""
  fields : ∀ f value, patch.field f = some value → normalizeField patch.uuid f (some value) = value

variable {uuid : String}

theorem normalize_idem (htrim : trim uuid = uuid) (kind : FieldKind) (value : Option Json) :
    kind.normalize uuid (some (kind.normalize uuid value)) = kind.normalize uuid value := by
  cases kind with
  | name =>
    have hread : ∀ s : String, stringField (some (.str s)) = s := fun _ => rfl
    rw [FieldKind.normalize, FieldKind.normalize, hread]
    by_cases hempty : trim (stringField value) = ""
    · rw [if_pos hempty, htrim, ite_self]
    · rw [if_neg hempty, trim_trim, if_neg hempty]
  | text => rfl
  | number => rfl
  | flag => rfl

theorem place_uuid (current : Option ClientInfo) (patch : ClientPatch) : (place current patch).uuid = patch.uuid := by
  cases current <;> rfl

theorem normal_of_shows {raw : Json} {patch : ClientPatch}
    (h : upsertOf raw = some (uuid, .shows patch)) : patch.uuid = uuid ∧ patch.Normal := by
  rw [upsertOf] at h
  cases hrecord : raw.obj? with
  | none => rw [hrecord] at h; cases h
  | some record =>
    simp only [hrecord] at h
    split_ifs at h with hempty hhidden
    · exact absurd (congrArg Prod.snd (Option.some.inj h)) (by simp)
    · obtain ⟨rfl, hshows⟩ := Prod.mk.inj (Option.some.inj h)
      obtain rfl := Upsert.shows.inj hshows
      have htrim : trim (recordUuid record) = recordUuid record := trim_trim _
      refine ⟨rfl, htrim, hempty, ?_⟩
      intro f value hvalue
      obtain ⟨source, -, rfl⟩ := Option.map_eq_some_iff.mp hvalue
      exact normalize_idem htrim f.kind (some source)

variable {previous : Option ClientPatch}

theorem ClientPatch.Normal.over {patch : ClientPatch} (h : patch.Normal)
    (hprevious : ∀ q, previous = some q → q.uuid = patch.uuid ∧ q.Normal) : (patch.over previous).Normal := by
  refine ⟨h.trimmed, h.named, ?_⟩
  intro f value hvalue
  rcases Option.or_eq_some_iff.mp hvalue with hown | ⟨-, hold⟩
  · exact h.fields f value hown
  · obtain ⟨q, hq, hfield⟩ := Option.bind_eq_some_iff.mp hold
    obtain ⟨huuid, hnormal⟩ := hprevious q hq
    have hvalue := hnormal.fields f value hfield
    rw [huuid] at hvalue
    exact hvalue

theorem ClientField.key_injective {f g : ClientField} (h : f.key = g.key) : f = g := by
  have hnodup : (ClientField.all.map ClientField.key).Nodup := by decide
  have hall : ∀ f : ClientField, f ∈ ClientField.all := by
    intro f
    cases f <;> decide
  exact List.inj_on_of_nodup_map hnodup (hall f) (hall g) h

/-- The record of a patch has the fields of the patch. -/
theorem get?_record (patch : ClientPatch) (f : ClientField) : get? patch.record f.key = patch.field f := by
  have hne : f.key ≠ "uuid" := by
    cases f <;> decide
  have hlist : ∀ fields : List ClientField, get?
      (fields.filterMap fun f => (patch.field f).map fun value => (f.key, value)) f.key =
        if f ∈ fields then patch.field f else none := by
    intro fields
    induction fields with
    | nil => rfl
    | cons g rest ih =>
      rw [List.filterMap_cons]
      by_cases heq : f = g
      · subst heq
        rw [if_pos List.mem_cons_self]
        cases hvalue : patch.field f with
        | none => rw [Option.map_none, ih, hvalue, ite_self]
        | some value => simp only [Option.map_some, get?, if_true]
      · have hmem : f ∈ g :: rest ↔ f ∈ rest := by simp [heq]
        simp only [hmem]
        cases hvalue : patch.field g with
        | none => exact ih
        | some value =>
          simp only [Option.map_some, get?]
          rw [if_neg fun hkey => heq (ClientField.key_injective hkey)]
          exact ih
  rw [ClientPatch.record, get?, if_neg hne, hlist, if_pos]
  cases f <;> decide

theorem normalizePublicClient_record {patch : ClientPatch} (h : patch.Normal) :
    normalizePublicClient (.obj patch.record) = some (place none patch) := by
  have huuid : recordUuid patch.record = patch.uuid := h.trimmed
  have hrecord : (Json.obj patch.record).obj? = some patch.record := rfl
  rw [normalizePublicClient_eq hrecord, huuid, if_neg h.named]
  have hfield : ∀ f, normalizeField patch.uuid f (get? patch.record f.key) =
      (patch.field f).getD (normalizeField patch.uuid f none) := by
    intro f
    rw [get?_record]
    cases hvalue : patch.field f with
    | none => rfl
    | some value => exact h.fields f value hvalue
  exact congrArg (fun field => some (ClientInfo.mk patch.uuid field)) (funext hfield)

/-! ## The live list -/

theorem keyed_upserts (raws : List Json) {byUuid : List (String × ClientInfo)} (h : Assoc.Keyed ClientInfo.uuid byUuid) :
    Assoc.Keyed ClientInfo.uuid (raws.foldl (upsertClient false) byUuid) := by
  induction raws generalizing byUuid with
  | nil => exact h
  | cons raw rest ih =>
    apply ih
    rw [upsertClient_eq]
    match hentry : upsertOf raw with
    | none => exact h
    | some (uuid, .hides _) => exact h.erase uuid
    | some (uuid, .shows patch) =>
      have huuid : (place (get? byUuid uuid) patch).uuid = uuid :=
        (place_uuid _ patch).trans (normal_of_shows hentry).1
      have hset := h.set (place (get? byUuid uuid) patch)
      rw [huuid] at hset
      exact hset

/-- A client of the live list depends on the entries of its `uuid`. -/
theorem get?_upserts (uuid : String) (raws : List Json) (byUuid : List (String × ClientInfo)) :
    get? (raws.foldl (upsertClient false) byUuid) uuid =
      (raws.filterMap upsertOf).foldl (act uuid) (get? byUuid uuid) := by
  induction raws generalizing byUuid with
  | nil => rfl
  | cons raw rest ih =>
    rw [foldl_cons, ih, upsertClient_eq]
    match hentry : upsertOf raw with
    | none => rw [List.filterMap_cons_none hentry]
    | some (other, .hides plainly) =>
      rw [filterMap_cons_some hentry, foldl_cons, act]
      simp only [Assoc.get?_erase, eq_comm]
    | some (other, .shows patch) =>
      rw [filterMap_cons_some hentry, foldl_cons, act]
      simp only [get?_set]
      by_cases heq : uuid = other
      · subst heq
        simp
      · simp [heq, Ne.symm heq]

variable {c : Collation}

theorem find_merge {current : List ClientInfo} (hcurrent : c.PublicList current) (delta : ClientDelta)
    (uuid : String) :
    c.PublicList (mergePublicClientPatch c false current (some delta)) ∧
      findClient (mergePublicClientPatch c false current (some delta)) uuid =
        (entriesOf delta).foldl (act uuid) (if uuid ∈ delta.remove then none else findClient current uuid) := by
  have hkeyed := keyed_upserts delta.upsert
    (keyed_clientMap (current.filter fun client => !delta.remove.contains client.uuid))
  refine ⟨c.publicList_sort hkeyed.nodup_values, ?_⟩
  rw [mergePublicClientPatch, c.find_sort hkeyed.nodup_values, findClient, hkeyed.find_values, get?_upserts,
    get?_filtered hcurrent.nodup]
  rfl

/-! ## Composition -/

/-- A client that the cached list has, from what is in the base and the composed patch. -/
def view (base : Option ClientInfo) : Option ClientPatch → Option ClientInfo
  | none => base
  | some patch => some (place base patch)

/-- Patches one by one. -/
def places (current : Option ClientInfo) (patches : List ClientPatch) : Option ClientInfo :=
  patches.foldl (fun current patch => some (place current patch)) current

/-- Their composition. -/
def composed (previous : Option ClientPatch) (patches : List ClientPatch) : Option ClientPatch :=
  patches.foldl (fun previous patch => some (patch.over previous)) previous

theorem place_over (base : Option ClientInfo) {patch : ClientPatch}
    (huuid : ∀ q, previous = some q → q.uuid = patch.uuid) :
    place (view base previous) patch = place base (patch.over previous) := by
  cases previous with
  | none =>
    have hover : patch.over none = patch := by
      have hfield : ∀ f, (patch.field f).or none = patch.field f := fun f => Option.or_none
      exact congrArg (ClientPatch.mk patch.uuid) (funext hfield)
    rw [hover, view]
  | some q =>
    have hq : q.uuid = patch.uuid := huuid q rfl
    cases base with
    | none =>
      have hfield : ∀ f, (patch.field f).getD ((q.field f).getD (normalizeField q.uuid f none)) =
          ((patch.field f).or (q.field f)).getD (normalizeField patch.uuid f none) := by
        intro f
        rw [hq]
        cases patch.field f <;> rfl
      exact congrArg (ClientInfo.mk patch.uuid) (funext hfield)
    | some existing =>
      have hfield : ∀ f, (patch.field f).getD ((q.field f).getD (existing.field f)) =
          ((patch.field f).or (q.field f)).getD (existing.field f) := by
        intro f
        cases patch.field f <;> rfl
      exact congrArg (ClientInfo.mk patch.uuid) (funext hfield)

/-- **Patches one by one** are placed as their composition. -/
theorem places_view (base : Option ClientInfo) (patches : List ClientPatch)
    (hprevious : ∀ q, previous = some q → q.uuid = uuid)
    (hpatches : ∀ p ∈ patches, p.uuid = uuid) :
    places (view base previous) patches = view base (composed previous patches) := by
  induction patches generalizing previous with
  | nil => rfl
  | cons patch rest ih =>
    have hpatch : patch.uuid = uuid := hpatches patch List.mem_cons_self
    have hstep : place (view base previous) patch = place base (patch.over previous) :=
      place_over base fun q hq => (hprevious q hq).trans hpatch.symm
    show places (some (place (view base previous) patch)) rest = _
    rw [hstep]
    have hover : ∀ q, some (patch.over previous) = some q → q.uuid = uuid := by
      intro q hq
      cases hq
      exact hpatch
    exact ih hover fun p hp => hpatches p (List.mem_cons_of_mem _ hp)

variable (patches : List ClientPatch)

theorem composed_field (previous : Option ClientPatch) (q : ClientPatch)
    (h : composed previous patches = some q) (f : ClientField) (hnone : q.field f = none) :
    (∀ p ∈ patches, p.field f = none) ∧ ∀ p, previous = some p → p.field f = none := by
  induction patches generalizing previous with
  | nil =>
    refine ⟨nofun, ?_⟩
    rintro p rfl
    cases h
    exact hnone
  | cons patch rest ih =>
    obtain ⟨hrest, hhead⟩ := ih (some (patch.over previous)) h
    have hboth : (patch.field f).or (previous.bind fun e => e.field f) = none := hhead _ rfl
    rw [Option.or_eq_none_iff] at hboth
    constructor
    · intro p hp
      rcases mem_cons.mp hp with rfl | hin
      · exact hboth.1
      · exact hrest p hin
    · rintro p rfl
      exact hboth.2

variable {q : ClientPatch}

theorem composed_ind {P : ClientPatch → Prop} (hprevious : ∀ q, previous = some q → P q)
    (hover : ∀ p ∈ patches, ∀ previous, (∀ q, previous = some q → P q) → P (p.over previous))
    (h : composed previous patches = some q) : P q := by
  induction patches generalizing previous with
  | nil => exact hprevious q h
  | cons patch rest ih =>
    have hfirst : ∀ q, some (patch.over previous) = some q → P q := by
      intro q hq
      cases hq
      exact hover patch List.mem_cons_self previous hprevious
    exact ih hfirst (fun p hp => hover p (List.mem_cons_of_mem _ hp)) h

theorem composed_uuid (hprevious : ∀ q, previous = some q → q.uuid = uuid) (hpatches : ∀ p ∈ patches, p.uuid = uuid)
    (h : composed previous patches = some q) : q.uuid = uuid :=
  composed_ind patches hprevious (fun p hp _ _ => hpatches p hp) h

theorem composed_normal (hprevious : ∀ q, previous = some q → q.uuid = uuid ∧ q.Normal) (hpatches : ∀ p ∈ patches, p.uuid = uuid ∧ p.Normal)
    (h : composed previous patches = some q) : q.uuid = uuid ∧ q.Normal := by
  refine composed_ind patches hprevious ?_ h
  intro p hp previous hold
  obtain ⟨huuid, hnormal⟩ := hpatches p hp
  exact ⟨huuid, hnormal.over fun q hq => huuid.symm ▸ hold q hq⟩

theorem composed_ne_none (q : ClientPatch) : composed (some q) patches ≠ none := by
  induction patches generalizing q with
  | nil => exact Option.some_ne_none q
  | cons patch rest ih => exact ih _

/-! ## The recorded parts -/

/-- The patches of a list that are about a `uuid`. -/
def patchesOf (uuid : String) (patches : List ClientPatch) : List ClientPatch :=
  patches.filter fun patch => decide (patch.uuid = uuid)

/-- A set that elements were added to. -/
theorem mem_inserts {ids set : List String} :
    uuid ∈ ids.foldl (fun set id => set.insert id) set ↔ uuid ∈ set ∨ uuid ∈ ids := by
  induction ids generalizing set with
  | nil => simp
  | cons id rest ih =>
    rw [foldl_cons, ih, List.mem_insert_iff, mem_cons]
    tauto

/-- The change takes the client out: by its list, or by an entry with `hidden: true`. -/
def Removes (delta : ClientDelta) (uuid : String) : Prop :=
  uuid ∈ delta.remove ∨ (uuid, Upsert.hides true) ∈ entriesOf delta

theorem mem_recorded_remove (uuid : String) (raws : List Json) (parts : PatchParts) :
    uuid ∈ (raws.foldl recordUpsert parts).remove ↔
      uuid ∈ parts.remove ∨ (uuid, Upsert.hides true) ∈ raws.filterMap upsertOf := by
  induction raws generalizing parts with
  | nil => simp
  | cons raw rest ih =>
    rw [foldl_cons, ih, recordUpsert_eq]
    match hentry : upsertOf raw with
    | none => rw [List.filterMap_cons_none hentry]
    | some (other, .hides true) =>
      rw [filterMap_cons_some hentry, mem_cons]
      simp only [if_true, List.mem_insert_iff, Prod.mk.injEq, and_true]
      tauto
    | some (other, .hides false) =>
      rw [filterMap_cons_some hentry, mem_cons]
      simp
    | some (other, .shows patch) =>
      rw [filterMap_cons_some hentry, mem_cons]
      by_cases hin : other ∈ parts.remove
      · simp [hin]
      · simp [hin]

theorem recorded_upsert (raws : List Json) (parts : PatchParts)
    (hkeeps : uuid ∉ (raws.foldl recordUpsert parts).remove) :
    patchesOf uuid (raws.foldl recordUpsert parts).upsert =
      patchesOf uuid parts.upsert ++ showsOf uuid (raws.filterMap upsertOf) := by
  induction raws generalizing parts with
  | nil => simp [showsOf]
  | cons raw rest ih =>
    have hnow : uuid ∉ parts.remove := fun h => hkeeps ((mem_recorded_remove uuid _ parts).mpr (.inl h))
    rw [foldl_cons] at hkeeps ⊢
    rw [ih _ hkeeps, recordUpsert_eq]
    match hentry : upsertOf raw with
    | none => rw [List.filterMap_cons_none hentry]
    | some (other, .hides plainly) =>
      rw [filterMap_cons_some hentry, showsOf, showsOf, List.filterMap_cons]
      simp
    | some (other, .shows patch) =>
      have huuid : patch.uuid = other := (normal_of_shows hentry).1
      rw [filterMap_cons_some hentry, showsOf, showsOf, List.filterMap_cons]
      by_cases heq : other = uuid
      · subst heq
        simp [hnow, patchesOf, huuid]
      · have hskip : patchesOf uuid [patch] = [] := by simp [patchesOf, huuid, heq]
        rw [patchesOf] at hskip
        by_cases hin : other ∈ parts.remove
        · simp [hin, heq]
        · simp [hin, heq, patchesOf, hskip]

theorem recorded_upsert_nil (raws : List Json) (parts : PatchParts)
    (hnone : showsOf uuid (raws.filterMap upsertOf) = []) :
    patchesOf uuid (raws.foldl recordUpsert parts).upsert = patchesOf uuid parts.upsert := by
  induction raws generalizing parts with
  | nil => rfl
  | cons raw rest ih =>
    rw [foldl_cons, recordUpsert_eq]
    match hentry : upsertOf raw with
    | none =>
      rw [List.filterMap_cons_none hentry] at hnone
      exact ih parts hnone
    | some (other, .hides plainly) =>
      rw [filterMap_cons_some hentry, showsOf, List.filterMap_cons] at hnone
      rw [ih _ (by simpa [showsOf] using hnone)]
    | some (other, .shows patch) =>
      have huuid : patch.uuid = other := (normal_of_shows hentry).1
      rw [filterMap_cons_some hentry, showsOf, List.filterMap_cons] at hnone
      by_cases heq : other = uuid
      · simp [heq] at hnone
      · have hrest : showsOf uuid (rest.filterMap upsertOf) = [] := by simpa [showsOf, heq] using hnone
        rw [ih _ hrest]
        by_cases hin : other ∈ parts.remove
        · simp [hin]
        · simp [hin, patchesOf, huuid, heq]

theorem recorded_normal (raws : List Json) (parts : PatchParts) (h : ∀ p ∈ parts.upsert, p.Normal) :
    ∀ p ∈ (raws.foldl recordUpsert parts).upsert, p.Normal := by
  induction raws generalizing parts with
  | nil => exact h
  | cons raw rest ih =>
    apply ih
    rw [recordUpsert_eq]
    match hentry : upsertOf raw with
    | none => exact h
    | some (other, .hides plainly) => exact h
    | some (other, .shows patch) =>
      show ∀ p ∈ (if other ∈ parts.remove then parts else _).upsert, p.Normal
      split_ifs
      · exact h
      · intro p hp
        rcases List.mem_append.mp hp with hold | hnew
        · exact h p hold
        · rw [List.mem_singleton.mp hnew]
          exact (normal_of_shows hentry).2

/-! ## The stored patch -/

/-- The removed clients of a stored patch; none when there is none. -/
def removedOf (stored : Option StoredPatch) : List String := (stored.map StoredPatch.remove).getD []

/-- The composed patch of a client. -/
def patchOf (stored : Option StoredPatch) (uuid : String) : Option ClientPatch :=
  Assoc.findBy ClientPatch.uuid ((stored.map StoredPatch.upsert).getD []) uuid

/-- A stored patch as the cache writes it. -/
structure Recorded (stored : Option StoredPatch) : Prop where
  nodup : (((stored.map StoredPatch.upsert).getD []).map ClientPatch.uuid).Nodup
  normal : ∀ p ∈ (stored.map StoredPatch.upsert).getD [], p.Normal
  apart : ∀ uuid ∈ removedOf stored, patchOf stored uuid = none

/-- One turn of the second loop of `mergeClientPatch`. -/
def mergeUpsert (acc : List String × List (String × ClientPatch)) (client : ClientPatch) :
    List String × List (String × ClientPatch) :=
  (acc.1.filter (fun uuid => decide (uuid ≠ client.uuid)),
    Assoc.set acc.2 client.uuid (client.over (Assoc.get? acc.2 client.uuid)))

/-- What the second loop does to a client. -/
theorem mergeUpserts_spec (uuid : String) (patches : List ClientPatch) (removed : List String)
    (map : List (String × ClientPatch)) :
    (uuid ∈ (patches.foldl mergeUpsert (removed, map)).1 ↔ uuid ∈ removed ∧ patchesOf uuid patches = []) ∧
      get? (patches.foldl mergeUpsert (removed, map)).2 uuid =
        composed (get? map uuid) (patchesOf uuid patches) := by
  induction patches generalizing removed map with
  | nil => simp [patchesOf, composed]
  | cons patch rest ih =>
    obtain ⟨hremoved, hmap⟩ := ih (removed.filter fun uuid => decide (uuid ≠ patch.uuid))
      (Assoc.set map patch.uuid (patch.over (get? map patch.uuid)))
    constructor
    · rw [foldl_cons, mergeUpsert, hremoved, List.mem_filter, patchesOf, patchesOf]
      by_cases heq : patch.uuid = uuid
      · simp [heq]
      · simp [heq, Ne.symm heq]
    · rw [foldl_cons, mergeUpsert, hmap, get?_set, patchesOf, patchesOf]
      by_cases heq : patch.uuid = uuid
      · subst heq
        rw [if_pos rfl, List.filter_cons_of_pos (by simp)]
        rfl
      · rw [if_neg (Ne.symm heq), List.filter_cons_of_neg (by simpa using heq)]

variable {map : List (String × ClientPatch)}

theorem keyed_mergeUpserts (removed : List String) (h : Assoc.Keyed ClientPatch.uuid map) :
    Assoc.Keyed ClientPatch.uuid (patches.foldl mergeUpsert (removed, map)).2 := by
  induction patches generalizing removed map with
  | nil => exact h
  | cons patch rest ih => exact ih _ (h.set (patch.over (get? map patch.uuid)))

theorem keyed_erases (ids : List String) (h : Assoc.Keyed ClientPatch.uuid map) :
    Assoc.Keyed ClientPatch.uuid (ids.foldl (fun map uuid => Assoc.erase map uuid) map) := by
  induction ids generalizing map with
  | nil => exact h
  | cons id rest ih => exact ih (h.erase id)

theorem get?_erases (ids : List String) (map : List (String × ClientPatch)) (uuid : String) :
    get? (ids.foldl (fun map uuid => Assoc.erase map uuid) map) uuid =
      if uuid ∈ ids then none else get? map uuid := by
  induction ids generalizing map with
  | nil => rfl
  | cons id rest ih =>
    rw [foldl_cons, ih, Assoc.get?_erase]
    by_cases heq : uuid = id
    · simp [heq]
    · simp [heq]

/-- **The stored patch after a change**, for one client. -/
theorem mergeClientPatch_spec {previous : Option StoredPatch} (h : Recorded previous) (next : PatchParts) (now : Int)
    (uuid : String) :
    (uuid ∈ removedOf (some (mergeClientPatch previous next now)) ↔
      (uuid ∈ removedOf previous ∨ uuid ∈ next.remove) ∧ patchesOf uuid next.upsert = []) ∧
      patchOf (some (mergeClientPatch previous next now)) uuid =
        composed (if uuid ∈ next.remove then none else patchOf previous uuid) (patchesOf uuid next.upsert) := by
  let map := Assoc.index ClientPatch.uuid ((previous.map StoredPatch.upsert).getD [])
  let kept := next.remove.foldl (fun map uuid => Assoc.erase map uuid) map
  let removed := next.remove.foldl (fun set uuid => set.insert uuid) (removedOf previous)
  have hkeyed : Assoc.Keyed ClientPatch.uuid kept := keyed_erases _ (Assoc.keyed_index _)
  obtain ⟨hremoved, hmap⟩ := mergeUpserts_spec uuid next.upsert removed kept
  constructor
  · show uuid ∈ (next.upsert.foldl mergeUpsert (removed, kept)).1 ↔ _
    rw [hremoved]
    exact and_congr_left fun _ => mem_inserts
  · show Assoc.findBy ClientPatch.uuid ((next.upsert.foldl mergeUpsert (removed, kept)).2.map Prod.snd) uuid = _
    rw [(keyed_mergeUpserts next.upsert removed hkeyed).find_values, hmap]
    show composed (get? (next.remove.foldl _ map) uuid) _ = _
    rw [get?_erases, Assoc.get?_index h.nodup]
    rfl

variable {p : ClientPatch}

theorem mem_patchesOf {patches : List ClientPatch} :
    p ∈ patchesOf uuid patches ↔ p ∈ patches ∧ p.uuid = uuid := by
  rw [patchesOf, List.mem_filter, decide_eq_true_eq]

variable {stored : Option StoredPatch}

theorem Recorded.patch_normal (h : Recorded stored)
    (hq : patchOf stored uuid = some q) : q.uuid = uuid ∧ q.Normal := by
  obtain ⟨hmem, huuid⟩ := (Assoc.findBy_eq_some h.nodup).mp hq
  exact ⟨huuid, h.normal q hmem⟩

theorem Recorded.merge {previous : Option StoredPatch} (h : Recorded previous) {next : PatchParts}
    (hnext : ∀ p ∈ next.upsert, p.Normal) (now : Int) : Recorded (some (mergeClientPatch previous next now)) := by
  have hnodup : ((mergeClientPatch previous next now).upsert.map ClientPatch.uuid).Nodup :=
    (keyed_mergeUpserts next.upsert _ (keyed_erases _ (Assoc.keyed_index _))).nodup_values
  refine ⟨hnodup, ?_, ?_⟩
  · intro p hp
    have hfound : patchOf (some (mergeClientPatch previous next now)) p.uuid = some p :=
      (Assoc.findBy_eq_some hnodup).mpr ⟨hp, rfl⟩
    rw [(mergeClientPatch_spec h next now p.uuid).2] at hfound
    have hold : ∀ q, (if p.uuid ∈ next.remove then none else patchOf previous p.uuid) = some q →
        q.uuid = p.uuid ∧ q.Normal := by
      intro q hq
      split_ifs at hq
      exact h.patch_normal hq
    have hnew : ∀ q ∈ patchesOf p.uuid next.upsert, q.uuid = p.uuid ∧ q.Normal := by
      intro q hq
      obtain ⟨hmem, huuid⟩ := mem_patchesOf.mp hq
      exact ⟨huuid, hnext q hmem⟩
    exact (composed_normal _ hold hnew hfound).2
  · intro uuid hremoved
    obtain ⟨hold, hnone⟩ := (mergeClientPatch_spec h next now uuid).1.mp hremoved
    rw [(mergeClientPatch_spec h next now uuid).2, hnone]
    show (if uuid ∈ next.remove then none else patchOf previous uuid) = none
    split_ifs with hin
    · rfl
    · exact h.apart uuid (hold.resolve_right hin)

theorem recorded_none : Recorded none :=
  ⟨List.nodup_nil, nofun, nofun⟩

theorem showsOf_uuid {raws : List Json}
    (hp : p ∈ showsOf uuid (raws.filterMap upsertOf)) : p.uuid = uuid := by
  obtain ⟨⟨other, effect⟩, hentry, hshow⟩ := List.mem_filterMap.mp hp
  obtain ⟨raw, -, hraw⟩ := List.mem_filterMap.mp hentry
  by_cases heq : other = uuid
  · subst heq
    cases effect with
    | hides plainly => simp at hshow
    | shows patch =>
      simp only [if_true] at hshow
      cases hshow
      exact (normal_of_shows hraw).1
  · simp [heq] at hshow

/-- **What a change leaves in the store.**  A client that it removes and does not show is removed; to the others
    their patches are added, and one that is shown is no longer removed. -/
theorem patchCached_spec (h : Recorded stored) (delta : ClientDelta) (now : Int)
    (hread : readClientPatch stored now = stored) :
    Recorded (patchCachedPublicBootstrapClients stored (some delta) now) ∧ ∀ uuid,
      (Removes delta uuid → showsOf uuid (entriesOf delta) = [] →
        uuid ∈ removedOf (patchCachedPublicBootstrapClients stored (some delta) now) ∧
          patchOf (patchCachedPublicBootstrapClients stored (some delta) now) uuid = none) ∧
      (¬ Removes delta uuid → (uuid ∈ removedOf (patchCachedPublicBootstrapClients stored (some delta) now) ↔
          uuid ∈ removedOf stored ∧ showsOf uuid (entriesOf delta) = []) ∧
        patchOf (patchCachedPublicBootstrapClients stored (some delta) now) uuid =
          composed (patchOf stored uuid) (showsOf uuid (entriesOf delta))) := by
  let first : PatchParts := ⟨[], delta.remove.foldl (fun set uuid => set.insert uuid) []⟩
  let parts := delta.upsert.foldl recordUpsert first
  have hfirst : ∀ uuid, uuid ∈ first.remove ↔ uuid ∈ delta.remove := by
    intro uuid
    rw [mem_inserts]
    simp
  have hremove : ∀ uuid, uuid ∈ parts.remove ↔ Removes delta uuid := by
    intro uuid
    rw [mem_recorded_remove, hfirst, Removes, entriesOf]
  have hupsert : ∀ uuid, ¬ Removes delta uuid → patchesOf uuid parts.upsert = showsOf uuid (entriesOf delta) := by
    intro uuid hkeeps
    exact recorded_upsert delta.upsert first fun hin => hkeeps ((hremove uuid).mp hin)
  have hnil : ∀ uuid, showsOf uuid (entriesOf delta) = [] → patchesOf uuid parts.upsert = [] := by
    intro uuid hnone
    exact recorded_upsert_nil delta.upsert first hnone
  have hnormal : ∀ p ∈ parts.upsert, p.Normal :=
    recorded_normal delta.upsert first nofun
  have hparts : clientPatchFromDetail (some delta) =
      if parts.upsert = [] ∧ parts.remove = [] then none else some parts := rfl
  by_cases hempty : parts.upsert = [] ∧ parts.remove = []
  · -- nothing is recorded
    have hsame : patchCachedPublicBootstrapClients stored (some delta) now = stored := by
      rw [patchCachedPublicBootstrapClients, hparts, if_pos hempty]
    rw [hsame]
    have hkeeps : ∀ uuid, ¬ Removes delta uuid := by
      intro uuid hin
      have hmem := (hremove uuid).mpr hin
      rw [hempty.2] at hmem
      cases hmem
    refine ⟨h, fun uuid => ⟨fun hin => absurd hin (hkeeps uuid), fun _ => ?_⟩⟩
    have hnone : showsOf uuid (entriesOf delta) = [] := by
      rw [← hupsert uuid (hkeeps uuid), hempty.1]
      rfl
    rw [hnone]
    exact ⟨⟨fun hin => ⟨hin, rfl⟩, And.left⟩, rfl⟩
  · have hsame : patchCachedPublicBootstrapClients stored (some delta) now =
        some (mergeClientPatch stored parts now) := by
      rw [patchCachedPublicBootstrapClients, hparts, if_neg hempty]
      show some (mergeClientPatch (readClientPatch stored now) parts now) = _
      rw [hread]
    rw [hsame]
    refine ⟨h.merge hnormal now, fun uuid => ⟨?_, ?_⟩⟩
    · intro hin hnone
      obtain ⟨hremoved, hpatch⟩ := mergeClientPatch_spec h parts now uuid
      have hpart := (hremove uuid).mpr hin
      rw [hnil uuid hnone] at hremoved hpatch
      rw [if_pos hpart] at hpatch
      exact ⟨hremoved.mpr ⟨.inr hpart, rfl⟩, hpatch⟩
    · intro hkeeps
      obtain ⟨hremoved, hpatch⟩ := mergeClientPatch_spec h parts now uuid
      have hpart : uuid ∉ parts.remove := fun hin => hkeeps ((hremove uuid).mp hin)
      rw [hupsert uuid hkeeps] at hremoved hpatch
      rw [if_neg hpart] at hpatch
      refine ⟨hremoved.trans ?_, hpatch⟩
      rw [or_iff_left hpart]

/-! ## The cached list -/

theorem keyed_places (hnormal : ∀ p ∈ patches, p.Normal)
    {byUuid : List (String × ClientInfo)} (h : Assoc.Keyed ClientInfo.uuid byUuid) (uuid : String) :
    Assoc.Keyed ClientInfo.uuid (patches.foldl placePatch byUuid) ∧
      get? (patches.foldl placePatch byUuid) uuid = places (get? byUuid uuid) (patchesOf uuid patches) := by
  induction patches generalizing byUuid with
  | nil => exact ⟨h, rfl⟩
  | cons patch rest ih =>
    have hplace : placePatch byUuid patch =
        Assoc.set byUuid patch.uuid (place (get? byUuid patch.uuid) patch) := by
      rw [placePatch, normalizePublicClient_record (hnormal patch List.mem_cons_self)]
      cases get? byUuid patch.uuid <;> rfl
    have hset := h.set (place (get? byUuid patch.uuid) patch)
    rw [place_uuid, ← hplace] at hset
    obtain ⟨hkeyed, hget⟩ := ih (fun p hp => hnormal p (List.mem_cons_of_mem _ hp)) hset
    refine ⟨hkeyed, ?_⟩
    rw [foldl_cons, hget, hplace, get?_set, patchesOf, patchesOf]
    by_cases heq : patch.uuid = uuid
    · subst heq
      rw [if_pos rfl, List.filter_cons_of_pos (by simp)]
      rfl
    · rw [if_neg (Ne.symm heq), List.filter_cons_of_neg (by simpa using heq)]

/-- A client of the cached list. -/
def viewOf (base : List ClientInfo) (stored : Option StoredPatch) (uuid : String) : Option ClientInfo :=
  view (if uuid ∈ removedOf stored then none else findClient base uuid) (patchOf stored uuid)

theorem find_apply {base : List ClientInfo} (hbase : c.PublicList base)
    (h : Recorded stored) (uuid : String) :
    c.PublicList (applyClientPatch c base stored) ∧
      findClient (applyClientPatch c base stored) uuid = viewOf base stored uuid := by
  cases stored with
  | none => exact ⟨hbase, rfl⟩
  | some patch =>
    obtain ⟨hkeyed, hget⟩ := keyed_places patch.upsert h.normal
      (keyed_clientMap (base.filter fun client => !patch.remove.contains client.uuid)) uuid
    refine ⟨c.publicList_sort hkeyed.nodup_values, ?_⟩
    have hpatches : patchesOf uuid patch.upsert = (patchOf (some patch) uuid).toList :=
      Assoc.filter_eq_findBy h.nodup uuid
    rw [applyClientPatch, c.find_sort hkeyed.nodup_values, findClient, hkeyed.find_values, hget,
      get?_filtered hbase.nodup, hpatches]
    show places (if uuid ∈ patch.remove then none else findClient base uuid) (patchOf (some patch) uuid).toList =
      view (if uuid ∈ patch.remove then none else findClient base uuid) (patchOf (some patch) uuid)
    cases patchOf (some patch) uuid <;> rfl

end CfMonitor.Frontend
