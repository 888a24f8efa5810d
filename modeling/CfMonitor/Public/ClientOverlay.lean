/-
  The client lists that the Worker serves (`toPublicClient` in `public-client.ts`,
  `applyPublicClientsOverlay` in `public.ts`, `applyAdminClientsSnapshot` in `admin.ts`).

  Both lists take the rows of the database, and write the entries of the management snapshot over
  them.  The public list projects rows and entries first; the administrator's list is projected
  nowhere.

  1. **Program** — the projection and the two overlays.

  2. **Relation** (`Serves`) — a public row is the projection of an administrator's row.

  3. **Results** (`public_list_agrees`) — row by row, the public list is the projection of the
     administrator's list.
-/
import CfMonitor.Lib.AssocRel
import CfMonitor.Live.ViewerMessages

namespace CfMonitor.Public

open CfMonitor.Lib CfMonitor.Live
open Assoc (get? get?_merge get?_set)

/-! ## The projection -/

/-- What the lists use from elsewhere: the test for public addresses, and `Date.parse(value)` where it
    is a number. -/
structure ListRules where
  isPublicIpAddress : String → Bool
  dateParse : Json → Option Int

def pickFields (source : Fields) (keys : List String) : Fields :=
  keys.filterMap fun key => (Assoc.get? source key).map fun value => (key, value)

section Program

variable (rules : ListRules)

/-- `typeof address === 'string' && isPublicIpAddress(address)`. -/
def publicAddress (client : Fields) (field : String) : Bool :=
  match Assoc.get? client field with
  | some (.str address) => rules.isPublicIpAddress address
  | _ => false

/-- The projection; the uuid of a row is not among its fields. -/
def toPublicClient (client : ClientRow) : ClientRow where
  uuid := client.uuid
  fields :=
    let publicClient := pickFields client.fields (PUBLIC_CLIENT_FIELDS.erase "uuid")
    Assoc.set
      (Assoc.set (Assoc.set publicClient "has_ipv4" (.bool (publicAddress rules client.fields "ipv4")))
        "has_ipv6" (.bool (publicAddress rules client.fields "ipv6")))
      "tags" (.str (sanitizePublicTags (Assoc.get? publicClient "tags")))

/-! ## The overlays -/

/-- `Date.parse(client.updated_at || '')`. -/
def updatedAtMs (client : ClientRow) : Option Int :=
  if Json.truthy (Assoc.get? client.fields "updated_at") then
    (Assoc.get? client.fields "updated_at").bind rules.dateParse
  else none

/-- `{ ...existing, ...client }`. -/
def spread (existing : Option ClientRow) (client : ClientRow) : ClientRow :=
  ⟨client.uuid, Assoc.merge ((existing.map ClientRow.fields).getD []) client.fields⟩

/-- `client.hidden`. -/
def isHidden (client : ClientRow) : Bool := Json.truthy (Assoc.get? client.fields "hidden")

/-- `new Map(clients.map(client => [client.uuid, client]))`. -/
def mapOf (clients : List ClientRow) : List (String × ClientRow) :=
  Assoc.merge [] (clients.map fun client => (client.uuid, client))

/-- The database row is newer than the entry of the snapshot, or the entry has no time. -/
def keepsExisting (existing client : ClientRow) : Bool :=
  match updatedAtMs rules existing, updatedAtMs rules client with
  | none, _ => false
  | some _, none => true
  | some existingUpdatedAt, some overlayUpdatedAt => decide (overlayUpdatedAt < existingUpdatedAt)

/-- One entry of the snapshot, over the public rows. -/
def overlayPublic (removed : List String) (byUuid : List (String × ClientRow)) (raw : ClientRow) :
    List (String × ClientRow) :=
  let client := toPublicClient rules raw
  if client.uuid = "" ∨ client.uuid ∈ removed then byUuid
  else match Assoc.get? byUuid client.uuid with
    | none => byUuid
    | some existing =>
      if keepsExisting rules existing client then byUuid
      else Assoc.set byUuid client.uuid (spread (some existing) client)

def applyPublicClientsOverlay (clients : List ClientRow) (overlay : Option AdminClientsSnapshot)
    (includeHidden : Bool) : List ClientRow :=
  match overlay with
  | none => clients.filter fun client => includeHidden || !isHidden client
  | some overlay =>
    let byUuid := mapOf (clients.filter fun client => !decide (client.uuid ∈ overlay.removed))
    ((overlay.clients.foldl (overlayPublic rules overlay.removed) byUuid).map Prod.snd).filter fun client =>
      includeHidden || !isHidden client

/-- The snapshot has a node that the one before the database read had not, and is newer. -/
def supplements (snapshot : AdminClientsSnapshot) (beforeRead : Option (Option AdminClientsSnapshot))
    (client : ClientRow) : Bool :=
  match beforeRead with
  | none => false
  | some before =>
    decide ((before.map AdminClientsSnapshot.updatedAt).getD 0 < snapshot.updatedAt) &&
      !((before.map AdminClientsSnapshot.clients).getD []).any fun previous => previous.uuid == client.uuid

/-- `Date.parse(client.updated_at || '') || 0`. -/
def updatedAtOrZero (client : ClientRow) : Int := (updatedAtMs rules client).getD 0

/-- One entry of the snapshot, over the rows. -/
def overlayAdmin (snapshot : AdminClientsSnapshot) (beforeRead : Option (Option AdminClientsSnapshot))
    (byUuid : List (String × ClientRow)) (client : ClientRow) : List (String × ClientRow) :=
  let existing := Assoc.get? byUuid client.uuid
  if existing.isNone ∧ ¬ supplements snapshot beforeRead client then byUuid
  else if ∃ row ∈ existing, updatedAtOrZero rules client < updatedAtOrZero rules row then byUuid
  else if client.uuid ∈ snapshot.removed then byUuid
  else Assoc.set byUuid client.uuid (spread existing client)

def applyAdminClientsSnapshot (clients : List ClientRow) (snapshot : Option AdminClientsSnapshot)
    (beforeRead : Option (Option AdminClientsSnapshot)) : List ClientRow :=
  match snapshot with
  | none => clients
  | some snapshot =>
    let byUuid := snapshot.removed.foldl Assoc.erase (mapOf clients)
    (snapshot.clients.foldl (overlayAdmin rules snapshot beforeRead) byUuid).map Prod.snd

end Program

/-! ## Rows -/

section Rows

variable {rules : ListRules}

theorem get?_pickFields (source : Fields) (keys : List String) (key : String) :
    get? (pickFields source keys) key = if key ∈ keys then get? source key else none := by
  induction keys with
  | nil => rfl
  | cons first rest ih =>
    rw [pickFields] at ih ⊢
    rw [List.filterMap_cons]
    cases hvalue : get? source first with
    | none =>
      rw [Option.map_none]
      dsimp only
      rw [ih]
      by_cases hfirst : key = first
      · subst hfirst
        rw [hvalue]
        simp
      · simp [hfirst]
    | some value =>
      rw [Option.map_some]
      dsimp only
      rw [get?, ih]
      by_cases hfirst : key = first
      · subst hfirst
        rw [if_pos rfl, if_pos List.mem_cons_self, hvalue]
      · simp [hfirst]

theorem get?_toPublicClient (client : ClientRow) (key : String) :
    get? (toPublicClient rules client).fields key =
      if key = "tags" then some (.str (sanitizePublicTags (get? client.fields "tags")))
      else if key = "has_ipv6" then some (.bool (publicAddress rules client.fields "ipv6"))
      else if key = "has_ipv4" then some (.bool (publicAddress rules client.fields "ipv4"))
      else if key ∈ PUBLIC_CLIENT_FIELDS.erase "uuid" then get? client.fields key
      else none := by
  have htags : get? (pickFields client.fields (PUBLIC_CLIENT_FIELDS.erase "uuid")) "tags"
      = get? client.fields "tags" := by
    rw [get?_pickFields, if_pos (by decide)]
  rw [toPublicClient]
  dsimp only
  rw [htags, get?_set, get?_set, get?_set, get?_pickFields]

/-- A public field that is not computed. -/
theorem get?_toPublicClient_plain (client : ClientRow) {key : String}
    (hkey : key ∈ PUBLIC_CLIENT_FIELDS.erase "uuid") (hplain : key ≠ "tags") :
    get? (toPublicClient rules client).fields key = get? client.fields key := by
  have hflags : key ≠ "has_ipv6" ∧ key ≠ "has_ipv4" := by
    constructor
    · rintro rfl
      exact absurd hkey (by decide)
    · rintro rfl
      exact absurd hkey (by decide)
  rw [get?_toPublicClient, if_neg hplain, if_neg hflags.1, if_neg hflags.2, if_pos hkey]

/-- The same row. -/
def SameRow (a b : ClientRow) : Prop :=
  a.uuid = b.uuid ∧ ∀ key, Assoc.get? a.fields key = Assoc.get? b.fields key

/-- A public row serves an administrator's row: it is its projection. -/
def Serves (rules : ListRules) (served row : ClientRow) : Prop :=
  SameRow served (toPublicClient rules row)

variable {row : ClientRow}

theorem Serves.plain {served : ClientRow} (h : Serves rules served row) {key : String}
    (hkey : key ∈ PUBLIC_CLIENT_FIELDS.erase "uuid") (hplain : key ≠ "tags") :
    get? served.fields key = get? row.fields key :=
  (h.2 key).trans (get?_toPublicClient_plain row hkey hplain)

theorem Serves.updatedAtMs {served : ClientRow} (h : Serves rules served row) :
    updatedAtMs rules served = updatedAtMs rules row := by
  rw [Public.updatedAtMs, Public.updatedAtMs, h.plain (by decide) (by decide)]

theorem Serves.isHidden {served : ClientRow} (h : Serves rules served row) :
    isHidden served = isHidden row := by
  rw [Public.isHidden, Public.isHidden, h.plain (by decide) (by decide)]

theorem serves_toPublicClient (row : ClientRow) : Serves rules (toPublicClient rules row) row :=
  ⟨rfl, fun _ => rfl⟩

/-! ## Entries -/

/-- An entry of the snapshot: a node with a name of its own, each field once, both addresses and tags. -/
structure Entry (client : ClientRow) : Prop where
  named : client.uuid ≠ ""
  distinct : (Assoc.keys client.fields).Nodup
  ipv4 : (Assoc.get? client.fields "ipv4").isSome
  ipv6 : (Assoc.get? client.fields "ipv6").isSome
  tags : (Assoc.get? client.fields "tags").isSome

/-- The time of a row is missing or after 1970. -/
def Dated (rules : ListRules) (client : ClientRow) : Prop :=
  ∀ ms, updatedAtMs rules client = some ms → 0 < ms

theorem keys_toPublicClient_nodup (client : ClientRow) :
    (Assoc.keys (toPublicClient rules client).fields).Nodup := by
  have hpicked : ∀ keys : List String, keys.Nodup → (Assoc.keys (pickFields client.fields keys)).Nodup := by
    intro keys hkeys
    have hsame : Assoc.keys (pickFields client.fields keys)
        = keys.filter fun key => (get? client.fields key).isSome := by
      rw [Assoc.keys, pickFields, List.map_filterMap, ← List.filterMap_eq_filter]
      refine List.filterMap_congr fun key _ => ?_
      cases hvalue : get? client.fields key <;> simp [Option.guard, hvalue]
    rw [hsame]
    exact hkeys.filter _
  rw [toPublicClient]
  apply Assoc.keys_set_nodup
  apply Assoc.keys_set_nodup
  apply Assoc.keys_set_nodup
  exact hpicked _ (by decide)

/-- **Merging and projecting commute.** -/
theorem Serves.spread {served client : ClientRow} (h : Serves rules served row) (hentry : Entry client) :
    Serves rules (spread (some served) (toPublicClient rules client)) (spread (some row) client) := by
  have hserved : ∀ key, get? (Public.spread (some served) (toPublicClient rules client)).fields key
      = (get? (toPublicClient rules client).fields key).or (get? served.fields key) :=
    fun key => get?_merge (keys_toPublicClient_nodup client) key
  have hrow : ∀ key, get? (Public.spread (some row) client).fields key
      = (get? client.fields key).or (get? row.fields key) :=
    fun key => get?_merge hentry.distinct key
  -- what the entry carries is what the merge has
  have hcarried : ∀ key, (get? client.fields key).isSome →
      get? (Public.spread (some row) client).fields key = get? client.fields key := by
    intro key hsome
    obtain ⟨value, hvalue⟩ := Option.isSome_iff_exists.mp hsome
    rw [hrow, hvalue]
    rfl
  have haddress : ∀ field, (get? client.fields field).isSome →
      publicAddress rules (Public.spread (some row) client).fields field = publicAddress rules client.fields field := by
    intro field hsome
    rw [publicAddress, publicAddress, hcarried field hsome]
  refine ⟨rfl, fun key => ?_⟩
  rw [hserved, h.2 key, get?_toPublicClient, get?_toPublicClient, get?_toPublicClient,
    hcarried "tags" hentry.tags, haddress "ipv6" hentry.ipv6, haddress "ipv4" hentry.ipv4, hrow key]
  split_ifs <;> rfl

/-- The two tests for the newer one agree. -/
theorem keepsExisting_iff {client : ClientRow} (hrow : Dated rules row) (hclient : Dated rules client) :
    keepsExisting rules row client = true ↔ updatedAtOrZero rules client < updatedAtOrZero rules row := by
  rw [keepsExisting, updatedAtOrZero, updatedAtOrZero]
  cases hr : updatedAtMs rules row with
  | none =>
    cases hc : updatedAtMs rules client with
    | none => simp
    | some overlayUpdatedAt =>
      have hpos := hclient overlayUpdatedAt hc
      simp only [Bool.false_eq_true, Option.getD_some, Option.getD_none, false_iff]
      omega
  | some existingUpdatedAt =>
    have hpos := hrow existingUpdatedAt hr
    cases hc : updatedAtMs rules client with
    | none => simpa using hpos
    | some overlayUpdatedAt => simp

/-- The time of a merged row is one of the two. -/
theorem Dated.spread {client : ClientRow} (hrow : Dated rules row) (hclient : Dated rules client)
    (hentry : Entry client) : Dated rules (spread (some row) client) := by
  have hmerged : get? (Public.spread (some row) client).fields "updated_at"
      = (get? client.fields "updated_at").or (get? row.fields "updated_at") :=
    get?_merge hentry.distinct _
  intro ms hms
  rw [updatedAtMs, hmerged] at hms
  cases hgiven : get? client.fields "updated_at" with
  | some value =>
    rw [hgiven] at hms
    exact hclient ms (by rw [updatedAtMs, hgiven]; exact hms)
  | none =>
    rw [hgiven] at hms
    exact hrow ms (by rw [updatedAtMs]; exact hms)

/-! ## Lists -/

/-- The maps of the two lists, entry by entry; the rows have a time after 1970 if they have one. -/
def Agrees (rules : ListRules) (served rows : List (String × ClientRow)) : Prop :=
  Assoc.Rel (fun a b => Serves rules a b ∧ Dated rules b) served rows

variable {served : List (String × ClientRow)}

theorem overlayPublic_missing {removed : List String}
    {client : ClientRow} (h : get? served client.uuid = none) :
    overlayPublic rules removed served client = served := by
  have hmissing : get? served (toPublicClient rules client).uuid = none := h
  rw [overlayPublic]
  rw [hmissing]
  exact ite_self served

theorem overlayPublic_removed {removed : List String} {client : ClientRow} (h : client.uuid ∈ removed) :
    overlayPublic rules removed served client = served := if_pos (.inr h)

theorem overlayPublic_existing {removed : List String}
    {client existing : ClientRow} (hnamed : client.uuid ≠ "") (hremoved : client.uuid ∉ removed)
    (h : get? served client.uuid = some existing) :
    overlayPublic rules removed served client =
      if keepsExisting rules existing (toPublicClient rules client) then served
      else Assoc.set served client.uuid (spread (some existing) (toPublicClient rules client)) := by
  have hexisting : get? served (toPublicClient rules client).uuid = some existing := h
  have hnot : ¬ ((toPublicClient rules client).uuid = "" ∨ (toPublicClient rules client).uuid ∈ removed) :=
    not_or.mpr ⟨hnamed, hremoved⟩
  rw [overlayPublic]
  rw [if_neg hnot, hexisting]
  rfl

variable {rows : List (String × ClientRow)}

theorem overlayAdmin_missing {snapshot : AdminClientsSnapshot}
    {client : ClientRow} (h : get? rows client.uuid = none) :
    overlayAdmin rules snapshot none rows client = rows := by
  rw [overlayAdmin, h]
  exact if_pos ⟨rfl, by simp [supplements]⟩

theorem overlayAdmin_removed {snapshot : AdminClientsSnapshot}
    {client : ClientRow} (h : client.uuid ∈ snapshot.removed) :
    overlayAdmin rules snapshot none rows client = rows := by
  rw [overlayAdmin]
  rw [if_pos h]
  split_ifs <;> rfl

theorem overlayAdmin_existing {snapshot : AdminClientsSnapshot}
    {client : ClientRow} (hremoved : client.uuid ∉ snapshot.removed)
    (h : get? rows client.uuid = some row) :
    overlayAdmin rules snapshot none rows client =
      if updatedAtOrZero rules client < updatedAtOrZero rules row then rows
      else Assoc.set rows client.uuid (spread (some row) client) := by
  rw [overlayAdmin, h]
  rw [if_neg (by simp), if_neg hremoved]
  simp

/-- **One entry of the snapshot** keeps the maps in agreement. -/
theorem Agrees.overlay (h : Agrees rules served rows)
    (snapshot : AdminClientsSnapshot) {client : ClientRow} (hentry : Entry client)
    (hclient : Dated rules client) :
    Agrees rules (overlayPublic rules snapshot.removed served client)
      (overlayAdmin rules snapshot none rows client) := by
  rcases h.get? client.uuid with ⟨hserved, hrow⟩ | ⟨existing, row, hserved, hrow, hserves, hdated⟩
  · rw [overlayPublic_missing hserved, overlayAdmin_missing hrow]
    exact h
  · by_cases hremoved : client.uuid ∈ snapshot.removed
    · rw [overlayPublic_removed hremoved, overlayAdmin_removed hremoved]
      exact h
    · rw [overlayPublic_existing hentry.named hremoved hserved, overlayAdmin_existing hremoved hrow]
      have hnewer : keepsExisting rules existing (toPublicClient rules client) = true ↔
          updatedAtOrZero rules client < updatedAtOrZero rules row := by
        rw [← keepsExisting_iff hdated hclient, keepsExisting, keepsExisting, hserves.updatedAtMs,
          (serves_toPublicClient client).updatedAtMs]
      by_cases hkeeps : keepsExisting rules existing (toPublicClient rules client) = true
      · rw [if_pos hkeeps, if_pos (hnewer.mp hkeeps)]
        exact h
      · rw [if_neg hkeeps, if_neg (mt hnewer.mpr hkeeps)]
        exact Assoc.Rel.set h client.uuid ⟨hserves.spread hentry, hdated.spread hclient hentry⟩

/-- The maps before the snapshot. -/
theorem agrees_rows {clients : List ClientRow} (hclients : ∀ client ∈ clients, Dated rules client)
    (removed : List String) :
    Agrees rules
      (mapOf ((clients.map (toPublicClient rules)).filter fun client => !decide (client.uuid ∈ removed)))
      (removed.foldl Assoc.erase (mapOf clients)) := by
  have hrows : removed.foldl Assoc.erase (mapOf clients)
      = mapOf (clients.filter fun client => !decide (client.uuid ∈ removed)) := by
    rw [Assoc.foldl_erase, mapOf, mapOf, Assoc.filter_merge fun uuid => !decide (uuid ∈ removed), List.filter_map]
    rfl
  have hserved : mapOf ((clients.map (toPublicClient rules)).filter fun client => !decide (client.uuid ∈ removed))
      = (mapOf (clients.filter fun client => !decide (client.uuid ∈ removed))).map
          fun p => (p.1, toPublicClient rules p.2) := by
    rw [mapOf, mapOf, Assoc.map_merge, List.filter_map, List.map_map, List.map_map]
    rfl
  rw [hrows, hserved]
  refine Assoc.Rel.of_map (toPublicClient rules) fun p hp => ⟨serves_toPublicClient p.2, ?_⟩
  rcases Assoc.mem_merge hp with hnil | hmem
  · cases hnil
  · obtain ⟨client, hclient, rfl⟩ := List.mem_map.mp hmem
    exact hclients client (List.mem_filter.mp hclient).1

theorem Agrees.overlays (h : Agrees rules served rows)
    (snapshot : AdminClientsSnapshot) (entries : List ClientRow)
    (hentries : ∀ client ∈ entries, Entry client ∧ Dated rules client) :
    Agrees rules (entries.foldl (overlayPublic rules snapshot.removed) served)
      (entries.foldl (overlayAdmin rules snapshot none) rows) := by
  induction entries generalizing served rows with
  | nil => exact h
  | cons client entries ih =>
    obtain ⟨hentry, hclient⟩ := hentries client List.mem_cons_self
    exact ih (h.overlay snapshot hentry hclient) fun c hc => hentries c (List.mem_cons_of_mem client hc)

/-- **The lists agree**: the public list is the projection of the administrator's list, without the
    hidden rows unless they are asked for. -/
theorem public_list_agrees (rules : ListRules) (clients : List ClientRow)
    (snapshot : Option AdminClientsSnapshot) (includeHidden : Bool)
    (hclients : ∀ client ∈ clients, Dated rules client)
    (hsnapshot : ∀ s, snapshot = some s → ∀ client ∈ s.clients, Entry client ∧ Dated rules client) :
    List.Forall₂ SameRow
      (applyPublicClientsOverlay rules (clients.map (toPublicClient rules)) snapshot includeHidden)
      (((applyAdminClientsSnapshot rules clients snapshot none).filter fun client =>
        includeHidden || !isHidden client).map (toPublicClient rules)) := by
  have hfiltered : ∀ {served rows : List ClientRow}, List.Forall₂ (Serves rules) served rows →
      List.Forall₂ SameRow (served.filter fun client => includeHidden || !isHidden client)
        ((rows.filter fun client => includeHidden || !isHidden client).map (toPublicClient rules)) := by
    intro served rows h
    rw [List.forall₂_map_right_iff]
    refine Assoc.forall₂_filter (fun a b hab => ?_) h
    rw [Serves.isHidden hab]
  cases snapshot with
  | none =>
    refine hfiltered ?_
    rw [applyAdminClientsSnapshot, List.forall₂_map_left_iff, List.forall₂_same]
    exact fun client _ => serves_toPublicClient client
  | some s =>
    have hmaps := (agrees_rows hclients s.removed).overlays s s.clients (hsnapshot s rfl)
    exact hfiltered (hmaps.values.imp fun _ _ h => h.1)

end Rows

/-- One public address, and two times. -/
def shownRules : ListRules where
  isPublicIpAddress := fun address => address == "8.8.8.8"
  dateParse := fun value =>
    if Json.str? (some value) = some "2026-09-06T01:00:00Z" then some 1788656400000
    else if Json.str? (some value) = some "2026-09-06T02:00:00Z" then some 1788660000000
    else none

/-- A row with some addresses and tags. -/
def shownClient (uuid name updatedAt : String) : ClientRow :=
  ⟨uuid, [("name", .str name), ("ipv4", .str "8.8.8.8"), ("ipv6", .null), ("tags", .str "home;ipv4"),
    ("updated_at", .str updatedAt)]⟩

/-- Three nodes of the database. -/
def shownClients : List ClientRow :=
  [shownClient "a" "old" "2026-09-06T01:00:00Z", shownClient "b" "new" "2026-09-06T02:00:00Z",
    shownClient "c" "gone" "2026-09-06T01:00:00Z"]

/-- A snapshot with a newer first node, an older second one, and without the third. -/
def shownSnapshot : AdminClientsSnapshot :=
  ⟨[shownClient "a" "new" "2026-09-06T02:00:00Z", shownClient "b" "old" "2026-09-06T01:00:00Z"], 1, ["c"], true⟩

theorem shownClient_entry {uuid name updatedAt : String} (h : uuid ≠ "") :
    Entry (shownClient uuid name updatedAt) :=
  ⟨h, by show (["name", "ipv4", "ipv6", "tags", "updated_at"] : List String).Nodup; decide, rfl, rfl, rfl⟩

theorem shownRules_dated (client : ClientRow) : Dated shownRules client := by
  intro ms hms
  rw [updatedAtMs] at hms
  split_ifs at hms
  obtain ⟨value, -, hvalue⟩ := Option.bind_eq_some_iff.mp hms
  have hvalue : (if Json.str? (some value) = some "2026-09-06T01:00:00Z" then some 1788656400000
    else if Json.str? (some value) = some "2026-09-06T02:00:00Z" then some 1788660000000
    else none) = some ms := hvalue
  split_ifs at hvalue
  · rw [← Option.some.inj hvalue]
    decide
  · rw [← Option.some.inj hvalue]
    decide

/-- The visitors' list of these nodes. -/
theorem shown_list_agrees : List.Forall₂ SameRow
        (applyPublicClientsOverlay shownRules (shownClients.map (toPublicClient shownRules))
          (some shownSnapshot) false)
        (((applyAdminClientsSnapshot shownRules shownClients (some shownSnapshot) none).filter fun client =>
          false || !isHidden client).map (toPublicClient shownRules)) := by
  refine public_list_agrees shownRules shownClients (some shownSnapshot) false
    (fun client _ => shownRules_dated client) fun s hs client hclient => ⟨?_, shownRules_dated client⟩
  cases hs
  simp only [shownSnapshot, List.mem_cons, List.not_mem_nil, or_false] at hclient
  rcases hclient with rfl | rfl
  · exact shownClient_entry (by decide)
  · exact shownClient_entry (by decide)

/-- The first node has its new name, the second keeps its own, the third is gone. -/
example : ((applyPublicClientsOverlay shownRules (shownClients.map (toPublicClient shownRules))
    (some shownSnapshot) false).map fun client => (client.uuid, Json.str? (Assoc.get? client.fields "name")))
    = [("a", some "new"), ("b", some "new")] := by decide +kernel

end CfMonitor.Public
