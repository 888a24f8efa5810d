/-
  The public answers do not depend on the hidden nodes.

  Two runs take the same requests over two databases that differ in hidden nodes only.

  1. **Lists** (`DifferInHidden.visible`) — the overlay treats the nodes one by one, so that the
     visitors' lists agree.

  2. **Caches** (`Worker.Holds`, `Worker.Alike`) — whatever filled them, the client snapshot and the
     visibility of the nodes are those of the data.  The answers kept in the two runs are the same,
     but for `metadata_version`, the time at which a snapshot was computed.

  3. **Results** — `visitors_see_no_hidden`, and what does show `hidden_node_shows_in_version`.
-/
import CfMonitor.Public.PublicRoutes

namespace CfMonitor.Public

open CfMonitor.Lib CfMonitor.Live

/-! ## Lists without some nodes -/

/-- The node is not one of these. -/
def apart (hidden : List String) (uuid : String) : Bool := !decide (uuid ∈ hidden)

/-- The snapshot without some nodes. -/
def without (hidden : List String) (snapshot : AdminClientsSnapshot) : AdminClientsSnapshot :=
  { snapshot with
    clients := snapshot.clients.filter fun client => apart hidden client.uuid
    removed := snapshot.removed.filter (apart hidden) }

section Lists

variable {rules : ListRules} {hidden : List String}

theorem get?_filter_keys {α : Type} (keep : String → Bool) (l : List (String × α)) {k : String}
    (hk : keep k = true) : Assoc.get? (l.filter fun p => keep p.1) k = Assoc.get? l k := by
  induction l with
  | nil => rfl
  | cons p l ih =>
    rw [List.filter_cons]
    by_cases hp : k = p.1
    · rw [if_pos (hp ▸ hk)]
      exact (if_pos hp).trans (if_pos hp).symm
    · have hcons : Assoc.get? (p :: l) k = Assoc.get? l k := if_neg hp
      rw [hcons]
      split
      · exact (if_neg hp).trans ih
      · exact ih

/-- **One entry of the snapshot**, without some nodes. -/
theorem filter_overlayPublic (removed : List String) (m : List (String × ClientRow)) (raw : ClientRow) :
    (overlayPublic rules removed m raw).filter (fun p => apart hidden p.1) =
      if apart hidden raw.uuid then
        overlayPublic rules (removed.filter (apart hidden)) (m.filter fun p => apart hidden p.1) raw
      else m.filter fun p => apart hidden p.1 := by
  have huuid : (toPublicClient rules raw).uuid = raw.uuid := rfl
  unfold overlayPublic
  simp only [huuid]
  cases hkeep : apart hidden raw.uuid with
  | false =>
    simp only [Bool.false_eq_true, ↓reduceIte]
    split
    · rfl
    · split
      · rfl
      · split
        · rfl
        · rw [Assoc.filter_set (apart hidden), hkeep, if_neg (by simp)]
  | true =>
    rw [if_pos rfl, get?_filter_keys _ _ hkeep]
    have hremoved : (raw.uuid = "" ∨ raw.uuid ∈ removed.filter (apart hidden)) ↔
        (raw.uuid = "" ∨ raw.uuid ∈ removed) := by
      rw [List.mem_filter, hkeep, eq_self, and_true]
    simp only [hremoved]
    split
    · rfl
    · split
      · rfl
      · split
        · rfl
        · rw [Assoc.filter_set (apart hidden), hkeep, if_pos rfl]

/-- All entries of the snapshot, without some nodes. -/
theorem filter_overlays (removed : List String) (entries : List ClientRow) (m : List (String × ClientRow)) :
    (entries.foldl (overlayPublic rules removed) m).filter (fun p => apart hidden p.1) =
      (entries.filter fun client => apart hidden client.uuid).foldl
        (overlayPublic rules (removed.filter (apart hidden))) (m.filter fun p => apart hidden p.1) := by
  induction entries generalizing m with
  | nil => rfl
  | cons raw entries ih =>
    rw [List.foldl_cons, ih, filter_overlayPublic, List.filter_cons]
    split <;> rfl

/-- Every node stands under its own name. -/
def Named (m : List (String × ClientRow)) : Prop := ∀ p ∈ m, p.2.uuid = p.1

variable {m : List (String × ClientRow)}

theorem Named.overlay (h : Named m) (removed : List String) (raw : ClientRow) :
    Named (overlayPublic rules removed m raw) := by
  rw [overlayPublic]
  split
  · exact h
  · split
    · exact h
    · split
      · exact h
      · intro p hp
        rcases Assoc.mem_set hp with rfl | hold
        · rfl
        · exact h p hold

theorem Named.overlays (h : Named m) (removed : List String)
    (entries : List ClientRow) : Named (entries.foldl (overlayPublic rules removed) m) := by
  induction entries generalizing m with
  | nil => exact h
  | cons raw entries ih => exact ih (h.overlay removed raw)

theorem named_mapOf (clients : List ClientRow) : Named (mapOf clients) := by
  intro p hp
  rcases Assoc.mem_merge hp with hnil | hmem
  · cases hnil
  · obtain ⟨client, -, rfl⟩ := List.mem_map.mp hmem
    rfl

theorem filter_mapOf (clients : List ClientRow) : (mapOf clients).filter (fun p => apart hidden p.1)
      = mapOf (clients.filter fun client => apart hidden client.uuid) := by
  rw [mapOf, mapOf, Assoc.filter_merge (apart hidden), List.filter_map]
  rfl

/-- **The overlay treats the nodes one by one.** -/
theorem filter_applyPublicClientsOverlay (clients : List ClientRow) (overlay : Option AdminClientsSnapshot)
    (includeHidden : Bool) :
    (applyPublicClientsOverlay rules clients overlay includeHidden).filter
        (fun client => apart hidden client.uuid)
      = applyPublicClientsOverlay rules (clients.filter fun client => apart hidden client.uuid)
          (overlay.map (without hidden)) includeHidden := by
  cases overlay with
  | none =>
    show (clients.filter fun client => includeHidden || !isHidden client).filter _
      = (clients.filter _).filter fun client => includeHidden || !isHidden client
    exact List.filter_comm _ _ _
  | some s =>
    have hnamed : Named (s.clients.foldl (overlayPublic rules s.removed)
        (mapOf (clients.filter fun client => !decide (client.uuid ∈ s.removed)))) :=
      (named_mapOf _).overlays s.removed s.clients
    have hvalues : ∀ m : List (String × ClientRow), Named m →
        (m.map Prod.snd).filter (fun client => apart hidden client.uuid)
          = (m.filter fun p => apart hidden p.1).map Prod.snd := by
      intro m hm
      rw [List.filter_map]
      refine congrArg (List.map Prod.snd) (List.filter_congr fun p hp => ?_)
      exact congrArg (apart hidden) (hm p hp)
    -- a node that stays is removed in one list if and only if it is in the other
    have hremoved : (clients.filter fun client => !decide (client.uuid ∈ s.removed)).filter
        (fun client => apart hidden client.uuid)
        = (clients.filter fun client => apart hidden client.uuid).filter fun client =>
            !decide (client.uuid ∈ s.removed.filter (apart hidden)) := by
      rw [List.filter_comm, List.filter_filter, List.filter_filter]
      refine List.filter_congr fun client _ => ?_
      cases hkeep : apart hidden client.uuid with
      | false => simp
      | true => simp [List.mem_filter, hkeep]
    show (((s.clients.foldl (overlayPublic rules s.removed) _).map Prod.snd).filter _).filter _ = _
    rw [List.filter_comm, hvalues _ hnamed, filter_overlays, filter_mapOf, hremoved]
    rfl

end Lists

/-! ## Data that differ in hidden nodes -/

variable {L : Type} (rules : RouteRules)

/-- The databases and the snapshots differ in the rows of some nodes only, which are hidden after the
    overlay in both. -/
structure DifferInHidden (hidden : List String) (d₁ d₂ : PublicData) : Prop where
  hidden₁ : ∀ client ∈ overlaidClients rules d₁ true, client.uuid ∈ hidden → isHidden client = true
  hidden₂ : ∀ client ∈ overlaidClients rules d₂ true, client.uuid ∈ hidden → isHidden client = true
  rows : (d₁.rows.filter fun row => apart hidden row.uuid) = d₂.rows.filter fun row => apart hidden row.uuid
  overlay : d₁.overlay.map (without hidden) = d₂.overlay.map (without hidden)
  pingTasks : d₁.pingTasks = d₂.pingTasks
  settings : d₁.settings = d₂.settings
  live : d₁.live false = d₂.live false
  records : ∀ call : HistoryCall, call.client ∉ hidden → d₁.records call = d₂.records call

variable {rules}

theorem overlaidClients_visible (data : PublicData) (includeHidden : Bool) :
    (overlaidClients rules data includeHidden).filter (fun client => !isHidden client)
      = overlaidClients rules data false := by
  have hfilter : ∀ clients : List ClientRow,
      (clients.filter fun client => includeHidden || !isHidden client).filter (fun client => !isHidden client)
        = clients.filter fun client => false || !isHidden client := by
    intro clients
    rw [List.filter_filter]
    refine List.filter_congr fun client _ => ?_
    cases isHidden client <;> cases includeHidden <;> rfl
  unfold overlaidClients applyPublicClientsOverlay
  cases data.overlay with
  | none => exact hfilter _
  | some s => exact hfilter _

variable {hidden : List String} {data : PublicData}

theorem apart_of_visible
    (h : ∀ client ∈ overlaidClients rules data true, client.uuid ∈ hidden → isHidden client = true) :
    ∀ client ∈ overlaidClients rules data false, apart hidden client.uuid = true := by
  intro client hclient
  rw [← overlaidClients_visible data true, List.mem_filter] at hclient
  rw [apart, Bool.not_eq_true', decide_eq_false_iff_not]
  intro hmem
  rw [h client hclient.1 hmem] at hclient
  exact absurd hclient.2 (by decide)

variable {d₁ d₂ : PublicData}

/-- **The visitors' lists agree.** -/
theorem DifferInHidden.visible (h : DifferInHidden rules hidden d₁ d₂) :
    overlaidClients rules d₁ false = overlaidClients rules d₂ false := by
  have hapart : ∀ data : PublicData,
      (∀ client ∈ overlaidClients rules data true, client.uuid ∈ hidden → isHidden client = true) →
      overlaidClients rules data false = applyPublicClientsOverlay rules.list
            ((data.rows.filter fun row => apart hidden row.uuid).map (toPublicClient rules.list))
            (data.overlay.map (without hidden)) false := by
    intro data hdata
    have hself := List.filter_eq_self.mpr (apart_of_visible hdata)
    rw [← hself, overlaidClients, filter_applyPublicClientsOverlay, List.filter_map]
    rfl
  rw [hapart d₁ h.hidden₁, hapart d₂ h.hidden₂, h.rows, h.overlay]

/-! ## What the caches hold -/

/-- The names of the visible nodes. -/
def visibleIds (rules : RouteRules) (data : PublicData) : List String :=
  (overlaidClients rules data false).map ClientRow.uuid

/-- A snapshot of the visible nodes. -/
structure ClientsSnapshot.Shows (rules : RouteRules) (data : PublicData) (s : ClientsSnapshot) : Prop where
  clients : s.clients = overlaidClients rules data false
  nodes : s.nodes = (overlaidClients rules data false).map toPublicNode
  publicClientIds : s.publicClientIds = visibleIds rules data

/-- The caches that one request fills for another hold what the data say. -/
structure Worker.Holds (rules : RouteRules) (data : PublicData) (w : Worker L) : Prop where
  settings : ∀ entry, w.settings = some entry → entry.value = data.settings
  clientsSnapshot : ∀ s, w.clientsSnapshot = some s → s.Shows rules data
  pingTasks : ∀ entry, w.pingTasks = some entry → entry.value = data.pingTasks
  visibility : ∀ uuid entry, Assoc.get? w.visibility uuid = some entry →
    entry.value = decide (uuid ∈ visibleIds rules data)

/-- The other caches and the limiter. -/
structure Worker.SameAnswers (w w' : Worker L) : Prop where
  metadata : w'.metadata = w.metadata
  history : w'.history = w.history
  edge : w'.edge = w.edge
  limiter : w'.limiter = w.limiter

theorem Worker.SameAnswers.refl (w : Worker L) : w.SameAnswers w := ⟨rfl, rfl, rfl, rfl⟩

theorem computeSnapshot_shows (data : PublicData) (now : Int) :
    (computeSnapshot rules data now false).Shows rules data := ⟨rfl, rfl, rfl⟩

/-- What a snapshot makes visible, with or without the hidden nodes in it. -/
theorem get?_rememberVisibility (data : PublicData) (now : Int) (includeHidden : Bool)
    (visibility : List (String × Cached Bool)) (uuid : String) :
    Assoc.get? (rememberVisibility data (computeSnapshot rules data now includeHidden) visibility) uuid =
      if uuid ∈ data.rows.map ClientRow.uuid then
        some ⟨decide (uuid ∈ visibleIds rules data), now + PUBLIC_METADATA_CACHE_MS⟩
      else Assoc.get? visibility uuid := by
  have hvisible : ((computeSnapshot rules data now includeHidden).clients.filter
      fun client => !isHidden client).map ClientRow.uuid = visibleIds rules data :=
    congrArg (List.map ClientRow.uuid) (overlaidClients_visible data includeHidden)
  rw [rememberVisibility]
  simp only [hvisible]
  -- the rows in order; a node that comes twice gets the same entry
  induction data.rows generalizing visibility with
  | nil => simp
  | cons row rows ih =>
    rw [List.foldl_cons, ih, Assoc.get?_set]
    simp only [List.map_cons, List.mem_cons]
    by_cases hrest : uuid ∈ rows.map ClientRow.uuid
    · rw [if_pos hrest, if_pos (.inr hrest)]
    · rw [if_neg hrest]
      by_cases hrow : uuid = row.uuid
      · rw [if_pos hrow, if_pos (.inl hrow), hrow]
        rfl
      · rw [if_neg hrow, if_neg (by tauto)]

variable {w : Worker L}

/-- **The client snapshot**: whoever asks, the caches hold what the data say afterwards, and a visitor
    gets the visible nodes. -/
theorem getPublicClientsSnapshot_spec (hw : w.Holds rules data) (now : Int) (force includeHidden : Bool) :
    (includeHidden = false →
      (getPublicClientsSnapshot rules data w now force includeHidden).1.Shows rules data) ∧
    (getPublicClientsSnapshot rules data w now force includeHidden).2.Holds rules data ∧
    w.SameAnswers (getPublicClientsSnapshot rules data w now force includeHidden).2 := by
  rw [getPublicClientsSnapshot]
  split
  · rename_i snapshot hcached
    rw [Option.filter_eq_some_iff] at hcached
    exact ⟨fun _ => hw.clientsSnapshot snapshot hcached.1, hw, .refl w⟩
  · refine ⟨?_, ⟨hw.settings, ?_, hw.pingTasks, ?_⟩, ⟨rfl, rfl, rfl, rfl⟩⟩
    · rintro rfl
      exact computeSnapshot_shows data now
    · intro s hs
      cases includeHidden with
      | true => exact hw.clientsSnapshot s hs
      | false =>
        cases hs
        exact computeSnapshot_shows data now
    · intro uuid entry hentry
      dsimp only at hentry
      rw [get?_rememberVisibility] at hentry
      split at hentry
      · cases hentry
        rfl
      · exact hw.visibility uuid entry hentry

theorem getPublicSettings_spec (hw : w.Holds rules data) (now : Int) (force : Bool) :
    (getPublicSettings data w now force).1 = data.settings ∧
    (getPublicSettings data w now force).2.Holds rules data ∧
    w.SameAnswers (getPublicSettings data w now force).2 := by
  rw [getPublicSettings]
  split
  · rename_i entry hcached
    rw [Option.filter_eq_some_iff] at hcached
    exact ⟨hw.settings entry hcached.1, hw, .refl w⟩
  · refine ⟨rfl, ⟨?_, hw.clientsSnapshot, hw.pingTasks, hw.visibility⟩, ⟨rfl, rfl, rfl, rfl⟩⟩
    intro entry hentry
    cases hentry
    rfl

theorem getPublicPingTasks_spec (hw : w.Holds rules data)
    (ids : List String) (intervalSec now : Int) (force : Bool) :
    (getPublicPingTasks data w ids intervalSec now force).1
        = data.pingTasks.filterMap (fun task =>
            (toPublicPingTask task ids).map fun task => { task with intervalSec := intervalSec }) ∧
    (getPublicPingTasks data w ids intervalSec now force).2.Holds rules data ∧
    w.SameAnswers (getPublicPingTasks data w ids intervalSec now force).2 := by
  have hvalue : ((w.pingTasks.filter fun entry => !force && entry.fresh now).getD
      ⟨data.pingTasks, now + PUBLIC_METADATA_CACHE_MS⟩).value = data.pingTasks := by
    cases hcached : w.pingTasks.filter fun entry => !force && entry.fresh now with
    | none => rfl
    | some entry => exact hw.pingTasks entry (Option.filter_eq_some_iff.mp hcached).1
  rw [getPublicPingTasks]
  refine ⟨by rw [hvalue], ⟨hw.settings, hw.clientsSnapshot, ?_, hw.visibility⟩, ⟨rfl, rfl, rfl, rfl⟩⟩
  intro entry hentry
  cases hentry
  exact hvalue

/-! ## Two runs -/

/-- A body but for the `metadata_version`. -/
def PublicBody.withoutVersion : PublicBody → PublicBody
  | .bootstrap payload => .bootstrap { payload with metadataVersion := "" }
  | body => body

/-- An answer but for the `metadata_version`. -/
def PublicAnswer.withoutVersion : PublicAnswer → PublicAnswer
  | .publicJson body maxAgeSeconds cacheState => .publicJson body.withoutVersion maxAgeSeconds cacheState
  | .privateJson body => .privateJson body.withoutVersion
  | answer => answer

/-- The same bodies but for the `metadata_version`, and the same altogether where `exact` holds. -/
def SameBody (exact : Prop) (a b : PublicBody) : Prop := a.withoutVersion = b.withoutVersion ∧ (exact → a = b)

def SameAnswer (exact : Prop) (a b : PublicAnswer) : Prop := a.withoutVersion = b.withoutVersion ∧ (exact → a = b)

/-- The same entries of a cache. -/
def SameEntry (exact : Prop) (a b : Cached PublicBody) : Prop :=
  SameBody exact a.value b.value ∧ a.expiresAt = b.expiresAt

/-- The same client snapshot, and the same visibility of every node. -/
def SameSnapshots (w₁ w₂ : Worker L) : Prop :=
  w₁.clientsSnapshot = w₂.clientsSnapshot ∧
  ∀ uuid, Assoc.get? w₁.visibility uuid = Assoc.get? w₂.visibility uuid

/-- The answers that are kept agree, and where `exact` holds the client snapshots do. -/
structure Worker.Alike (exact : Prop) (w₁ w₂ : Worker L) : Prop where
  metadata : Assoc.Rel (SameEntry exact) w₁.metadata w₂.metadata
  history : Assoc.Rel (SameEntry exact) w₁.history w₂.history
  edge : Assoc.Rel (SameEntry exact) w₁.edge w₂.edge
  limiter : w₁.limiter = w₂.limiter
  snapshots : exact → SameSnapshots w₁ w₂

/-- What is the same of two databases for the visitors; where `exact` holds they have rows for the same
    nodes. -/
structure SamePublic (rules : RouteRules) (exact : Prop) (d₁ d₂ : PublicData) : Prop where
  visible : overlaidClients rules d₁ false = overlaidClients rules d₂ false
  pingTasks : d₁.pingTasks = d₂.pingTasks
  settings : d₁.settings = d₂.settings
  live : d₁.live false = d₂.live false
  records : ∀ call : HistoryCall, call.client ∈ visibleIds rules d₁ → d₁.records call = d₂.records call
  rows : exact → ∀ uuid, uuid ∈ d₁.rows.map ClientRow.uuid ↔ uuid ∈ d₂.rows.map ClientRow.uuid

/-- Two workers in two runs. -/
structure Paired (rules : RouteRules) (exact : Prop) (d₁ d₂ : PublicData) (w₁ w₂ : Worker L) : Prop where
  holds₁ : w₁.Holds rules d₁
  holds₂ : w₂.Holds rules d₂
  alike : w₁.Alike exact w₂

section Pairs

variable {exact : Prop} {d₁ d₂ : PublicData} {w₁ w₂ : Worker L}

theorem SameBody.refl (a : PublicBody) : SameBody exact a a := ⟨rfl, fun _ => rfl⟩

theorem SameAnswer.refl (a : PublicAnswer) : SameAnswer exact a a := ⟨rfl, fun _ => rfl⟩

variable {a b : PublicBody}

theorem SameBody.answer (h : SameBody exact a b) (maxAgeSeconds : Nat) (cacheState : CacheState) :
    SameAnswer exact (.publicJson a maxAgeSeconds cacheState) (.publicJson b maxAgeSeconds cacheState) :=
  ⟨congrArg (fun body => PublicAnswer.publicJson body maxAgeSeconds cacheState) h.1,
    fun he => congrArg (fun body => PublicAnswer.publicJson body maxAgeSeconds cacheState) (h.2 he)⟩

theorem Worker.Alike.inner {w₁' w₂' : Worker L} (h : w₁.Alike exact w₂) (h₁ : w₁.SameAnswers w₁')
    (h₂ : w₂.SameAnswers w₂') (hsnapshots : exact → SameSnapshots w₁' w₂') : w₁'.Alike exact w₂' where
  metadata := by rw [h₁.metadata, h₂.metadata]; exact h.metadata
  history := by rw [h₁.history, h₂.history]; exact h.history
  edge := by rw [h₁.edge, h₂.edge]; exact h.edge
  limiter := by rw [h₁.limiter, h₂.limiter]; exact h.limiter
  snapshots := hsnapshots

/-- **The client snapshots of two runs.**  A visitor gets the same nodes.  Where the databases have rows
    for the same nodes, the snapshots are of the same time too. -/
theorem Paired.snapshot (h : Paired rules exact d₁ d₂ w₁ w₂) (hd : SamePublic rules exact d₁ d₂) (now : Int)
    (force includeHidden : Bool) :
    Paired rules exact d₁ d₂ (getPublicClientsSnapshot rules d₁ w₁ now force includeHidden).2
      (getPublicClientsSnapshot rules d₂ w₂ now force includeHidden).2 ∧
    (exact → includeHidden = false → (getPublicClientsSnapshot rules d₁ w₁ now force includeHidden).1
        = (getPublicClientsSnapshot rules d₂ w₂ now force includeHidden).1) := by
  obtain ⟨-, hholds₁, hsame₁⟩ := getPublicClientsSnapshot_spec h.holds₁ now force includeHidden
  obtain ⟨-, hholds₂, hsame₂⟩ := getPublicClientsSnapshot_spec h.holds₂ now force includeHidden
  have hexact : exact → SameSnapshots (getPublicClientsSnapshot rules d₁ w₁ now force includeHidden).2
        (getPublicClientsSnapshot rules d₂ w₂ now force includeHidden).2 ∧
      (includeHidden = false → (getPublicClientsSnapshot rules d₁ w₁ now force includeHidden).1
        = (getPublicClientsSnapshot rules d₂ w₂ now force includeHidden).1) := by
    intro he
    obtain ⟨hsnapshot, hvisibility⟩ := h.alike.snapshots he
    have hvisibleIds : visibleIds rules d₁ = visibleIds rules d₂ :=
      congrArg (List.map ClientRow.uuid) hd.visible
    have hcomputed : computeSnapshot rules d₁ now false = computeSnapshot rules d₂ now false := by
      rw [computeSnapshot, computeSnapshot, hd.visible]
    rw [getPublicClientsSnapshot, getPublicClientsSnapshot, hsnapshot]
    split
    · exact ⟨⟨hsnapshot, hvisibility⟩, fun _ => rfl⟩
    · refine ⟨⟨?_, fun uuid => ?_⟩, ?_⟩
      · cases includeHidden with
        | true => rfl
        | false => exact congrArg some hcomputed
      · dsimp only
        rw [get?_rememberVisibility, get?_rememberVisibility, hvisibleIds, hvisibility]
        exact if_congr (hd.rows he uuid) rfl rfl
      · rintro rfl
        exact hcomputed
  exact ⟨⟨hholds₁, hholds₂, h.alike.inner hsame₁ hsame₂ fun he => (hexact he).1⟩, fun he => (hexact he).2⟩

theorem Paired.settings (h : Paired rules exact d₁ d₂ w₁ w₂) (now : Int) (force : Bool) :
    Paired rules exact d₁ d₂ (getPublicSettings d₁ w₁ now force).2 (getPublicSettings d₂ w₂ now force).2 := by
  obtain ⟨-, hholds₁, hsame₁⟩ := getPublicSettings_spec h.holds₁ now force
  obtain ⟨-, hholds₂, hsame₂⟩ := getPublicSettings_spec h.holds₂ now force
  refine ⟨hholds₁, hholds₂, h.alike.inner hsame₁ hsame₂ fun he => ?_⟩
  have hkeeps : ∀ (data : PublicData) (w : Worker L),
      (getPublicSettings data w now force).2.clientsSnapshot = w.clientsSnapshot ∧
      (getPublicSettings data w now force).2.visibility = w.visibility := by
    intro data w
    rw [getPublicSettings]
    split <;> exact ⟨rfl, rfl⟩
  rw [SameSnapshots, (hkeeps d₁ w₁).1, (hkeeps d₂ w₂).1, (hkeeps d₁ w₁).2, (hkeeps d₂ w₂).2]
  exact h.alike.snapshots he

theorem Paired.pingTasks (h : Paired rules exact d₁ d₂ w₁ w₂) (ids₁ ids₂ : List String)
    (interval₁ interval₂ now : Int) (force : Bool) :
    Paired rules exact d₁ d₂ (getPublicPingTasks d₁ w₁ ids₁ interval₁ now force).2
      (getPublicPingTasks d₂ w₂ ids₂ interval₂ now force).2 := by
  obtain ⟨-, hholds₁, hsame₁⟩ := getPublicPingTasks_spec h.holds₁ ids₁ interval₁ now force
  obtain ⟨-, hholds₂, hsame₂⟩ := getPublicPingTasks_spec h.holds₂ ids₂ interval₂ now force
  exact ⟨hholds₁, hholds₂, h.alike.inner hsame₁ hsame₂ fun he => h.alike.snapshots he⟩

/-- Two results agree, and leave two workers. -/
abbrev BothGive (rules : RouteRules) (exact : Prop) (d₁ d₂ : PublicData) {α : Type} (R : α → α → Prop)
    (x y : α × Worker L) : Prop := R x.1 y.1 ∧ Paired rules exact d₁ d₂ x.2 y.2

/-! ## Kept answers -/

/-- Both runs find the same answer, or none. -/
def SameFound (exact : Prop) (a b : Option PublicAnswer) : Prop :=
  (a = none ∧ b = none) ∨ ∃ x y, a = some x ∧ b = some y ∧ SameAnswer exact x y

theorem SameFound.entry {a b : Cached PublicBody} (h : SameEntry exact a b) (now : Int) (maxAgeSeconds : Nat) :
    SameFound exact
      (((some a).filter fun entry => entry.fresh now).map fun entry => .publicJson entry.value maxAgeSeconds .edgeHit)
      (((some b).filter fun entry => entry.fresh now).map fun entry => .publicJson entry.value maxAgeSeconds .edgeHit) := by
  have hfresh : a.fresh now = b.fresh now := by rw [Cached.fresh, Cached.fresh, h.2]
  rw [Option.filter_some, Option.filter_some, hfresh]
  split
  · exact .inr ⟨_, _, rfl, rfl, h.1.answer maxAgeSeconds .edgeHit⟩
  · exact .inl ⟨rfl, rfl⟩

theorem Worker.Alike.matchEdge (h : w₁.Alike exact w₂) (req : PublicRequest) (key : CacheKey)
    (maxAgeSeconds : Nat) :
    SameFound exact (matchEdge w₁ req key maxAgeSeconds) (matchEdge w₂ req key maxAgeSeconds) := by
  rw [Public.matchEdge, Public.matchEdge]
  split
  · exact .inl ⟨rfl, rfl⟩
  · rcases h.edge.get? key with ⟨h₁, h₂⟩ | ⟨a, b, h₁, h₂, hab⟩
    · rw [h₁, h₂]
      exact .inl ⟨rfl, rfl⟩
    · rw [h₁, h₂]
      exact .entry hab req.now maxAgeSeconds

theorem Paired.withAnswers (h : Paired rules exact d₁ d₂ w₁ w₂)
    {metadata₁ metadata₂ : List (String × Cached PublicBody)}
    {history₁ history₂ edge₁ edge₂ : List (CacheKey × Cached PublicBody)}
    (hmetadata : Assoc.Rel (SameEntry exact) metadata₁ metadata₂)
    (hhistory : Assoc.Rel (SameEntry exact) history₁ history₂)
    (hedge : Assoc.Rel (SameEntry exact) edge₁ edge₂) :
    Paired rules exact d₁ d₂ { w₁ with metadata := metadata₁, history := history₁, edge := edge₁ }
      { w₂ with metadata := metadata₂, history := history₂, edge := edge₂ } where
  holds₁ := ⟨h.holds₁.settings, h.holds₁.clientsSnapshot, h.holds₁.pingTasks, h.holds₁.visibility⟩
  holds₂ := ⟨h.holds₂.settings, h.holds₂.clientsSnapshot, h.holds₂.pingTasks, h.holds₂.visibility⟩
  alike := ⟨hmetadata, hhistory, hedge, h.alike.limiter, h.alike.snapshots⟩

theorem Paired.getMetadata (h : Paired rules exact d₁ d₂ w₁ w₂) (req : PublicRequest) :
    BothGive rules exact d₁ d₂ (SameFound exact) (getPublicMetadataResponse w₁ req)
      (getPublicMetadataResponse w₂ req) := by
  have hedge := h.alike.matchEdge req (publicMetadataEdgeCacheRequest req) 30
  rw [getPublicMetadataResponse, getPublicMetadataResponse]
  rcases h.alike.metadata.get? req.path with ⟨h₁, h₂⟩ | ⟨a, b, h₁, h₂, hab⟩
  · simp only [h₁, h₂]
    exact ⟨hedge, h⟩
  · have hfresh : a.fresh req.now = b.fresh req.now := by rw [Cached.fresh, Cached.fresh, hab.2]
    simp only [h₁, h₂, hfresh]
    split
    · exact ⟨.inr ⟨_, _, rfl, rfl, hab.1.answer 30 .memoryHit⟩, h⟩
    · exact ⟨hedge, h.withAnswers (h.alike.metadata.erase req.path) h.alike.history h.alike.edge⟩

theorem Paired.getHistory (h : Paired rules exact d₁ d₂ w₁ w₂) (req : PublicRequest) (key : CacheKey) :
    BothGive rules exact d₁ d₂ (SameFound exact) (getPublicHistoryCache w₁ req key)
      (getPublicHistoryCache w₂ req key) := by
  have hedge := h.alike.matchEdge req (publicCacheRequest req) 10
  rw [getPublicHistoryCache, getPublicHistoryCache]
  rcases h.alike.history.get? key with ⟨h₁, h₂⟩ | ⟨a, b, h₁, h₂, hab⟩
  · simp only [h₁, h₂]
    exact ⟨hedge, h⟩
  · have hfresh : a.fresh req.now = b.fresh req.now := by rw [Cached.fresh, Cached.fresh, hab.2]
    simp only [h₁, h₂, hfresh]
    split
    · exact ⟨.inr ⟨_, _, rfl, rfl, hab.1.answer 10 .memoryHit⟩, h⟩
    · exact ⟨hedge, h.withAnswers h.alike.metadata (h.alike.history.erase key) h.alike.edge⟩

theorem rel_makeRoom {κ : Type} {l m : List (κ × Cached PublicBody)} (h : Assoc.Rel (SameEntry exact) l m)
    (maxEntries : Nat) : Assoc.Rel (SameEntry exact) (makeRoom maxEntries l) (makeRoom maxEntries m) := by
  rw [makeRoom, makeRoom, List.Forall₂.length_eq h]
  split
  · exact h.tail
  · exact h

theorem Paired.setMetadata (h : Paired rules exact d₁ d₂ w₁ w₂) (req : PublicRequest)
    (hab : SameBody exact a b) (cacheEdge : Bool) :
    BothGive rules exact d₁ d₂ (SameAnswer exact) (setPublicMetadataResponse w₁ req a cacheEdge)
      (setPublicMetadataResponse w₂ req b cacheEdge) := by
  have hmetadata := Assoc.Rel.set (rel_makeRoom h.alike.metadata PUBLIC_METADATA_CACHE_MAX_ENTRIES) req.path
    (show SameEntry exact ⟨a, req.now + PUBLIC_METADATA_CACHE_MS⟩ ⟨b, req.now + PUBLIC_METADATA_CACHE_MS⟩
      from ⟨hab, rfl⟩)
  refine ⟨hab.answer 30 .miss, ?_⟩
  rw [setPublicMetadataResponse, setPublicMetadataResponse]
  cases cacheEdge with
  | false => exact h.withAnswers hmetadata h.alike.history h.alike.edge
  | true => exact h.withAnswers hmetadata h.alike.history (h.alike.edge.set _ ⟨hab, rfl⟩)

theorem Paired.setHistory (h : Paired rules exact d₁ d₂ w₁ w₂) (req : PublicRequest) (key : CacheKey)
    (body : PublicBody) :
    BothGive rules exact d₁ d₂ (SameAnswer exact) (setPublicHistoryCache w₁ req key body)
      (setPublicHistoryCache w₂ req key body) :=
  ⟨.refl _, h.withAnswers h.alike.metadata
    ((rel_makeRoom h.alike.history PUBLIC_HISTORY_CACHE_MAX_ENTRIES).set key ⟨.refl body, rfl⟩)
    (h.alike.edge.set _ ⟨.refl body, rfl⟩)⟩

/-! ## Routes -/

variable (limiter : Limiter L)

theorem Paired.limit (h : Paired rules exact d₁ d₂ w₁ w₂) (req : PublicRequest) (bucket : String)
    (maxRequests : Nat) :
    BothGive rules exact d₁ d₂ Eq (publicApiRateLimit limiter w₁ req bucket maxRequests)
      (publicApiRateLimit limiter w₂ req bucket maxRequests) := by
  rw [publicApiRateLimit, publicApiRateLimit, h.alike.limiter]
  exact ⟨rfl, ⟨h.holds₁.1, h.holds₁.2, h.holds₁.3, h.holds₁.4⟩, ⟨h.holds₂.1, h.holds₂.2, h.holds₂.3, h.holds₂.4⟩,
    h.alike.metadata, h.alike.history, h.alike.edge, rfl, h.alike.snapshots⟩

theorem Paired.localLimit (h : Paired rules exact d₁ d₂ w₁ w₂) (req : PublicRequest) (bucket : String)
    (maxRequests : Nat) :
    BothGive rules exact d₁ d₂ Eq (localPublicApiRateLimit limiter w₁ req bucket maxRequests)
      (localPublicApiRateLimit limiter w₂ req bucket maxRequests) := by
  rw [localPublicApiRateLimit, localPublicApiRateLimit, h.alike.limiter]
  exact ⟨rfl, ⟨h.holds₁.1, h.holds₁.2, h.holds₁.3, h.holds₁.4⟩, ⟨h.holds₂.1, h.holds₂.2, h.holds₂.3, h.holds₂.4⟩,
    h.alike.metadata, h.alike.history, h.alike.edge, rfl, h.alike.snapshots⟩

/-- A route over the two databases: it computes the same for a visitor. -/
structure RoutesAgree (rules : RouteRules) (exact : Prop) (d₁ d₂ : PublicData) (r₁ r₂ : MetadataRoute L) :
    Prop where
  bucket : r₁.bucket = r₂.bucket
  takesFresh : r₁.takesFresh = r₂.takesFresh
  takesHidden : r₁.takesHidden = r₂.takesHidden
  compute : ∀ (w₁ w₂ : Worker L) (fresh includeHidden : Bool), Paired rules exact d₁ d₂ w₁ w₂ →
    (includeHidden = false →
      SameBody exact (r₁.compute w₁ fresh includeHidden).1 (r₂.compute w₂ fresh includeHidden).1) ∧
    Paired rules exact d₁ d₂ (r₁.compute w₁ fresh includeHidden).2 (r₂.compute w₂ fresh includeHidden).2

theorem Paired.looked (h : Paired rules exact d₁ d₂ w₁ w₂) (req : PublicRequest) (skip : Bool) :
    BothGive rules exact d₁ d₂ (SameFound exact) (if skip then (none, w₁) else getPublicMetadataResponse w₁ req)
      (if skip then (none, w₂) else getPublicMetadataResponse w₂ req) := by
  cases skip with
  | true => exact ⟨.inl ⟨rfl, rfl⟩, h⟩
  | false => exact h.getMetadata req

/-- **A metadata route in two runs.** -/
theorem Paired.metadata (h : Paired rules exact d₁ d₂ w₁ w₂) {r₁ r₂ : MetadataRoute L}
    (hr : RoutesAgree rules exact d₁ d₂ r₁ r₂) (req : PublicRequest) :
    BothGive rules exact d₁ d₂ (fun a b => req.includeHidden = false → SameAnswer exact a b)
      (serveMetadata limiter r₁ w₁ req) (serveMetadata limiter r₂ w₂ req) := by
  unfold serveMetadata
  rw [hr.bucket, hr.takesFresh, hr.takesHidden]
  obtain ⟨hfound, hlooked⟩ := h.looked req (r₂.takesFresh && req.fresh || r₂.takesHidden && req.includeHidden)
  dsimp only
  rcases hfound with ⟨h₁, h₂⟩ | ⟨a, b, h₁, h₂, hab⟩
  · rw [h₁, h₂]
    dsimp only
    obtain ⟨hlimit, hlimited⟩ := hlooked.limit limiter req ("metadata:" ++ r₂.bucket) 120
    rw [hlimit]
    split
    · exact ⟨fun _ => .refl _, hlimited⟩
    · obtain ⟨hbody, hcomputed⟩ := hr.compute _ _ (r₂.takesFresh && req.fresh)
        (r₂.takesHidden && req.includeHidden) hlimited
      split
      · rename_i hincludes
        refine ⟨fun hvisitor => ?_, hcomputed⟩
        rw [hvisitor, Bool.and_false] at hincludes
        cases hincludes
      · rename_i hincludes
        obtain ⟨hanswer, hset⟩ := hcomputed.setMetadata req (hbody (by simpa using hincludes))
          (!(r₂.takesFresh && req.fresh))
        exact ⟨fun _ => hanswer, hset⟩
  · rw [h₁, h₂]
    dsimp only
    obtain ⟨hlimit, hlimited⟩ := hlooked.localLimit limiter req ("metadata:" ++ r₂.bucket) 120
    rw [hlimit]
    refine ⟨fun _ => ?_, hlimited⟩
    cases (localPublicApiRateLimit limiter _ req ("metadata:" ++ r₂.bucket) 120).1 with
    | none => exact hab
    | some refused => exact .refl refused

theorem Paired.snapshot_nodes (h : Paired rules exact d₁ d₂ w₁ w₂) (hd : SamePublic rules exact d₁ d₂)
    (now : Int) (force : Bool) :
    (getPublicClientsSnapshot rules d₁ w₁ now force false).1.clients
        = (getPublicClientsSnapshot rules d₂ w₂ now force false).1.clients ∧
    (getPublicClientsSnapshot rules d₁ w₁ now force false).1.nodes
        = (getPublicClientsSnapshot rules d₂ w₂ now force false).1.nodes ∧
    (getPublicClientsSnapshot rules d₁ w₁ now force false).1.publicClientIds
        = (getPublicClientsSnapshot rules d₂ w₂ now force false).1.publicClientIds := by
  have h₁ := (getPublicClientsSnapshot_spec h.holds₁ now force false).1 rfl
  have h₂ := (getPublicClientsSnapshot_spec h.holds₂ now force false).1 rfl
  refine ⟨?_, ?_, ?_⟩
  · rw [h₁.clients, h₂.clients, hd.visible]
  · rw [h₁.nodes, h₂.nodes, hd.visible]
  · rw [h₁.publicClientIds, h₂.publicClientIds, visibleIds, visibleIds, hd.visible]

section

variable (hd : SamePublic rules exact d₁ d₂)

include hd

theorem routesAgree_clients (now : Int) :
    RoutesAgree rules exact d₁ d₂ (clientsRoute (L := L) rules d₁ now) (clientsRoute rules d₂ now) where
  bucket := rfl
  takesFresh := rfl
  takesHidden := rfl
  compute w₁ w₂ fresh includeHidden h := by
    refine ⟨?_, (h.snapshot hd now fresh includeHidden).1⟩
    rintro rfl
    rw [clientsRoute, clientsRoute]
    dsimp only
    rw [(h.snapshot_nodes hd now fresh).1]
    exact .refl _

theorem routesAgree_nodes (now : Int) :
    RoutesAgree rules exact d₁ d₂ (nodesRoute (L := L) rules d₁ now) (nodesRoute rules d₂ now) where
  bucket := rfl
  takesFresh := rfl
  takesHidden := rfl
  compute w₁ w₂ fresh includeHidden h := by
    refine ⟨?_, (h.snapshot hd now false includeHidden).1⟩
    rintro rfl
    rw [nodesRoute, nodesRoute]
    dsimp only
    rw [(h.snapshot_nodes hd now false).2.1]
    exact .refl _

theorem routesAgree_settings (now : Int) :
    RoutesAgree rules exact d₁ d₂ (settingsRoute (L := L) d₁ now) (settingsRoute d₂ now) where
  bucket := rfl
  takesFresh := rfl
  takesHidden := rfl
  compute w₁ w₂ fresh includeHidden h := by
    refine ⟨fun _ => ?_, h.settings now fresh⟩
    rw [settingsRoute, settingsRoute]
    dsimp only
    rw [(getPublicSettings_spec h.holds₁ now fresh).1, (getPublicSettings_spec h.holds₂ now fresh).1,
      hd.settings]
    exact .refl _

theorem routesAgree_bootstrap (now : Int) :
    RoutesAgree rules exact d₁ d₂ (bootstrapRoute (L := L) rules d₁ now) (bootstrapRoute rules d₂ now) where
  bucket := rfl
  takesFresh := rfl
  takesHidden := rfl
  compute w₁ w₂ fresh includeHidden h := by
    have hsettings := h.settings now fresh
    obtain ⟨hsnapshot, hexact⟩ := hsettings.snapshot hd now fresh includeHidden
    refine ⟨?_, hsnapshot⟩
    rintro rfl
    obtain ⟨hclients, hnodes, -⟩ := hsettings.snapshot_nodes hd now fresh
    rw [bootstrapRoute, bootstrapRoute]
    dsimp only
    rw [(getPublicSettings_spec h.holds₁ now fresh).1, (getPublicSettings_spec h.holds₂ now fresh).1,
      hd.settings, hclients, hnodes, hd.live]
    exact ⟨rfl, fun he => by rw [hexact he rfl]⟩

theorem routesAgree_pingTasks (now : Int) :
    RoutesAgree rules exact d₁ d₂ (pingTasksRoute (L := L) rules d₁ now) (pingTasksRoute rules d₂ now) where
  bucket := rfl
  takesFresh := rfl
  takesHidden := rfl
  compute w₁ w₂ fresh includeHidden h := by
    have hsnapshot := (h.snapshot hd now fresh includeHidden).1
    have hsettings := hsnapshot.settings now fresh
    rw [pingTasksRoute, pingTasksRoute]
    dsimp only
    refine ⟨?_, hsettings.pingTasks _ _ _ _ now fresh⟩
    rintro rfl
    rw [(getPublicPingTasks_spec hsettings.holds₁ _ _ now fresh).1,
      (getPublicPingTasks_spec hsettings.holds₂ _ _ now fresh).1,
      (getPublicSettings_spec hsnapshot.holds₁ now fresh).1,
      (getPublicSettings_spec hsnapshot.holds₂ now fresh).1,
      (h.snapshot_nodes hd now fresh).2.2, hd.settings, hd.pingTasks]
    exact .refl _

end

/-! ## Histories -/

/-- What a visitor's request for the history of a node leaves before it looks for an answer. -/
def afterVisibility (rules : RouteRules) (data : PublicData) (w : Worker L) (req : PublicRequest)
    (uuid : String) : Worker L :=
  match (Assoc.get? w.visibility uuid).filter fun entry => entry.fresh req.now with
  | some _ => w
  | none => (getPublicClientsSnapshot rules data w req.now false false).2

theorem prepareVisibility_visitor {data : PublicData} {w : Worker L} (hw : w.Holds rules data)
    (req : PublicRequest) (key : CacheKey) (uuid : String) (hvisitor : req.includeHidden = false) :
    prepareVisibility rules data w req key uuid =
      if uuid ∈ visibleIds rules data then
        ((true, (getPublicHistoryCache (afterVisibility rules data w req uuid) req key).1),
          (getPublicHistoryCache (afterVisibility rules data w req uuid) req key).2)
      else ((false, none), afterVisibility rules data w req uuid) := by
  rw [prepareVisibility, afterVisibility]
  simp only [hvisitor, Bool.not_false, Bool.true_and]
  cases hentry : (Assoc.get? w.visibility uuid).filter fun entry => entry.fresh req.now with
  | some entry =>
    have hvalue := hw.visibility uuid entry (Option.filter_eq_some_iff.mp hentry).1
    simp only [hvalue, decide_eq_true_eq]
  | none =>
    have hshows := (getPublicClientsSnapshot_spec hw req.now false false).1 rfl
    simp only [hshows.publicClientIds, Bool.false_eq_true, if_false]

theorem Paired.afterVisibility (h : Paired rules exact d₁ d₂ w₁ w₂) (hd : SamePublic rules exact d₁ d₂)
    (req : PublicRequest) (uuid : String) :
    Paired rules exact d₁ d₂ (afterVisibility rules d₁ w₁ req uuid) (afterVisibility rules d₂ w₂ req uuid) := by
  have hone : ∀ (data : PublicData) (w : Worker L), w.Holds rules data →
      (Public.afterVisibility rules data w req uuid).Holds rules data ∧
      w.SameAnswers (Public.afterVisibility rules data w req uuid) := by
    intro data w hw
    rw [Public.afterVisibility]
    split
    · exact ⟨hw, .refl w⟩
    · exact (getPublicClientsSnapshot_spec hw req.now false false).2
  obtain ⟨hholds₁, hsame₁⟩ := hone d₁ w₁ h.holds₁
  obtain ⟨hholds₂, hsame₂⟩ := hone d₂ w₂ h.holds₂
  refine ⟨hholds₁, hholds₂, h.alike.inner hsame₁ hsame₂ fun he => ?_⟩
  rw [Public.afterVisibility, Public.afterVisibility, (h.alike.snapshots he).2 uuid]
  split
  · exact h.alike.snapshots he
  · exact (h.snapshot hd req.now false false).1.alike.snapshots he

theorem prepareVisibility_admin (rules : RouteRules) (data : PublicData) (w : Worker L) (req : PublicRequest) (key : CacheKey)
    (uuid : String) (hadmin : req.includeHidden = true) :
    ∃ visible, prepareVisibility rules data w req key uuid =
      ((visible, none), (getPublicClientsSnapshot rules data w req.now false true).2) := by
  have hnone : ((Assoc.get? w.visibility uuid).filter fun entry => !req.includeHidden && entry.fresh req.now)
      = none := by
    rw [hadmin]
    exact Option.filter_eq_none_iff.mpr fun _ _ => by simp
  rw [prepareVisibility, hnone, hadmin]
  dsimp only
  split
  · exact ⟨true, rfl⟩
  · exact ⟨false, rfl⟩

theorem publicHistoryResult_admin (w : Worker L) (req : PublicRequest) (key : CacheKey)
    (value : Except String Json) (hadmin : req.includeHidden = true) :
    (publicHistoryResult w req key value).2 = w := by
  cases value with
  | error error => rfl
  | ok value =>
    rw [publicHistoryResult, if_pos hadmin]

theorem Paired.historyResult (h : Paired rules exact d₁ d₂ w₁ w₂) (req : PublicRequest) (key : CacheKey)
    (value : Except String Json) (hvisitor : req.includeHidden = false) :
    BothGive rules exact d₁ d₂ (SameAnswer exact) (publicHistoryResult w₁ req key value)
      (publicHistoryResult w₂ req key value) := by
  cases value with
  | error error => exact ⟨.refl _, h⟩
  | ok value =>
    rw [publicHistoryResult, publicHistoryResult, if_neg (by simp [hvisitor]), if_neg (by simp [hvisitor])]
    exact h.setHistory req key (.history value)

/-- The history of a visible node. -/
theorem SamePublic.read (hd : SamePublic rules exact d₁ d₂) {route : HistoryRoute} (hasks : route.Asks)
    (hvisible : route.uuid ∈ visibleIds rules d₁) :
    route.visible.map (HistoryRead.value d₁.records) = route.visible.map (HistoryRead.value d₂.records) := by
  cases hread : route.visible with
  | error error => rfl
  | ok read =>
    have hcall : d₁.records read.call = d₂.records read.call :=
      hd.records read.call (by rw [hasks read hread]; exact hvisible)
    cases read with
    | plain call => exact congrArg Except.ok hcall
    | asPage call =>
      show Except.ok (HistoryRead.value d₁.records (.asPage call)) = Except.ok (HistoryRead.value d₂.records (.asPage call))
      rw [HistoryRead.value, HistoryRead.value]
      rw [show d₁.records call = d₂.records call from hcall]

/-- **A history route in two runs.** -/
theorem Paired.history (h : Paired rules exact d₁ d₂ w₁ w₂) (hd : SamePublic rules exact d₁ d₂)
    (req : PublicRequest) (name : HistoryRouteName) :
    BothGive rules exact d₁ d₂ (fun a b => req.includeHidden = false → SameAnswer exact a b)
      (serveHistory rules limiter d₁ w₁ req name) (serveHistory rules limiter d₂ w₂ req name) := by
  unfold serveHistory
  cases hroute : historyRoute rules.time name req.query with
  | error error => exact ⟨fun _ => .refl _, h⟩
  | ok route =>
    obtain ⟨hlimit, hlimited⟩ := h.limit limiter req ("history:" ++ route.bucket) 60
    dsimp only
    rw [hlimit]
    split
    · exact ⟨fun _ => .refl _, hlimited⟩
    · cases hprivilege : req.includeHidden with
      | true =>
        obtain ⟨visible₁, h₁⟩ := prepareVisibility_admin rules d₁
          (publicApiRateLimit limiter w₁ req ("history:" ++ route.bucket) 60).2 req
          (publicHistoryCacheKey req route.bucket) route.uuid hprivilege
        obtain ⟨visible₂, h₂⟩ := prepareVisibility_admin rules d₂
          (publicApiRateLimit limiter w₂ req ("history:" ++ route.bucket) 60).2 req
          (publicHistoryCacheKey req route.bucket) route.uuid hprivilege
        rw [h₁, h₂]
        refine ⟨nofun, ?_⟩
        rw [publicHistoryResult_admin _ _ _ _ hprivilege, publicHistoryResult_admin _ _ _ _ hprivilege]
        exact (hlimited.snapshot hd req.now false true).1
      | false =>
        rw [prepareVisibility_visitor hlimited.holds₁ req _ route.uuid hprivilege,
          prepareVisibility_visitor hlimited.holds₂ req _ route.uuid hprivilege]
        have hafter := hlimited.afterVisibility hd req route.uuid
        have hids : visibleIds rules d₁ = visibleIds rules d₂ := congrArg (List.map ClientRow.uuid) hd.visible
        rw [← hids]
        by_cases hvisible : route.uuid ∈ visibleIds rules d₁
        · rw [if_pos hvisible, if_pos hvisible]
          obtain ⟨hfound, hhistory⟩ := hafter.getHistory req (publicHistoryCacheKey req route.bucket)
          dsimp only
          rcases hfound with ⟨h₁, h₂⟩ | ⟨a, b, h₁, h₂, hab⟩
          · rw [h₁, h₂]
            dsimp only
            rw [if_pos rfl, if_pos rfl, hd.read (historyRoute_asks rules.time hroute) hvisible]
            obtain ⟨hanswer, hset⟩ := hhistory.historyResult req (publicHistoryCacheKey req route.bucket)
              (route.visible.map (HistoryRead.value d₂.records)) hprivilege
            exact ⟨fun _ => hanswer, hset⟩
          · rw [h₁, h₂]
            exact ⟨fun _ => hab, hhistory⟩
        · rw [if_neg hvisible, if_neg hvisible]
          dsimp only
          obtain ⟨hanswer, hset⟩ := hafter.historyResult req (publicHistoryCacheKey req route.bucket)
            route.invisible hprivilege
          exact ⟨fun _ => hanswer, hset⟩

/-! ## Runs -/

/-- **One request in two runs.** -/
theorem Paired.serve (h : Paired rules exact d₁ d₂ w₁ w₂) (hd : SamePublic rules exact d₁ d₂)
    (req : PublicRequest) :
    BothGive rules exact d₁ d₂ (fun a b => req.includeHidden = false → SameAnswer exact a b)
      (serve rules limiter d₁ w₁ req) (serve rules limiter d₂ w₂ req) := by
  rw [Public.serve, Public.serve]
  cases req.route with
  | clients => exact h.metadata limiter (routesAgree_clients hd req.now) req
  | nodes => exact h.metadata limiter (routesAgree_nodes hd req.now) req
  | settings => exact h.metadata limiter (routesAgree_settings hd req.now) req
  | bootstrap => exact h.metadata limiter (routesAgree_bootstrap hd req.now) req
  | pingTasks => exact h.metadata limiter (routesAgree_pingTasks hd req.now) req
  | history name => exact h.history limiter hd req name

/-- **A run of requests**, by induction on the requests. -/
theorem Paired.answers (hd : SamePublic rules exact d₁ d₂) (requests : List PublicRequest) :
    ∀ {w₁ w₂ : Worker L}, Paired rules exact d₁ d₂ w₁ w₂ →
      List.Forall₂ (SameAnswer exact) (visitorAnswers rules limiter d₁ w₁ requests)
        (visitorAnswers rules limiter d₂ w₂ requests) := by
  induction requests with
  | nil => exact fun _ => .nil
  | cons req rest ih =>
    intro w₁ w₂ h
    obtain ⟨hanswer, hserved⟩ := h.serve limiter hd req
    rw [visitorAnswers, visitorAnswers]
    cases hprivilege : req.includeHidden with
    | true => exact ih hserved
    | false => exact .cons (hanswer hprivilege) (ih hserved)

theorem Paired.empty (limits : L) :
    Paired rules exact d₁ d₂ (Worker.empty limits) (Worker.empty limits) where
  holds₁ := ⟨nofun, nofun, nofun, nofun⟩
  holds₂ := ⟨nofun, nofun, nofun, nofun⟩
  alike := ⟨.nil, .nil, .nil, rfl, fun _ => ⟨rfl, fun _ => rfl⟩⟩

theorem forall₂_sameAnswer {as bs : List PublicAnswer} (h : List.Forall₂ (SameAnswer exact) as bs) :
    as.map PublicAnswer.withoutVersion = bs.map PublicAnswer.withoutVersion ∧ (exact → as = bs) := by
  induction h with
  | nil => exact ⟨rfl, fun _ => rfl⟩
  | cons hab _ ih =>
    refine ⟨?_, fun he => by rw [hab.2 he, ih.2 he]⟩
    rw [List.map_cons, List.map_cons, hab.1, ih.1]

end Pairs

theorem DifferInHidden.samePublic (h : DifferInHidden rules hidden d₁ d₂) :
    SamePublic rules (∀ uuid, uuid ∈ d₁.rows.map ClientRow.uuid ↔ uuid ∈ d₂.rows.map ClientRow.uuid)
      d₁ d₂ where
  visible := h.visible
  pingTasks := h.pingTasks
  settings := h.settings
  live := h.live
  records call hvisible := by
    refine h.records call fun hhidden => ?_
    obtain ⟨client, hclient, hname⟩ := List.mem_map.mp hvisible
    have hapart := apart_of_visible h.hidden₁ client hclient
    rw [apart, hname, Bool.not_eq_true', decide_eq_false_iff_not] at hapart
    exact hapart hhidden
  rows := id

/-- **Visitors see nothing of the hidden nodes.**  Whatever the administrators ask in between, every
    visitor gets the same answer over both databases, but for the `metadata_version` of the bootstrap
    payload; and the same answer altogether if both have rows for the same nodes. -/
theorem visitors_see_no_hidden (rules : RouteRules) (limiter : Limiter L) (limits : L)
    (hidden : List String) (d₁ d₂ : PublicData) (h : DifferInHidden rules hidden d₁ d₂)
    (requests : List PublicRequest) :
    (visitorAnswers rules limiter d₁ (.empty limits) requests).map PublicAnswer.withoutVersion
      = (visitorAnswers rules limiter d₂ (.empty limits) requests).map PublicAnswer.withoutVersion ∧
    ((∀ uuid, uuid ∈ d₁.rows.map ClientRow.uuid ↔ uuid ∈ d₂.rows.map ClientRow.uuid) →
      visitorAnswers rules limiter d₁ (.empty limits) requests
        = visitorAnswers rules limiter d₂ (.empty limits) requests) :=
  forall₂_sameAnswer (Paired.answers limiter h.samePublic requests (.empty limits))

/-! ## A hidden node that shows -/

/-- No times and no settings. -/
def shownRouteRules : RouteRules where
  list := shownRules
  time := ⟨fun _ => "", fun _ => none, fun _ => none, fun _ => ""⟩
  number := fun _ => none

/-- A limiter that never refuses. -/
def shownLimiter : Limiter Unit := fun limits _ => (limits, none)

/-- A hidden row. -/
def hiddenClient (uuid : String) : ClientRow := ⟨uuid, [("hidden", .bool true)]⟩

/-- A database with some rows. -/
def dataOf (rows : List ClientRow) : PublicData where
  rows := rows
  overlay := some ⟨[], 0, [], true⟩
  pingTasks := []
  settings := []
  live := fun _ => .null
  records := fun _ => .arr []

/-- A visible node, and a hidden one. -/
def withHidden : PublicData := dataOf [shownClient "a" "node" "2026-09-06T01:00:00Z", hiddenClient "h"]

/-- The visible node alone. -/
def withoutHidden : PublicData := dataOf [shownClient "a" "node" "2026-09-06T01:00:00Z"]

/-- A request at some time. -/
def requestAt (route : PublicRoute) (path : String) (query : Query) (session : Bool) (now : Int) :
    PublicRequest :=
  ⟨route, path, query, session, "203.0.113.9", now, false⟩

/-- An administrator lists all nodes; a visitor asks for the history of the hidden one, and then for the
    bootstrap payload.  Only where the hidden node has no row, its history makes the worker compute a
    snapshot. -/
def shownRequests : List PublicRequest :=
  [requestAt .clients "/api/clients" [("include_hidden", "1")] true 0,
    requestAt (.history (.recent "h")) "/api/recent/h" [] false 1000,
    requestAt .bootstrap "/api/public/bootstrap" [] false 2000]

/-- The versions in some answers. -/
def versions (answers : List PublicAnswer) : List String :=
  answers.filterMap fun answer => match answer with
    | .publicJson (.bootstrap payload) _ _ => some payload.metadataVersion
    | _ => none

theorem shown_differ : DifferInHidden shownRouteRules ["h"] withHidden withoutHidden where
  hidden₁ := by
    have hall : ((overlaidClients shownRouteRules withHidden true).all fun client =>
        !decide (client.uuid ∈ ["h"]) || isHidden client) = true := by decide +kernel
    intro client hclient hmem
    have h := List.all_eq_true.mp hall client hclient
    rw [decide_eq_true hmem] at h
    exact h
  hidden₂ := by
    have hall : ((overlaidClients shownRouteRules withoutHidden true).all fun client =>
        !decide (client.uuid ∈ ["h"])) = true := by decide +kernel
    intro client hclient hmem
    have h := List.all_eq_true.mp hall client hclient
    rw [decide_eq_true hmem] at h
    cases h
  rows := rfl
  overlay := rfl
  pingTasks := rfl
  settings := rfl
  live := rfl
  records _ _ := rfl

/-- The answers of this run, but for the version. -/
theorem shown_answers_agree :
    (visitorAnswers shownRouteRules shownLimiter withHidden (.empty ()) shownRequests).map
        PublicAnswer.withoutVersion
      = (visitorAnswers shownRouteRules shownLimiter withoutHidden (.empty ()) shownRequests).map
        PublicAnswer.withoutVersion :=
  (visitors_see_no_hidden shownRouteRules shownLimiter () ["h"] withHidden withoutHidden shown_differ
    shownRequests).1

/-- The row of the hidden node shows in the version. -/
theorem hidden_node_shows_in_version :
    ¬ ∀ (rules : RouteRules) (limiter : Limiter Unit) (hidden : List String) (d₁ d₂ : PublicData),
      DifferInHidden rules hidden d₁ d₂ → ∀ requests : List PublicRequest,
        visitorAnswers rules limiter d₁ (.empty ()) requests
          = visitorAnswers rules limiter d₂ (.empty ()) requests := by
  intro h
  have hsame := congrArg versions
    (h shownRouteRules shownLimiter ["h"] withHidden withoutHidden shown_differ shownRequests)
  have hwith : versions (visitorAnswers shownRouteRules shownLimiter withHidden (.empty ()) shownRequests)
      = ["32000"] := by decide +kernel
  have hwithout : versions (visitorAnswers shownRouteRules shownLimiter withoutHidden (.empty ()) shownRequests)
      = ["31000"] := by decide +kernel
  rw [hwith, hwithout] at hsame
  exact absurd hsame (by decide)

end CfMonitor.Public
