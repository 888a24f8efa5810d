/-
  Which nodes probe a website (`cfm_agent_website_probe_tasks`).

  1. **Data** — the columns of `clients` and `website_monitors` that the query reads.  The collation of
     the database is any strict total order of texts.

  2. **Query** — a node is given a monitor that names it, or one that asks for regions.  Of a region
     only the first node counts, and it counts only among the first nodes of all regions.

  3. **Coverage** — a region is lost when its first node stands behind nodes of other regions that come
     more than once.  As many regions are covered as can be exactly if the first nodes are all of
     different regions, or show every region there is (`country_auto_covers`).
-/
import CfMonitor.Lib.RowNumber
import CfMonitor.Website.Monitor
import Mathlib.Data.List.Sort
import Mathlib.Data.String.Basic
import CfMonitor.Lib.Split

namespace CfMonitor.Website

open CfMonitor.Lib

/-! ## Data -/

/-- The columns of `clients`. -/
structure ProbeClient where
  uuid : String
  name : String
  region : String
  hidden : Int
  sortOrder : Int
  deriving DecidableEq

/-- A row of `website_monitors`: its keys and its configuration. -/
structure ProbeMonitor where
  id : Int
  sortOrder : Int
  config : MonitorConfig
  deriving DecidableEq

/-- `order by sort_order asc, id asc`. -/
def ProbeMonitor.upTo (m m' : ProbeMonitor) : Bool :=
  m.sortOrder < m'.sortOrder || (m.sortOrder == m'.sortOrder && m.id ≤ m'.id)

/-- `coalesce(nullif(region, ''), uuid)`. -/
def ProbeClient.countryKey (c : ProbeClient) : String := if c.region = "" then c.uuid else c.region

/-- The region of a node; one without a region is a region of its own. -/
def ProbeClient.ownRegion (c : ProbeClient) : String ⊕ String := if c.region = "" then .inr c.uuid else .inl c.region

open ProbeClient (countryKey ownRegion)

section

variable (collation : String → String → Prop) [DecidableRel collation]

/-! ## Query -/

/-- `order by sort_order asc, name asc, uuid asc`. -/
def ProbeClient.Before (c d : ProbeClient) : Prop :=
  c.sortOrder < d.sortOrder ∨ (c.sortOrder = d.sortOrder ∧
    (collation c.name d.name ∨ (c.name = d.name ∧ collation c.uuid d.uuid)))

instance : DecidableRel (ProbeClient.Before collation) := fun c d => by
  unfold ProbeClient.Before
  infer_instance

def visibleClients (clients : List ProbeClient) : List ProbeClient := clients.filter fun c => c.hidden = 0

/-- `row_number() over (partition by … order by …)`, of the nodes of a region. -/
def countryRank (clients : List ProbeClient) (c : ProbeClient) : Nat :=
  rowNumber (ProbeClient.Before collation) ((visibleClients clients).filter fun d => d.countryKey = c.countryKey) c

/-- The same, of all nodes. -/
def monitorRank (clients : List ProbeClient) (c : ProbeClient) : Nat :=
  rowNumber (ProbeClient.Before collation) (visibleClients clients) c

/-- `selected`. -/
def isSelected (client : String) (m : ProbeMonitor) : Bool :=
  m.config.enabled && m.config.agentProbeMode == .selected && m.config.agentProbeClients.contains client

/-- `country_selected`. -/
def isCountrySelected (clients : List ProbeClient) (client : String) (m : ProbeMonitor) : Bool :=
  m.config.enabled && m.config.agentProbeMode == .countryAuto &&
    (visibleClients clients).any fun c =>
      c.uuid == client && countryRank collation clients c == 1 &&
        decide ((monitorRank collation clients c : Int) ≤ m.config.agentProbeLimit)

/-- `least(greatest(coalesce(input_limit, 20), 1), 50)`. -/
def safeLimit (limit : Option Int) : Nat := (min (max (limit.getD 20) 1) 50).toNat

def cfm_agent_website_probe_tasks (clients : List ProbeClient) (monitors : List ProbeMonitor) (client : String)
    (limit : Option Int) : List ProbeMonitor :=
  -- `nullif(input_client, '')` equals nothing.
  let rows := if client = "" then [] else
    monitors.filter fun m => isSelected client m || isCountrySelected collation clients client m
  (rows.mergeSort ProbeMonitor.upTo).take (safeLimit limit)

/-! ## Coverage -/

/-- The nodes that are given a monitor. -/
def probedBy (clients : List ProbeClient) (monitors : List ProbeMonitor) (limit : Option Int) (m : ProbeMonitor) :
    Finset ProbeClient :=
  clients.toFinset.filter fun c => m ∈ cfm_agent_website_probe_tasks collation clients monitors c.uuid limit

/-- The regions of the visible nodes. -/
def visibleRegions (clients : List ProbeClient) : Finset (String ⊕ String) :=
  (visibleClients clients).toFinset.image ProbeClient.ownRegion

/-- Some nodes probe for as many regions as allowed. -/
structure CoversRegions (clients : List ProbeClient) (m : ProbeMonitor) (probes : Finset ProbeClient) : Prop where
  visible : ∀ c ∈ probes, c ∈ visibleClients clients
  apart : ∀ c ∈ probes, ∀ d ∈ probes, c.region ≠ "" → c.region = d.region → c = d
  count : (probes.card : Int) = min m.config.agentProbeLimit (visibleRegions clients).card
  served : visibleClients clients ≠ [] → probes.Nonempty

/-- The first visible nodes, as many as the monitor asks for. -/
def firstClients (clients : List ProbeClient) (m : ProbeMonitor) : Finset ProbeClient :=
  (visibleClients clients).toFinset.filter fun c =>
    (monitorRank collation clients c : Int) ≤ m.config.agentProbeLimit

/-- The first nodes are of different regions, and as many as the monitor asks for; or they show every region, and
    none without a region is called as the region of another.  None that is first in its region has no identifier. -/
def SpreadFirst (clients : List ProbeClient) (m : ProbeMonitor) : Prop :=
  (∀ c ∈ firstClients collation clients m, countryRank collation clients c = 1 → c.uuid ≠ "") ∧
  ((m.config.agentProbeLimit ≤ (visibleClients clients).length ∧
      ∀ c ∈ firstClients collation clients m, ∀ d ∈ firstClients collation clients m,
        c.countryKey = d.countryKey → c = d) ∨
    ((∀ c ∈ visibleClients clients, ∃ d ∈ firstClients collation clients m, d.ownRegion = c.ownRegion) ∧
      ∀ c ∈ firstClients collation clients m, ∀ d ∈ firstClients collation clients m,
        c.countryKey = d.countryKey → c.ownRegion = d.ownRegion))

instance (clients : List ProbeClient) (m : ProbeMonitor) : Decidable (SpreadFirst collation clients m) := by
  unfold SpreadFirst
  infer_instance

end

section

variable {collation : String → String → Prop} [DecidableRel collation] {clients : List ProbeClient}

omit [DecidableRel collation] in
theorem before_orders [IsStrictTotalOrder String collation] (hclients : (clients.map ProbeClient.uuid).Nodup) :
    OrdersRows (ProbeClient.Before collation) clients where
  irrefl c h := by
    rcases h with h | ⟨-, h | ⟨-, h⟩⟩
    · exact lt_irrefl _ h
    · exact irrefl_of collation _ h
    · exact irrefl_of collation _ h
  trans a b c hab hbc := by
    rcases hab with hab | ⟨hab, hname | ⟨hname, huuid⟩⟩
    · rcases hbc with hbc | ⟨hbc, -⟩
      · exact .inl (hab.trans hbc)
      · exact .inl (hbc ▸ hab)
    · rcases hbc with hbc | ⟨hbc, hname' | ⟨hname', -⟩⟩
      · exact .inl (hab ▸ hbc)
      · exact .inr ⟨hab.trans hbc, .inl (trans_of collation hname hname')⟩
      · exact .inr ⟨hab.trans hbc, .inl (hname' ▸ hname)⟩
    · rcases hbc with hbc | ⟨hbc, hname' | ⟨hname', huuid'⟩⟩
      · exact .inl (hab ▸ hbc)
      · exact .inr ⟨hab.trans hbc, .inl (hname ▸ hname')⟩
      · exact .inr ⟨hab.trans hbc, .inr ⟨hname.trans hname', trans_of collation huuid huuid'⟩⟩
  total a ha b hb hne := by
    rcases lt_trichotomy a.sortOrder b.sortOrder with h | h | h
    · exact .inl (.inl h)
    · rcases trichotomous_of collation a.name b.name with hname | hname | hname
      · exact .inl (.inr ⟨h, .inl hname⟩)
      · have huuid : a.uuid ≠ b.uuid := fun huuid => hne (List.inj_on_of_nodup_map hclients ha hb huuid)
        rcases trichotomous_of collation a.uuid b.uuid with hless | hsame | hless
        · exact .inl (.inr ⟨h, .inr ⟨hname, hless⟩⟩)
        · exact absurd hsame huuid
        · exact .inr (.inr ⟨h.symm, .inr ⟨hname.symm, hless⟩⟩)
      · exact .inr (.inr ⟨h.symm, .inl hname⟩)
    · exact .inr (.inl h)

variable {monitors : List ProbeMonitor} {limit : Option Int}

/-- With fewer monitors than rows asked for, none is cut off. -/
theorem mem_probe_tasks {client : String} {m : ProbeMonitor} (hfew : monitors.length < safeLimit limit) :
    m ∈ cfm_agent_website_probe_tasks collation clients monitors client limit ↔
      client ≠ "" ∧ m ∈ monitors ∧ (isSelected client m || isCountrySelected collation clients client m) = true := by
  simp only [cfm_agent_website_probe_tasks]
  by_cases hempty : client = ""
  · simp [hempty]
  · rw [if_neg hempty, List.take_of_length_le, List.mem_mergeSort, List.mem_filter]
    · simp [hempty]
    · rw [List.length_mergeSort]
      exact (List.length_filter_le _ _).trans hfew.le

theorem visibleClients_subset : visibleClients clients ⊆ clients := List.filter_sublist.subset

omit [DecidableRel collation] in
theorem visible_orders (collation : String → String → Prop) [IsStrictTotalOrder String collation]
    {clients : List ProbeClient} (hclients : (clients.map ProbeClient.uuid).Nodup) :
    OrdersRows (ProbeClient.Before collation) (visibleClients clients) :=
  (before_orders hclients).sublist visibleClients_subset

/-- A monitor that asks for regions goes to the nodes that are first in their region and among the first of all. -/
theorem mem_probedBy {m : ProbeMonitor}
    (hclients : (clients.map ProbeClient.uuid).Nodup) (hfew : monitors.length < safeLimit limit) (hm : m ∈ monitors)
    (henabled : m.config.enabled = true) (hmode : m.config.agentProbeMode = .countryAuto) (c : ProbeClient) :
    c ∈ probedBy collation clients monitors limit m ↔
      c ∈ firstClients collation clients m ∧ countryRank collation clients c = 1 ∧ c.uuid ≠ "" := by
  rw [probedBy, Finset.mem_filter, List.mem_toFinset, mem_probe_tasks hfew, firstClients, Finset.mem_filter,
    List.mem_toFinset]
  have hselected : isSelected c.uuid m = false := by simp [isSelected, hmode]
  rw [hselected, Bool.false_or, isCountrySelected, henabled, hmode]
  simp only [Bool.true_and, beq_self_eq_true, List.any_eq_true, Bool.and_eq_true, beq_iff_eq, decide_eq_true_eq]
  constructor
  · rintro ⟨hc, hne, -, d, hd, ⟨huuid, hfirst⟩, hlimit⟩
    obtain rfl := List.inj_on_of_nodup_map hclients (visibleClients_subset hd) hc huuid
    exact ⟨⟨hd, hlimit⟩, hfirst, hne⟩
  · rintro ⟨⟨hc, hlimit⟩, hfirst, hne⟩
    exact ⟨visibleClients_subset hc, hne, hm, c, hc, ⟨rfl, hfirst⟩, hlimit⟩

theorem probedBy_subset {m : ProbeMonitor}
    (hclients : (clients.map ProbeClient.uuid).Nodup) (hfew : monitors.length < safeLimit limit) (hm : m ∈ monitors)
    (henabled : m.config.enabled = true) (hmode : m.config.agentProbeMode = .countryAuto) :
    probedBy collation clients monitors limit m ⊆
      (firstClients collation clients m).filter fun c => countryRank collation clients c = 1 := by
  intro c hc
  obtain ⟨hc, hfirst, -⟩ := (mem_probedBy hclients hfew hm henabled hmode c).mp hc
  exact Finset.mem_filter.mpr ⟨hc, hfirst⟩

variable [IsStrictTotalOrder String collation] {m : ProbeMonitor}

theorem card_firstClients (collation : String → String → Prop) [DecidableRel collation]
    [IsStrictTotalOrder String collation] (hclients : (clients.map ProbeClient.uuid).Nodup) (hlimit : 1 ≤ m.config.agentProbeLimit) :
    ((firstClients collation clients m).card : Int) = min m.config.agentProbeLimit (visibleClients clients).length := by
  have hnodup : (visibleClients clients).Nodup := (List.Nodup.of_map _ hclients).filter _
  have hnumbers := rowNumber_numbers (visible_orders collation hclients)
  have hcard := hnumbers.card_first hnodup m.config.agentProbeLimit.toNat
  have hsame : firstClients collation clients m = (visibleClients clients).toFinset.filter fun c =>
      rowNumber (ProbeClient.Before collation) (visibleClients clients) c ≤ m.config.agentProbeLimit.toNat := by
    refine Finset.filter_congr fun c _ => ?_
    rw [monitorRank]
    omega
  rw [hsame, hcard]
  omega

variable {c : ProbeClient}

theorem exists_first_of_region (hclients : (clients.map ProbeClient.uuid).Nodup)
    (hc : c ∈ firstClients collation clients m) :
    ∃ d ∈ firstClients collation clients m, countryRank collation clients d = 1 ∧ d.countryKey = c.countryKey := by
  obtain ⟨hc, hrank⟩ := Finset.mem_filter.mp hc
  have hc := List.mem_toFinset.mp hc
  have horder := visible_orders collation hclients
  have hpart : c ∈ (visibleClients clients).filter fun d => d.countryKey = c.countryKey :=
    List.mem_filter.mpr ⟨hc, decide_eq_true rfl⟩
  obtain ⟨d, hd, hfirst⟩ := exists_first (horder.sublist List.filter_sublist.subset) (List.ne_nil_of_mem hpart)
  obtain ⟨hdvisible, hkey⟩ := List.mem_filter.mp hd
  have hkey := of_decide_eq_true hkey
  refine ⟨d, ?_, ?_, hkey⟩
  · refine Finset.mem_filter.mpr ⟨List.mem_toFinset.mpr hdvisible, ?_⟩
    by_cases hsame : d = c
    · exact hsame ▸ hrank
    · have hbefore := (horder.total d hdvisible c hc hsame).resolve_right (hfirst c hpart)
      have hless := rowNumber_lt horder hdvisible hbefore
      rw [monitorRank] at hrank ⊢
      omega
  · rw [countryRank, hkey]
    exact rowNumber_eq_one.mpr hfirst

theorem first_of_region_unique (hclients : (clients.map ProbeClient.uuid).Nodup) {d : ProbeClient}
    (hc : c ∈ visibleClients clients) (hd : d ∈ visibleClients clients) (hfirst : countryRank collation clients c = 1)
    (hfirst' : countryRank collation clients d = 1) (hkey : c.countryKey = d.countryKey) : c = d := by
  have horder := visible_orders collation hclients
  by_contra hne
  rw [countryRank] at hfirst hfirst'
  rcases horder.total c hc d hd hne with hbefore | hbefore
  · exact rowNumber_eq_one.mp hfirst' c (List.mem_filter.mpr ⟨hc, decide_eq_true hkey⟩) hbefore
  · exact rowNumber_eq_one.mp hfirst d (List.mem_filter.mpr ⟨hd, decide_eq_true hkey.symm⟩) hbefore

/-- **The nodes that are first in their region** among the first nodes: one for each region that these show. -/
theorem card_firstOfRegions (collation : String → String → Prop) [DecidableRel collation]
    [IsStrictTotalOrder String collation] (m : ProbeMonitor) (hclients : (clients.map ProbeClient.uuid).Nodup) :
    ((firstClients collation clients m).filter fun c => countryRank collation clients c = 1).card =
      ((firstClients collation clients m).image countryKey).card := by
  have himage : ((firstClients collation clients m).filter fun c => countryRank collation clients c = 1).image
      countryKey = (firstClients collation clients m).image countryKey := by
    ext key
    constructor
    · exact fun h => Finset.image_subset_image (Finset.filter_subset _ _) h
    · intro h
      obtain ⟨c, hc, rfl⟩ := Finset.mem_image.mp h
      obtain ⟨d, hd, hfirst, hkey⟩ := exists_first_of_region hclients hc
      exact Finset.mem_image.mpr ⟨d, Finset.mem_filter.mpr ⟨hd, hfirst⟩, hkey⟩
  rw [← himage, Finset.card_image_of_injOn]
  intro c hc d hd hkey
  obtain ⟨hc, hfirst⟩ := Finset.mem_filter.mp hc
  obtain ⟨hd, hfirst'⟩ := Finset.mem_filter.mp hd
  exact first_of_region_unique hclients (List.mem_toFinset.mp (Finset.mem_of_mem_filter c hc))
    (List.mem_toFinset.mp (Finset.mem_of_mem_filter d hd)) hfirst hfirst' hkey

omit [DecidableRel collation] [IsStrictTotalOrder String collation] in
theorem countryKey_eq (c : ProbeClient) : c.countryKey = Sum.elim id id c.ownRegion := by
  rw [countryKey, ownRegion]
  split_ifs <;> rfl

omit [DecidableRel collation] [IsStrictTotalOrder String collation] in
theorem image_countryKey (nodes : Finset ProbeClient) :
    nodes.image countryKey = (nodes.image ownRegion).image (Sum.elim id id) := by
  rw [Finset.image_image]
  exact Finset.image_congr fun c _ => countryKey_eq c

omit [IsStrictTotalOrder String collation] in
/-- The first nodes show no more regions than there are, and than nodes were asked for. -/
theorem card_keys_le (collation : String → String → Prop) [DecidableRel collation] (clients : List ProbeClient)
    (m : ProbeMonitor) :
    ((firstClients collation clients m).image countryKey).card ≤
      ((firstClients collation clients m).image ownRegion).card ∧
    ((firstClients collation clients m).image ownRegion) ⊆ visibleRegions clients := by
  constructor
  · rw [image_countryKey]
    exact Finset.card_image_le
  · exact Finset.image_subset_image (Finset.filter_subset _ _)

/-- The first nodes show as many regions as they can exactly if they are of different regions, or show all. -/
theorem card_keys_eq_iff (collation : String → String → Prop) [DecidableRel collation]
    [IsStrictTotalOrder String collation] (hclients : (clients.map ProbeClient.uuid).Nodup) (hlimit : 1 ≤ m.config.agentProbeLimit) :
    (((firstClients collation clients m).image countryKey).card : Int) =
        min m.config.agentProbeLimit (visibleRegions clients).card ↔
      ((m.config.agentProbeLimit ≤ (visibleClients clients).length ∧
          ∀ c ∈ firstClients collation clients m, ∀ d ∈ firstClients collation clients m,
            c.countryKey = d.countryKey → c = d) ∨
        ((∀ c ∈ visibleClients clients, ∃ d ∈ firstClients collation clients m, d.ownRegion = c.ownRegion) ∧
          ∀ c ∈ firstClients collation clients m, ∀ d ∈ firstClients collation clients m,
            c.countryKey = d.countryKey → c.ownRegion = d.ownRegion)) := by
  obtain ⟨hkeys, hregions⟩ := card_keys_le collation clients m
  have hcard := card_firstClients collation hclients hlimit
  have hfirst := Finset.card_image_le (s := firstClients collation clients m) (f := countryKey)
  have hall := Finset.card_le_card hregions
  constructor
  · intro hcount
    by_cases hmany : m.config.agentProbeLimit ≤ (visibleRegions clients).card
    · -- As many regions as nodes: no two of the nodes share one.
      refine .inl ⟨by omega, fun c hc d hd hkey => ?_⟩
      have hinjective : Set.InjOn countryKey (firstClients collation clients m) :=
        Finset.card_image_iff.mp (by omega)
      exact hinjective hc hd hkey
    · -- As many keys as regions: all of them are shown, each by its own key.
      refine .inr ⟨fun c hc => ?_, fun c hc d hd hkey => ?_⟩
      · have hsame : (firstClients collation clients m).image ownRegion = visibleRegions clients :=
          Finset.eq_of_subset_of_card_le hregions (by omega)
        have hc : c.ownRegion ∈ visibleRegions clients := Finset.mem_image_of_mem _ (List.mem_toFinset.mpr hc)
        rw [← hsame] at hc
        exact Finset.mem_image.mp hc
      · have hinjective : Set.InjOn (Sum.elim id id)
            (((firstClients collation clients m).image ownRegion : Finset _) : Set (String ⊕ String)) :=
          Finset.card_image_iff.mp (by rw [← image_countryKey]; omega)
        refine hinjective (Finset.mem_coe.mpr (Finset.mem_image_of_mem _ hc))
          (Finset.mem_coe.mpr (Finset.mem_image_of_mem _ hd)) ?_
        rw [← countryKey_eq, ← countryKey_eq, hkey]
  · rintro (⟨hmany, hapart⟩ | ⟨hshown, hapart⟩)
    · have hinjective : Set.InjOn countryKey (firstClients collation clients m) :=
        fun c hc d hd hkey => hapart c hc d hd hkey
      have hcount := Finset.card_image_of_injOn hinjective
      omega
    · have hsame : (firstClients collation clients m).image ownRegion = visibleRegions clients := by
        refine Finset.Subset.antisymm hregions fun region hregion => ?_
        obtain ⟨c, hc, rfl⟩ := Finset.mem_image.mp hregion
        obtain ⟨d, hd, hdc⟩ := hshown c (List.mem_toFinset.mp hc)
        exact Finset.mem_image.mpr ⟨d, hd, hdc⟩
      have hinjective : Set.InjOn (Sum.elim id id)
          (((firstClients collation clients m).image ownRegion : Finset _) : Set (String ⊕ String)) := by
        intro r hr r' hr' hkey
        obtain ⟨c, hc, rfl⟩ := Finset.mem_image.mp (Finset.mem_coe.mp hr)
        obtain ⟨d, hd, rfl⟩ := Finset.mem_image.mp (Finset.mem_coe.mp hr')
        rw [← countryKey_eq, ← countryKey_eq] at hkey
        exact hapart c hc d hd hkey
      have hcount := Finset.card_image_of_injOn hinjective
      rw [← image_countryKey, hsame] at hcount
      omega

/-- **Automatic probing** covers as many regions as allowed exactly if the first nodes are spread over them. -/
theorem country_auto_covers (hclients : (clients.map ProbeClient.uuid).Nodup) {monitors : List ProbeMonitor}
    {limit : Option Int} (hfew : monitors.length < safeLimit limit) (hm : m ∈ monitors)
    (henabled : m.config.enabled = true) (hmode : m.config.agentProbeMode = .countryAuto)
    (hlimit : 1 ≤ m.config.agentProbeLimit) :
    CoversRegions clients m (probedBy collation clients monitors limit m) ↔ SpreadFirst collation clients m := by
  have hmem : ∀ c, c ∈ probedBy collation clients monitors limit m ↔ _ :=
    mem_probedBy hclients hfew hm henabled hmode
  have hfirsts := card_firstOfRegions collation m hclients
  have hiff := card_keys_eq_iff collation hclients hlimit
  have hcard := card_firstClients collation hclients hlimit
  have hsub : probedBy collation clients monitors limit m ⊆ _ := probedBy_subset hclients hfew hm henabled hmode
  obtain ⟨hkeys, hregions⟩ := card_keys_le collation clients m
  have hall := Finset.card_le_card hregions
  have hfew' := Finset.card_image_le (s := firstClients collation clients m) (f := ProbeClient.countryKey)
  have hless := Finset.card_le_card hsub
  constructor
  · intro h
    have hcount := h.count
    refine ⟨fun c hc hfirst => ?_, hiff.mp (by omega)⟩
    have hsame := Finset.eq_of_subset_of_card_le hsub (by omega)
    have hc : c ∈ probedBy collation clients monitors limit m := hsame ▸ Finset.mem_filter.mpr ⟨hc, hfirst⟩
    exact ((hmem c).mp hc).2.2
  · rintro ⟨hnamed, hspread⟩
    have hsame : probedBy collation clients monitors limit m =
        (firstClients collation clients m).filter fun c => countryRank collation clients c = 1 := by
      refine Finset.Subset.antisymm hsub fun c hc => ?_
      obtain ⟨hc, hfirst⟩ := Finset.mem_filter.mp hc
      exact (hmem c).mpr ⟨hc, hfirst, hnamed c hc hfirst⟩
    have hvisible : ∀ c ∈ probedBy collation clients monitors limit m, c ∈ visibleClients clients := fun c hc =>
      List.mem_toFinset.mp (Finset.mem_of_mem_filter c ((hmem c).mp hc).1)
    refine ⟨hvisible, fun c hc d hd hne hregion => ?_, ?_, fun hclient => ?_⟩
    · have hkey : c.countryKey = d.countryKey := by
        rw [ProbeClient.countryKey, ProbeClient.countryKey, if_neg hne, if_neg (hregion ▸ hne), hregion]
      exact first_of_region_unique hclients (hvisible c hc) (hvisible d hd) ((hmem c).mp hc).2.1 ((hmem d).mp hd).2.1 hkey
    · rw [hsame, hfirsts]
      exact hiff.mpr hspread
    · have hlength := List.length_pos_of_ne_nil hclient
      have hnonempty : (firstClients collation clients m).Nonempty := by
        rw [← Finset.card_pos]
        omega
      obtain ⟨c, hc⟩ := hnonempty
      obtain ⟨d, hd, hfirst, -⟩ := exists_first_of_region hclients hc
      exact ⟨d, hsame ▸ Finset.mem_filter.mpr ⟨hd, hfirst⟩⟩

end

/-! ## Three nodes -/

/-- A monitor that asks for nodes of two regions. -/
def twoRegions : ProbeMonitor :=
  ⟨1, 1, ⟨"https://a.example/", "GET", 200, 399, 120, 10, 180, true, .countryAuto, [], 2, true⟩⟩

/-- Two nodes of one region stand in front of the only one of another. -/
def crowded : List ProbeClient := [⟨"a", "a", "US", 0, 1⟩, ⟨"b", "b", "US", 0, 2⟩, ⟨"c", "c", "DE", 0, 3⟩]

/-- The other region stands second. -/
def spread : List ProbeClient := [⟨"a", "a", "US", 0, 1⟩, ⟨"c", "c", "DE", 0, 2⟩, ⟨"b", "b", "US", 0, 3⟩]

/-- The second region is lost, though the monitor asks for two. -/
theorem crowded_loses_region :
    ¬ CoversRegions crowded twoRegions (probedBy (· < ·) crowded [twoRegions] none twoRegions) := by
  intro h
  have hsub : probedBy (· < ·) crowded [twoRegions] none twoRegions ⊆ _ :=
    probedBy_subset (by decide) (by decide) (by decide) rfl rfl
  have hless := Finset.card_le_card hsub
  have hone : ((firstClients (· < ·) crowded twoRegions).filter fun c => countryRank (· < ·) crowded c = 1).card = 1 := by
    decide +kernel
  have htwo : (visibleRegions crowded).card = 2 := by decide +kernel
  have hcount := h.count
  rw [htwo] at hcount
  have hlimit : twoRegions.config.agentProbeLimit = 2 := rfl
  omega

/-- Both regions are probed for where their nodes stand first. -/
theorem spread_covers :
    CoversRegions spread twoRegions (probedBy (· < ·) spread [twoRegions] none twoRegions) :=
  (country_auto_covers (by decide) (by decide) (by decide) rfl rfl (by decide)).mpr (by decide +kernel)

end CfMonitor.Website
