/-
  What a compact report keeps (`compactLiveReport`).

  1. **Normalised** (`Normalised`) — numbers in their bounds, texts within their length.  A report is so
     after `normalizeMonitorReport` (`normalizeMonitorReport_normalised`), and remains so under other
     credentials, addresses and regions (`Normalised.congr`).

  2. **Twice** (`compactLiveReport_metric`, `compactLiveReport_compact`) — of a normalised report, the
     compact one has the same metrics, but for the blanks at the end of the version; and compacting
     it again changes nothing but its addresses and region.
-/
import Mathlib
import CfMonitor.Live.MonitorReport

namespace CfMonitor.Live

open CfMonitor.Lib ReportRules
open Assoc (get? get?_erase get?_set)

/-! ## Normalised -/

/-- The metrics that may be null, with their upper bounds. -/
def nullableFields : List (String × ℚ) := [
  ("cpu", MAX_PERCENT), ("ram", MAX_COUNTER_VALUE), ("ram_total", MAX_COUNTER_VALUE),
  ("swap", MAX_COUNTER_VALUE), ("swap_total", MAX_COUNTER_VALUE), ("load", MAX_LOAD_VALUE),
  ("disk", MAX_COUNTER_VALUE), ("disk_total", MAX_COUNTER_VALUE), ("net_in", MAX_COUNTER_VALUE),
  ("net_out", MAX_COUNTER_VALUE), ("net_total_up", MAX_COUNTER_VALUE),
  ("net_total_down", MAX_COUNTER_VALUE), ("uptime", MAX_UPTIME_SECONDS)]

/-- The metrics that are counts. -/
def countFields : List String := ["process_count", "connections", "connections_udp"]

/-- A clock of a cached measurement. -/
def Clock (at_ : Int) : Prop :=
  safeInteger? (some (Json.int at_)) = some at_ ∧ 0 < at_ ∧ at_ ≤ 8640000000000000

/-- A report whose fields were normalised. -/
structure Normalised (r : Fields) : Prop where
  nullable : ∀ p ∈ nullableFields, Measured p.2 (Assoc.get? r p.1)
  gpu : ∃ x, Assoc.get? r "gpu" = some (finite x) ∧ 0 ≤ x ∧ x ≤ MAX_PERCENT
  counts : ∀ k ∈ countFields, Counted MAX_COUNT_VALUE (Assoc.get? r k)
  temp : Assoc.get? r "temp" = some .null ∨
    ∃ x, Assoc.get? r "temp" = some (finite x) ∧ -100 ≤ x ∧ x ≤ MAX_TEMPERATURE_C
  version : ∃ s, Assoc.get? r "version" = some (.str s) ∧ sliceUnits 64 s = s
  gpus : ∃ gpus : List GpuInfo, Assoc.get? r "gpus" = some (.arr (gpus.map GpuInfo.toJson)) ∧ gpus.length ≤ 16
  availability : ∀ f ∈ availabilityFields, Assoc.get? r f = Assoc.get? (selectMetricAvailability r) f
  clock : (Assoc.get? r "disk_source" = none ∧ Assoc.get? r "disk_sampled_at" = none) ∨
    (Assoc.get? r "disk_source" = some (.str "directory") ∧
      (∃ at_, Assoc.get? r "disk_sampled_at" = some (Json.int at_) ∧ Clock at_) ∧
      Assoc.get? r "disk" ≠ some .null)

variable {r r' : Fields}

/-- Only the public fields count. -/
theorem Normalised.congr (h : Normalised r)
    (hsame : ∀ f ∈ publicFields, get? r' f = get? r f) : Normalised r' := by
  have havailability : selectMetricAvailability r' = selectMetricAvailability r :=
    selectMetricAvailability_congr fun f hf => hsame f (by revert hf; revert f; decide)
  constructor
  · intro p hp
    have hpublic : ∀ p ∈ nullableFields, p.1 ∈ publicFields := by decide
    rw [hsame _ (hpublic p hp)]
    exact h.nullable p hp
  · rw [hsame _ (by decide)]
    exact h.gpu
  · intro k hk
    have hpublic : ∀ k ∈ countFields, k ∈ publicFields := by decide
    rw [hsame _ (hpublic k hk)]
    exact h.counts k hk
  · rw [hsame _ (by decide)]
    exact h.temp
  · rw [hsame _ (by decide)]
    exact h.version
  · rw [hsame _ (by decide)]
    exact h.gpus
  · intro f hf
    have hpublic : ∀ f ∈ availabilityFields, f ∈ publicFields := by decide
    rw [havailability, hsame _ (hpublic f hf)]
    exact h.availability f hf
  · rw [hsame _ (by decide), hsame _ (by decide), hsame _ (by decide)]
    exact h.clock

/-! ### Missing metrics -/

theorem metricErrors_metricErrors (errors : Fields) : metricErrors (metricErrors errors) = metricErrors errors := by
  have hget : ∀ (metrics : List String) (k : String), get? (metrics.filterMap fun metric =>
      ((Json.str? (get? errors metric)).filter isMetricError).map fun reason => (metric, Json.str reason)) k
      = if k ∈ metrics then ((Json.str? (get? errors k)).filter isMetricError).map Json.str else none := by
    intro metrics k
    induction metrics with
    | nil => rfl
    | cons m metrics ih =>
      rw [List.filterMap_cons]
      cases hm : (Json.str? (get? errors m)).filter isMetricError with
      | none =>
        simp only [Option.map_none, ih, List.mem_cons]
        by_cases hk : k = m
        · subst hk
          simp [hm]
        · simp [hk]
      | some reason =>
        simp only [Option.map_some, get?, ih, List.mem_cons]
        by_cases hk : k = m
        · subst hk
          simp [hm]
        · simp [hk]
  refine List.filterMap_congr fun metric hmetric => ?_
  have hlookup : get? (metricErrors errors) metric
      = ((Json.str? (get? errors metric)).filter isMetricError).map Json.str := by
    rw [metricErrors, hget, if_pos hmetric]
  rw [hlookup]
  cases hfilter : (Json.str? (get? errors metric)).filter isMetricError with
  | none => rfl
  | some reason =>
    have hreason : isMetricError reason = true := (Option.filter_eq_some_iff.mp hfilter).2
    simp [Json.str?, Option.filter, hreason]

/-- The capacity that is kept. -/
def capacityPart : Option Json → Fields
  | some (.num (.finite x)) => if 0 < x then [("cpu_capacity", .num (.finite x))] else []
  | _ => []

/-- The reasons that are kept. -/
def errorsPart (value : Option Json) : Fields :=
  let errors := metricErrors ((value.bind Json.obj?).getD [])
  if errors.isEmpty then [] else [("metric_errors", .obj errors)]

theorem selectMetricAvailability_eq (r : Fields) : selectMetricAvailability r
    = capacityPart (get? r "cpu_capacity") ++ errorsPart (get? r "metric_errors") := rfl

theorem capacityPart_cases (value : Option Json) :
    capacityPart value = [] ∨ ∃ x, 0 < x ∧ capacityPart value = [("cpu_capacity", .num (.finite x))] := by
  rw [capacityPart.eq_def]
  split
  · split_ifs with hpos
    · exact .inr ⟨_, hpos, rfl⟩
    · exact .inl rfl
  · exact .inl rfl

theorem errorsPart_cases (value : Option Json) :
    errorsPart value = [] ∨ ∃ errors, errors ≠ [] ∧ metricErrors errors = errors ∧
      errorsPart value = [("metric_errors", .obj errors)] := by
  simp only [errorsPart]
  split_ifs with hempty
  · exact .inl rfl
  · exact .inr ⟨_, by simpa using hempty, metricErrors_metricErrors _, rfl⟩

theorem selectMetricAvailability_idem (r : Fields) :
    selectMetricAvailability (selectMetricAvailability r) = selectMetricAvailability r := by
  rw [selectMetricAvailability_eq (selectMetricAvailability r), selectMetricAvailability_eq r]
  rcases capacityPart_cases (get? r "cpu_capacity") with hc | ⟨x, hx, hc⟩ <;>
    rcases errorsPart_cases (get? r "metric_errors") with he | ⟨errors, hne, hkept, he⟩
  · rw [hc, he]
    rfl
  · rw [hc, he]
    simp [get?, capacityPart, errorsPart, Json.obj?, hkept, hne]
  · rw [hc, he]
    simp [get?, capacityPart, errorsPart, hx, metricErrors, Json.str?]
  · rw [hc, he]
    simp [get?, capacityPart, errorsPart, Json.obj?, hkept, hne, hx]

/-! ### The normalisation -/

section Report

variable (rules : ReportRules)

theorem normalFields_nullable (r : Fields) : ∀ p ∈ nullableFields, ∃ fallbacks,
    get? (rules.normalFields r) p.1 = some (rules.boundedNullableNumber 0 p.2 (get? r p.1) fallbacks) := by
  simp only [nullableFields, List.forall_mem_cons]
  exact ⟨⟨_, rfl⟩, ⟨_, rfl⟩, ⟨_, rfl⟩, ⟨_, rfl⟩, ⟨_, rfl⟩, ⟨_, rfl⟩, ⟨_, rfl⟩, ⟨_, rfl⟩, ⟨_, rfl⟩, ⟨_, rfl⟩,
    ⟨_, rfl⟩, ⟨_, rfl⟩, ⟨_, rfl⟩, by simp⟩

theorem normalFields_counts (r : Fields) : ∀ k ∈ countFields, ∃ fallbacks, get? (rules.normalFields r) k
      = some (finite (rules.boundedInteger 0 MAX_COUNT_VALUE (get? r k :: fallbacks))) := by
  simp only [countFields, List.forall_mem_cons]
  exact ⟨⟨_, rfl⟩, ⟨_, rfl⟩, ⟨_, rfl⟩, by simp⟩

/-- A field that the normalisation writes, but for the disk. -/
theorem get?_normalize_of_normal {input : Option Json} {k : String} {value : Json}
    (hdisk : k ≠ "disk") (hk : k ∈ normalKeys)
    (h : get? (rules.normalFields (rawReport input)) k = some value) :
    get? (rules.normalizeMonitorReport input) k = some value := by
  have hclock : ∀ k ∈ normalKeys, k ∉ clockFields := by decide
  have havailability : ∀ k ∈ normalKeys, k ∉ availabilityFields := by decide
  rw [get?_normalizeMonitorReport hdisk (hclock k hk), if_neg (havailability k hk), h]
  rfl

theorem diskSampledAt_spec {report normalized : Fields} {at_ : Int}
    (h : rules.diskSampledAt report normalized = some at_) :
    get? normalized "disk" ≠ some .null ∧ Clock at_ := by
  constructor
  · intro hnull
    rw [diskSampledAt, hnull] at h
    simp at h
  · simp only [diskSampledAt] at h
    split_ifs at h
    obtain ⟨hsafe, hrange⟩ := Option.filter_eq_some_iff.mp h
    obtain ⟨hpos, hmax⟩ : 0 < at_ ∧ at_ ≤ 8640000000000000 := by
      simpa only [decide_eq_true_eq] using hrange
    have hsmall : (at_.natAbs : Int) ≤ maxSafeInteger := by
      rw [maxSafeInteger]
      omega
    have hsafe : safeInteger? (some (Json.int at_)) = some at_ := if_pos ⟨rfl, hsmall⟩
    exact ⟨hsafe, hpos, hmax⟩

theorem normalize_disk (input : Option Json) :
    (get? (rules.normalizeMonitorReport input) "disk" = some .null ∨
      get? (rules.normalizeMonitorReport input) "disk" = get? (rules.normalFields (rawReport input)) "disk") ∧
    ((get? (rules.normalizeMonitorReport input) "disk_source" = none ∧
        get? (rules.normalizeMonitorReport input) "disk_sampled_at" = none) ∨
      (get? (rules.normalizeMonitorReport input) "disk_source" = some (.str "directory") ∧
        (∃ at_, get? (rules.normalizeMonitorReport input) "disk_sampled_at" = some (Json.int at_) ∧
          Clock at_) ∧
        get? (rules.normalizeMonitorReport input) "disk" ≠ some .null)) := by
  have hbase : ∀ k, k ∈ clockFields → get? (rules.unclocked (rawReport input)) k = none := by
    intro k hk
    rw [get?_unclocked, if_pos hk]
  have hdisk : get? (rules.unclocked (rawReport input)) "disk"
      = get? (rules.normalFields (rawReport input)) "disk" := by
    rw [get?_unclocked, if_neg (by decide), if_neg (by decide)]
    rfl
  rcases normalizeMonitorReport_cases rules input with h | ⟨sampledAt, hsampled, h⟩ | h
  · rw [h]
    exact ⟨.inr hdisk, .inl ⟨hbase _ (by decide), hbase _ (by decide)⟩⟩
  · obtain ⟨hnotNull, hclock⟩ := diskSampledAt_spec rules hsampled
    have hsource : get? (rules.normalizeMonitorReport input) "disk_source" = some (.str "directory") := by
      rw [h, get?_set, if_neg (by decide), get?_set, if_pos rfl]
    have hclockField : get? (rules.normalizeMonitorReport input) "disk_sampled_at"
        = some (Json.int sampledAt) := by
      rw [h, get?_set, if_pos rfl]
    have hkept : get? (rules.normalizeMonitorReport input) "disk"
        = get? (rules.unclocked (rawReport input)) "disk" := by
      rw [h, get?_set, if_neg (by decide), get?_set, if_neg (by decide)]
    refine ⟨.inr (hkept.trans hdisk), .inr ⟨hsource, ⟨sampledAt, hclockField, hclock⟩, ?_⟩⟩
    rw [hkept]
    exact hnotNull
  · have hother : ∀ k, k ∈ clockFields → get? (rules.normalizeMonitorReport input) k = none := by
      intro k hk
      have hne : k ≠ "disk" := by
        rintro rfl
        exact absurd hk (by decide)
      rw [h, get?_set, if_neg hne]
      exact hbase k hk
    have hnull : get? (rules.normalizeMonitorReport input) "disk" = some .null := by
      rw [h, get?_set, if_pos rfl]
    exact ⟨.inl hnull, .inl ⟨hother _ (by decide), hother _ (by decide)⟩⟩

/-- **What comes out of the normalisation.** -/
theorem normalizeMonitorReport_normalised (input : Option Json) : Normalised (rules.normalizeMonitorReport input) := by
  have hpositive : ∀ p ∈ nullableFields, 0 ≤ p.2 := by
    simp only [nullableFields, List.forall_mem_cons, MAX_PERCENT, MAX_COUNTER_VALUE, MAX_LOAD_VALUE,
      MAX_UPTIME_SECONDS]
    norm_num
  constructor
  · intro p hp
    obtain ⟨fallbacks, hvalue⟩ := normalFields_nullable rules (rawReport input) p hp
    have hmeasured := measured_boundedNullableNumber rules (get? (rawReport input) p.1) fallbacks
      (hpositive p hp)
    by_cases hdisk : p.1 = "disk"
    · rw [hdisk] at hvalue hmeasured ⊢
      rcases (normalize_disk rules input).1 with h | h
      · rw [h]
        exact .inl rfl
      · rw [h, hvalue]
        exact hmeasured
    · have hkeys : ∀ p ∈ nullableFields, p.1 ∈ normalKeys := by decide
      rw [get?_normalize_of_normal rules hdisk (hkeys p hp) hvalue]
      exact hmeasured
  · refine ⟨_, get?_normalize_of_normal rules (by decide) (by decide) rfl, ?_⟩
    exact boundedNumber_mem rules _ (by norm_num [MAX_PERCENT])
  · intro k hk
    obtain ⟨fallbacks, hvalue⟩ := normalFields_counts rules (rawReport input) k hk
    have hkeys : ∀ k ∈ countFields, k ≠ "disk" ∧ k ∈ normalKeys := by decide
    rw [get?_normalize_of_normal rules (hkeys k hk).1 (hkeys k hk).2 hvalue]
    exact counted_boundedInteger rules _ (show MAX_COUNT_VALUE = ((10000000 : Int) : ℚ) by
      norm_num [MAX_COUNT_VALUE]) (by decide)
  · have htemp : get? (rules.normalizeMonitorReport input) "temp"
        = some (rules.measuredTemperature (get? (rawReport input) "temp")) :=
      get?_normalize_of_normal rules (by decide) (by decide) rfl
    rw [htemp, measuredTemperature.eq_def]
    split
    · split_ifs with hmem
      · exact .inr ⟨_, rfl, hmem⟩
      · exact .inl rfl
    · exact .inl rfl
  · exact ⟨_, get?_normalize_of_normal rules (by decide) (by decide) rfl, boundedString_fits rules _ 64⟩
  · obtain ⟨items, hitems⟩ : ∃ items, ((Json.arr? (get? (rawReport input) "gpus")).or
        (Json.arr? (get? (asObject (get? (rawReport input) "gpu")) "detailed_info"))).getD [] = items :=
      ⟨_, rfl⟩
    have hlist : get? (rules.normalizeMonitorReport input) "gpus" = some (.arr (rules.normalizeGpuList
        (asObject (get? (rawReport input) "gpu")) (get? (rawReport input) "gpus"))) :=
      get?_normalize_of_normal rules (by decide) (by decide) rfl
    rw [normalizeGpuList, hitems] at hlist
    have hgpus : ∀ l : List (Json × Nat), ∃ gpus : List GpuInfo,
        l.map (fun p => rules.normalizeGpu p.1 p.2) = gpus.map GpuInfo.toJson ∧ gpus.length = l.length := by
      intro l
      induction l with
      | nil => exact ⟨[], rfl, rfl⟩
      | cons p l ih =>
        obtain ⟨gpus, heq, hlen⟩ := ih
        obtain ⟨gpu, hgpu⟩ := exists_gpuInfo rules p.1 p.2
        exact ⟨gpu :: gpus, by rw [List.map_cons, List.map_cons, heq, hgpu], by simp [hlen]⟩
    obtain ⟨gpus, heq, hlen⟩ := hgpus (items.take 16).zipIdx
    refine ⟨gpus, by rw [hlist, heq], ?_⟩
    rw [hlen, List.length_zipIdx, List.length_take]
    omega
  · have hlookup : ∀ f ∈ availabilityFields, get? (rules.normalizeMonitorReport input) f
        = get? (selectMetricAvailability (rawReport input)) f := by
      intro f hf
      have hother : ∀ f ∈ availabilityFields, f ≠ "disk" ∧ f ∉ clockFields := by decide
      rw [get?_normalizeMonitorReport (hother f hf).1 (hother f hf).2, if_pos hf]
    have hsame : selectMetricAvailability (rules.normalizeMonitorReport input)
        = selectMetricAvailability (rawReport input) := by
      rw [selectMetricAvailability_congr hlookup, selectMetricAvailability_idem]
    intro f hf
    rw [hsame, hlookup f hf]
  · exact (normalize_disk rules input).2

end Report

/-! ### The sanitised report -/

section Sanitised

variable (rules : ReportRules)

theorem dropAddress_public {field f : String} (hf : f ≠ field) (r : Fields) :
    get? (rules.dropAddress field r) f = get? r f := by
  rw [dropAddress.eq_def]
  split
  · split_ifs
    · rw [get?_erase, if_neg hf]
    · rfl
  · rfl

theorem sanitizeReport_public (r : Fields) (network : Option ReportNetworkMetadata) {f : String}
    (hf : f ∈ publicFields) : get? (rules.sanitizeReport r network) f = get? r f := by
  have hpublic : ∀ f ∈ publicFields, f ≠ "token" ∧ f ≠ "authorization" ∧ f ≠ "password" ∧ f ≠ "ipv4" ∧
    f ≠ "ipv6" ∧ f ≠ "region" := by decide
  obtain ⟨htoken, hauthorization, hpassword, hipv4, hipv6, hregion⟩ := hpublic f hf
  have haddresses : get? (rules.dropAddress "ipv6" (rules.dropAddress "ipv4"
      (Assoc.erase (Assoc.erase (Assoc.erase r "token") "authorization") "password"))) f = get? r f := by
    rw [dropAddress_public rules hipv6, dropAddress_public rules hipv4, get?_erase, if_neg hpassword,
      get?_erase, if_neg hauthorization, get?_erase, if_neg htoken]
  have hset : ∀ (c : Prop) [Decidable c] (safe : Fields) (field value : String), f ≠ field →
      get? (if c then Assoc.set safe field (.str value) else safe) f = get? safe f := by
    intro c _ safe field value hne
    split_ifs
    · rw [get?_set, if_neg hne]
    · rfl
  have hsource : ∀ sourceIp : String, f ≠ if ':' ∈ sourceIp.toList then "ipv6" else "ipv4" := by
    intro sourceIp
    split_ifs
    · exact hipv6
    · exact hipv4
  unfold sanitizeReport
  extract_lets stripped dropped sourceIp field addressed region reportRegion placed
  have haddressed : get? addressed f = get? r f :=
    (hset _ dropped field sourceIp (hsource sourceIp)).trans haddresses
  have hplaced : get? placed f = get? r f :=
    (hset _ addressed "region" region hregion).trans haddressed
  split
  · split_ifs
    · exact hplaced
    · rw [get?_erase, if_neg hregion]
      exact hplaced
  · exact hplaced

end Sanitised

/-! ## The public part, normalised -/

section Public

variable (rules : ReportRules) {r : Fields}

/-- The public part of a report, normalised. -/
def normalPublic (r : Fields) : Fields := rules.normalizeMonitorReport (some (.obj (toPublicReport r)))

theorem rawReport_public (r : Fields) : rawReport (some (.obj (toPublicReport r))) = toPublicReport r := by
  have htype : get? (toPublicReport r) "type" = none := by
    rw [get?_toPublicReport, if_neg (by decide), if_neg (by decide), if_neg (by decide)]
    exact get?_selectMetricAvailability_other (by decide)
  have hobject : asObject (some (.obj (toPublicReport r))) = toPublicReport r := rfl
  rw [rawReport, hobject, htype]

variable {k : String}

theorem get?_public_metric (hk : k ∈ METRIC_FIELDS) : get? (toPublicReport r) k = scalar (get? r k) := by
  have hother : ∀ k ∈ METRIC_FIELDS, k ≠ "basic_info" ∧ k ≠ "gpus" := by decide
  rw [get?_toPublicReport, if_neg (hother k hk).1, if_neg (hother k hk).2, if_pos hk]

theorem public_availability (r : Fields) :
    selectMetricAvailability (toPublicReport r) = selectMetricAvailability r := by
  rw [← selectMetricAvailability_idem r]
  refine selectMetricAvailability_congr fun f hf => ?_
  have hother : ∀ f ∈ availabilityFields, f ≠ "basic_info" ∧ f ≠ "gpus" ∧ f ∉ METRIC_FIELDS := by decide
  rw [get?_toPublicReport, if_neg (hother f hf).1, if_neg (hother f hf).2.1, if_neg (hother f hf).2.2]

/-- A field that the normalisation writes. -/
theorem get?_normalPublic_of_normal {value : Json} (hdisk : k ≠ "disk") (hk : k ∈ normalKeys)
    (h : get? (rules.normalFields (toPublicReport r)) k = some value) :
    get? (normalPublic rules r) k = some value :=
  get?_normalize_of_normal rules hdisk hk (by rw [rawReport_public]; exact h)

theorem normalPublic_nullable (hr : Normalised r) {p : String × ℚ} (hp : p ∈ nullableFields) :
    get? (rules.normalFields (toPublicReport r)) p.1 = get? r p.1 := by
  have hmetric : ∀ p ∈ nullableFields, p.1 ∈ METRIC_FIELDS := by decide
  obtain ⟨fallbacks, hvalue⟩ := normalFields_nullable rules (toPublicReport r) p hp
  rw [hvalue, get?_public_metric (hmetric p hp), (hr.nullable p hp).scalar]
  exact boundedNullableNumber_of_measured (hr.nullable p hp)

theorem normalPublic_disk (hr : Normalised r) (hk : k = "disk" ∨ k ∈ clockFields) :
    get? (normalPublic rules r) k = get? r k := by
  have hdisk : get? (rules.unclocked (toPublicReport r)) "disk" = get? r "disk" := by
    rw [get?_unclocked, if_neg (by decide), if_neg (by decide),
      normalPublic_nullable rules hr (p := ("disk", MAX_COUNTER_VALUE)) (by decide)]
    rcases hr.nullable ("disk", MAX_COUNTER_VALUE) (by decide) with h | ⟨x, h, -⟩ <;> rw [h] <;> rfl
  have hclockNone : ∀ k, k ∈ clockFields → get? (rules.unclocked (toPublicReport r)) k = none := by
    intro k hk
    rw [get?_unclocked, if_pos hk]
  rcases hr.clock with ⟨hsource, hat⟩ | ⟨hsource, ⟨at_, hat, hclock⟩, hnotNull⟩
  · have hplain : normalPublic rules r = rules.unclocked (toPublicReport r) := by
      have h := normalizeMonitorReport_plain rules (some (.obj (toPublicReport r)))
        (by rw [rawReport_public, get?_public_metric (by decide), hsource]; rfl)
        (by rw [rawReport_public, get?_public_metric (by decide), hat]; rfl)
      rwa [rawReport_public] at h
    rw [hplain]
    rcases hk with rfl | hk
    · exact hdisk
    · rw [hclockNone k hk]
      simp only [clockFields, List.mem_cons, List.not_mem_nil, or_false] at hk
      rcases hk with rfl | rfl
      · exact hsource.symm
      · exact hat.symm
  · obtain ⟨x, hx, hlow, hhigh⟩ : ∃ x, get? r "disk" = some (finite x) ∧ 0 ≤ x ∧ x ≤ MAX_COUNTER_VALUE := by
      rcases hr.nullable ("disk", MAX_COUNTER_VALUE) (by decide) with h | h
      · exact absurd h hnotNull
      · exact h
    have hname : scalar (some (Json.str "directory")) = some (.str "directory") :=
      congrArg (fun s => some (Json.str s)) (show slice256 "directory" = "directory" by decide)
    have hsampled : rules.diskSampledAt (toPublicReport r) (rules.unclocked (toPublicReport r)) = some at_ := by
      rw [diskSampledAt, hdisk, get?_public_metric (by decide), get?_public_metric (by decide),
        get?_public_metric (by decide), hsource, hat, hx]
      rw [hname, if_pos ⟨rfl, rfl, by simp [scalar, finite, numberFrom, hlow, hhigh]⟩]
      have hscalar : scalar (some (Json.int at_)) = some (Json.int at_) := rfl
      rw [hscalar, hclock.1]
      simp [Option.filter, hclock.2.1, hclock.2.2]
    have hset : normalPublic rules r = Assoc.set (Assoc.set (rules.unclocked (toPublicReport r)) "disk_source"
        (.str "directory")) "disk_sampled_at" (Json.int at_) := by
      have h := normalizeMonitorReport_clocked rules (some (.obj (toPublicReport r))) (.str "directory") at_
        (by rw [rawReport_public, get?_public_metric (by decide), hsource]; exact hname)
        (by rw [rawReport_public]; exact hsampled)
      rwa [rawReport_public] at h
    rw [hset, get?_set, get?_set]
    rcases hk with rfl | hk
    · rw [if_neg (by decide), if_neg (by decide)]
      exact hdisk
    · simp only [clockFields, List.mem_cons, List.not_mem_nil, or_false] at hk
      rcases hk with rfl | rfl
      · rw [if_neg (by decide), if_pos rfl]
        exact hsource.symm
      · rw [if_pos rfl]
        exact hat.symm

/-- **The metrics stay**, but for the blanks around the version. -/
theorem normalPublic_metric (hr : Normalised r) (hk : k ∈ METRIC_FIELDS) (hversion : k ≠ "version")
    (htimestamp : k ≠ "timestamp") : get? (normalPublic rules r) k = get? r k := by
  by_cases hdisk : k = "disk" ∨ k ∈ clockFields
  · exact normalPublic_disk rules hr hdisk
  · have hsplit : ∀ k ∈ METRIC_FIELDS, k ≠ "version" → k ≠ "timestamp" → ¬ (k = "disk" ∨ k ∈ clockFields) →
        k ∈ nullableFields.map Prod.fst ∨ k = "gpu" ∨ k ∈ countFields ∨ k = "temp" := by decide
    obtain ⟨hnotDisk, -⟩ := not_or.mp hdisk
    rcases hsplit k hk hversion htimestamp hdisk with hnullable | rfl | hcount | rfl
    · obtain ⟨p, hp, rfl⟩ := List.mem_map.mp hnullable
      have hkeys : ∀ p ∈ nullableFields, p.1 ∈ normalKeys := by decide
      have hvalue := normalPublic_nullable rules hr hp
      rcases hr.nullable p hp with h | ⟨x, h, -⟩
      · rw [h] at hvalue ⊢
        exact get?_normalPublic_of_normal rules hnotDisk (hkeys p hp) hvalue
      · rw [h] at hvalue ⊢
        exact get?_normalPublic_of_normal rules hnotDisk (hkeys p hp) hvalue
    · obtain ⟨x, hx, hlow, hhigh⟩ := hr.gpu
      refine (get?_normalPublic_of_normal rules (by decide) (by decide) rfl).trans ?_
      rw [get?_public_metric (by decide), hx]
      exact congrArg (fun x => some (finite x)) (boundedNumber_of_mem hlow hhigh)
    · have hkeys : ∀ k ∈ countFields, k ∈ normalKeys ∧ k ∈ METRIC_FIELDS := by decide
      obtain ⟨fallbacks, hvalue⟩ := normalFields_counts rules (toPublicReport r) k hcount
      rw [get?_normalPublic_of_normal rules hnotDisk (hkeys k hcount).1 hvalue,
        get?_public_metric (hkeys k hcount).2, (hr.counts k hcount).scalar]
      exact boundedInteger_of_counted rules _ (hr.counts k hcount)
    · refine (get?_normalPublic_of_normal rules (by decide) (by decide) rfl).trans ?_
      rw [get?_public_metric (by decide)]
      rcases hr.temp with h | ⟨x, h, hmem⟩
      · rw [h]
        rfl
      · rw [h]
        exact congrArg some (if_pos hmem)

theorem normalPublic_version (hr : Normalised r) {version : String}
    (h : get? r "version" = some (.str version)) :
    get? (normalPublic rules r) "version" = some (.str (trim version)) := by
  obtain ⟨version', h', hfits⟩ := hr.version
  obtain rfl : version = version' := by
    rw [h] at h'
    exact Json.str.inj (Option.some.inj h')
  have hslice : slice256 version = version := sliceUnits_mono (by decide) hfits
  refine (get?_normalPublic_of_normal rules (by decide) (by decide) rfl).trans ?_
  rw [get?_public_metric (by decide), h, scalar, hslice, boundedString_of_fits hfits]

theorem normalPublic_gpus {gpus : List GpuInfo}
    (h : get? r "gpus" = some (.arr (gpus.map GpuInfo.toJson))) (hlen : gpus.length ≤ 16) :
    get? (normalPublic rules r) "gpus" = some (.arr ((gpus.map GpuInfo.trimmed).map GpuInfo.toJson)) := by
  have hpublic : get? (toPublicReport r) "gpus" = some (.arr (gpus.map GpuInfo.toJson)) := by
    rw [get?_toPublicReport, if_neg (by decide), if_pos rfl, h, publicGpus]
    have htake : (gpus.map GpuInfo.toJson).take 16 = gpus.map GpuInfo.toJson :=
      List.take_of_length_le (by rwa [List.length_map])
    rw [Json.arr?, Option.getD_some, htake, List.map_map]
    exact congrArg (fun l => some (Json.arr l)) (List.map_congr_left fun gpu _ => gpu.selectScalarsOf_toJson)
  refine (get?_normalPublic_of_normal rules (by decide) (by decide) rfl).trans ?_
  rw [hpublic, normalizeGpuList, Json.arr?, Option.some_or, Option.getD_some]
  have htake : (gpus.map GpuInfo.toJson).take 16 = gpus.map GpuInfo.toJson :=
    List.take_of_length_le (by rwa [List.length_map])
  rw [htake, List.zipIdx_map, List.map_map, List.map_map]
  have hindex : ∀ n, (gpus.zipIdx n).map (fun p => p.1.trimmed.toJson)
      = gpus.map (GpuInfo.toJson ∘ GpuInfo.trimmed) := by
    intro n
    rw [← List.zipIdx_map_fst n gpus, List.map_map, List.zipIdx_map_fst]
    rfl
  refine congrArg (fun l => some (Json.arr l)) (Eq.trans ?_ (hindex 0))
  exact List.map_congr_left fun p _ => normalizeGpu_toJson rules p.1 p.2

theorem normalPublic_other (hk : k ∉ normalKeys) (hclock : k ∉ clockFields) :
    get? (normalPublic rules r) k = if k ∈ availabilityFields then get? (selectMetricAvailability r) k
      else get? (toPublicReport r) k := by
  have hdisk : k ≠ "disk" := by
    rintro rfl
    exact absurd (by decide) hk
  rw [normalPublic, get?_normalizeMonitorReport hdisk hclock, rawReport_public, public_availability,
    get?_normalFields_other hk, Option.none_or]

end Public

/-! ## Compact reports -/

/-- The fields that a compact report takes from the whole one. -/
def networkFields : List String := ["ipv4", "ipv6", "region"]

/-- The same report, but for the addresses and the region. -/
def SameReport (r r' : Fields) : Prop := ∀ k, k ∉ networkFields → Assoc.get? r k = Assoc.get? r' k

theorem SameReport.refl (r : Fields) : SameReport r r := fun _ _ => rfl

theorem SameReport.symm (h : SameReport r r') : SameReport r' r := fun k hk => (h k hk).symm

theorem SameReport.trans {r'' : Fields} (h : SameReport r r') (h' : SameReport r' r'') : SameReport r r'' :=
  fun k hk => (h k hk).trans (h' k hk)

/-- A field of the network is written. -/
theorem SameReport.set (r : Fields) {k : String} (value : Json) (hk : k ∈ networkFields) :
    SameReport (Assoc.set r k value) r := by
  intro m hm
  have hne : m ≠ k := by
    rintro rfl
    exact hm hk
  rw [get?_set, if_neg hne]

theorem not_network_of_public {f : String} (h : f ∈ publicFields) : f ∉ networkFields := by
  have hall : ∀ f ∈ publicFields, f ∉ networkFields := by decide
  exact hall f h

theorem patchField_same (useful : String → Bool) {field : String} (hfield : field ∈ networkFields)
    (value : Option String) (r : Fields) : SameReport (patchField useful field value r) r := by
  rw [patchField.eq_def]
  split
  · split_ifs
    · exact SameReport.set r _ hfield
    · exact SameReport.refl r
  · exact SameReport.refl r

/-- A patch is about the network alone. -/
theorem inferredReport_same (rules : ReportRules) (patch : NetworkPatch) (r : Fields) :
    SameReport (rules.inferredReport patch r) r :=
  (patchField_same _ (by decide) _ _).trans
    ((patchField_same _ (by decide) _ _).trans (patchField_same _ (by decide) _ _))

section Compact

variable (rules : ReportRules) {r r' : Fields}

theorem keepAddress_same (r compact : Fields) {field : String} (hfield : field ∈ networkFields) :
    SameReport (rules.keepAddress r field compact) compact := by
  rw [keepAddress.eq_def]
  split
  · split_ifs
    · exact SameReport.set compact _ hfield
    · exact SameReport.refl compact
  · exact SameReport.refl compact

theorem compactLiveReport_public (r : Fields) : SameReport (rules.compactLiveReport r) (normalPublic rules r) := by
  have haddresses : SameReport (rules.keepAddress r "ipv6" (rules.keepAddress r "ipv4" (normalPublic rules r)))
      (normalPublic rules r) :=
    (keepAddress_same rules r _ (by decide)).trans (keepAddress_same rules r _ (by decide))
  rw [compactLiveReport.eq_def]
  dsimp only
  split
  · exact (SameReport.set _ _ (by decide)).trans haddresses
  · exact haddresses

/-- The network does not change what is kept of the rest. -/
theorem compactLiveReport_congr (h : SameReport r r') :
    SameReport (rules.compactLiveReport r) (rules.compactLiveReport r') := by
  have hpublic : toPublicReport r = toPublicReport r' :=
    toPublicReport_congr fun f hf => h f (not_network_of_public hf)
  have hnormal : normalPublic rules r = normalPublic rules r' := by rw [normalPublic, hpublic, normalPublic]
  have hr := compactLiveReport_public rules r
  rw [hnormal] at hr
  exact hr.trans (compactLiveReport_public rules r').symm

theorem compactLiveReport_normalised (r : Fields) : Normalised (rules.compactLiveReport r) :=
  (normalizeMonitorReport_normalised rules _).congr fun f hf =>
    compactLiveReport_public rules r f (not_network_of_public hf)

theorem publicInfo_publicInfo (info : Option Json) : publicInfo (publicInfo info) = publicInfo info := by
  match info with
  | none => rfl
  | some .null => rfl
  | some (.bool _) => rfl
  | some (.num _) => rfl
  | some (.str _) => rfl
  | some (.arr _) => rfl
  | some (.obj fields) =>
    exact congrArg (fun f => some (Json.obj f)) (selectScalars_selectScalars fields BASIC_FIELDS)

/-- **Compacting twice** is compacting once, but for the network. -/
theorem compactLiveReport_compact (hr : Normalised r) :
    SameReport (rules.compactLiveReport (rules.compactLiveReport r)) (rules.compactLiveReport r) := by
  have hcompact := compactLiveReport_normalised rules r
  have hlookup := compactLiveReport_public rules r
  intro k hk
  rw [compactLiveReport_public rules _ k hk]
  by_cases hversion : k = "version"
  · subst hversion
    obtain ⟨version, h, -⟩ := hr.version
    have hpublic := hlookup "version" hk
    rw [normalPublic_version rules hr h] at hpublic
    rw [normalPublic_version rules hcompact hpublic, hpublic, trim_trim]
  by_cases hgpus : k = "gpus"
  · subst hgpus
    obtain ⟨gpus, h, hlen⟩ := hr.gpus
    have hpublic := hlookup "gpus" hk
    rw [normalPublic_gpus rules h hlen] at hpublic
    rw [normalPublic_gpus rules hpublic (by rwa [List.length_map]), hpublic, List.map_map]
    refine congrArg (fun l => some (Json.arr l)) (List.map_congr_left fun gpu hgpu => ?_)
    obtain ⟨gpu', -, rfl⟩ := List.mem_map.mp hgpu
    exact congrArg GpuInfo.toJson gpu'.trimmed_trimmed
  by_cases htimestamp : k = "timestamp"
  · subst htimestamp
    have hpublic : ∀ r : Fields, get? (normalPublic rules r) "timestamp" = scalar (get? r "timestamp") := by
      intro r
      rw [normalPublic_other rules (by decide) (by decide), if_neg (by decide), get?_public_metric (by decide)]
    rw [hpublic, hlookup _ hk, hpublic, scalar_scalar]
  by_cases hmetric : k ∈ METRIC_FIELDS
  · exact normalPublic_metric rules hcompact hmetric hversion htimestamp
  -- what is left are the missing metrics, the basic information, and fields that are not public
  have hsplit : ∀ k ∈ normalKeys ++ clockFields, k ∈ METRIC_FIELDS ∨ k = "gpus" := by decide
  have hother : k ∉ normalKeys ∧ k ∉ clockFields := by
    constructor
    · intro hin
      rcases hsplit k (List.mem_append_left _ hin) with h | h
      · exact hmetric h
      · exact hgpus h
    · intro hin
      rcases hsplit k (List.mem_append_right _ hin) with h | h
      · exact hmetric h
      · exact hgpus h
  rw [hlookup k hk, normalPublic_other rules hother.1 hother.2, normalPublic_other rules hother.1 hother.2]
  have havailability : selectMetricAvailability (rules.compactLiveReport r) = selectMetricAvailability r := by
    rw [← selectMetricAvailability_idem r]
    refine selectMetricAvailability_congr fun f hf => ?_
    have hfields : ∀ f ∈ availabilityFields, f ∉ networkFields ∧ f ∉ normalKeys ∧ f ∉ clockFields := by decide
    obtain ⟨hnetwork, hnormal, hclock⟩ := hfields f hf
    rw [hlookup f hnetwork, normalPublic_other rules hnormal hclock, if_pos hf]
  rw [havailability]
  split_ifs
  · rfl
  · rw [get?_toPublicReport, get?_toPublicReport, if_neg hgpus, if_neg hgpus, if_neg hmetric, if_neg hmetric,
      havailability]
    split_ifs with hinfo
    · have hpublic := hlookup "basic_info" (by decide)
      rw [normalPublic_other rules (by decide) (by decide), if_neg (by decide), get?_toPublicReport, if_pos rfl]
        at hpublic
      rw [hpublic, publicInfo_publicInfo]
    · rfl

end Compact

end CfMonitor.Live
