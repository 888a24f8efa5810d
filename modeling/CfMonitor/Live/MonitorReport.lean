/-
  A report of an agent, normalised and compacted (`normalizeMonitorReport`, `compactLiveReport`,
  `sanitizeReport`), and its patches (`applyInferredNetworkMetadataToLiveReport`).

  1. **Numbers and texts** — the first number among some fields, within bounds; a text without the
     blanks around it, up to a length.

  2. **Program** — the normalised report is the payload under the fields of the fixed list.  A compact
     report is the normalised public part with the addresses and the region of the whole report.

  3. **Lookups** — what each field of a public and of a normalised report is (`get?_toPublicReport`,
     `get?_normalizeMonitorReport`); a number in its bounds, a text within its length and a device that
     were normalised once are not changed again.
-/
import Mathlib
import CfMonitor.Live.PublicSnapshot
import CfMonitor.Lib.Truncate

namespace CfMonitor.Live

open CfMonitor.Lib
open Assoc (get? get?_erase get?_merge get?_set)

/-- What the normalisation uses from elsewhere: `Number(text)` where it is finite, `String(value)` of
    what is no text, and the tests of addresses and regions. -/
structure ReportRules where
  number : String → Option ℚ
  toText : Json → String
  isPublicIpAddress : String → Bool
  isUsefulRegion : String → Bool

/-! ## Numbers and texts -/

def MAX_PERCENT : ℚ := 100
def MAX_TEMPERATURE_C : ℚ := 150
def MAX_DEVICE_INDEX : ℚ := 1024
def MAX_COUNT_VALUE : ℚ := 10000000
def MAX_LOAD_VALUE : ℚ := 10000
def MAX_UPTIME_SECONDS : ℚ := 315576000
def MAX_COUNTER_VALUE : ℚ := 1000000000000000

/-- `text.slice(0, n)`. -/
def sliceUnits (n : Nat) (text : String) : String := String.ofList (takeUnits n text.toList)

/-- A finite number as a value. -/
def finite (x : ℚ) : Json := .num (.finite x)

/-- `asObject`. -/
def asObject (value : Option Json) : Fields := (value.bind Json.obj?).getD []

namespace ReportRules

variable (rules : ReportRules)

def numberFrom : Option Json → Option ℚ
  | some (.num (.finite x)) => some x
  | some (.str s) => if trim s ≠ "" then rules.number s else none
  | _ => none

def firstNumber (values : List (Option Json)) : ℚ := (values.findSome? rules.numberFrom).getD 0

def boundedNumber (min max : ℚ) (values : List (Option Json)) : ℚ :=
  let value := rules.firstNumber values
  if value < min then min else if max < value then max else value

/-- `Math.trunc` of a bounded number. -/
def boundedInteger (min max : ℚ) (values : List (Option Json)) : ℚ :=
  truncMs (rules.boundedNumber min max values)

def boundedNullableNumber (min max : ℚ) (primary : Option Json) (fallbacks : List (Option Json)) : Json :=
  match primary with
  | some .null => .null
  | _ => finite (rules.boundedNumber min max (primary :: fallbacks))

def measuredTemperature (value : Option Json) : Json :=
  match rules.numberFrom value with
  | some temperature =>
    if -100 ≤ temperature ∧ temperature ≤ MAX_TEMPERATURE_C then finite temperature else .null
  | none => .null

/-- `String(value || '')`. -/
def textOf (value : Option Json) : String :=
  match value with
  | some (.str s) => s
  | some v => if Json.truthy (some v) then rules.toText v else ""
  | none => ""

def boundedString (value : Option Json) (maxLength : Nat) : String :=
  sliceUnits maxLength (trim (rules.textOf value))

/-! ## Program -/

/-- `gpu.device_name || gpu.name || ''`. -/
def deviceName (gpu : Fields) : Option Json :=
  if Json.truthy (Assoc.get? gpu "device_name") then Assoc.get? gpu "device_name"
  else if Json.truthy (Assoc.get? gpu "name") then Assoc.get? gpu "name"
  else some (.str "")

/-- An entry of `normalizeGpuList`. -/
def normalizeGpu (item : Json) (index : Nat) : Json :=
  let gpu := asObject (some item)
  let memTotal := rules.boundedNumber 0 MAX_COUNTER_VALUE
    [Assoc.get? gpu "mem_total", Assoc.get? gpu "memory_total"]
  let memUsedMax := if 0 < memTotal then memTotal else MAX_COUNTER_VALUE
  .obj [("device_index", finite (rules.boundedInteger 0 MAX_DEVICE_INDEX
      [Assoc.get? gpu "device_index", Assoc.get? gpu "index", some (Json.int index)])),
    ("device_name", .str (rules.boundedString (deviceName gpu) 128)),
    ("mem_total", finite memTotal),
    ("mem_used", finite (rules.boundedNumber 0 memUsedMax
      [Assoc.get? gpu "mem_used", Assoc.get? gpu "memory_used"])),
    ("utilization", finite (rules.boundedNumber 0 MAX_PERCENT [Assoc.get? gpu "utilization"])),
    ("temperature", finite (rules.boundedNumber 0 MAX_TEMPERATURE_C [Assoc.get? gpu "temperature"]))]

def normalizeGpuList (rawGpu : Fields) (rawGpus : Option Json) : List Json :=
  let list := ((Json.arr? rawGpus).or (Json.arr? (Assoc.get? rawGpu "detailed_info"))).getD []
  (list.take 16).zipIdx.map fun p => rules.normalizeGpu p.1 p.2

/-- The payload of a message, or the report itself. -/
def rawReport (input : Option Json) : Fields :=
  let inputObject := asObject input
  match Assoc.get? inputObject "type" with
  | some (.str "report") =>
    if Json.truthy (Assoc.get? inputObject "data") then asObject (Assoc.get? inputObject "data")
    else inputObject
  | _ => inputObject

/-- The fields that are written over those of the report. -/
def normalFields (report : Fields) : Fields :=
  let part (field inner : String) : Option Json := Assoc.get? (asObject (Assoc.get? report field)) inner
  let nullable (max : ℚ) (field : String) (fallbacks : List (Option Json)) : Json :=
    rules.boundedNullableNumber 0 max (Assoc.get? report field) fallbacks
  [ ("cpu", nullable MAX_PERCENT "cpu" [part "cpu" "usage"]),
    ("gpu", finite (rules.boundedNumber 0 MAX_PERCENT [Assoc.get? report "gpu", part "gpu" "average_usage"])),
    ("ram", nullable MAX_COUNTER_VALUE "ram" [part "ram" "used"]),
    ("ram_total", nullable MAX_COUNTER_VALUE "ram_total" [part "ram" "total"]),
    ("swap", nullable MAX_COUNTER_VALUE "swap" [part "swap" "used"]),
    ("swap_total", nullable MAX_COUNTER_VALUE "swap_total" [part "swap" "total"]),
    ("load", nullable MAX_LOAD_VALUE "load" [part "load" "load1"]),
    ("temp", rules.measuredTemperature (Assoc.get? report "temp")),
    ("disk", nullable MAX_COUNTER_VALUE "disk" [part "disk" "used"]),
    ("disk_total", nullable MAX_COUNTER_VALUE "disk_total" [part "disk" "total"]),
    ("net_in", nullable MAX_COUNTER_VALUE "net_in" [part "network" "down"]),
    ("net_out", nullable MAX_COUNTER_VALUE "net_out" [part "network" "up"]),
    ("net_total_up", nullable MAX_COUNTER_VALUE "net_total_up" [part "network" "totalUp"]),
    ("net_total_down", nullable MAX_COUNTER_VALUE "net_total_down" [part "network" "totalDown"]),
    ("process_count", finite (rules.boundedInteger 0 MAX_COUNT_VALUE
      [Assoc.get? report "process_count", Assoc.get? report "process"])),
    ("connections", finite (rules.boundedInteger 0 MAX_COUNT_VALUE
      [Assoc.get? report "connections", part "connections" "tcp"])),
    ("connections_udp", finite (rules.boundedInteger 0 MAX_COUNT_VALUE
      [Assoc.get? report "connections_udp", part "connections" "udp"])),
    ("uptime", nullable MAX_UPTIME_SECONDS "uptime" []),
    ("version", .str (rules.boundedString (Assoc.get? report "version") 64)),
    ("gpus", .arr (rules.normalizeGpuList (asObject (Assoc.get? report "gpu")) (Assoc.get? report "gpus")))]

/-- The clock of a measurement that was cached, if the pair is valid. -/
def diskSampledAt (report normalized : Fields) : Option Int :=
  let measuredUsed := (rules.numberFrom (Assoc.get? report "disk")).or
    (rules.numberFrom (Assoc.get? (asObject (Assoc.get? report "disk")) "used"))
  let hasDisk := match Assoc.get? normalized "disk" with
    | some .null => false
    | _ => true
  if Json.str? (Assoc.get? report "disk_source") = some "directory" ∧ hasDisk = true ∧
      measuredUsed.any (fun used => decide (0 ≤ used ∧ used ≤ MAX_COUNTER_VALUE)) = true then
    (safeInteger? (Assoc.get? report "disk_sampled_at")).filter fun at_ =>
      decide (0 < at_ ∧ at_ ≤ 8640000000000000)
  else none

def normalizeMonitorReport (input : Option Json) : Fields :=
  let report := rawReport input
  let normalized := Assoc.merge report (rules.normalFields report)
  let availability := selectMetricAvailability normalized
  let normalized := Assoc.erase (Assoc.erase normalized "cpu_capacity") "metric_errors"
  let normalized := Assoc.merge normalized availability
  let normalized := Assoc.erase (Assoc.erase normalized "disk_source") "disk_sampled_at"
  if (Assoc.get? report "disk_source").isSome ∨ (Assoc.get? report "disk_sampled_at").isSome then
    match rules.diskSampledAt report normalized with
    | some sampledAt => Assoc.set (Assoc.set normalized "disk_source" (.str "directory"))
        "disk_sampled_at" (Json.int sampledAt)
    | none => Assoc.set normalized "disk" .null
  else normalized

/-- Take an address over, if it is a public one. -/
def keepAddress (report : Fields) (field : String) (compact : Fields) : Fields :=
  match Assoc.get? report field with
  | some (.str value) =>
    if rules.isPublicIpAddress value = true then Assoc.set compact field (.str value) else compact
  | _ => compact

def compactLiveReport (report : Fields) : Fields :=
  let compact := rules.normalizeMonitorReport (some (.obj (toPublicReport report)))
  let compact := rules.keepAddress report "ipv6" (rules.keepAddress report "ipv4" compact)
  match Assoc.get? report "region" with
  | some (.str region) => Assoc.set compact "region" (.str (slice256 region))
  | _ => compact

/-- Drop an address that is not a public one. -/
def dropAddress (field : String) (report : Fields) : Fields :=
  match Assoc.get? report field with
  | some (.str value) =>
    if trim value ≠ "" ∧ rules.isPublicIpAddress (trim value) = false then Assoc.erase report field else report
  | _ => report

/-- Whether a report has a public address. -/
def hasPublic (report : Fields) (field : String) : Bool :=
  (Json.str? (Assoc.get? report field)).any rules.isPublicIpAddress

/-- The address and region of a connection. -/
structure ReportNetworkMetadata where
  sourceIp : Option String
  region : Option String

def sanitizeReport (report : Fields) (network : Option ReportNetworkMetadata) : Fields :=
  let safe := Assoc.erase (Assoc.erase (Assoc.erase report "token") "authorization") "password"
  let safe := rules.dropAddress "ipv6" (rules.dropAddress "ipv4" safe)
  let sourceIp := trim ((network.bind ReportNetworkMetadata.sourceIp).getD "")
  let field := if ':' ∈ sourceIp.toList then "ipv6" else "ipv4"
  let safe := if rules.isPublicIpAddress sourceIp = true ∧ rules.hasPublic safe field = false then
    Assoc.set safe field (.str sourceIp) else safe
  let region := trim ((network.bind ReportNetworkMetadata.region).getD "")
  let reportRegion := trim ((Json.str? (Assoc.get? safe "region")).getD "")
  let safe := if region ≠ "" ∧ rules.isUsefulRegion region = true ∧ rules.isUsefulRegion reportRegion = false then
    Assoc.set safe "region" (.str region) else safe
  match Assoc.get? safe "region" with
  | some (.str value) => if rules.isUsefulRegion value = true then safe else Assoc.erase safe "region"
  | _ => safe

/-- What was found out about the network of a node. -/
structure NetworkPatch where
  ipv4 : Option String
  ipv6 : Option String
  region : Option String
  deriving DecidableEq

/-- Write a text of a patch over the one of the report, if it is of use and another. -/
def patchField (useful : String → Bool) (field : String) (value : Option String) (report : Fields) : Fields :=
  match value with
  | some text =>
    if useful text = true ∧ trim text ≠ "" ∧ Json.str? (Assoc.get? report field) ≠ some (trim text) then
      Assoc.set report field (.str (trim text))
    else report
  | none => report

/-- The report under a patch, in `applyInferredNetworkMetadataToLiveReport`. -/
def inferredReport (patch : NetworkPatch) (report : Fields) : Fields :=
  patchField rules.isUsefulRegion "region" patch.region (patchField rules.isPublicIpAddress "ipv6" patch.ipv6
      (patchField rules.isPublicIpAddress "ipv4" patch.ipv4 report))

end ReportRules

/-! ## Texts -/

section Texts

variable {n : Nat}

variable {m : Nat}

theorem takeUnits_takeUnits (h : n ≤ m) (cs : List Char) : takeUnits m (takeUnits n cs) = takeUnits n cs := by
  induction cs generalizing n m with
  | nil => rfl
  | cons c cs ih =>
    rw [takeUnits]
    split_ifs with hc
    · rw [takeUnits, if_pos (by omega), ih (by omega)]
    · rfl

theorem takeUnits_of_part {part whole : List Char} (hpart : part <:+: whole)
    (h : takeUnits n whole = whole) : takeUnits n part = part := by
  have hsize : ∀ (n : Nat) (cs : List Char), takeUnits n cs = cs ↔ (cs.map utf16Size).sum ≤ n := by
    intro n cs
    induction cs generalizing n with
    | nil => simp [takeUnits]
    | cons c cs ih =>
      rw [takeUnits, List.map_cons, List.sum_cons]
      split_ifs with hc
      · rw [List.cons_inj_right, ih]
        omega
      · constructor
        · exact nofun
        · intro hle
          omega
  obtain ⟨front, back, rfl⟩ := hpart
  rw [hsize] at h ⊢
  simp only [List.map_append, List.sum_append] at h
  omega

theorem trim_part (s : String) : (trim s).toList <:+: s.toList := by
  rw [trim, String.toList_ofList]
  have hback : ((s.toList.dropWhile isTrimmed).reverse.dropWhile isTrimmed).reverse
      <+: s.toList.dropWhile isTrimmed := by
    rw [← List.reverse_suffix, List.reverse_reverse]
    exact List.dropWhile_suffix _
  exact hback.isInfix.trans (List.dropWhile_suffix _).isInfix

theorem sliceUnits_eq_iff {text : String} :
    sliceUnits n text = text ↔ takeUnits n text.toList = text.toList := by
  rw [sliceUnits]
  constructor
  · intro h
    have hlist := congrArg String.toList h
    rwa [String.toList_ofList] at hlist
  · intro h
    rw [h, String.ofList_toList]

theorem sliceUnits_sliceUnits (h : n ≤ m) (text : String) :
    sliceUnits m (sliceUnits n text) = sliceUnits n text := by
  rw [sliceUnits_eq_iff, sliceUnits, String.toList_ofList]
  exact takeUnits_takeUnits h _

/-- A text that fits a length fits a greater one. -/
theorem sliceUnits_mono (h : n ≤ m) {text : String} (hfits : sliceUnits n text = text) :
    sliceUnits m text = text := by
  rw [← hfits]
  exact sliceUnits_sliceUnits h text

theorem slice256_slice256 (text : String) : slice256 (slice256 text) = slice256 text :=
  sliceUnits_sliceUnits (le_refl 256) text

/-- What is left of a text that fits, without the blanks around it, fits too. -/
theorem sliceUnits_trim {text : String} (h : sliceUnits n text = text) :
    sliceUnits n (trim text) = trim text :=
  sliceUnits_eq_iff.mpr (takeUnits_of_part (trim_part text) (sliceUnits_eq_iff.mp h))

end Texts

/-! ## Projections -/

section Projections

@[simp] theorem scalar_scalar (value : Option Json) : scalar (scalar value) = scalar value := by
  match value with
  | none => rfl
  | some .null => rfl
  | some (.bool b) => rfl
  | some (.num (.finite x)) => rfl
  | some (.num (.infinite b)) => rfl
  | some (.str s) => exact congrArg (fun t => some (Json.str t)) (slice256_slice256 s)
  | some (.arr items) => rfl
  | some (.obj fields) => rfl

theorem get?_selectScalars (record : Fields) (fields : List String) (k : String) :
    get? (selectScalars record fields) k = if k ∈ fields then scalar (get? record k) else none := by
  induction fields with
  | nil => rfl
  | cons f fields ih =>
    have hstep : selectScalars record (f :: fields)
        = ((scalar (get? record f)).map fun item => (f, item)).toList ++ selectScalars record fields := by
      rw [selectScalars, List.filterMap_cons]
      cases scalar (get? record f) <;> rfl
    rw [hstep, Assoc.get?_append, ih]
    by_cases hk : k = f
    · subst hk
      cases hvalue : scalar (get? record k) with
      | none => simp [get?]
      | some value => simp [get?]
    · have hnone : get? ((scalar (get? record f)).map fun item => (f, item)).toList k = none := by
        cases scalar (get? record f) with
        | none => rfl
        | some value => simp [get?, hk]
      rw [hnone, Option.none_or]
      simp [hk]

theorem selectScalars_selectScalars (record : Fields) (fields : List String) :
    selectScalars (selectScalars record fields) fields = selectScalars record fields := by
  refine List.filterMap_congr fun f hf => ?_
  rw [get?_selectScalars, if_pos hf, scalar_scalar]

/-- The fields about missing metrics. -/
def availabilityFields : List String := ["cpu_capacity", "metric_errors"]

theorem selectMetricAvailability_congr {r r' : Fields} (h : ∀ f ∈ availabilityFields, get? r f = get? r' f) :
    selectMetricAvailability r = selectMetricAvailability r' := by
  rw [selectMetricAvailability, selectMetricAvailability, h "cpu_capacity" (by decide),
    h "metric_errors" (by decide)]

theorem get?_selectMetricAvailability_other {r : Fields} {k : String} (hk : k ∉ availabilityFields) :
    get? (selectMetricAvailability r) k = none := by
  simp only [availabilityFields, List.mem_cons, List.not_mem_nil, or_false, not_or] at hk
  rw [selectMetricAvailability]
  rw [Assoc.get?_append]
  split <;> split_ifs <;> simp [get?, hk.1, hk.2]

theorem keys_selectMetricAvailability_nodup (r : Fields) :
    (Assoc.keys (selectMetricAvailability r)).Nodup := by
  rw [selectMetricAvailability]
  split <;> split_ifs <;> simp [Assoc.keys]

/-- The public part of the basic information. -/
def publicInfo : Option Json → Option Json
  | some (.obj info) => some (selectScalarsOf (.obj info) BASIC_FIELDS)
  | some (.arr items) => some (selectScalarsOf (.arr items) BASIC_FIELDS)
  | _ => none

/-- The public part of the devices. -/
def publicGpus (gpus : Option Json) : List Json :=
  (((Json.arr? gpus).getD []).take 16).map fun gpu => selectScalarsOf gpu GPU_FIELDS

theorem not_availability_of_metric {k : String} (h : k ∈ METRIC_FIELDS) : k ∉ availabilityFields := by
  have hall : ∀ k ∈ METRIC_FIELDS, k ∉ availabilityFields := by decide
  exact hall k h

/-- The lookups of a public report. -/
theorem get?_toPublicReport (r : Fields) (k : String) : get? (toPublicReport r) k =
      if k = "basic_info" then publicInfo (get? r "basic_info")
      else if k = "gpus" then some (.arr (publicGpus (get? r "gpus")))
      else if k ∈ METRIC_FIELDS then scalar (get? r k)
      else get? (selectMetricAvailability r) k := by
  obtain ⟨base, hbase⟩ : ∃ base, Assoc.set (Assoc.merge (selectScalars r METRIC_FIELDS)
      (selectMetricAvailability r)) "gpus" (.arr (publicGpus (get? r "gpus"))) = base := ⟨_, rfl⟩
  have hlookup : ∀ k : String, get? base k =
      if k = "gpus" then some (.arr (publicGpus (get? r "gpus")))
      else if k ∈ METRIC_FIELDS then scalar (get? r k)
      else get? (selectMetricAvailability r) k := by
    intro k
    rw [← hbase, get?_set, get?_merge (keys_selectMetricAvailability_nodup r), get?_selectScalars]
    split_ifs with hgpus hmetric
    · rfl
    · rw [get?_selectMetricAvailability_other (not_availability_of_metric hmetric), Option.none_or]
    · rw [Option.or_none]
  have hmatch : toPublicReport r = (publicInfo (get? r "basic_info")).elim base (Assoc.set base "basic_info") := by
    rw [toPublicReport, ← hbase, publicGpus]
    rcases get? r "basic_info" with _ | (_ | _ | _ | _ | _ | _) <;> rfl
  rw [hmatch]
  by_cases hinfo : k = "basic_info"
  · subst hinfo
    rw [if_pos rfl]
    cases publicInfo (get? r "basic_info") with
    | none =>
      refine (hlookup _).trans ?_
      rw [if_neg (by decide), if_neg (by decide)]
      exact get?_selectMetricAvailability_other (by decide)
    | some info =>
      refine (get?_set base _ _ _).trans ?_
      rw [if_pos rfl]
  · rw [if_neg hinfo]
    cases publicInfo (get? r "basic_info") with
    | none => exact hlookup k
    | some info =>
      refine (get?_set base _ _ _).trans ?_
      rw [if_neg hinfo]
      exact hlookup k

end Projections

/-! ## Lookups of a normalised report -/

namespace ReportRules

variable {rules : ReportRules}

/-- The fields of the clock of a cached measurement. -/
def clockFields : List String := ["disk_source", "disk_sampled_at"]

/-- The fields that the normalisation writes. -/
def normalKeys : List String := [
  "cpu", "gpu", "ram", "ram_total", "swap", "swap_total", "load", "temp", "disk", "disk_total", "net_in",
  "net_out", "net_total_up", "net_total_down", "process_count", "connections", "connections_udp", "uptime",
  "version", "gpus"]

theorem keys_normalFields (r : Fields) : Assoc.keys (rules.normalFields r) = normalKeys := rfl

theorem get?_normalFields_other {r : Fields} {k : String} (hk : k ∉ normalKeys) :
    get? (rules.normalFields r) k = none := by
  rw [← Option.not_isSome_iff_eq_none, Assoc.get?_isSome, keys_normalFields]
  exact hk

/-- The normalised report before the clock of its disk. -/
def unclocked (rules : ReportRules) (report : Fields) : Fields :=
  let normalized := Assoc.merge report (rules.normalFields report)
  Assoc.erase (Assoc.erase (Assoc.merge (Assoc.erase (Assoc.erase normalized "cpu_capacity") "metric_errors")
    (selectMetricAvailability normalized)) "disk_source") "disk_sampled_at"

theorem get?_unclocked (rules : ReportRules) (report : Fields) (k : String) :
    get? (rules.unclocked report) k =
      if k ∈ clockFields then none
      else if k ∈ availabilityFields then get? (selectMetricAvailability report) k
      else (get? (rules.normalFields report) k).or (get? report k) := by
  have hnormal : ∀ k, get? (Assoc.merge report (rules.normalFields report)) k
      = (get? (rules.normalFields report) k).or (get? report k) :=
    fun k => get?_merge (by rw [keys_normalFields]; decide) k
  have havailability : selectMetricAvailability (Assoc.merge report (rules.normalFields report))
      = selectMetricAvailability report := by
    refine selectMetricAvailability_congr fun f hf => ?_
    have hother : ∀ f ∈ availabilityFields, f ∉ normalKeys := by decide
    rw [hnormal, get?_normalFields_other (hother f hf), Option.none_or]
  rw [unclocked, get?_erase, get?_erase, get?_merge (keys_selectMetricAvailability_nodup _),
    havailability, get?_erase, get?_erase, hnormal]
  by_cases hclock : k ∈ clockFields
  · rw [if_pos hclock]
    simp only [clockFields, List.mem_cons, List.not_mem_nil, or_false] at hclock
    rcases hclock with rfl | rfl
    · rfl
    · rfl
  · rw [if_neg hclock]
    simp only [clockFields, List.mem_cons, List.not_mem_nil, or_false, not_or] at hclock
    rw [if_neg hclock.2, if_neg hclock.1]
    by_cases hk : k ∈ availabilityFields
    · rw [if_pos hk]
      simp only [availabilityFields, List.mem_cons, List.not_mem_nil, or_false] at hk
      rcases hk with rfl | rfl
      · exact Option.or_none
      · exact Option.or_none
    · rw [if_neg hk, get?_selectMetricAvailability_other hk, Option.none_or]
      simp only [availabilityFields, List.mem_cons, List.not_mem_nil, or_false, not_or] at hk
      rw [if_neg hk.2, if_neg hk.1]

theorem normalizeMonitorReport_eq (rules : ReportRules) (input : Option Json) :
    rules.normalizeMonitorReport input =
      if (get? (rawReport input) "disk_source").isSome ∨
        (get? (rawReport input) "disk_sampled_at").isSome then
        match rules.diskSampledAt (rawReport input) (rules.unclocked (rawReport input)) with
        | some sampledAt => Assoc.set (Assoc.set (rules.unclocked (rawReport input)) "disk_source"
            (.str "directory")) "disk_sampled_at" (Json.int sampledAt)
        | none => Assoc.set (rules.unclocked (rawReport input)) "disk" .null
      else rules.unclocked (rawReport input) := rfl

theorem normalizeMonitorReport_plain (rules : ReportRules) (input : Option Json)
    (hsource : get? (rawReport input) "disk_source" = none)
    (hat : get? (rawReport input) "disk_sampled_at" = none) :
    rules.normalizeMonitorReport input = rules.unclocked (rawReport input) := by
  rw [normalizeMonitorReport_eq, hsource, hat, if_neg (by decide)]

theorem normalizeMonitorReport_clocked (rules : ReportRules) (input : Option Json) (source : Json) (at_ : Int)
    (hsource : get? (rawReport input) "disk_source" = some source)
    (hat : rules.diskSampledAt (rawReport input) (rules.unclocked (rawReport input)) = some at_) :
    rules.normalizeMonitorReport input = Assoc.set (Assoc.set (rules.unclocked (rawReport input))
      "disk_source" (.str "directory")) "disk_sampled_at" (Json.int at_) := by
  rw [normalizeMonitorReport_eq, hat, hsource]
  exact if_pos (.inl rfl)

/-- The three ways in which the clock of the disk comes out. -/
theorem normalizeMonitorReport_cases (rules : ReportRules) (input : Option Json) :
    rules.normalizeMonitorReport input = rules.unclocked (rawReport input) ∨
    (∃ sampledAt, rules.diskSampledAt (rawReport input) (rules.unclocked (rawReport input)) = some sampledAt ∧
      rules.normalizeMonitorReport input = Assoc.set (Assoc.set (rules.unclocked (rawReport input))
        "disk_source" (.str "directory")) "disk_sampled_at" (Json.int sampledAt)) ∨
    rules.normalizeMonitorReport input = Assoc.set (rules.unclocked (rawReport input)) "disk" .null := by
  rw [normalizeMonitorReport_eq]
  split_ifs with hclock
  · cases hsampled : rules.diskSampledAt (rawReport input) (rules.unclocked (rawReport input)) with
    | some sampledAt => exact .inr (.inl ⟨sampledAt, rfl, rfl⟩)
    | none => exact .inr (.inr rfl)
  · exact .inl rfl

/-- A field apart from the disk and its clock. -/
theorem get?_normalizeMonitorReport {input : Option Json} {k : String} (hdisk : k ≠ "disk")
    (hclock : k ∉ clockFields) :
    get? (rules.normalizeMonitorReport input) k =
      if k ∈ availabilityFields then get? (selectMetricAvailability (rawReport input)) k
      else (get? (rules.normalFields (rawReport input)) k).or (get? (rawReport input) k) := by
  have hbase := get?_unclocked rules (rawReport input) k
  rw [if_neg hclock] at hbase
  simp only [clockFields, List.mem_cons, List.not_mem_nil, or_false, not_or] at hclock
  rcases normalizeMonitorReport_cases rules input with h | ⟨sampledAt, -, h⟩ | h
  · rw [h, hbase]
  · rw [h, get?_set, if_neg hclock.2, get?_set, if_neg hclock.1, hbase]
  · rw [h, get?_set, if_neg hdisk, hbase]

/-! ## Bounds -/

section Bounds

variable {min max x : ℚ} {value : Option Json} {values : List (Option Json)}

theorem boundedNumber_mem (rules : ReportRules) (values : List (Option Json)) (h : min ≤ max) :
    min ≤ rules.boundedNumber min max values ∧ rules.boundedNumber min max values ≤ max := by
  rw [boundedNumber]
  split_ifs with hlow hhigh
  · exact ⟨le_refl min, h⟩
  · exact ⟨h, le_refl max⟩
  · exact ⟨not_lt.mp hlow, not_lt.mp hhigh⟩

theorem boundedNumber_of_mem (hlow : min ≤ x) (hhigh : x ≤ max) :
    rules.boundedNumber min max (some (finite x) :: values) = x := by
  have hfirst : rules.firstNumber (some (finite x) :: values) = x := rfl
  rw [boundedNumber]
  rw [hfirst, if_neg (not_lt.mpr hlow), if_neg (not_lt.mpr hhigh)]

/-- A count: an integer in its bounds. -/
def Counted (max : ℚ) (value : Option Json) : Prop :=
  ∃ n : Int, value = some (finite n) ∧ 0 ≤ n ∧ (n : ℚ) ≤ max

/-- Null, or a number in its bounds. -/
def Measured (max : ℚ) (value : Option Json) : Prop :=
  value = some .null ∨ ∃ x, value = some (finite x) ∧ 0 ≤ x ∧ x ≤ max

theorem counted_boundedInteger (rules : ReportRules) (values : List (Option Json)) {m : Int} (hmax : max = m)
    (h : 0 ≤ m) :
    Counted max (some (finite (rules.boundedInteger 0 max values))) := by
  subst hmax
  obtain ⟨hlow, hhigh⟩ := boundedNumber_mem rules values (show (0 : ℚ) ≤ (m : ℚ) by exact_mod_cast h)
  refine ⟨truncMs (rules.boundedNumber 0 m values), rfl, ?_, ?_⟩
  · exact le_truncMs hlow (by exact_mod_cast hlow)
  · exact_mod_cast truncMs_le hhigh

theorem boundedInteger_of_counted (rules : ReportRules) (values : List (Option Json)) (h : Counted max value) :
    some (finite (rules.boundedInteger 0 max (value :: values))) = value := by
  obtain ⟨n, rfl, hlow, hhigh⟩ := h
  rw [boundedInteger, boundedNumber_of_mem (by exact_mod_cast hlow) hhigh, truncMs_intCast]

theorem measured_boundedNullableNumber (rules : ReportRules) (value : Option Json) (values : List (Option Json))
    (h : 0 ≤ max) :
    Measured max (some (rules.boundedNullableNumber 0 max value values)) := by
  rw [boundedNullableNumber.eq_def]
  split
  · exact .inl rfl
  · exact .inr ⟨_, rfl, boundedNumber_mem rules _ h⟩

theorem boundedNullableNumber_of_measured (h : Measured max value) :
    some (rules.boundedNullableNumber 0 max value values) = value := by
  rcases h with rfl | ⟨x, rfl, hlow, hhigh⟩
  · rfl
  · show some (finite (rules.boundedNumber 0 max (some (finite x) :: values))) = _
    rw [boundedNumber_of_mem hlow hhigh]

theorem Measured.scalar (h : Measured max value) : scalar value = value := by
  rcases h with rfl | ⟨x, rfl, -⟩ <;> rfl

theorem Counted.scalar (h : Counted max value) : scalar value = value := by
  obtain ⟨n, rfl, -⟩ := h
  rfl

end Bounds

end ReportRules

/-! ## Devices -/

/-- An entry of a normalised list of devices. -/
structure GpuInfo where
  device_index : Int
  device_name : String
  mem_total : ℚ
  mem_used : ℚ
  utilization : ℚ
  temperature : ℚ
  index_mem : 0 ≤ device_index ∧ (device_index : ℚ) ≤ MAX_DEVICE_INDEX
  name_fits : sliceUnits 128 device_name = device_name
  total_mem : 0 ≤ mem_total ∧ mem_total ≤ MAX_COUNTER_VALUE
  used_mem : 0 ≤ mem_used ∧ mem_used ≤ if 0 < mem_total then mem_total else MAX_COUNTER_VALUE
  utilization_mem : 0 ≤ utilization ∧ utilization ≤ MAX_PERCENT
  temperature_mem : 0 ≤ temperature ∧ temperature ≤ MAX_TEMPERATURE_C

namespace GpuInfo

def toJson (gpu : GpuInfo) : Json :=
  .obj [("device_index", finite gpu.device_index), ("device_name", .str gpu.device_name),
    ("mem_total", finite gpu.mem_total), ("mem_used", finite gpu.mem_used),
    ("utilization", finite gpu.utilization), ("temperature", finite gpu.temperature)]

/-- The device under its name without the blanks around it. -/
def trimmed (gpu : GpuInfo) : GpuInfo :=
  { gpu with device_name := trim gpu.device_name, name_fits := sliceUnits_trim gpu.name_fits }

@[simp] theorem trimmed_trimmed (gpu : GpuInfo) : gpu.trimmed.trimmed = gpu.trimmed := by
  simp only [trimmed, trim_trim]

/-- A device is public as a whole. -/
theorem selectScalarsOf_toJson (gpu : GpuInfo) : selectScalarsOf gpu.toJson GPU_FIELDS = gpu.toJson := by
  have hname : slice256 gpu.device_name = gpu.device_name := sliceUnits_mono (by decide) gpu.name_fits
  simp [selectScalarsOf, toJson, Json.obj?, selectScalars, GPU_FIELDS, get?, scalar, finite, hname]

end GpuInfo

namespace ReportRules

variable {rules : ReportRules}

theorem boundedString_fits (rules : ReportRules) (value : Option Json) (n : Nat) :
    sliceUnits n (rules.boundedString value n) = rules.boundedString value n :=
  sliceUnits_sliceUnits (le_refl n) _

theorem boundedString_of_fits {n : Nat} {text : String} (h : sliceUnits n text = text) :
    rules.boundedString (some (.str text)) n = trim text := sliceUnits_trim h

theorem exists_gpuInfo (rules : ReportRules) (item : Json) (index : Nat) :
    ∃ gpu : GpuInfo, rules.normalizeGpu item index = gpu.toJson := by
  obtain ⟨fields, hfields⟩ : ∃ fields, asObject (some item) = fields := ⟨_, rfl⟩
  obtain ⟨n, hindex, hlow, hhigh⟩ := counted_boundedInteger rules
    [get? fields "device_index", get? fields "index", some (Json.int index)]
    (show MAX_DEVICE_INDEX = ((1024 : Int) : ℚ) by norm_num [MAX_DEVICE_INDEX]) (by decide)
  have htotal := boundedNumber_mem rules [get? fields "mem_total", get? fields "memory_total"]
    (show 0 ≤ MAX_COUNTER_VALUE by norm_num [MAX_COUNTER_VALUE])
  have hused := boundedNumber_mem rules [get? fields "mem_used", get? fields "memory_used"]
    (show 0 ≤ if 0 < rules.boundedNumber 0 MAX_COUNTER_VALUE
        [get? fields "mem_total", get? fields "memory_total"] then
      rules.boundedNumber 0 MAX_COUNTER_VALUE [get? fields "mem_total", get? fields "memory_total"]
      else MAX_COUNTER_VALUE by
        split_ifs with hpos
        · exact le_of_lt hpos
        · norm_num [MAX_COUNTER_VALUE])
  have hutilization := boundedNumber_mem rules [get? fields "utilization"]
    (show 0 ≤ MAX_PERCENT by norm_num [MAX_PERCENT])
  have htemperature := boundedNumber_mem rules [get? fields "temperature"]
    (show 0 ≤ MAX_TEMPERATURE_C by norm_num [MAX_TEMPERATURE_C])
  refine ⟨⟨n, _, _, _, _, _, ⟨hlow, hhigh⟩, boundedString_fits rules (deviceName fields) 128, htotal,
    hused, hutilization, htemperature⟩, ?_⟩
  rw [normalizeGpu, hfields, Option.some.inj hindex]
  rfl

theorem normalizeGpu_toJson (rules : ReportRules) (gpu : GpuInfo) (index : Nat) :
    rules.normalizeGpu gpu.toJson index = gpu.trimmed.toJson := by
  obtain ⟨fields, hfields⟩ : ∃ fields, asObject (some gpu.toJson) = fields := ⟨_, rfl⟩
  have hindex : get? fields "device_index" = some (finite gpu.device_index) := by rw [← hfields]; rfl
  have hname : get? fields "device_name" = some (.str gpu.device_name) := by rw [← hfields]; rfl
  have hother : get? fields "name" = none := by rw [← hfields]; rfl
  have htotal : get? fields "mem_total" = some (finite gpu.mem_total) := by rw [← hfields]; rfl
  have hused : get? fields "mem_used" = some (finite gpu.mem_used) := by rw [← hfields]; rfl
  have hutilization : get? fields "utilization" = some (finite gpu.utilization) := by rw [← hfields]; rfl
  have htemperature : get? fields "temperature" = some (finite gpu.temperature) := by rw [← hfields]; rfl
  have hdevice : rules.boundedString (deviceName fields) 128 = trim gpu.device_name := by
    rw [deviceName, hname, hother]
    split_ifs with htruthy hnone
    · exact boundedString_of_fits gpu.name_fits
    · cases hnone
    · -- a device without a name keeps its empty name
      have hempty : gpu.device_name = "" := by simpa [Json.truthy] using htruthy
      rw [hempty]
      rfl
  have hcount := boundedInteger_of_counted rules [get? fields "index",
    some (Json.int index)] ⟨gpu.device_index, rfl, gpu.index_mem⟩
  rw [normalizeGpu, hfields, hindex, htotal, hused, hutilization, htemperature, hdevice,
    boundedNumber_of_mem gpu.total_mem.1 gpu.total_mem.2, boundedNumber_of_mem gpu.used_mem.1 gpu.used_mem.2,
    boundedNumber_of_mem gpu.utilization_mem.1 gpu.utilization_mem.2,
    boundedNumber_of_mem gpu.temperature_mem.1 gpu.temperature_mem.2, Option.some.inj hcount]
  rfl

end ReportRules

end CfMonitor.Live
