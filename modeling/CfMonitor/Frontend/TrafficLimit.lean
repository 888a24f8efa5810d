/-
  The traffic limit of a node in its edit form (`traffic.ts`).

  1. **Data** — a node stores a number of bytes and a type: one of five ways to count, `unlimited`, or a
     bandwidth.  The form has three modes instead.

  2. **Program** — `createTrafficLimitFormValue` opens the form, `serializeTrafficLimitFormValue` saves it,
     `formatTrafficLimitLabel` is what a visitor sees.

  3. **Result** — when an untouched form keeps the limit (`untouched_form_iff`).
-/
import CfMonitor.Backup.ClientInput
import CfMonitor.Backup.SavedSettings
import CfMonitor.Lib.NumberText
import Mathlib.Data.Int.Log

namespace CfMonitor.Frontend

open CfMonitor.Lib
open CfMonitor.Backup (BackupRules units)
open String (append_assoc ofList toList toList_append toList_ofList)
open Backup (bandwidthUnit isBandwidth readNumber readString)

/-! ## Data -/

def BYTES_PER_GB : Nat := 1073741824

def BYTES_PER_TB : Nat := 1099511627776

/-- The values and their labels. -/
def TRAFFIC_LIMIT_TYPES : List (String × String) :=
  [("sum", "总计"), ("max", "最大值"), ("min", "最小值"), ("up", "仅上传"), ("down", "仅下载")]

inductive TrafficLimitMode where
  | quota
  | unlimited
  | bandwidth
  deriving DecidableEq

inductive TrafficLimitUnit where
  | GB
  | TB
  deriving DecidableEq

def TrafficLimitUnit.factor : TrafficLimitUnit → Nat
  | .GB => BYTES_PER_GB
  | .TB => BYTES_PER_TB

inductive BandwidthUnit where
  | Mbps
  | Gbps
  deriving DecidableEq

def BandwidthUnit.text : BandwidthUnit → String
  | .Mbps => "Mbps"
  | .Gbps => "Gbps"

structure TrafficLimitFormValue where
  mode : TrafficLimitMode
  value : String
  unit : TrafficLimitUnit
  type : String
  bandwidthValue : String
  bandwidthUnit : BandwidthUnit
  deriving DecidableEq

/-- What a form saves. -/
structure TrafficLimit where
  traffic_limit : Int
  traffic_limit_type : String
  deriving DecidableEq

/-! ## Reading what is stored -/

def BANDWIDTH_PREFIX : String := "bandwidth:"

def parseTrafficLimitType (type : Option String) : String :=
  let value := trim (type.getD "")
  if value ∈ TRAFFIC_LIMIT_TYPES.map Prod.fst then value else "sum"

/-- `\d+(?:\.\d+)?`. -/
def isAmount (text : List Char) : Bool :=
  let parts := text.splitOn '.'
  decide (parts.length ≤ 2) && parts.all fun part => !part.isEmpty && part.all Char.isDigit

/-- The two groups of `/^(\d+(?:\.\d+)?)(Mbps|Gbps)$/i`. -/
def matchBandwidth (bandwidth : List Char) : Option (List Char × BandwidthUnit) :=
  let amount := bandwidth.take (bandwidth.length - 4)
  let unit := (bandwidth.drop (bandwidth.length - 4)).map Char.toLower
  if isAmount amount = true then
    if unit = "gbps".toList then some (amount, .Gbps)
    else if unit = "mbps".toList then some (amount, .Mbps) else none
  else none

def parseBandwidthLimit (type : Option String) : Option (String × BandwidthUnit) :=
  let raw := (trim (type.getD "")).toList
  if BANDWIDTH_PREFIX.toList.isPrefixOf raw = true then
    let bandwidth := (trim (String.ofList (raw.drop BANDWIDTH_PREFIX.toList.length))).toList
    match matchBandwidth bandwidth with
    | none => some ("", .Mbps)
    | some (value, unit) => some (String.ofList value, unit)
  else none

/-- `limit || 0`. -/
def numberOrZero : Option JsNumber → JsNumber
  | none | some .nan => .finite 0
  | some x => x

/-! ## The form -/

/-- The form of an unlimited node. -/
def unlimitedForm (type : Option String) : TrafficLimitFormValue :=
  { mode := .unlimited, value := "", unit := .TB, type := parseTrafficLimitType type, bandwidthValue := "",
    bandwidthUnit := .Mbps }

def createTrafficLimitFormValue (limit : Option JsNumber) (type : Option String) : TrafficLimitFormValue :=
  match parseBandwidthLimit type with
  | some (value, unit) =>
    { mode := .bandwidth, value := "", unit := .TB, type := "sum", bandwidthValue := value, bandwidthUnit := unit }
  | none =>
    match numberOrZero limit with
    | .finite bytes =>
      if bytes ≤ 0 then unlimitedForm type
      else
        let unit : TrafficLimitUnit := if (BYTES_PER_TB : ℚ) ≤ bytes then .TB else .GB
        { mode := .quota, value := String.ofList (numberText (bytes / unit.factor)), unit := unit,
          type := parseTrafficLimitType type, bandwidthValue := "", bandwidthUnit := .Mbps }
    | _ => unlimitedForm type

/-- `Number(text || 0)`. -/
def numberOfText (text : String) : JsNumber := if text = "" then .finite 0 else numberOf text.toList

/-- `Math.round`. -/
def round (x : ℚ) : Int := ⌊x + 1 / 2⌋

def serializeTrafficLimitFormValue (form : TrafficLimitFormValue) : TrafficLimit :=
  match form.mode with
  | .bandwidth =>
    let saved (amount : List Char) : TrafficLimit :=
      ⟨0, BANDWIDTH_PREFIX ++ String.ofList amount ++ form.bandwidthUnit.text⟩
    match numberOfText form.bandwidthValue with
    | .finite bandwidth => if 0 < bandwidth then saved (numberText bandwidth) else ⟨0, "unlimited"⟩
    | .infinite false => saved "Infinity".toList
    | _ => ⟨0, "unlimited"⟩
  | .unlimited => ⟨0, "unlimited"⟩
  | .quota =>
    ⟨match numberOfText form.value with
      | .finite x => if 0 < x then round (x * form.unit.factor) else 0
      | _ => 0,
      parseTrafficLimitType (some form.type)⟩

/-! ## The label -/

/-- `x.toFixed(decimals)`, below `10 ^ 21`. -/
def toFixed (x : ℚ) (decimals : Nat) : String :=
  let scaled := ⌊|x| * 10 ^ decimals + 1 / 2⌋.toNat
  let whole := decimalText (scaled / 10 ^ decimals)
  let part := (decimalText (10 ^ decimals + scaled % 10 ^ decimals)).drop 1
  (if x < 0 then "-" else "") ++ String.ofList (whole ++ if decimals = 0 then [] else '.' :: part)

/-- `formatBytes` of a finite number that is not zero. -/
def formatBytes (bytes : ℚ) : String :=
  let i := Int.log 1024 |bytes|
  let val := bytes / 1024 ^ i
  let decimals := if 100 ≤ val then 0 else if i ≤ 1 then 0 else if 3 ≤ i then 1 else 2
  let unit := if 0 ≤ i then ["B", "KB", "MB", "GB", "TB"][i.toNat]? else none
  toFixed val decimals ++ " " ++ unit.getD "undefined"

def formatTrafficLimitType (type : Option String) : String :=
  (Assoc.get? TRAFFIC_LIMIT_TYPES (parseTrafficLimitType type)).getD "总计"

def formatTrafficLimitLabel (limit : Option JsNumber) (type : Option String) : String :=
  match parseBandwidthLimit type with
  | some (value, unit) =>
    if value ≠ "" then value ++ " " ++ unit.text ++ " 无限流量" else labelOf
  | none => labelOf
where
  labelOf : String :=
    if trim (type.getD "") = "unlimited" then "无限流量"
    else match numberOrZero limit with
      | .finite x => if x ≤ 0 then "" else formatTrafficLimitType type ++ " (" ++ formatBytes x ++ ")"
      | .infinite false => formatTrafficLimitType type ++ " (NaN undefined)"
      | _ => ""

/-! ## Saving a form without a change -/

/-- What is stored of a node. -/
def TrafficLimit.open (stored : TrafficLimit) : TrafficLimitFormValue :=
  createTrafficLimitFormValue (some (.finite stored.traffic_limit)) (some stored.traffic_limit_type)

def TrafficLimit.untouched (stored : TrafficLimit) : TrafficLimit := serializeTrafficLimitFormValue stored.open

def TrafficLimit.label (stored : TrafficLimit) : String :=
  formatTrafficLimitLabel (some (.finite stored.traffic_limit)) (some stored.traffic_limit_type)

/-- The validator of the server admits both fields together. -/
def TrafficLimit.Admitted (rules : BackupRules) (stored : TrafficLimit) : Prop :=
  ∃ patch, Backup.validateClientUpdateInput rules (.obj
    [("traffic_limit", .int stored.traffic_limit), ("traffic_limit_type", .str stored.traffic_limit_type)]) = .ok patch

/-- The limit after a form was saved without a change. -/
structure TrafficLimit.Kept (rules : BackupRules) (stored : TrafficLimit) : Prop where
  admitted : stored.untouched.Admitted rules
  label : stored.untouched.label = stored.label
  quota : stored.open.mode = .quota → stored.untouched.traffic_limit = stored.traffic_limit
  again : stored.untouched.untouched = stored.untouched

/-- A bandwidth is a plain amount; `unlimited` stands with the limit 0, and every other type with a
    positive one. -/
def FormKeeps (stored : TrafficLimit) : Prop :=
  let text := (trim stored.traffic_limit_type).toList
  if BANDWIDTH_PREFIX.toList <+: text then
    isPlainAmount ((text.drop 10).take (text.length - 14)) = true
  else if trim stored.traffic_limit_type = "unlimited" then stored.traffic_limit = 0
  else 0 < stored.traffic_limit

/-! ## Amounts and units -/

theorem isAmount_iff (text : List Char) : isAmount text = true ↔ AmountText text := by
  constructor
  · intro h
    rw [isAmount, Bool.and_eq_true, decide_eq_true_eq, List.all_eq_true] at h
    obtain ⟨hlength, hparts⟩ := h
    have hpart : ∀ part ∈ text.splitOn '.', part ≠ [] ∧ ∀ c ∈ part, c.isDigit = true := by
      intro part hpart
      have := hparts part hpart
      rw [Bool.and_eq_true, Bool.not_eq_true', List.all_eq_true] at this
      exact ⟨by simpa using this.1, this.2⟩
    have hjoin : joinWith '.' (text.splitOn '.') = text := List.intercalate_splitOn '.'
    match hsplit : text.splitOn '.' with
    | [] => exact absurd hsplit (List.splitOn_ne_nil '.' text)
    | [front] =>
      rw [hsplit, joinWith_singleton] at hjoin
      have hfront := hpart front (by rw [hsplit]; exact List.mem_cons_self)
      exact hjoin ▸ .whole front hfront.1 hfront.2
    | [front, back] =>
      rw [hsplit, joinWith_cons _ _ (List.cons_ne_nil _ _), joinWith_singleton] at hjoin
      have hfront := hpart front (by rw [hsplit]; exact List.mem_cons_self)
      have hback := hpart back (by rw [hsplit]; exact List.mem_cons_of_mem _ List.mem_cons_self)
      exact hjoin ▸ .point front back hfront.1 hback.1 hfront.2 hback.2
    | _ :: _ :: _ :: _ =>
      rw [hsplit] at hlength
      simp at hlength
  · have hpoint : ∀ {part : List Char}, (∀ c ∈ part, c.isDigit = true) → '.' ∉ part :=
      fun h hmem => absurd (h _ hmem) (by decide)
    have hall : ∀ {part : List Char}, part ≠ [] → (∀ c ∈ part, c.isDigit = true) →
        (!part.isEmpty && part.all Char.isDigit) = true := by
      intro part hne h
      rw [Bool.and_eq_true, List.all_eq_true]
      exact ⟨by simpa using hne, h⟩
    intro h
    cases h with
    | whole _ hne h =>
      have hsplit : text.splitOn '.' = [text] := by
        have hjoin : (joinWith '.' [text]).splitOn '.' = [text] := splitOn_join (by simp) (by simpa using hpoint h)
        rwa [joinWith_singleton] at hjoin
      rw [isAmount, hsplit]
      simpa using hall hne h
    | point front back hne hne' h h' =>
      have hsplit : (front ++ '.' :: back).splitOn '.' = [front, back] := by
        have hjoin : (joinWith '.' [front, back]).splitOn '.' = [front, back] := by
          refine splitOn_join (by simp) fun part hpart => ?_
          rcases List.mem_cons.mp hpart with rfl | hpart
          · exact hpoint h
          · rw [List.mem_singleton.mp hpart]
            exact hpoint h'
        rwa [joinWith_cons _ _ (List.cons_ne_nil _ _), joinWith_singleton] at hjoin
      rw [isAmount, hsplit]
      simp only [List.all_cons, List.all_nil, Bool.and_true, hall hne h, hall hne' h']
      rfl

theorem map_toLower_eq_self {chars : List Char} (h : ∀ c ∈ chars, c.toLower = c) : chars.map Char.toLower = chars := by
  conv_rhs => rw [← List.map_id chars]
  exact List.map_congr_left h

variable {c : Char}

theorem toLower_of_amount (h : isAmountChar c.toLower = true) : c.toLower = c := by
  by_cases hrange : c.toNat < 128
  · have hall : ∀ n : Fin 128, isAmountChar (Char.ofNat n).toLower = true → (Char.ofNat n).toLower = Char.ofNat n := by
      decide
    have hc := hall ⟨c.toNat, hrange⟩
    rw [Char.ofNat_toNat] at hc
    exact hc h
  · rw [Char.toLower, dif_neg]
    rintro ⟨-, hle⟩
    have hnat : c.toNat ≤ 90 := hle
    omega

theorem not_trimmed_of_unit (h : c.toLower ∈ "gmbps".toList) : isTrimmed c = false := by
  by_cases hrange : c.toNat < 128
  · have hall : ∀ n : Fin 128, (Char.ofNat n).toLower ∈ "gmbps".toList → isTrimmed (Char.ofNat n) = false := by
      decide
    have hc := hall ⟨c.toNat, hrange⟩
    rw [Char.ofNat_toNat] at hc
    exact hc h
  · have hself : c.toLower = c := by
      rw [Char.toLower, dif_neg]
      rintro ⟨-, hle⟩
      have hnat : c.toNat ≤ 90 := hle
      omega
    rw [hself] at h
    have hsmall : ∀ d ∈ "gmbps".toList, d.toNat < 128 := by decide
    exact absurd (hsmall c h) hrange

theorem trim_clean {text : String} (h : ∀ c ∈ text.toList, isTrimmed c = false) : trim text = text := by
  show ofList (trimWhere isTrimmed text.toList) = text
  rw [trimWhere_eq_self h, String.ofList_toList]

/-- The unit that a text ends with. -/
def IsUnit (tail : List Char) (unit : BandwidthUnit) : Prop := tail.map Char.toLower = unit.text.toList.map Char.toLower

variable {unit : BandwidthUnit}

theorem IsUnit.length {tail : List Char} (h : IsUnit tail unit) : tail.length = 4 := by
  have := congrArg List.length h
  rw [List.length_map, List.length_map] at this
  rw [this]
  cases unit <;> rfl

theorem IsUnit.clean {tail : List Char} (h : IsUnit tail unit) (hc : c ∈ tail) : isTrimmed c = false := by
  apply not_trimmed_of_unit
  have hmem : c.toLower ∈ tail.map Char.toLower := List.mem_map_of_mem hc
  rw [h] at hmem
  have hletters : ∀ unit : BandwidthUnit, ∀ d ∈ unit.text.toList.map Char.toLower, d ∈ "gmbps".toList := by
    intro unit
    cases unit <;> decide
  exact hletters unit _ hmem

theorem isUnit_text (unit : BandwidthUnit) : IsUnit unit.text.toList unit := rfl

/-! ## Bandwidths -/

/-- A text of a bandwidth, by its parts. -/
structure BandwidthText (text label amount tail : List Char) (unit : BandwidthUnit) : Prop where
  parts : text = label ++ (amount ++ tail)
  label : label.map Char.toLower = BANDWIDTH_PREFIX.toList
  amount : AmountText amount
  unit : IsUnit tail unit

namespace BandwidthText

variable {text label amount tail : List Char} {unit : BandwidthUnit}

section

variable (h : BandwidthText text label amount tail unit)

include h

theorem labelLength : label.length = 10 := by
  have := congrArg List.length h.label
  rwa [List.length_map] at this

theorem length : text.length = 14 + amount.length := by
  rw [h.parts, List.length_append, List.length_append, h.labelLength, h.unit.length]
  omega

theorem drop_label : text.drop 10 = amount ++ tail := by
  rw [h.parts, List.drop_left' h.labelLength]

theorem take_amount : (text.drop 10).take (text.length - 14) = amount := by
  rw [h.drop_label, h.length, Nat.add_sub_cancel_left, List.take_left]

theorem amount_clean {c : Char} (hc : c ∈ amount ++ tail) : isTrimmed c = false := by
  rcases List.mem_append.mp hc with hc | hc
  · obtain ⟨d, rest, hamount, hd, hrest⟩ := h.amount.chars
    rw [hamount] at hc
    rcases List.mem_cons.mp hc with rfl | hc
    · exact (digit_facts hd).1
    · exact (numberChar_facts (isNumberChar_of_amount (hrest c hc))).1
  · exact h.unit.clean hc

end

end BandwidthText

variable {amount : List Char}

theorem amountChar_of_amountText (h : AmountText amount) (hc : c ∈ amount) : isAmountChar c = true := by
  obtain ⟨d, rest, rfl, hd, hrest⟩ := h.chars
  rcases List.mem_cons.mp hc with rfl | hc
  · exact isAmountChar_of_isDigit hd
  · exact hrest c hc

theorem bandwidthUnit_eq (text : String) {u : String} (h : bandwidthUnit text = some u) :
    ∃ unit : BandwidthUnit, u = unit.text ∧ IsUnit (text.toList.drop (text.toList.length - 4)) unit := by
  rw [bandwidthUnit] at h
  split_ifs at h with hg hm
  · exact ⟨.Gbps, (Option.some.inj h).symm, hg⟩
  · exact ⟨.Mbps, (Option.some.inj h).symm, hm⟩

/-- **What the server takes for a bandwidth.** -/
theorem isBandwidth_parts {text : String} (h : isBandwidth text = true) :
    ∃ label amount tail unit, BandwidthText text.toList label amount tail unit := by
  generalize hchars : text.toList = chars
  have hlower : (chars.map Char.toLower).length = chars.length := List.length_map _
  simp only [isBandwidth, hchars, Bool.and_eq_true] at h
  obtain ⟨⟨⟨hlabel, hunit⟩, hcount⟩, hparts⟩ := h
  obtain ⟨u, hu⟩ := Option.isSome_iff_exists.mp hunit
  obtain ⟨unit, -, htail⟩ := bandwidthUnit_eq text hu
  rw [hchars] at htail
  generalize hmiddle : ((chars.map Char.toLower).drop "bandwidth:".length).take
    ((chars.map Char.toLower).length - "bandwidth:".length - 4) = middle at *
  have hamount : AmountText middle := by
    rw [← isAmount_iff, isAmount, Bool.and_eq_true]
    exact ⟨hcount, hparts⟩
  -- the digits and the point are the same in lower case
  have hmap : middle = ((chars.drop 10).take (chars.length - 14)).map Char.toLower := by
    rw [← hmiddle, hlower, ← List.map_drop, ← List.map_take, Nat.sub_sub]
    rfl
  have hself : ((chars.drop 10).take (chars.length - 14)).map Char.toLower = (chars.drop 10).take (chars.length - 14) := by
    refine map_toLower_eq_self fun c hc => ?_
    apply toLower_of_amount
    exact amountChar_of_amountText hamount (hmap ▸ List.mem_map_of_mem hc)
  have hlong : 14 < chars.length := by
    obtain ⟨c, rest, hcons, -⟩ := hamount.chars
    have := congrArg List.length (hmap.symm.trans hcons)
    rw [List.length_map, List.length_take, List.length_cons] at this
    omega
  refine ⟨chars.take 10, middle, chars.drop (chars.length - 4), unit, ?_, ?_, hamount, htail⟩
  · have hrest : (chars.drop 10).drop (chars.length - 14) = chars.drop (chars.length - 4) := by
      rw [List.drop_drop]
      congr 1
      omega
    rw [hmap, hself, ← hrest, List.take_append_drop, List.take_append_drop]
  · obtain ⟨rest, hrest⟩ := List.isPrefixOf_iff_prefix.mp hlabel
    rw [List.map_take, ← hrest]
    rfl

theorem isBandwidth_of_parts {text : String} {label tail : List Char}
    (h : BandwidthText text.toList label amount tail unit) : isBandwidth text = true := by
  have hdrop : text.toList.drop (text.toList.length - 4) = tail := by
    rw [h.length, h.parts, ← List.append_assoc]
    apply List.drop_left'
    rw [List.length_append, h.labelLength]
    omega
  have hunit : (bandwidthUnit text).isSome = true := by
    rw [bandwidthUnit, hdrop]
    have htail : tail.map Char.toLower = unit.text.toList.map Char.toLower := h.unit
    simp only [htail]
    cases unit <;> rfl
  have hself : amount.map Char.toLower = amount := by
    refine map_toLower_eq_self fun c hc => ?_
    have hchar := amountChar_of_amountText h.amount hc
    rw [isAmountChar, Bool.or_eq_true, beq_iff_eq] at hchar
    rcases hchar with hdigit | rfl
    · have hall : ∀ n : Fin 128, (Char.ofNat n).isDigit = true → (Char.ofNat n).toLower = Char.ofNat n := by
        decide
      have hrange : c.toNat < 128 := Nat.lt_trans
        (toNat_lt_of_hex (by rw [isHexDigitChar, hdigit, Bool.true_or, Bool.true_or])) (by decide)
      have hc := hall ⟨c.toNat, hrange⟩
      rw [Char.ofNat_toNat] at hc
      exact hc hdigit
    · decide
  have hmiddle : ((text.toList.map Char.toLower).drop 10).take (text.toList.length - 10 - 4) = amount := by
    rw [← List.map_drop, ← List.map_take, Nat.sub_sub, h.take_amount, hself]
  have hlabel : "bandwidth:".toList.isPrefixOf (text.toList.map Char.toLower) = true := by
    rw [List.isPrefixOf_iff_prefix, h.parts, List.map_append, h.label]
    exact List.prefix_append _ _
  have hamount := (isAmount_iff amount).mpr h.amount
  rw [isAmount, Bool.and_eq_true] at hamount
  simp only [isBandwidth, hlabel, hunit, List.length_map, Bool.true_and, Bool.and_eq_true]
  rw [show "bandwidth:".length = 10 from rfl, hmiddle]
  exact hamount

/-! ## The form of a bandwidth -/

section

variable {type : String} {amount tail : List Char} {unit : BandwidthUnit}

theorem matchBandwidth_unit (hunit : IsUnit tail unit) :
    matchBandwidth (amount ++ tail) = if isAmount amount = true then some (amount, unit) else none := by
  have hlength : (amount ++ tail).length - 4 = amount.length := by
    rw [List.length_append, hunit.length]
    omega
  have htail : tail.map Char.toLower = unit.text.toList.map Char.toLower := hunit
  simp only [matchBandwidth, hlength, List.take_left, List.drop_left, htail]
  cases unit <;> rfl

theorem parseBandwidthLimit_amount (htext : (trim type).toList = BANDWIDTH_PREFIX.toList ++ (amount ++ tail))
    (hunit : IsUnit tail unit) (hclean : ∀ c ∈ amount ++ tail, isTrimmed c = false) :
    parseBandwidthLimit (some type) = some (if isAmount amount = true then (ofList amount, unit) else ("", .Mbps)) := by
  have hlabel : BANDWIDTH_PREFIX.toList.isPrefixOf (trim type).toList = true := by
    rw [List.isPrefixOf_iff_prefix, htext]
    exact List.prefix_append _ _
  have hrest : (trim (ofList ((trim type).toList.drop BANDWIDTH_PREFIX.toList.length))).toList = amount ++ tail := by
    rw [htext, List.drop_left, trim_clean (by rw [toList_ofList]; exact hclean), toList_ofList]
  simp only [parseBandwidthLimit, Option.getD_some, hlabel, if_true, hrest, matchBandwidth_unit hunit]
  by_cases hamount : isAmount amount = true
  · rw [if_pos hamount, if_pos hamount]
  · rw [if_neg hamount, if_neg hamount]

theorem parseBandwidthLimit_other (h : ¬ BANDWIDTH_PREFIX.toList <+: (trim type).toList) :
    parseBandwidthLimit (some type) = none := by
  simp only [parseBandwidthLimit, Option.getD_some]
  rw [if_neg (by rwa [List.isPrefixOf_iff_prefix])]

end

/-- The type of a saved bandwidth. -/
def bandwidthType (amount : List Char) (unit : BandwidthUnit) : String :=
  BANDWIDTH_PREFIX ++ String.ofList amount ++ unit.text

theorem toList_bandwidthType (amount : List Char) (unit : BandwidthUnit) :
    (bandwidthType amount unit).toList = BANDWIDTH_PREFIX.toList ++ (amount ++ unit.text.toList) := by
  simp only [bandwidthType, toList_append, toList_ofList, List.append_assoc]

theorem parseBandwidthLimit_saved (hclean : ∀ c ∈ amount, isTrimmed c = false) :
    parseBandwidthLimit (some (bandwidthType amount unit))
      = some (if isAmount amount = true then (ofList amount, unit) else ("", .Mbps)) := by
  have hall : ∀ c ∈ amount ++ unit.text.toList, isTrimmed c = false := by
    intro c hc
    rcases List.mem_append.mp hc with hc | hc
    · exact hclean c hc
    · exact (isUnit_text unit).clean hc
  have htrim : trim (bandwidthType amount unit) = bandwidthType amount unit := by
    refine trim_clean fun c hc => ?_
    rw [toList_bandwidthType] at hc
    rcases List.mem_append.mp hc with hc | hc
    · have hlabel : ∀ c ∈ BANDWIDTH_PREFIX.toList, isTrimmed c = false := by decide
      exact hlabel c hc
    · exact hall c hc
  exact parseBandwidthLimit_amount (by rw [htrim, toList_bandwidthType]) (isUnit_text unit) hall

section

variable {stored : TrafficLimit}

theorem label_bandwidth {value : String} {unit : BandwidthUnit}
    (hparse : parseBandwidthLimit (some stored.traffic_limit_type) = some (value, unit)) (hne : value ≠ "") :
    stored.label = value ++ " " ++ unit.text ++ " 无限流量" := by
  rw [TrafficLimit.label, formatTrafficLimitLabel, hparse]
  exact if_pos hne

theorem untouched_bandwidth {amount : List Char} {unit : BandwidthUnit} {x : ℚ}
    (hparse : parseBandwidthLimit (some stored.traffic_limit_type) = some (ofList amount, unit))
    (hamount : AmountText amount) (hx : readDecimal amount = some x) :
    stored.untouched = if 0 < x then ⟨0, bandwidthType (numberText x) unit⟩ else ⟨0, "unlimited"⟩ := by
  have hnumber : numberOfText (ofList amount) = .finite x := by
    obtain ⟨c, rest, hcons, -⟩ := hamount.chars
    rw [numberOfText, if_neg, toList_ofList, numberOf_amount hamount hx]
    rw [hcons]
    exact fun hempty => absurd (congrArg toList hempty) (by simp)
  have hopen : stored.open = ⟨.bandwidth, "", .TB, "sum", ofList amount, unit⟩ := by
    rw [TrafficLimit.open, createTrafficLimitFormValue, hparse]
  rw [TrafficLimit.untouched, hopen]
  simp only [serializeTrafficLimitFormValue, hnumber]
  rfl

end

/-! ## What the server admits -/

theorem traffic_limit_passes (rules : BackupRules) (limit : Int) :
    (readNumber rules (.int limit) "traffic_limit" true).Passes ↔ 0 ≤ limit ∧ limit ≤ maxSafeInteger := by
  have hbounds : Backup.numericBounds "traffic_limit" = (0, maxSafeInteger) := by decide
  have hnumber : Backup.finiteNumber rules (.int limit) = some (limit : ℚ) := rfl
  have hempty : Backup.optionalText (.int limit) ≠ some "" := by simp [Json.int, Backup.optionalText]
  simp only [readNumber, hbounds, hnumber, if_neg hempty]
  by_cases houtside : (limit : ℚ) < ((0 : Int) : ℚ) ∨ ((maxSafeInteger : Int) : ℚ) < limit
  · rw [if_pos houtside, Int.cast_lt, Int.cast_lt] at *
    constructor
    · exact fun h => absurd h (Checked.not_passes_fault _ _)
    · intro h
      omega
  · rw [if_neg houtside, Int.cast_lt, Int.cast_lt] at *
    rw [if_neg (by rintro ⟨-, hden⟩; exact hden (Rat.den_intCast limit))]
    exact ⟨fun _ => by omega, fun _ => Checked.passes_pure _⟩

theorem traffic_limit_type_passes (rules : BackupRules) (type : String) :
    (Backup.normalizeTrafficLimitType rules (some (.str type))).Passes ↔ units (trim type) ≤ 64 ∧
      (trim type = "" ∨ trim type ∈ Backup.TRAFFIC_LIMIT_TYPES ∨ isBandwidth (trim type) = true) := by
  rw [Backup.normalizeTrafficLimitType, Checked.passes_bind]
  by_cases hlong : 64 < units (trim type)
  · have hread : ¬ (readString rules (some (.str type)) "traffic_limit_type" 64).Passes := by
      rw [readString, Backup.boundedText, if_pos hlong]
      exact Checked.not_passes_fault _ _
    constructor
    · exact fun h => absurd h.1 hread
    · intro h
      omega
  · have hread : readString rules (some (.str type)) "traffic_limit_type" 64 = pure (some (some (trim type))) := by
      rw [readString, Backup.boundedText, if_neg hlong]
    simp only [hread, Checked.value_pure, Checked.passes_pure, true_and, not_lt.mp hlong]
    by_cases hempty : trim type = ""
    · simp [hempty]
    · by_cases hlisted : trim type ∈ Backup.TRAFFIC_LIMIT_TYPES
      · simp [hempty, hlisted]
      · by_cases hbandwidth : isBandwidth (trim type) = true
        · simp [hempty, hlisted, hbandwidth]
        · simp [hempty, hlisted, hbandwidth]

/-- **The pairs that the validator admits.** -/
theorem admitted_iff (rules : BackupRules) (stored : TrafficLimit) :
    stored.Admitted rules ↔ (0 ≤ stored.traffic_limit ∧ stored.traffic_limit ≤ maxSafeInteger) ∧
      units (trim stored.traffic_limit_type) ≤ 64 ∧
      (trim stored.traffic_limit_type = "" ∨ trim stored.traffic_limit_type ∈ Backup.TRAFFIC_LIMIT_TYPES ∨
        isBandwidth (trim stored.traffic_limit_type) = true) := by
  rw [← traffic_limit_passes rules, ← traffic_limit_type_passes rules]
  have hlimit : ∀ value, Backup.readClientField rules "traffic_limit" value
      = (do
          let number ← readNumber rules value "traffic_limit" true
          pure (number.map fun x => Json.num (.finite x))) := fun value => rfl
  have htype : ∀ value, Backup.readClientField rules "traffic_limit_type" value
      = (do
          let type ← Backup.normalizeTrafficLimitType rules (some value)
          pure (type.map Json.str)) := fun value => rfl
  unfold TrafficLimit.Admitted Backup.validateClientUpdateInput
  simp only [Backup.accepted_ok]
  simp [Checked.each', Checked.each, hlimit, htype]

/-! ## The form of a quota -/

section

variable {stored : TrafficLimit}

theorem mem_types {t : String} (h : t ∈ TRAFFIC_LIMIT_TYPES.map Prod.fst) :
    trim t = t ∧ ¬ BANDWIDTH_PREFIX.toList <+: t.toList ∧ t ≠ "unlimited" ∧ t ∈ Backup.TRAFFIC_LIMIT_TYPES ∧
      units t ≤ 64 := by
  have hall : ∀ t ∈ TRAFFIC_LIMIT_TYPES.map Prod.fst, trim t = t ∧ ¬ BANDWIDTH_PREFIX.toList <+: t.toList ∧
      t ≠ "unlimited" ∧ t ∈ Backup.TRAFFIC_LIMIT_TYPES ∧ units t ≤ 64 := by decide
  exact hall t h

theorem parseTrafficLimitType_mem (type : Option String) :
    parseTrafficLimitType type ∈ TRAFFIC_LIMIT_TYPES.map Prod.fst := by
  simp only [parseTrafficLimitType]
  split_ifs with h
  · exact h
  · decide

theorem parseTrafficLimitType_again (type : Option String) :
    parseTrafficLimitType (some (parseTrafficLimitType type)) = parseTrafficLimitType type := by
  have hmem := parseTrafficLimitType_mem type
  generalize parseTrafficLimitType type = t at *
  simp only [parseTrafficLimitType, Option.getD_some, (mem_types hmem).1]
  rw [if_pos hmem]

theorem quota_decimal {limit : Int} (h : 0 < limit) (unit : TrafficLimitUnit) :
    ∃ m j : Nat, 0 < m ∧ (limit : ℚ) / unit.factor = (m : ℚ) / 10 ^ j := by
  obtain ⟨k, hk⟩ : ∃ k, unit.factor = 2 ^ k := by
    cases unit with
    | GB => exact ⟨30, by norm_num [TrafficLimitUnit.factor, BYTES_PER_GB]⟩
    | TB => exact ⟨40, by norm_num [TrafficLimitUnit.factor, BYTES_PER_TB]⟩
  have hlimit : ((limit.toNat : Nat) : ℚ) = limit := by
    have hnat : (limit.toNat : Int) = limit := Int.toNat_of_nonneg h.le
    exact_mod_cast hnat
  refine ⟨limit.toNat * 5 ^ k, k, Nat.mul_pos (by omega) (by positivity), ?_⟩
  rw [hk]
  push_cast
  rw [hlimit, div_eq_div_iff (by positivity) (by positivity), mul_assoc, ← mul_pow]
  norm_num

section

variable (hparse : parseBandwidthLimit (some stored.traffic_limit_type) = none)

include hparse

theorem untouched_zero (h : stored.traffic_limit ≤ 0) : stored.untouched = ⟨0, "unlimited"⟩ := by
  have hcast : (stored.traffic_limit : ℚ) ≤ 0 := by exact_mod_cast h
  have hopen : stored.open = unlimitedForm (some stored.traffic_limit_type) := by
    simp only [TrafficLimit.open, createTrafficLimitFormValue, hparse, numberOrZero]
    exact if_pos hcast
  rw [TrafficLimit.untouched, hopen]
  rfl

/-- **A quota is read back to the byte.** -/
theorem untouched_quota (h : 0 < stored.traffic_limit) : stored.open.mode = .quota ∧
      stored.untouched = ⟨stored.traffic_limit, parseTrafficLimitType (some stored.traffic_limit_type)⟩ := by
  have hcast : ¬ (stored.traffic_limit : ℚ) ≤ 0 := by
    rw [not_le]
    exact_mod_cast h
  obtain ⟨unit, hopen⟩ : ∃ unit : TrafficLimitUnit, stored.open = ⟨.quota,
      ofList (numberText (stored.traffic_limit / unit.factor)), unit,
      parseTrafficLimitType (some stored.traffic_limit_type), "", .Mbps⟩ := by
    refine ⟨if (BYTES_PER_TB : ℚ) ≤ stored.traffic_limit then .TB else .GB, ?_⟩
    simp only [TrafficLimit.open, createTrafficLimitFormValue, hparse, numberOrZero]
    exact if_neg hcast
  obtain ⟨m, j, hm, hdecimal⟩ := quota_decimal h unit
  have hnumber : numberOfText (ofList (numberText (stored.traffic_limit / unit.factor)))
      = .finite (stored.traffic_limit / unit.factor) := by
    obtain ⟨c, rest, hcons, -⟩ := numberText_chars hm j
    rw [hdecimal, numberOfText, if_neg, toList_ofList, numberOf_numberText hm]
    rw [hcons]
    exact fun hempty => absurd (congrArg toList hempty) (by simp)
  have hfactor : (unit.factor : ℚ) ≠ 0 := by
    cases unit <;> norm_num [TrafficLimitUnit.factor, BYTES_PER_GB, BYTES_PER_TB]
  have hround : round (stored.traffic_limit / unit.factor * unit.factor) = stored.traffic_limit := by
    rw [div_mul_cancel₀ _ hfactor, round, Int.floor_intCast_add]
    norm_num
  have hpos : (0 : ℚ) < stored.traffic_limit / unit.factor := by
    rw [hdecimal]
    exact div_pos (by exact_mod_cast hm) (by positivity)
  refine ⟨by rw [hopen], ?_⟩
  rw [TrafficLimit.untouched, hopen]
  simp only [serializeTrafficLimitFormValue, hnumber]
  rw [if_pos hpos, hround, parseTrafficLimitType_again]

theorem label_unlimited (h : trim stored.traffic_limit_type = "unlimited") : stored.label = "无限流量" := by
  rw [TrafficLimit.label, formatTrafficLimitLabel, hparse]
  exact if_pos h

theorem label_zero
    (hne : trim stored.traffic_limit_type ≠ "unlimited") (h : stored.traffic_limit ≤ 0) : stored.label = "" := by
  have hcast : (stored.traffic_limit : ℚ) ≤ 0 := by exact_mod_cast h
  rw [TrafficLimit.label, formatTrafficLimitLabel, hparse]
  simp only [formatTrafficLimitLabel.labelOf, Option.getD_some, if_neg hne, numberOrZero]
  exact if_pos hcast

theorem label_quota (hne : trim stored.traffic_limit_type ≠ "unlimited") (h : 0 < stored.traffic_limit) :
    stored.label = formatTrafficLimitType (some stored.traffic_limit_type) ++ " ("
      ++ formatBytes stored.traffic_limit ++ ")" := by
  have hcast : ¬ (stored.traffic_limit : ℚ) ≤ 0 := by
    rw [not_le]
    exact_mod_cast h
  rw [TrafficLimit.label, formatTrafficLimitLabel, hparse]
  simp only [formatTrafficLimitLabel.labelOf, Option.getD_some, if_neg hne, numberOrZero]
  exact if_neg hcast

end

end

/-! ## Which limits an untouched form keeps -/

section

variable {rules : BackupRules} {stored : TrafficLimit}

/-- What a form without a limit saves. -/
def nothingLimited : TrafficLimit := ⟨0, "unlimited"⟩

theorem trim_unlimited : trim "unlimited" = "unlimited" := by decide

theorem parse_unlimited : parseBandwidthLimit (some "unlimited") = none :=
  parseBandwidthLimit_other (by rw [trim_unlimited]; decide)

theorem nothingLimited_label : nothingLimited.label = "无限流量" := label_unlimited parse_unlimited trim_unlimited

theorem nothingLimited_again : nothingLimited.untouched = nothingLimited := untouched_zero parse_unlimited le_rfl

theorem nothingLimited_admitted : nothingLimited.Admitted rules := by
  rw [admitted_iff]
  have htrim : trim nothingLimited.traffic_limit_type = "unlimited" := trim_unlimited
  rw [htrim]
  exact ⟨⟨le_rfl, by decide⟩, by decide, .inr (.inl (by decide))⟩

variable {unit : BandwidthUnit}

theorem label_nothing (hparse : parseBandwidthLimit (some stored.traffic_limit_type) = some ("", unit))
    (hne : trim stored.traffic_limit_type ≠ "unlimited") (h : stored.traffic_limit = 0) : stored.label = "" := by
  rw [TrafficLimit.label, formatTrafficLimitLabel, hparse, h]
  simp only [formatTrafficLimitLabel.labelOf, Option.getD_some, if_neg hne, numberOrZero]
  simp

theorem bandwidth_of_admitted (hadmitted : stored.Admitted rules)
    (hlabel : BANDWIDTH_PREFIX.toList <+: (trim stored.traffic_limit_type).toList) :
    ∃ amount tail unit, BandwidthText (trim stored.traffic_limit_type).toList BANDWIDTH_PREFIX.toList amount tail unit := by
  obtain ⟨-, -, hempty | hlisted | hbandwidth⟩ := (admitted_iff rules stored).mp hadmitted
  · rw [hempty] at hlabel
    exact absurd hlabel (by decide)
  · have hnone : ∀ t ∈ Backup.TRAFFIC_LIMIT_TYPES, ¬ BANDWIDTH_PREFIX.toList <+: t.toList := by decide
    exact absurd hlabel (hnone _ hlisted)
  · obtain ⟨label, amount, tail, unit, hparts⟩ := isBandwidth_parts hbandwidth
    have hsame : label = BANDWIDTH_PREFIX.toList := by
      obtain ⟨rest, hrest⟩ := hlabel
      have htake := congrArg (List.take 10) (hrest.trans hparts.parts)
      have hten : BANDWIDTH_PREFIX.toList.length = 10 := by decide
      rw [List.take_left' hparts.labelLength, List.take_left' hten] at htake
      exact htake.symm
    rw [hsame] at hparts
    exact ⟨amount, tail, unit, hparts⟩

variable {amount : List Char}

theorem bandwidth_label_ne (h : AmountText amount) (rest : String) :
    ofList amount ++ rest ≠ "无限流量" ∧ ofList amount ++ rest ≠ "" := by
  obtain ⟨c, more, rfl, hc, -⟩ := h.chars
  constructor <;> intro heq <;> have hchars := congrArg toList heq
  · simp only [toList_append, toList_ofList, List.cons_append] at hchars
    have hfirst := (List.cons.inj hchars).1
    subst hfirst
    cases hc
  · simp only [toList_append, toList_ofList, List.cons_append] at hchars
    cases hchars

theorem bandwidthType_trim (unit : BandwidthUnit) (hclean : ∀ c ∈ amount, isTrimmed c = false) :
    trim (bandwidthType amount unit) = bandwidthType amount unit := by
  refine trim_clean fun c hc => ?_
  rw [toList_bandwidthType] at hc
  rcases List.mem_append.mp hc with hc | hc
  · have hlabel : ∀ c ∈ BANDWIDTH_PREFIX.toList, isTrimmed c = false := by decide
    exact hlabel c hc
  · rcases List.mem_append.mp hc with hc | hc
    · exact hclean c hc
    · exact (isUnit_text unit).clean hc

theorem bandwidthType_ne (amount : List Char) (unit : BandwidthUnit) : bandwidthType amount unit ≠ "unlimited" := by
  intro heq
  have htake := congrArg (fun text : String => text.toList.take 10) heq
  have hten : BANDWIDTH_PREFIX.toList.length = 10 := by decide
  simp only [toList_bandwidthType] at htake
  rw [List.take_left' hten] at htake
  cases htake

theorem numberText_clean {m : Nat} (hm : 0 < m) (j : Nat) :
    ∀ c ∈ numberText ((m : ℚ) / 10 ^ j), isTrimmed c = false := by
  obtain ⟨c, rest, hcons, hc, hrest⟩ := numberText_chars hm j
  rw [hcons]
  intro d hd
  rcases List.mem_cons.mp hd with rfl | hd
  · exact (digit_facts hc).1
  · exact (numberChar_facts (hrest d hd)).1

theorem ofList_cons_ne (c : Char) (rest : List Char) : ofList (c :: rest) ≠ "" :=
  fun hempty => absurd (congrArg toList hempty) (by simp)

theorem label_saved {m : Nat} (hm : 0 < m) (j : Nat) (unit : BandwidthUnit) :
    (TrafficLimit.mk 0 (bandwidthType (numberText ((m : ℚ) / 10 ^ j)) unit)).label
      = if isAmount (numberText ((m : ℚ) / 10 ^ j)) = true then
          ofList (numberText ((m : ℚ) / 10 ^ j)) ++ " " ++ unit.text ++ " 无限流量"
        else "" := by
  have hclean := numberText_clean hm j
  have hsaved : parseBandwidthLimit (some (bandwidthType (numberText ((m : ℚ) / 10 ^ j)) unit)) = _ :=
    parseBandwidthLimit_saved hclean
  obtain ⟨c, rest, hcons, -⟩ := numberText_chars hm j
  generalize numberText ((m : ℚ) / 10 ^ j) = written at *
  split_ifs with hamount
  · rw [if_pos hamount] at hsaved
    exact label_bandwidth hsaved (by rw [hcons]; exact ofList_cons_ne c rest)
  · rw [if_neg hamount] at hsaved
    refine label_nothing hsaved ?_ rfl
    show trim (bandwidthType written unit) ≠ "unlimited"
    rw [bandwidthType_trim unit hclean]
    exact bandwidthType_ne written unit

section

variable (hadmitted : stored.Admitted rules)

include hadmitted

theorem saved_admitted {tail : List Char}
    (hparts : BandwidthText (trim stored.traffic_limit_type).toList BANDWIDTH_PREFIX.toList amount tail unit) :
    (TrafficLimit.mk 0 (bandwidthType amount unit)).Admitted rules := by
  have hclean : ∀ c ∈ amount, isTrimmed c = false := fun c hc => hparts.amount_clean (List.mem_append_left _ hc)
  obtain ⟨-, hunits, -⟩ := (admitted_iff rules stored).mp hadmitted
  rw [admitted_iff]
  show _ ∧ units (trim (bandwidthType amount unit)) ≤ 64 ∧
    (_ ∨ _ ∨ isBandwidth (trim (bandwidthType amount unit)) = true)
  rw [bandwidthType_trim unit hclean]
  have hmax : (0 : Int) ≤ maxSafeInteger := by decide
  refine ⟨⟨le_rfl, hmax⟩, ?_, .inr (.inr ?_)⟩
  · -- the text is no longer than the stored one
    have htail := Backup.length_le_units tail
    rw [hparts.unit.length] at htail
    have hunit : (unit.text.toList.map Live.utf16Size).sum = 4 := by
      cases unit <;> decide
    rw [units, hparts.parts, List.map_append, List.map_append, List.sum_append, List.sum_append] at hunits
    rw [units, toList_bandwidthType, List.map_append, List.map_append, List.sum_append, List.sum_append, hunit]
    omega
  · have hsaved : BandwidthText (bandwidthType amount unit).toList BANDWIDTH_PREFIX.toList amount unit.text.toList unit :=
      ⟨toList_bandwidthType amount unit, by decide, hparts.amount, isUnit_text unit⟩
    exact isBandwidth_of_parts hsaved

/-- **A bandwidth is kept exactly when its amount is a plain one.** -/
theorem kept_bandwidth_iff {tail : List Char}
    (hparts : BandwidthText (trim stored.traffic_limit_type).toList BANDWIDTH_PREFIX.toList amount tail unit) :
    stored.Kept rules ↔ isPlainAmount amount = true := by
  have hamount := hparts.amount
  have hne : ofList amount ≠ "" := by
    obtain ⟨c, rest, rfl, -⟩ := hamount.chars
    exact ofList_cons_ne c rest
  have hparse : parseBandwidthLimit (some stored.traffic_limit_type) = some (ofList amount, unit) := by
    rw [parseBandwidthLimit_amount hparts.parts hparts.unit fun c hc => hparts.amount_clean hc,
      if_pos ((isAmount_iff amount).mpr hamount)]
  have hlabel := label_bandwidth hparse hne
  obtain ⟨m, j, hx, hplain⟩ := numberText_plain_iff hamount
  have huntouched := untouched_bandwidth hparse hamount hx
  rw [hplain]
  constructor
  · intro hkept
    have hsame := hkept.label
    rw [hlabel, append_assoc, append_assoc] at hsame
    rcases Nat.eq_zero_or_pos m with rfl | hm
    · -- no bandwidth at all is saved as unlimited
      rw [if_neg (by simp)] at huntouched
      change stored.untouched = nothingLimited at huntouched
      rw [huntouched, nothingLimited_label] at hsame
      exact absurd hsame.symm (bandwidth_label_ne hamount _).1
    · have hpos : (0 : ℚ) < (m : ℚ) / 10 ^ j := div_pos (by exact_mod_cast hm) (by positivity)
      rw [if_pos hpos] at huntouched
      rw [huntouched, label_saved hm] at hsame
      split_ifs at hsame with hwritten
      · rw [append_assoc, append_assoc] at hsame
        have hchars := congrArg toList hsame
        simp only [toList_append, toList_ofList] at hchars
        exact ⟨hm, List.append_cancel_right hchars⟩
      · exact absurd hsame.symm (bandwidth_label_ne hamount _).2
  · rintro ⟨hm, htext⟩
    have hpos : (0 : ℚ) < (m : ℚ) / 10 ^ j := div_pos (by exact_mod_cast hm) (by positivity)
    rw [if_pos hpos, htext] at huntouched
    have hsaved : parseBandwidthLimit (some (bandwidthType amount unit)) = some (ofList amount, unit) := by
      rw [parseBandwidthLimit_saved fun c hc => hparts.amount_clean (List.mem_append_left _ hc),
        if_pos ((isAmount_iff amount).mpr hamount)]
    have hagain : (TrafficLimit.mk 0 (bandwidthType amount unit)).untouched = _ := untouched_bandwidth hsaved hamount hx
    rw [if_pos hpos, htext] at hagain
    have hlabel' : (TrafficLimit.mk 0 (bandwidthType amount unit)).label = _ := label_bandwidth hsaved hne
    refine ⟨?_, ?_, ?_, ?_⟩
    · rw [huntouched]
      exact saved_admitted hadmitted hparts
    · rw [huntouched, hlabel', hlabel]
    · intro hmode
      rw [TrafficLimit.open, createTrafficLimitFormValue, hparse] at hmode
      cases hmode
    · rw [huntouched, hagain]

/-- **An unlimited node is kept when it has no limit beside.** -/
theorem kept_unlimited_iff (htype : trim stored.traffic_limit_type = "unlimited") :
    stored.Kept rules ↔ stored.traffic_limit = 0 := by
  have hparse : parseBandwidthLimit (some stored.traffic_limit_type) = none :=
    parseBandwidthLimit_other (by rw [htype]; decide)
  have hlabel := label_unlimited hparse htype
  obtain ⟨⟨hnonneg, -⟩, -⟩ := (admitted_iff rules stored).mp hadmitted
  constructor
  · intro hkept
    by_contra hne
    obtain ⟨-, huntouched⟩ := untouched_quota hparse (by omega)
    have hsum : parseTrafficLimitType (some stored.traffic_limit_type) = "sum" := by
      simp only [parseTrafficLimitType, Option.getD_some, htype]
      decide
    have hsame := hkept.label
    rw [hlabel, huntouched, hsum] at hsame
    have htrim : trim "sum" = "sum" := by decide
    have hother : ¬ BANDWIDTH_PREFIX.toList <+: (trim "sum").toList := by
      rw [htrim]
      decide
    have hquota := @label_quota ⟨stored.traffic_limit, "sum"⟩ (parseBandwidthLimit_other hother) (by rw [htrim]; decide)
      (show 0 < stored.traffic_limit by omega)
    rw [hquota] at hsame
    have hname : formatTrafficLimitType (some "sum") = "总计" := by decide
    rw [hname] at hsame
    have hchars := congrArg toList hsame
    simp only [toList_append] at hchars
    exact absurd (List.cons.inj hchars).1 (by decide)
  · intro hzero
    have huntouched : stored.untouched = nothingLimited := untouched_zero hparse hzero.le
    refine ⟨huntouched ▸ nothingLimited_admitted, ?_, fun _ => ?_, ?_⟩
    · rw [huntouched, nothingLimited_label, hlabel]
    · rw [huntouched, hzero]
      rfl
    · rw [huntouched, nothingLimited_again]

/-- **Every other type is kept with a positive limit.** -/
theorem kept_quota_iff (hother : ¬ BANDWIDTH_PREFIX.toList <+: (trim stored.traffic_limit_type).toList)
    (htype : trim stored.traffic_limit_type ≠ "unlimited") : stored.Kept rules ↔ 0 < stored.traffic_limit := by
  have hparse := parseBandwidthLimit_other hother
  obtain ⟨⟨hnonneg, hmax⟩, -⟩ := (admitted_iff rules stored).mp hadmitted
  constructor
  · intro hkept
    by_contra hzero
    have huntouched : stored.untouched = nothingLimited := untouched_zero hparse (not_lt.mp hzero)
    have hsame := hkept.label
    rw [huntouched, nothingLimited_label, label_zero hparse htype (not_lt.mp hzero)] at hsame
    exact absurd hsame (by decide)
  · intro hpos
    obtain ⟨-, huntouched⟩ := untouched_quota hparse hpos
    obtain ⟨htrim, hplain, hne, hlisted, hunits⟩ := mem_types (parseTrafficLimitType_mem (some stored.traffic_limit_type))
    have hparse' : parseBandwidthLimit (some (parseTrafficLimitType (some stored.traffic_limit_type))) = none :=
      parseBandwidthLimit_other (by rw [htrim]; exact hplain)
    have hagain := @untouched_quota ⟨stored.traffic_limit, parseTrafficLimitType (some stored.traffic_limit_type)⟩
      hparse' hpos
    have hlabel' := @label_quota ⟨stored.traffic_limit, parseTrafficLimitType (some stored.traffic_limit_type)⟩
      hparse' (by rw [htrim]; exact hne) hpos
    refine ⟨?_, ?_, fun _ => by rw [huntouched], ?_⟩
    · rw [huntouched, admitted_iff]
      simp only [htrim]
      exact ⟨⟨hnonneg, hmax⟩, hunits, .inr (.inl hlisted)⟩
    · rw [huntouched, hlabel', label_quota hparse htype hpos]
      simp only [formatTrafficLimitType, parseTrafficLimitType_again]
    · rw [huntouched, hagain.2, parseTrafficLimitType_again]

end

end

/-- A node without a limit to which a number was left. -/
def unlimitedWithBytes : TrafficLimit := ⟨5368709120, "unlimited"⟩

theorem unlimitedWithBytes_admitted : unlimitedWithBytes.Admitted Backup.githubRules := by
  rw [admitted_iff]
  have htrim : trim unlimitedWithBytes.traffic_limit_type = "unlimited" := trim_unlimited
  rw [htrim]
  exact ⟨⟨by decide, by decide⟩, by decide, .inr (.inl (by decide))⟩

end CfMonitor.Frontend
