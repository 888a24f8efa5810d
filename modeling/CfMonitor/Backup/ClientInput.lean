/-
  What an administrator may write into a client (`validateClientUpdateInput` in `client.ts`).

  1. **Readers** — one for each kind of field, with its errors.

  2. **Inputs** — the patch of an update, in the order of its fields.
-/
import CfMonitor.Backup.Settings
import CfMonitor.Lib.Checked

namespace CfMonitor.Backup

open CfMonitor.Lib CfMonitor.Live

/-! ## Limits -/

def TEXT_LIMITS : List (String × Nat) :=
  [("name", 128), ("cpu_name", 256), ("virtualization", 128), ("arch", 64), ("os", 128),
    ("kernel_version", 128), ("gpu_name", 256), ("ipv4", 128), ("ipv6", 128), ("region", 128),
    ("remark", 1000), ("public_remark", 1000), ("version", 128), ("currency", 16), ("expired_at", 64),
    ("group", 128)]

def BOOLEAN_FIELDS : List String := ["auto_renewal", "hidden"]

def INTEGER_FIELDS : List String :=
  ["cpu_cores", "billing_cycle", "mem_total", "swap_total", "disk_total", "traffic_limit",
    "traffic_reset_day"]

def TRAFFIC_LIMIT_TYPES : List String := ["sum", "max", "min", "up", "down", "unlimited"]

/-- `numericBounds`. -/
def numericBounds (field : String) : Int × Int :=
  if field = "price" then (-1, 1000000000)
  else if field = "cpu_cores" then (0, 1024)
  else if field = "billing_cycle" then (-1, 36500)
  else if field = "traffic_reset_day" then (1, 31)
  else (0, maxSafeInteger)

section

variable (rules : BackupRules)

/-! ## Readers -/

/-- The end of `readString`. -/
def boundedText (field : String) (maxLength : Nat) (text : String) : Checked (Option (Option String)) :=
  if maxLength < units text then .fault none (field ++ " 不能超过 " ++ toString maxLength ++ " 字符")
  else pure (some (some text))

/-- `readString`: a field is missing, `null` or a text. -/
def readString (value : Option Json) (field : String) (maxLength : Nat) : Checked (Option (Option String)) :=
  match value with
  | none => pure none
  | some .null => pure (some none)
  | some (.str text) => boundedText field maxLength (trim text)
  | some (.num x) => boundedText field maxLength (trim (rules.toText (.num x)))
  | some (.bool b) => boundedText field maxLength (booleanText b)
  | some _ => .fault none (field ++ " 必须是字符串")

/-- `readBoolean` of `client.ts`. -/
def readFlag (value : Json) (field : String) : Checked (Option Bool) :=
  let invalid : Checked (Option Bool) := .fault none (field ++ " 必须是 true/false/1/0")
  match value with
  | .bool b => pure (some b)
  | .num (.finite x) => if x = 1 then pure (some true) else if x = 0 then pure (some false) else invalid
  | .str text =>
    let normalized := rules.lower (trim text)
    if normalized = "true" ∨ normalized = "1" then pure (some true)
    else if normalized = "false" ∨ normalized = "0" then pure (some false)
    else invalid
  | _ => invalid

def readNumber (value : Json) (field : String) (integer : Bool) : Checked (Option ℚ) :=
  let bounds := numericBounds field
  let outside : Checked (Option ℚ) :=
    .fault none (field ++ " 必须在 " ++ toString bounds.1 ++ " 到 " ++ toString bounds.2 ++ " 之间")
  if optionalText value = some "" then pure none
  else match finiteNumber rules value with
    | none => outside
    | some x =>
      if x < bounds.1 ∨ bounds.2 < x then outside
      else if integer = true ∧ x.den ≠ 1 then .fault none (field ++ " 必须是整数")
      else pure (some x)

/-- The loop over the tags; an item that is no tag ends it without a result. -/
def collectTags : List String → List Json → Checked (Option (List String))
  | tags, [] => pure (some tags)
  | tags, item :: rest =>
    let read (text : String) : Checked (Option (List String)) :=
      if text = "" then collectTags tags rest
      else if 64 < units text then do
        Checked.fault () "单个标签不能超过 64 字符"
        collectTags tags rest
      else if text ∈ tags then collectTags tags rest
      else collectTags (tags ++ [text]) rest
    match item with
    | .str text => read (trim text)
    | .num x => read (trim (rules.toText (.num x)))
    | _ => .fault none "tags 必须是字符串或字符串数组"

/-- `[;,]`. -/
def isTagSeparator (c : Char) : Bool := c == ';' || c == ','

/-- What is stored of the tags. -/
def joinTags (tags : List String) : Checked (Option String) := do
  Checked.faultIf (50 < tags.length) "标签数量不能超过 50 个"
  let normalized := ";".intercalate (tags.take 50)
  if 1000 < units normalized then Checked.fault none "tags 不能超过 1000 字符"
  else pure (some normalized)

/-- `normalizeTags` of the items of an array or of the parts of a text. -/
def tagsOf (source : List Json) : Checked (Option String) := do
  match ← collectTags rules [] source with
  | none => pure none
  | some tags => joinTags tags

def normalizeTags (value : Json) : Checked (Option String) :=
  match value with
  | .null => pure none
  | .arr items => tagsOf rules items
  | value => tagsOf rules
      (((textOf rules value).toList.splitOnP isTagSeparator).map fun part => Json.str (String.ofList part))

/-- The unit at the end of a bandwidth, as it is stored. -/
def bandwidthUnit (text : String) : Option String :=
  let tail := (text.toList.drop (text.toList.length - 4)).map Char.toLower
  if tail = "gbps".toList then some "Gbps" else if tail = "mbps".toList then some "Mbps" else none

/-- `/^bandwidth:\d+(?:\.\d+)?(?:Mbps|Gbps)$/i`. -/
def isBandwidth (text : String) : Bool :=
  let chars := text.toList.map Char.toLower
  let amount := ((chars.drop "bandwidth:".length).take (chars.length - "bandwidth:".length - 4)).splitOn '.'
  "bandwidth:".toList.isPrefixOf chars && (bandwidthUnit text).isSome && amount.length ≤ 2 &&
    amount.all fun part => !part.isEmpty && part.all Char.isDigit

def normalizeTrafficLimitType (value : Option Json) : Checked (Option String) := do
  match ← readString rules value "traffic_limit_type" 64 with
  | none => pure none
  | some none => pure (some "sum")
  | some (some text) =>
    if text = "" then pure (some "sum")
    else if text ∈ TRAFFIC_LIMIT_TYPES then pure (some text)
    else if isBandwidth text then
      pure (some (String.ofList (text.toList.take (text.toList.length - 4)) ++ (bandwidthUnit text).getD ""))
    else .fault none "traffic_limit_type 无效"

/-! ## Inputs -/

/-- The value of a reading without errors. -/
def accepted {α : Type} (read : Checked α) : Except (List String) α :=
  if read.errors = [] then .ok read.value else .error read.errors

/-- The entry that a field of an update leaves in the patch. -/
def readClientField (field : String) (value : Json) : Checked (Option Json) :=
  match Assoc.get? TEXT_LIMITS field with
  | some maxLength => do
    let text ← readString rules (some value) field maxLength
    pure (text.map fun text => (text.map Json.str).getD .null)
  | none =>
    if field = "tags" then do
      let tags ← normalizeTags rules value
      pure (tags.map Json.str)
    else if field = "traffic_limit_type" then do
      let type ← normalizeTrafficLimitType rules (some value)
      pure (type.map Json.str)
    else if field ∈ BOOLEAN_FIELDS then do
      let flag ← readFlag rules value field
      pure (flag.map Json.bool)
    else if field ∈ INTEGER_FIELDS then do
      let number ← readNumber rules value field true
      pure (number.map fun x => Json.num (.finite x))
    else if field = "price" then do
      let number ← readNumber rules value field false
      pure (number.map fun x => Json.num (.finite x))
    else .fault none ("不允许修改字段: " ++ field)

def validateClientUpdateInput (input : Json) : Except (List String) Fields :=
  match input with
  | .obj fields => accepted (Checked.each' (fun _ entry =>
      if entry.1 = "uuid" ∨ entry.1 = "token" then pure []
      else do
        let value ← readClientField rules entry.1 entry.2
        pure (value.map fun value => (entry.1, value)).toList) fields)
  | _ => .error ["客户端数据必须是对象"]

/-! ## Acceptance -/

variable {rules} {field : String}

theorem length_le_units (chars : List Char) : chars.length ≤ (chars.map utf16Size).sum := by
  induction chars with
  | nil => exact le_refl 0
  | cons c rest ih =>
    have hsize : 1 ≤ utf16Size c := by
      rw [utf16Size]
      split_ifs <;> omega
    rw [List.length_cons, List.map_cons, List.sum_cons]
    omega

theorem accepted_ok {α : Type} {read : Checked α} {a : α} : accepted read = .ok a ↔ read.Passes ∧ read.value = a := by
  rw [accepted]
  split_ifs with hpasses
  · exact ⟨fun h => ⟨hpasses, Except.ok.inj h⟩, fun h => congrArg Except.ok h.2⟩
  · exact ⟨nofun, fun h => absurd h.1 hpasses⟩

end

end CfMonitor.Backup
