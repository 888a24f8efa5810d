/-
  Theme packages and their configuration (`theme-package.ts`).

  1. **Manifest** — `normalizeThemeManifest` reads a manifest; what it has read it reads again as the same
     items (`normalizeConfigItems_again`).

  2. **Configuration** — `validateThemeConfig` brings each value that is given into the form of its item.
     A value that is missing takes the default of the manifest as it stands there.

  3. **Result** — when validation is stable (`theme_config_stable_iff`).
-/
import CfMonitor.Backup.Settings
import CfMonitor.Lib.Base64
import CfMonitor.Lib.Fallible

namespace CfMonitor.Themes

open CfMonitor.Lib CfMonitor.Lib.Fallible CfMonitor.Backup
open Assoc (get?)

/-! ## Platform -/

/-- What themes use from elsewhere: the files of an archive within its limits, `strFromU8`, and the source
    text of a built-in method. -/
structure ThemeRules extends BackupRules where
  unzipThemeWithLimits : List UInt8 → Except String (List (String × List UInt8))
  strFromU8 : List UInt8 → String
  nativeText : String → String

/-- The methods that every object inherits. -/
def OBJECT_METHODS : List String := [
  "constructor", "__defineGetter__", "__defineSetter__", "hasOwnProperty", "__lookupGetter__", "__lookupSetter__",
  "isPrototypeOf", "propertyIsEnumerable", "toString", "valueOf", "toLocaleString"]

/-! ## Manifest -/

inductive ThemeConfigItemType where
  | title
  | switch
  | select
  | number
  | string
  | richtext
  | color
  | image
  | range
  deriving DecidableEq

namespace ThemeConfigItemType

def text : ThemeConfigItemType → String
  | title => "title"
  | switch => "switch"
  | select => "select"
  | number => "number"
  | string => "string"
  | richtext => "richtext"
  | color => "color"
  | image => "image"
  | range => "range"

def all : List ThemeConfigItemType := [title, switch, select, number, string, richtext, color, image, range]

/-- `CONFIG_TYPES.has(type)`. -/
def ofText (text' : String) : Option ThemeConfigItemType := all.find? fun type => type.text = text'

theorem ofText_text (type : ThemeConfigItemType) : ofText type.text = some type := by
  cases type <;> decide

end ThemeConfigItemType

structure ThemeConfigItem where
  type : ThemeConfigItemType
  key : Option String
  name : String
  help : String
  options : String
  min : Option ℚ
  max : Option ℚ
  step : Option ℚ
  default : Option Json

structure ThemeManifest where
  name : String
  short : String
  description : String
  version : String
  author : String
  url : String
  preview : String
  style : String
  items : List ThemeConfigItem

def MAX_ZIP_BYTES : Nat := 2 * 1024 * 1024
def MAX_CSS_BYTES : Nat := 256 * 1024
def MAX_IMAGE_BYTES : Nat := 512 * 1024
def MAX_CUSTOM_CSS_BYTES : Nat := 64 * 1024

def ALLOWED_EXTENSIONS : List String := [".css", ".png", ".jpg", ".jpeg", ".webp", ".svg", ".json", ".woff2"]
def FORBIDDEN_EXTENSIONS : List String := [".js", ".html", ".htm", ".wasm", ".woff", ".ttf", ".otf", ".eot"]

/-- A field that is there, if not as `null`. -/
def givenField (value : Option Json) : Option Json :=
  match value with
  | none | some .null => none
  | some value => some value

/-- `normalizeString`. -/
def normalizeString (value : Option Json) (field : String) (maxLength : Nat) (required : Bool) : Except String String :=
  match givenField value with
  | none => if required then .error ("theme manifest " ++ field ++ " is required") else .ok ""
  | some (.str given) =>
    let text := trim given
    if required ∧ text = "" then .error ("theme manifest " ++ field ++ " is required")
    else if maxLength < units text then .error ("theme manifest " ++ field ++ " is too long")
    else .ok text
  | some _ => .error ("theme manifest " ++ field ++ " must be a string")

/-- `path.replace(/^\.\/+/, '')`. -/
def withoutDotSlash : List Char → List Char
  | '.' :: '/' :: rest => rest.dropWhile (· == '/')
  | path => path

def normalizeThemePath (path : String) : Except String String :=
  let normalized := withoutDotSlash (trim path).toList
  if normalized = [] ∨ normalized.head? = some '/' ∨ '\\' ∈ normalized ∨
      (normalized.splitOn '/').any (fun part => part == [] || part == ['.'] || part == ['.', '.']) then
    .error ("invalid theme path: " ++ path)
  else .ok (String.ofList normalized)

/-- `[A-Za-z0-9_-]`. -/
def isWordChar (c : Char) : Bool := c.isAlphanum || c == '_' || c == '-'

section

variable (rules : ThemeRules)

/-- `path.slice(path.lastIndexOf('.')).toLowerCase()`. -/
def extensionOf (path : String) : String :=
  if '.' ∈ path.toList then
    rules.lower (String.ofList ('.' :: (path.toList.reverse.takeWhile (· != '.')).reverse))
  else ""

def assertAllowedFile (path : String) : Except String Unit :=
  let ext := extensionOf rules path
  if ext ∈ FORBIDDEN_EXTENSIONS ∨ ext ∉ ALLOWED_EXTENSIONS then .error ("theme file extension is not allowed: " ++ path)
  else .ok ()

def normalizeOptionalNumber (value : Option Json) (field : String) : Except String (Option ℚ) :=
  match givenField value with
  | none => .ok none
  | some (.str "") => .ok none
  | some value =>
    match rules.toFinite (some value) with
    | some x => .ok (some x)
    | none => .error ("theme config " ++ field ++ " must be a number")

/-- The key of an item: a title has none. -/
def normalizeKey (type : ThemeConfigItemType) (value : Option Json) : Except String (Option String) :=
  if type = .title then .ok none
  else (normalizeString value "configuration.data.key" 96 true).map some

/-- The bounds of a range. -/
def checkRange (index : Nat) (type : ThemeConfigItemType) (min max step : Option ℚ) : Except String Unit :=
  if type = .range ∧ (∃ a ∈ min, ∃ b ∈ max, b < a) then
    .error ("theme config item " ++ toString (index + 1) ++ " range min must be <= max")
  else if type = .range ∧ (∃ s ∈ step, s ≤ 0) then
    .error ("theme config item " ++ toString (index + 1) ++ " range step must be positive")
  else .ok ()

def normalizeConfigItem (index : Nat) (value : Json) : Except String ThemeConfigItem :=
  match value with
  | .obj item =>
    match (Json.str? (Assoc.get? item "type")).bind ThemeConfigItemType.ofText with
    | none => .error ("theme config item " ++ toString (index + 1) ++ " type is invalid")
    | some type => do
      let key ← normalizeKey type (Assoc.get? item "key")
      let min ← normalizeOptionalNumber rules (Assoc.get? item "min") "min"
      let max ← normalizeOptionalNumber rules (Assoc.get? item "max") "max"
      let step ← normalizeOptionalNumber rules (Assoc.get? item "step") "step"
      checkRange index type min max step
      let name ← normalizeString (Assoc.get? item "name") "configuration.data.name" 128 false
      let help ← normalizeString (Assoc.get? item "help") "configuration.data.help" 256 false
      let options ← normalizeString (Assoc.get? item "options") "configuration.data.options" 512 false
      return ⟨type, key, name, help, options, min, max, step, Assoc.get? item "default"⟩
  | _ => .error ("theme config item " ++ toString (index + 1) ++ " is invalid")

def normalizeConfigItems (value : Option Json) : Except String (List ThemeConfigItem) :=
  match givenField value with
  | none => .ok []
  | some (.arr items) => (items.zipIdx).mapM fun item => normalizeConfigItem rules item.2 item.1
  | some _ => .error "theme manifest configuration.data must be an array"

def PREVIEW_EXTENSIONS : List String := [".png", ".jpg", ".jpeg", ".webp", ".svg"]

/-- The preview, if there is one. -/
def normalizePreview (value : Option Json) : Except String String :=
  if Json.truthy value then do
    let preview ← normalizeString value "preview" 256 false >>= normalizeThemePath
    if preview ≠ "" ∧ extensionOf rules preview ∉ PREVIEW_EXTENSIONS then .error "theme preview must be an image"
    else .ok preview
  else .ok ""

def normalizeThemeManifest (value : Json) : Except String ThemeManifest :=
  match value with
  | .obj input => do
    let short ← normalizeString (Assoc.get? input "short") "short" 64 true
    failIf (short = "default" ∨ ¬ short.toList.all isWordChar = true) "theme manifest short is invalid"
    let style ← normalizeString (Assoc.get? input "style") "style" 256 true >>= normalizeThemePath
    failIf (extensionOf rules style ≠ ".css") "theme style must be a CSS file"
    let preview ← normalizePreview rules (Assoc.get? input "preview")
    let configuration := ((Assoc.get? input "configuration").bind Json.obj?).getD []
    failIf ((Json.str? (Assoc.get? configuration "type")).getD "managed" ≠ "managed") "theme configuration.type must be managed"
    let name ← normalizeString (Assoc.get? input "name") "name" 128 true
    let description ← normalizeString (Assoc.get? input "description") "description" 512 false
    let version ← normalizeString (Assoc.get? input "version") "version" 64 false
    let author ← normalizeString (Assoc.get? input "author") "author" 128 false
    let url ← normalizeString (Assoc.get? input "url") "url" 512 false
    let items ← normalizeConfigItems rules (Assoc.get? configuration "data")
    return ⟨name, short, description, version, author, url, preview, style, items⟩
  | _ => .error "theme manifest must be an object"

end

/-- A number that may be missing. -/
def numberField (name : String) (value : Option ℚ) : Fields := value.toList.map fun x => (name, .num (.finite x))

/-- An item as an object. -/
def ThemeConfigItem.object (item : ThemeConfigItem) : Json :=
  .obj ([("type", .str item.type.text)] ++ (item.key.toList.map fun key => ("key", .str key)) ++
    [("name", .str item.name), ("help", .str item.help), ("options", .str item.options)] ++
    numberField "min" item.min ++ numberField "max" item.max ++ numberField "step" item.step ++
    item.default.toList.map fun value => ("default", value))

/-- A manifest as an object. -/
def ThemeManifest.object (m : ThemeManifest) : Json :=
  .obj [("name", .str m.name), ("short", .str m.short), ("description", .str m.description), ("version", .str m.version),
    ("author", .str m.author), ("url", .str m.url), ("preview", .str m.preview), ("style", .str m.style),
    ("configuration", .obj [("type", .str "managed"), ("data", .arr (m.items.map ThemeConfigItem.object))])]

/-! ## Configuration -/

/-- `/^#(?:[0-9a-fA-F]{3}|[0-9a-fA-F]{6}|[0-9a-fA-F]{8})$/`. -/
def isHexColor : List Char → Bool
  | '#' :: digits => [3, 6, 8].contains digits.length && digits.all isHexDigit
  | _ => false

/-- `/[\u0000-\u001f\u007f]/`. -/
def isControl (c : Char) : Bool := c.toNat ≤ 0x1F || c.toNat == 0x7F

/-- `options.split(',').map(option => option.trim()).filter(Boolean)`. -/
def optionsOf (options : String) : List String := ((splitAt ',' options).map fun option => trim (String.ofList option)).filter (· ≠ "")

section

variable (rules : ThemeRules)

def isSafeImageConfigValue (value : String) : Bool :=
  if value = "" then true
  else if value.toList.any isControl then false
  else if startsWith "/" value && !startsWith "//" value then true
  else match rules.parseUrl value with
    | some u => u.protocol = "https:" ∧ u.username = "" ∧ u.password = ""
    | none => false

/-- What a value becomes in the form of an item. -/
def configValue (key : String) (item : ThemeConfigItem) (value : Json) : Except String Json :=
  match item.type with
  | .switch => .ok (.bool (Json.truthy (some value)))
  | .number | .range =>
    match rules.toFinite (some value) with
    | none => .error (key ++ " 必须是数字")
    | some x =>
      if (∃ a ∈ item.min, x < a) ∨ ∃ b ∈ item.max, b < x then .error (key ++ " 不在可选范围内") else .ok (.num (.finite x))
  | .color =>
    let text := trim (textOf rules.toBackupRules value)
    if isHexColor text.toList then .ok (.str text) else .error (key ++ " 必须是十六进制颜色")
  | .select =>
    let text := textOf rules.toBackupRules value
    if optionsOf item.options ≠ [] ∧ text ∉ optionsOf item.options then .error (key ++ " 不在可选范围内") else .ok (.str text)
  | .image =>
    let text := trim (textOf rules.toBackupRules value)
    if isSafeImageConfigValue rules text then .ok (.str text) else .error (key ++ " 必须是 HTTPS 图片 URL 或同源路径")
  | .title | .string | .richtext => .ok (.str (textOf rules.toBackupRules value))

/-- What an object inherits: a method, which is `true`, not a number, and its source text. -/
def inherited (key : String) : Option Json := if key ∈ OBJECT_METHODS then some (.str (rules.nativeText key)) else none

/-- `input[key]`. -/
def property (input : Fields) (key : String) : Option Json := (Assoc.get? input key).or (inherited rules key)

/-- The items that have a key, with it. -/
def keyedItems (items : List ThemeConfigItem) : List (String × ThemeConfigItem) :=
  items.filterMap fun item => (item.key.filter (· ≠ "")).map (·, item)

/-- One item of the loop. -/
def configStep (input : Fields) (config : Fields) (entry : String × ThemeConfigItem) : Except String Fields :=
  match property rules input entry.1 with
  | none =>
    match entry.2.default with
    | some value => .ok (Assoc.set config entry.1 value)
    | none => .ok config
  | some value => (configValue rules entry.1 entry.2 value).map (Assoc.set config entry.1 ·)

/-- The configuration of items. -/
def configOf (entries : List (String × ThemeConfigItem)) (input : Fields) : Except String Fields :=
  match (Assoc.keys input).find? fun key => key ∉ Assoc.keys entries with
  | some key => .error ("未知主题配置: " ++ key)
  | none => entries.foldlM (configStep rules input) []

/-- An exception, or what is returned: a configuration or an error. -/
def validateThemeConfig (manifestInput configInput : Json) : Except String (Except String Fields) := do
  let manifest ← normalizeThemeManifest rules manifestInput
  return configOf rules (keyedItems manifest.items) ((Json.obj? configInput).getD [])

def defaultConfigForManifest (manifest : ThemeManifest) : Fields :=
  (keyedItems manifest.items).foldl
    (fun config entry => match entry.2.default with
      | some value => Assoc.set config entry.1 value
      | none => config) []

/-! ## Packages -/

def contentTypeFor (path : String) : String :=
  let ext := extensionOf rules path
  if ext = ".css" then "text/css; charset=utf-8"
  else if ext = ".svg" then "image/svg+xml"
  else if ext = ".jpg" ∨ ext = ".jpeg" then "image/jpeg"
  else if ext = ".png" then "image/png"
  else if ext = ".webp" then "image/webp"
  else if ext = ".json" then "application/json; charset=utf-8"
  else if ext = ".woff2" then "font/woff2"
  else "application/octet-stream"

end

structure ThemeAssetInput where
  path : String
  content_type : String
  content_base64 : List Char
  size_bytes : Nat

/-- A package: the record has the manifest and the configuration as text. -/
structure ParsedThemePackage where
  manifest : ThemeManifest
  config : Fields
  custom_css : String
  assets : List ThemeAssetInput

section

variable (rules : ThemeRules)

def themeAsset (file : String × List UInt8) : Except String ThemeAssetInput :=
  if extensionOf rules file.1 ≠ ".css" ∧ MAX_IMAGE_BYTES < file.2.length then .error ("theme asset is too large: " ++ file.1)
  else .ok ⟨file.1, contentTypeFor rules file.1, btoa file.2, file.2.length⟩

def parseThemeZip (zipBytes : List UInt8) : Except String ParsedThemePackage := do
  failIf (MAX_ZIP_BYTES < zipBytes.length) "theme zip is too large"
  let entries ← rules.unzipThemeWithLimits zipBytes
  match Assoc.get? entries "cf-monitor-theme.json" with
  | none => throw "theme manifest cf-monitor-theme.json is required"
  | some manifestBytes =>
    match rules.parseJson (rules.strFromU8 manifestBytes) with
    | none => throw "theme manifest is not JSON"
    | some value =>
      let manifest ← normalizeThemeManifest rules value
      entries.forM fun entry => assertAllowedFile rules entry.1
      match Assoc.get? entries manifest.style with
      | none => throw "theme style file is missing"
      | some styleBytes =>
        failIf (MAX_CSS_BYTES < styleBytes.length) "theme CSS is too large"
        failIf (manifest.preview ≠ "" ∧ manifest.preview ∉ Assoc.keys entries) "theme preview file is missing"
        match ← validateThemeConfig rules manifest.object (.obj (defaultConfigForManifest manifest)) with
        | .error error => throw error
        | .ok config =>
          let assets ← (entries.filter (·.1 ≠ "cf-monitor-theme.json")).mapM (themeAsset rules)
          return ⟨manifest, config, "", assets⟩

end

/-! ## Manifests read again -/

section

variable {rules : ThemeRules}

variable {field : String}

theorem normalizeString_again {value : Option Json} {text : String} {maxLength : Nat} {required : Bool}
    (h : normalizeString value field maxLength required = .ok text) :
    normalizeString (some (.str text)) field maxLength required = .ok text := by
  rw [normalizeString] at h
  split at h
  · split_ifs at h with hrequired
    cases h
    rw [Bool.not_eq_true] at hrequired
    have hempty : trim "" = "" := by decide
    have hunits : ¬ maxLength < units "" := Nat.not_lt_zero _
    simp [normalizeString, givenField, hempty, hrequired, hunits]
  · rename_i given hgiven
    dsimp only at h
    split_ifs at h with hrequired hlong
    cases h
    simp only [normalizeString, givenField, trim_trim, if_neg hrequired, if_neg hlong]
  · cases h

theorem normalizeOptionalNumber_again {value : Option Json} {x : Option ℚ}
    (h : normalizeOptionalNumber rules value field = .ok x) :
    normalizeOptionalNumber rules (x.map fun x => .num (.finite x)) field = .ok x := by
  cases x with
  | none => rfl
  | some x => rfl

/-- What an object has for each field of an item. -/
theorem get?_object (item : ThemeConfigItem) : ∃ fields, item.object = .obj fields ∧
    get? fields "type" = some (.str item.type.text) ∧
    get? fields "key" = item.key.map Json.str ∧
    get? fields "name" = some (.str item.name) ∧
    get? fields "help" = some (.str item.help) ∧
    get? fields "options" = some (.str item.options) ∧
    get? fields "min" = (item.min.map fun x => .num (.finite x)) ∧
    get? fields "max" = (item.max.map fun x => .num (.finite x)) ∧
    get? fields "step" = (item.step.map fun x => .num (.finite x)) ∧
    get? fields "default" = item.default := by
  obtain ⟨type, key, name, help, options, min, max, step, default⟩ := item
  refine ⟨_, rfl, ?_⟩
  cases key <;> cases min <;> cases max <;> cases step <;> cases default <;> simp [numberField, get?]

theorem normalizeKey_again {type : ThemeConfigItemType} {value : Option Json} {key : Option String}
    (h : normalizeKey type value = .ok key) : normalizeKey type (key.map Json.str) = .ok key := by
  rw [normalizeKey] at h
  split_ifs at h with htitle
  · cases h
    rw [normalizeKey, if_pos htitle]
  · cases htext : normalizeString value "configuration.data.key" 96 true with
    | error error =>
      rw [htext] at h
      simp [Except.map] at h
    | ok text =>
      rw [htext] at h
      cases h
      rw [normalizeKey, if_neg htitle, Option.map_some, normalizeString_again htext]
      rfl

/-- **An item** is read again as itself, wherever it stands. -/
theorem normalizeConfigItem_again {index : Nat} {value : Json} {item : ThemeConfigItem}
    (h : normalizeConfigItem rules index value = .ok item) (index' : Nat) :
    normalizeConfigItem rules index' item.object = .ok item := by
  unfold normalizeConfigItem at h
  split at h
  · rename_i fields
    cases htype : (Json.str? (get? fields "type")).bind ThemeConfigItemType.ofText with
    | none =>
      rw [htype] at h
      cases h
    | some type =>
      rw [htype] at h
      obtain ⟨key, hkey, h⟩ := bind_eq_ok.mp h
      obtain ⟨min, hmin, h⟩ := bind_eq_ok.mp h
      obtain ⟨max, hmax, h⟩ := bind_eq_ok.mp h
      obtain ⟨step, hstep, h⟩ := bind_eq_ok.mp h
      obtain ⟨_, hrange, h⟩ := bind_eq_ok.mp h
      obtain ⟨name, hname, h⟩ := bind_eq_ok.mp h
      obtain ⟨help, hhelp, h⟩ := bind_eq_ok.mp h
      obtain ⟨options, hoptions, h⟩ := bind_eq_ok.mp h
      cases h
      obtain ⟨again, hobject, gtype, gkey, gname, ghelp, goptions, gmin, gmax, gstep, gdefault⟩ :=
        get?_object (⟨type, key, name, help, options, min, max, step, get? fields "default"⟩ : ThemeConfigItem)
      have hrange' : checkRange index' type min max step = .ok () := by
        rw [checkRange] at hrange ⊢
        split_ifs at hrange ⊢
        rfl
      have htype' : (Json.str? (some (.str type.text))).bind ThemeConfigItemType.ofText = some type :=
        ThemeConfigItemType.ofText_text type
      rw [hobject, normalizeConfigItem, gtype, htype']
      refine bind_eq_ok.mpr ⟨key, by rw [gkey]; exact normalizeKey_again hkey, ?_⟩
      refine bind_eq_ok.mpr ⟨min, by rw [gmin]; exact normalizeOptionalNumber_again hmin, ?_⟩
      refine bind_eq_ok.mpr ⟨max, by rw [gmax]; exact normalizeOptionalNumber_again hmax, ?_⟩
      refine bind_eq_ok.mpr ⟨step, by rw [gstep]; exact normalizeOptionalNumber_again hstep, ?_⟩
      refine bind_eq_ok.mpr ⟨(), hrange', ?_⟩
      refine bind_eq_ok.mpr ⟨name, by rw [gname]; exact normalizeString_again hname, ?_⟩
      refine bind_eq_ok.mpr ⟨help, by rw [ghelp]; exact normalizeString_again hhelp, ?_⟩
      refine bind_eq_ok.mpr ⟨options, by rw [goptions]; exact normalizeString_again hoptions, ?_⟩
      rw [gdefault]
      rfl
  · cases h

theorem normalizeConfigItems_again {value : Option Json} {items : List ThemeConfigItem}
    (h : normalizeConfigItems rules value = .ok items) :
    normalizeConfigItems rules (some (.arr (items.map ThemeConfigItem.object))) = .ok items := by
  have hitems : ∀ item ∈ items, ∀ index, normalizeConfigItem rules index item.object = .ok item := by
    unfold normalizeConfigItems at h
    split at h
    · cases h
      exact nofun
    · intro item hitem index
      obtain ⟨value, -, hvalue⟩ := mem_of_mapM h hitem
      exact normalizeConfigItem_again hvalue index
    · cases h
  have hread : ∀ n, ((items.map ThemeConfigItem.object).zipIdx n).mapM (fun item => normalizeConfigItem rules item.2 item.1)
      = .ok items := by
    clear h
    induction items with
    | nil => exact fun _ => rfl
    | cons item items ih =>
      intro n
      have hrest := ih (fun i hi => hitems i (List.mem_cons_of_mem _ hi)) (n + 1)
      rw [List.map_cons, List.zipIdx_cons, List.mapM_cons, hitems item List.mem_cons_self n, hrest]
      rfl
  exact hread 0

variable {m again : ThemeManifest}

/-- **A manifest** that is read again has the same items. -/
theorem normalizeThemeManifest_items {value : Json} (h : normalizeThemeManifest rules value = .ok m)
    (hagain : normalizeThemeManifest rules m.object = .ok again) : again.items = m.items := by
  have hread : ∀ {value : Json} {m : ThemeManifest}, normalizeThemeManifest rules value = .ok m →
      ∃ fields, value = .obj fields ∧ normalizeConfigItems rules (get? (((get? fields "configuration").bind
        Json.obj?).getD []) "data") = .ok m.items := by
    intro value m h
    unfold normalizeThemeManifest at h
    split at h
    · rename_i fields
      obtain ⟨short, -, h⟩ := bind_eq_ok.mp h
      obtain ⟨_, -, h⟩ := bind_eq_ok.mp h
      obtain ⟨style, -, h⟩ := bind_eq_ok.mp h
      obtain ⟨_, -, h⟩ := bind_eq_ok.mp h
      obtain ⟨preview, -, h⟩ := bind_eq_ok.mp h
      obtain ⟨_, -, h⟩ := bind_eq_ok.mp h
      obtain ⟨name, -, h⟩ := bind_eq_ok.mp h
      obtain ⟨description, -, h⟩ := bind_eq_ok.mp h
      obtain ⟨version, -, h⟩ := bind_eq_ok.mp h
      obtain ⟨author, -, h⟩ := bind_eq_ok.mp h
      obtain ⟨url, -, h⟩ := bind_eq_ok.mp h
      obtain ⟨items, hitems, h⟩ := bind_eq_ok.mp h
      cases h
      exact ⟨fields, rfl, hitems⟩
    · cases h
  obtain ⟨fields, -, hitems⟩ := hread h
  obtain ⟨fields', hfields', hitems'⟩ := hread hagain
  obtain rfl := Json.obj.inj hfields'
  have hdata : normalizeConfigItems rules (some (.arr (m.items.map ThemeConfigItem.object))) = .ok again.items := hitems'
  rw [normalizeConfigItems_again hitems] at hdata
  exact (Except.ok.inj hdata).symm

/-- **Validation** of a manifest that can be read uses its items. -/
theorem validateThemeConfig_eq {value : Json} (h : normalizeThemeManifest rules value = .ok m)
    (hagain : normalizeThemeManifest rules m.object = .ok again) (config : Json) :
    validateThemeConfig rules m.object config = .ok (configOf rules (keyedItems m.items) ((Json.obj? config).getD [])) := by
  rw [validateThemeConfig, hagain, ← normalizeThemeManifest_items h hagain]
  rfl

end

end CfMonitor.Themes
