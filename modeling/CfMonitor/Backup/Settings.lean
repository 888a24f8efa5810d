/-
  The settings of the installation (`schema.ts`): what is stored of an input, and what is read from
  the table.

  1. **Schema** — the keys with the data that their checks read.  Which settings are public or
     secret is left to others.

  2. **Normalisation** — `normalizeSettingValue` and, for all keys of an input,
     `sanitizeSettingsForStorage`.  A request knows its own host, a later reading does not.

  3. **Reading** — `buildAdminSettings` normalises what is stored, and falls back to the default.

  The repository URL is the one setting whose normal form has another normal form: the normalisation
  takes one `.git` from its end each time.
-/
import CfMonitor.Backup.Hosts
import Mathlib.Data.List.Dedup

namespace CfMonitor.Backup

open CfMonitor.Lib CfMonitor.Live

/-! ## Schema -/

/-- A type of settings, with its default. -/
inductive SettingType where
  | string (default : String) (maxLength : Nat)
  | boolean (default : Bool)
  | integer (default min max : Int)
  | enum (default : String) (values : List String)
  deriving DecidableEq

structure SettingDefinition where
  key : String
  type : SettingType
  deriving DecidableEq

def booleanText (b : Bool) : String := if b then "true" else "false"

def SettingDefinition.defaultValue (d : SettingDefinition) : String :=
  match d.type with
  | .string default _ => default
  | .boolean default => booleanText default
  | .integer default _ _ => toString default
  | .enum default _ => default

def REMOVED_SETTING_KEYS : List String :=
  ["allow_cors", "private_site", "private_site_password", "tempory_share_token",
    "tempory_share_token_expire_at", "temporary_share_token", "temporary_share_token_expire_at",
    "custom_head", "custom_body", "custom_footer_html", "agent_auto_discovery_key", "update_mode"]

def SETTING_SCHEMA : List SettingDefinition :=
  [⟨"site_title", .string "CF VPS Monitor" 128⟩, ⟨"site_subtitle", .string "" 128⟩,
    ⟨"site_description", .string "服务器监控探针" 512⟩,
    ⟨"language", .string "zh-CN" 32⟩,
    ⟨"script_domain", .string "" 256⟩,
    ⟨"site_logo_url", .string "" 256⟩,
    ⟨"site_logo_data", .string "" 1500000⟩,
    ⟨"site_logo_type", .string "" 64⟩,
    ⟨"update_repository_url", .string "" 256⟩,
    ⟨"record_enabled", .boolean true⟩,
    ⟨"record_preserve_time", .integer 72 1 72⟩,
    ⟨"ping_record_preserve_time", .integer 72 1 72⟩,
    ⟨"record_persist_interval_sec", .integer 120 3 3600⟩,
    ⟨"ping_record_persist_interval_sec", .integer 120 60 3600⟩,
    ⟨"record_high_watermark_rows", .integer 700000 1000 10000000⟩,
    ⟨"record_high_watermark_bytes", .integer 419430400 16777216 549755813888⟩,
    ⟨"database_storage_budget_bytes", .integer 524288000 67108864 549755813888⟩,
    ⟨"theme_storage_quota_bytes", .integer 33554432 1048576 1073741824⟩,
    ⟨"capacity_daily_view_minutes", .integer 60 0 1440⟩,
    ⟨"audit_log_preserve_time", .integer 2160 24 87600⟩,
    ⟨"live_poll_active_interval_sec", .integer 3 3 300⟩,
    ⟨"live_poll_idle_interval_sec", .integer 120 60 3600⟩,
    ⟨"live_poll_active_max_duration_sec", .integer 120 60 3600⟩,
    ⟨"notification_method", .enum "telegram" ["telegram", "email", "webhook", "none"]⟩,
    ⟨"telegram_bot_token", .string "" 256⟩,
    ⟨"telegram_chat_id", .string "" 128⟩,
    ⟨"email_smtp_host", .string "" 255⟩,
    ⟨"email_smtp_port", .integer 587 1 65535⟩,
    ⟨"email_smtp_security", .enum "starttls" ["starttls", "tls"]⟩,
    ⟨"email_smtp_username", .string "" 255⟩,
    ⟨"email_smtp_password", .string "" 512⟩,
    ⟨"email_smtp_from_address", .string "" 254⟩,
    ⟨"email_smtp_from_name", .string "CF VPS Monitor" 128⟩,
    ⟨"email_smtp_recipients", .string "" 4000⟩,
    ⟨"email_smtp_auth_method", .enum "plain" ["plain", "login"]⟩,
    ⟨"webhook_url", .string "" 2048⟩,
    ⟨"webhook_format", .enum "generic"
      ["generic", "slack", "discord", "feishu", "dingtalk", "wecom", "custom"]⟩,
    ⟨"webhook_secret", .string "" 512⟩,
    ⟨"webhook_method", .enum "POST" ["GET", "POST"]⟩,
    ⟨"webhook_content_type", .string "application/json" 128⟩,
    ⟨"webhook_headers_json", .string "" 4000⟩,
    ⟨"webhook_body_template", .string
      "\x7b\"message\":\"\x7b\x7bmessage\x7d\x7d\",\"title\":\"\x7b\x7btitle\x7d\x7d\"\x7d" 8000⟩,
    ⟨"webhook_username", .string "" 256⟩,
    ⟨"webhook_password", .string "" 512⟩,
    ⟨"webhook_retry_count", .integer 1 1 3⟩,
    ⟨"enable_ip_change_notification", .boolean false⟩,
    ⟨"offline_notify_never_reported", .boolean true⟩,
    ⟨"offline_confirm_rounds", .integer 3 1 10⟩,
    ⟨"theme_bg_desktop", .string "" 1024⟩,
    ⟨"theme_bg_mobile", .string "" 1024⟩,
    ⟨"theme_content_width", .integer 100 60 100⟩,
    ⟨"active_theme", .string "monitor" 64⟩]

/-- The definition of a known key. -/
def definitionOf (key : String) : Option SettingDefinition := SETTING_SCHEMA.find? fun d => d.key == key

section

variable (rules : BackupRules)

/-! ## Normalisation -/

/-- `settingToString`. -/
def settingToString (value : Json) : Option String :=
  match value with
  | .str text => some text
  | .num (.finite x) => some (rules.toText (.num (.finite x)))
  | .bool b => some (booleanText b)
  | _ => none

def normalizeBoolean (value : Json) : Option String :=
  match value with
  | .bool b => some (booleanText b)
  | .str text =>
    let normalized := rules.lower (trim text)
    if normalized = "true" ∨ normalized = "1" then some "true"
    else if normalized = "false" ∨ normalized = "0" then some "false"
    else none
  | _ => none

/-- `String(value)`. -/
def textOf : Json → String
  | .str text => text
  | value => rules.toText value

/-- `typeof value === 'number' ? value : Number(String(value).trim())`, where it is finite. -/
def finiteNumber (value : Json) : Option ℚ :=
  match value with
  | .num (.finite x) => some x
  | .num (.infinite _) => none
  | value => rules.numberOf (trim (textOf rules value))

def normalizeInteger (value : Json) (default min max : Int) : Option String :=
  if optionalText value = some "" then some (toString default)
  else match finiteNumber rules value with
    | some x => if x.den = 1 ∧ min ≤ x.num ∧ x.num ≤ max then some (toString x.num) else none
    | none => none

/-- `/^https?:\/\//i`. -/
def hasHttpScheme (text : String) : Bool :=
  let head := (text.toList.take 8).map Char.toLower
  "https://".toList.isPrefixOf head || "http://".toList.isPrefixOf head

def isLocalHttpHost (hostname : String) : Bool :=
  ["localhost", "127.0.0.1", "::1", "[::1]"].contains (rules.lower hostname)

/-- A domain as an address. -/
def withScheme (raw : String) : String := if hasHttpScheme raw then raw else "https://" ++ raw

/-- `normalizeScriptDomain` of a text. -/
def scriptDomain (text : String) : Option String :=
  let raw := trim text
  if raw = "" then some ""
  else match rules.parseUrl (withScheme raw) with
    | none => none
    | some u =>
      if u.protocol ≠ "https:" ∧ ¬ (u.protocol = "http:" ∧ isLocalHttpHost rules u.hostname = true) then none
      else if u.username ≠ "" ∨ u.password ≠ "" ∨ u.hostname = "" then none
      else some u.origin

/-- `/^\/api\/site-logo(?:\?v=\d+)?$/`. -/
def isSiteLogoUrl (raw : String) : Bool :=
  let version := raw.toList.drop "/api/site-logo?v=".length
  raw == "/api/site-logo" ||
    (startsWith "/api/site-logo?v=" raw && !version.isEmpty && version.all Char.isDigit)

/-- `normalizeSiteLogoUrl` of a text. -/
def siteLogoUrl (text : String) : Option String :=
  let raw := trim text
  if isSiteLogoUrl raw then some raw else none

/-- `[A-Za-z0-9_.-]`. -/
def isRepositoryChar (c : Char) : Bool := c.isAlphanum || c == '_' || c == '.' || c == '-'

/-- `/^[A-Za-z0-9_.-]+\/[A-Za-z0-9_.-]+(?:\.git)?$/`. -/
def isOwnerAndRepository (raw : String) : Bool :=
  match splitAt '/' raw with
  | [owner, repository] => [owner, repository].all fun part => !part.isEmpty && part.all isRepositoryChar
  | _ => false

/-- `path.replace(/^\/+|\/+$/g, '')`. -/
def withoutSlashes (path : List Char) : List Char :=
  ((path.dropWhile (· == '/')).reverse.dropWhile (· == '/')).reverse

/-- `path.replace(/\.git$/i, '')`. -/
def withoutGit (path : List Char) : List Char :=
  if ".git".toList.isSuffixOf (path.map Char.toLower) then path.take (path.length - 4) else path

/-- `normalizeUpdateRepositoryUrl` of a text. -/
def updateRepositoryUrl (text : String) : Option String :=
  let raw := trim text
  let address := if hasHttpScheme raw then raw
    else if startsWith "github.com/" raw then "https://" ++ raw
    else if isOwnerAndRepository raw then "https://github.com/" ++ raw
    else raw
  match rules.parseUrl address with
  | none => none
  | some u =>
    if u.protocol ≠ "https:" ∨ rules.lower u.hostname ≠ "github.com" then none
    else if u.username ≠ "" ∨ u.password ≠ "" ∨ u.search ≠ "" ∨ u.hash ≠ "" then none
    else match (withoutGit (withoutSlashes u.pathname.toList)).splitOn '/' with
      | [owner, repository] =>
        if owner = [] ∨ repository = [] then none
        else some ("https://github.com/" ++ String.ofList owner ++ "/" ++ String.ofList repository)
      | _ => none

/-- `/^[^\s@<>]+@[^\s@<>]+\.[^\s@<>]+$/`. -/
def isEmailAddress (email : String) : Bool :=
  let plain (part : List Char) : Bool := !part.isEmpty && !part.any fun c => isTrimmed c || c == '<' || c == '>'
  match splitAt '@' email with
  | [local', domain] => plain local' && plain domain && (domain.dropLast.drop 1).contains '.'
  | _ => false

/-- `normalizeEmailAddress` of a text. -/
def emailAddress (text : String) : Option String :=
  let email := trim text
  if email = "" ∨ 254 < units email then none
  else if isEmailAddress email then some email
  else none

/-- `[;,\n]`. -/
def isRecipientSeparator (c : Char) : Bool := c == ';' || c == ',' || c == '\n'

/-- `[...new Set(items)]`. -/
def distinct (items : List String) : List String := items.reverse.dedup.reverse

/-- `normalizeEmailRecipients` of a text. -/
def emailRecipients (text : String) : Option String :=
  let recipients := ((text.toList.splitOnP isRecipientSeparator).map fun item => trim (String.ofList item)).filter
    fun item => decide (item ≠ "")
  if 4000 < units text then none
  else if recipients = [] ∨ 20 < recipients.length then none
  else if recipients.any (fun item => (emailAddress item).isNone) = true then none
  else some (",".intercalate (distinct recipients))

/-- `normalizeWebhookContentType`. -/
def normalizeWebhookContentType (value : Json) : Option String :=
  match optionalText value with
  | none => none
  | some written =>
    let text := if written = "" then "application/json" else trim written
    if text = "" ∨ text.toList.any (fun c => c.val < 0x20 || c.val == 0x7F) = true then none
    else if text.toList.contains '/' then some text
    else none

/-- `normalizeWebhookHeadersJson` of a text. -/
def webhookHeadersJson (written : String) : Option String :=
  let text := trim written
  if text = "" then some ""
  else match rules.parseJson text with
    | some (.obj entries) =>
      if entries.all (fun e => e.1 ≠ "" && (Json.str? (some e.2)).isSome) = true then some text else none
    | _ => none

/-- The normalisation of `active_theme`. -/
def normalizeActiveTheme (value : Json) : Option String :=
  let written := ((settingToString rules value).map trim).getD ""
  let text := if written = "" then "monitor" else written
  let activeTheme := if text = "default" then "monitor" else text
  if activeTheme.toList.all (fun c => c.isAlphanum || c == '_' || c == '-') = true then some activeTheme
  else none

/-- The normalisations of the settings of type `string`, `webhook_url` apart. -/
def normalizeString (key : String) (value : Json) : Option String :=
  if key = "script_domain" then orEmpty (scriptDomain rules) value
  else if key = "site_logo_url" then orEmpty siteLogoUrl value
  else if key = "update_repository_url" then orEmpty (updateRepositoryUrl rules) value
  else if key = "email_smtp_host" then normalizeSmtpHost rules value
  else if key = "email_smtp_from_address" then orEmpty emailAddress value
  else if key = "email_smtp_recipients" then orEmpty emailRecipients value
  else if key = "webhook_content_type" then normalizeWebhookContentType value
  else if key = "webhook_headers_json" then orEmpty (webhookHeadersJson rules) value
  else if key = "active_theme" then normalizeActiveTheme rules value
  else settingToString rules value

def normalizeWebhookUrlForWrite (value : Json) (selfHost : Option String) : Except String String :=
  match optionalText value with
  | none => .error "webhook_url 类型或取值无效"
  | some text =>
    if text = "" then .ok ""
    else match validateWebhookUrl rules text selfHost with
      | .ok w => .ok w.url
      | .error "self_host" => .error "webhook_url 不能填本站地址，否则告警会绕回自己；请填写外部接收方的地址"
      | .error _ => .error "webhook_url 类型或取值无效"

/-- A normalised value, or the general error. -/
def orInvalid (key : String) : Option String → Except String String
  | some normalized => .ok normalized
  | none => .error (key ++ " 类型或取值无效")

/-- The switch on the type of a definition. -/
def SettingDefinition.normalize (d : SettingDefinition) (value : Json) (selfHost : Option String) :
    Except String String :=
  match d.type with
  | .boolean _ => orInvalid d.key (normalizeBoolean rules value)
  | .integer default min max => orInvalid d.key (normalizeInteger rules value default min max)
  | .enum _ values =>
    orInvalid d.key ((settingToString rules value).filter fun text => decide (text ≠ "" ∧ text ∈ values))
  | .string _ _ =>
    if d.key = "webhook_url" then normalizeWebhookUrlForWrite rules value selfHost
    else orInvalid d.key (normalizeString rules d.key value)

/-- What is checked of a normalised value. -/
def SettingDefinition.check (d : SettingDefinition) (normalized : String) : Except String String :=
  if d.key = "email_smtp_port" ∧ normalized = "25" then .error "email_smtp_port 不支持 25 端口"
  else match d.type with
    | .string _ maxLength =>
      if maxLength < units normalized then .error (d.key ++ " 超过最大长度 " ++ toString maxLength)
      else .ok normalized
    | _ => .ok normalized

def normalizeSettingValue (key : String) (value : Json) (selfHost : Option String) : Except String String :=
  match definitionOf key with
  | none => .error ("未知设置: " ++ key)
  | some d => (d.normalize rules value selfHost).bind d.check

/-- What `sanitizeSettingsForStorage` gives for the entries of an object. -/
structure Sanitized where
  settings : List (String × String)
  errors : List String
  ignoredKeys : List String

def sanitizeEntry (selfHost : Option String) (done : Sanitized) (entry : String × Json) : Sanitized :=
  if entry.1 ∈ REMOVED_SETTING_KEYS then { done with ignoredKeys := done.ignoredKeys ++ [entry.1] }
  else match normalizeSettingValue rules entry.1 entry.2 selfHost with
    | .error error => { done with errors := done.errors ++ [error] }
    | .ok value => { done with settings := Assoc.set done.settings entry.1 value }

def sanitizeSettingsForStorage (input : Json) (selfHost : Option String) : Sanitized :=
  match input with
  | .obj fields => fields.foldl (sanitizeEntry rules selfHost) ⟨[], [], []⟩
  | _ => ⟨[], ["设置必须是对象"], []⟩

/-! ## Reading -/

/-- The value of a setting as `buildAdminSettings` reads it. -/
def adminSetting (stored : List (String × String)) (d : SettingDefinition) : String :=
  match normalizeSettingValue rules d.key (.str ((Assoc.get? stored d.key).getD d.defaultValue)) none with
  | .ok value => value
  | .error _ => d.defaultValue

def buildAdminSettings (stored : List (String × String)) : List (String × String) :=
  SETTING_SCHEMA.map fun d => (d.key, adminSetting rules stored d)

end

end CfMonitor.Backup
