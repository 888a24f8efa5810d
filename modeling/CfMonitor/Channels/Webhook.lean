/-
  Requests to a webhook of one's own (`buildCustomWebhookRequest` in `webhook.ts`).

  1. **Platform** — URLs, lower case and the writing of times are parameters, and so is the rounding of
     a number in a JSON text.

  2. **Program** — a notification fills the placeholders of a template; the values are escaped for the
     place they go to.  A `GET` carries them in its address, a `POST` in its body.

  3. **Result** — the text of a notification stays text (`webhook_body_json`).
-/
import CfMonitor.Backup.SavedSettings
import CfMonitor.Lib.Base64
import CfMonitor.Lib.JsonText
import CfMonitor.Lib.Template
import CfMonitor.Lib.WebUrl

namespace CfMonitor.Channels

open CfMonitor.Lib
open CfMonitor.Backup (BackupRules validateWebhookUrl)
open Option (map_eq_some_iff map_some some)
open Template (front front_plain marker render render_char)

/-! ## Data -/

structure NotificationMessage where
  subject : String
  body : String
  event : Option String
  clients : Option String
  time : Option String
  emoji : Option String

structure WebhookConfig where
  url : String
  method : Option String
  contentType : Option String
  headersJson : Option String
  bodyTemplate : Option String
  username : Option String
  password : Option String

inductive WebhookMethod where
  | GET
  | POST
  deriving DecidableEq

structure WebhookRequest where
  url : String
  host : String
  method : WebhookMethod
  body : Option String
  headers : List (String × String)

/-- The platform, `new Date(ms).toISOString()`, and the number of a JSON literal. -/
structure WebhookRules extends BackupRules where
  isoText : Int → String
  number : List Char → Number

/-- `text || fallback`. -/
def orText (text : Option String) (fallback : String) : String :=
  match text with
  | none => fallback
  | some text => if text = "" then fallback else text

/-! ## Templates -/

def PLACEHOLDERS : List String := ["title", "message", "event", "client", "time", "emoji", "source"]

/-- How a value is written into a template. -/
inductive TemplateMode where
  | plain
  | json
  | url
  deriving DecidableEq

/-- A character of `JSON.stringify(text)`. -/
def jsonEscapeChar (c : Char) : List Char :=
  if c = '"' then ['\\', '"'] else if c = '\\' then ['\\', '\\']
  else if c.toNat = 8 then ['\\', 'b'] else if c.toNat = 12 then ['\\', 'f'] else if c.toNat = 10 then ['\\', 'n']
  else if c.toNat = 13 then ['\\', 'r'] else if c.toNat = 9 then ['\\', 't']
  else if c.toNat < 0x20 then ['\\', 'u', '0', '0', Nat.digitChar (c.toNat / 16), Nat.digitChar (c.toNat % 16)]
  else [c]

/-- `JSON.stringify(text)` without its quotes. -/
def jsonTemplateEscape (text : List Char) : List Char := text.flatMap jsonEscapeChar

/-- `encodeURIComponent` leaves these as they are. -/
def isUnreserved (c : Char) : Bool := c.isAlphanum || "-_.!~*'()".toList.contains c

def encodeURIComponent (text : List Char) : List Char := WebUrl.percentEncode (fun c => !isUnreserved c) text

def TemplateMode.write : TemplateMode → List Char → List Char
  | .plain, text => text
  | .json, text => jsonTemplateEscape text
  | .url, text => encodeURIComponent text

def renderWebhookTemplate (template : List Char) (values : List (String × String)) (mode : TemplateMode) : List Char :=
  Template.render PLACEHOLDERS (fun key => mode.write ((Assoc.get? values key).getD "").toList) template

section

variable (rules : WebhookRules)

def templateValues (notification : NotificationMessage) (nowMs : Int) : List (String × String) :=
  [("title", notification.subject), ("message", notification.body), ("event", notification.event.getD ""),
    ("client", notification.clients.getD ""), ("time", orText notification.time (rules.isoText nowMs)),
    ("emoji", notification.emoji.getD ""), ("source", "cf-vps-monitor")]

def isJsonContentType (value : String) : Bool := Backup.contains "application/json" (rules.lower value)

/-! ## Headers -/

def FORBIDDEN_HEADERS : List String := ["host", "content-length", "connection", "transfer-encoding"]

def isLineBreak (c : Char) : Bool := c == '\r' || c == '\n'

/-- The loop over the entries, with the headers so far. -/
def collectHeaders : List (String × String) → Fields → Except String (List (String × String))
  | headers, [] => .ok headers
  | headers, (key, value) :: rest =>
    match value with
    | .str value =>
      let normalizedKey := trim key
      let lowerKey := rules.lower normalizedKey
      if normalizedKey = "" ∨ normalizedKey.toList.any (fun c => isLineBreak c || c == ':') = true then
        .error "invalid_header_name"
      else if lowerKey ∈ FORBIDDEN_HEADERS then .error ("forbidden_header:" ++ lowerKey)
      else if lowerKey = "content-type" then collectHeaders headers rest
      else if value.toList.any isLineBreak = true then .error "invalid_header_value"
      else collectHeaders (Assoc.set headers normalizedKey value) rest
    | _ => .error "invalid_header_value"

def parseWebhookHeaders (headersJson : Option String) : Except String (List (String × String)) :=
  let raw := trim (headersJson.getD "")
  if raw = "" then .ok []
  else match JsonText.parse (JsonText.jsonReaders rules.number) raw.toList with
    | none => .error "invalid_headers_json"
    | some (.obj fields) => collectHeaders rules [] fields
    | some _ => .error "headers_json_must_be_object"

def addBasicAuthHeader (headers : List (String × String)) (username password : Option String) :
    Except String (List (String × String)) :=
  let username := username.getD ""
  let password := password.getD ""
  if username = "" ∧ password = "" then .ok headers
  else if username = "" ∨ password = "" then .error "basic_auth_incomplete"
  else if headers.any (fun header => rules.lower header.1 == "authorization") = true then .error "authorization_conflict"
  else
    let bytes := (username ++ ":" ++ password).toByteArray.data.toList
    .ok (Assoc.set headers "Authorization" ("Basic " ++ String.ofList (btoa bytes)))

/-! ## The request -/

def normalizedWebhookMethod (value : Option String) : WebhookMethod :=
  if (orText value "POST").toList.map Char.toUpper = "GET".toList then .GET else .POST

def WebhookConfig.contentTypeOrJson (config : WebhookConfig) : String := orText config.contentType "application/json"

def WebhookConfig.bodyTemplateOrDefault (config : WebhookConfig) : String :=
  orText config.bodyTemplate "\x7b\"message\":\"\x7b\x7bmessage\x7d\x7d\",\"title\":\"\x7b\x7btitle\x7d\x7d\"\x7d"

/-- The body of a `POST`. -/
def customWebhookBody (config : WebhookConfig) (notification : NotificationMessage) (nowMs : Int) : List Char :=
  renderWebhookTemplate config.bodyTemplateOrDefault.toList (templateValues rules notification nowMs)
    (if isJsonContentType rules config.contentTypeOrJson then .json else .plain)

def buildCustomWebhookRequest (config : WebhookConfig) (notification : NotificationMessage) (nowMs : Int) :
    Except String WebhookRequest := do
  let method := normalizedWebhookMethod config.method
  let values := templateValues rules notification nowMs
  let headers ← parseWebhookHeaders rules config.headersJson
  let headers ← addBasicAuthHeader rules headers config.username config.password
  match method with
  | .GET =>
    let renderedUrl := renderWebhookTemplate config.url.toList values .url
    let validated ← validateWebhookUrl rules.toBackupRules (String.ofList renderedUrl) none
    pure ⟨validated.url, validated.host, method, none, headers⟩
  | .POST =>
    let validated ← validateWebhookUrl rules.toBackupRules config.url none
    let body := customWebhookBody rules config notification nowMs
    pure ⟨validated.url, validated.host, method, some (String.ofList body),
      Assoc.set headers "Content-Type" config.contentTypeOrJson⟩

end

/-! ## Text stays text -/

section

variable {escape : List Char → Option (Char × Nat)}

open JsonText (literal shortOnly anyEscape shortEscape)

/-- A character that a literal has as itself, and that no short escape stands for. -/
def isWordChar (c : Char) : Bool := decide (0x20 ≤ c.toNat) && !(['"', '\\', '/'].contains c)

variable {c : Char}

theorem wordChar_facts (h : isWordChar c = true) : c ≠ '"' ∧ c ≠ '\\' ∧ ¬ c.toNat < 0x20 := by
  rw [isWordChar, Bool.and_eq_true, decide_eq_true_eq] at h
  refine ⟨?_, ?_, by omega⟩
  · rintro rfl
    exact absurd h.2 (by decide)
  · rintro rfl
    exact absurd h.2 (by decide)

theorem literal_char (hquote : c ≠ '"') (hslash : c ≠ '\\') (hcontrol : ¬ c.toNat < 0x20) (rest : List Char) :
    literal escape 0 (c :: rest) = (literal escape 0 rest).map fun (text, rest) => (c :: text, rest) := by
  rw [literal, if_neg hquote, if_neg hslash, if_neg hcontrol]

variable {d : Char}

theorem shortEscape_word (h : shortEscape c = some d) : isWordChar d = false := by
  rw [shortEscape] at h
  split_ifs at h with hself
  · cases h
    rcases hself with rfl | rfl | rfl <;> decide
  · rw [← some.inj h]
    decide
  · rw [← some.inj h]
    decide
  · rw [← some.inj h]
    decide
  · rw [← some.inj h]
    decide
  · rw [← some.inj h]
    decide

theorem anyEscape_short {e : Char} (h : shortEscape e = some d) (rest : List Char) : anyEscape (e :: rest) = some (d, 1) := by
  have hu : e ≠ 'u' := by
    rintro rfl
    have hnone : shortEscape 'u' = none := by decide
    rw [hnone] at h
    cases h
  unfold anyEscape
  split
  · rename_i heq
    exact absurd (List.cons.inj heq).1 hu
  · rw [shortOnly, h, map_some]

theorem literal_anyEscape_short {e : Char} (h : shortEscape e = some d) (rest : List Char) :
    literal anyEscape 0 ('\\' :: e :: rest) = (literal anyEscape 0 rest).map fun (text, rest) => (d :: text, rest) := by
  rw [literal, if_neg (by decide), if_pos rfl, anyEscape_short h, Option.bind_some]
  rfl

theorem literal_jsonEscapeChar (c : Char) (rest : List Char) :
    literal anyEscape 0 (jsonEscapeChar c ++ rest) = (literal anyEscape 0 rest).map fun (text, rest) => (c :: text, rest) := by
  have hchar : ∀ n, c.toNat = n → c = Char.ofNat n := by
    rintro n rfl
    exact (Char.ofNat_toNat c).symm
  unfold jsonEscapeChar
  split_ifs with h1 h2 h3 h4 h5 h6 h7 h8
  · exact literal_anyEscape_short (by rw [h1]; decide) rest
  · exact literal_anyEscape_short (by rw [h2]; decide) rest
  · exact literal_anyEscape_short (by rw [hchar _ h3]; decide) rest
  · exact literal_anyEscape_short (by rw [hchar _ h4]; decide) rest
  · exact literal_anyEscape_short (by rw [hchar _ h5]; decide) rest
  · exact literal_anyEscape_short (by rw [hchar _ h6]; decide) rest
  · exact literal_anyEscape_short (by rw [hchar _ h7]; decide) rest
  · -- four digits
    have hdigits : ∀ n : Fin 32, ['0', '0', Nat.digitChar (n.val / 16), Nat.digitChar (n.val % 16)].all isHexDigitChar = true ∧
        hexValue ['0', '0', Nat.digitChar (n.val / 16), Nat.digitChar (n.val % 16)] = n.val := by decide +kernel
    obtain ⟨hall, hvalue⟩ := hdigits ⟨c.toNat, h8⟩
    simp only at hall hvalue
    generalize Nat.digitChar (c.toNat / 16) = x at *
    generalize Nat.digitChar (c.toNat % 16) = y at *
    have hunit : JsonText.codeUnit ('0' :: '0' :: x :: y :: rest) = some c.toNat := by
      rw [JsonText.codeUnit]
      show (if ['0', '0', x, y].length = 4 ∧ ['0', '0', x, y].all isHexDigitChar = true
        then some (hexValue ['0', '0', x, y]) else none) = _
      rw [if_pos ⟨rfl, hall⟩, hvalue]
    have hescape : anyEscape ('u' :: '0' :: '0' :: x :: y :: rest) = some (c, 5) := by
      rw [anyEscape, JsonText.numericEscape, hunit, Option.bind_some, if_neg (by omega), if_neg (by omega),
        map_some, Char.ofNat_toNat]
    show literal anyEscape 0 ('\\' :: 'u' :: '0' :: '0' :: x :: y :: rest) = _
    rw [literal, if_neg (by decide), if_pos rfl, hescape, Option.bind_some]
    rfl
  · exact literal_char h1 h2 h8 rest

/-- **An escaped text is read back.** -/
theorem literal_jsonTemplateEscape (text rest : List Char) :
    literal anyEscape 0 (jsonTemplateEscape text ++ rest)
      = (literal anyEscape 0 rest).map fun (behind, rest) => (text ++ behind, rest) := by
  induction text with
  | nil => simp [jsonTemplateEscape]
  | cons c text ih =>
    rw [jsonTemplateEscape] at ih ⊢
    rw [List.flatMap_cons, List.append_assoc, literal_jsonEscapeChar, ih, Option.map_map]
    rfl

end

/-! ## Placeholders in literals -/

section

open JsonText (literal shortOnly anyEscape shortEscape)

theorem literal_word {escape : List Char → Option (Char × Nat)} {word : List Char} (h : ∀ c ∈ word, isWordChar c = true)
    (rest : List Char) : literal escape 0 (word ++ rest)
      = (literal escape 0 rest).map fun (text, rest) => (word ++ text, rest) := by
  induction word with
  | nil => simp
  | cons c word ih =>
    obtain ⟨hquote, hslash, hcontrol⟩ := wordChar_facts (h c List.mem_cons_self)
    rw [List.cons_append, literal_char hquote hslash hcontrol, ih fun d hd => h d (List.mem_cons_of_mem _ hd), Option.map_map]
    rfl

variable {rest : List Char}

theorem literal_short {e : Char} {r : List Char × List Char}
    (h : literal shortOnly 0 ('\\' :: e :: rest) = some r) :
    ∃ d text, shortEscape e = some d ∧ literal shortOnly 0 rest = some (text, r.2) ∧ r.1 = d :: text := by
  rw [literal, if_neg (by decide), if_pos rfl] at h
  obtain ⟨⟨d, length⟩, hescape, h⟩ := Option.bind_eq_some_iff.mp h
  obtain ⟨d', hd', heq⟩ := map_eq_some_iff.mp hescape
  obtain ⟨rfl, rfl⟩ := Prod.mk.inj heq
  obtain ⟨⟨text, rest'⟩, hread, rfl⟩ := map_eq_some_iff.mp h
  exact ⟨d', text, hd', hread, rfl⟩

variable {s : List Char}

theorem word_of_literal {word : List Char} (h : ∀ c ∈ word, isWordChar c = true) {text : List Char}
    (hread : literal shortOnly 0 text = some (word ++ s, rest)) : word <+: text := by
  induction word generalizing text with
  | nil => exact List.nil_prefix
  | cons c word ih =>
    have hc := h c List.mem_cons_self
    cases text with
    | nil => simp [literal] at hread
    | cons d text =>
      by_cases hquote : d = '"'
      · rw [literal, if_pos hquote] at hread
        exact absurd (Prod.mk.inj (some.inj hread)).1.symm (List.cons_ne_nil _ _)
      · by_cases hslash : d = '\\'
        · subst hslash
          cases text with
          | nil => simp [literal, shortOnly] at hread
          | cons e text =>
            obtain ⟨d', behind, hescape, -, htext⟩ := literal_short hread
            obtain ⟨rfl, -⟩ := List.cons.inj htext
            rw [shortEscape_word hescape] at hc
            cases hc
        · by_cases hcontrol : d.toNat < 0x20
          · rw [literal, if_neg hquote, if_neg hslash, if_pos hcontrol] at hread
            cases hread
          · rw [literal_char hquote hslash hcontrol] at hread
            obtain ⟨⟨behind, rest'⟩, hread, heq⟩ := map_eq_some_iff.mp hread
            obtain ⟨htext, rfl⟩ := Prod.mk.inj heq
            obtain ⟨rfl, rfl⟩ := List.cons.inj htext
            exact List.cons_prefix_cons.mpr ⟨rfl, ih (fun d hd => h d (List.mem_cons_of_mem _ hd)) hread⟩

variable {name : String}

theorem placeholder_word (h : name ∈ PLACEHOLDERS) : ∀ c ∈ marker name, isWordChar c = true := by
  have hall : ∀ name ∈ PLACEHOLDERS, ∀ c ∈ marker name, isWordChar c = true := by decide
  exact hall name h

theorem placeholder_front (h : name ∈ PLACEHOLDERS) (rest : List Char) :
    front PLACEHOLDERS (marker name ++ rest) = some name := by
  have hnames : ∀ name ∈ PLACEHOLDERS, '\x7d' ∉ name.toList := by decide
  exact Template.front_marker hnames h rest

/-- **The placeholders of a literal are those of its text.** -/
theorem literal_render (values : List (String × String)) {text : List Char}
    (h : literal shortOnly 0 text = some (s, rest)) :
    literal anyEscape 0 (renderWebhookTemplate text values .json)
      = some (renderWebhookTemplate s values .plain, renderWebhookTemplate rest values .json) := by
  induction hlength : text.length using Nat.strong_induction_on generalizing text s with
  | _ n ih =>
    subst hlength
    cases text with
    | nil => simp [literal] at h
    | cons c tail =>
      cases hfront : front PLACEHOLDERS (c :: tail) with
      | some name =>
        -- the literal has a placeholder at its front, and so has its text
        obtain ⟨hname, behind, hbehind⟩ := Template.marker_prefix hfront
        rw [hbehind] at h hfront ⊢
        rw [literal_word (placeholder_word hname)] at h
        obtain ⟨⟨s', rest'⟩, hread, heq⟩ := map_eq_some_iff.mp h
        cases heq
        have hshort : behind.length < (c :: tail).length := by
          rw [hbehind, List.length_append]
          have : 0 < (marker name).length := Nat.succ_pos _
          omega
        have hrest := ih _ hshort hread rfl
        rw [renderWebhookTemplate] at hrest ⊢
        rw [Template.render_marker hfront, TemplateMode.write, literal_jsonTemplateEscape, hrest, map_some]
        show some (_, _) = some (render _ _ (marker name ++ s'), _)
        rw [Template.render_marker (placeholder_front hname s')]
        rfl
      | none =>
        rw [renderWebhookTemplate, render_char hfront]
        by_cases hquote : c = '"'
        · rw [literal, if_pos hquote] at h
          cases h
          rw [literal, if_pos hquote]
          rfl
        · by_cases hslash : c = '\\'
          · subst hslash
            cases tail with
            | nil => simp [literal, shortOnly] at h
            | cons e behind =>
              obtain ⟨d, s', hescape, hread, hs⟩ := literal_short h
              simp only at hs hread
              subst hs
              have he : e ≠ '\x7b' := by
                rintro rfl
                have hnone : shortEscape '\x7b' = none := by decide
                rw [hnone] at hescape
                cases hescape
              have hd : d ≠ '\x7b' := by
                rintro rfl
                cases shortEscape_word hescape
              have hrest := ih _ (by simp only [List.length_cons]; omega) hread rfl
              rw [renderWebhookTemplate] at hrest
              rw [render_char (front_plain he behind), literal_anyEscape_short hescape, hrest, map_some]
              show some (_, _) = some (render _ _ (d :: s'), _)
              rw [render_char (front_plain hd s')]
              rfl
          · by_cases hcontrol : c.toNat < 0x20
            · rw [literal, if_neg hquote, if_neg hslash, if_pos hcontrol] at h
              cases h
            · have hword := h
              rw [literal_char hquote hslash hcontrol] at h
              obtain ⟨⟨s', rest'⟩, hread, heq⟩ := map_eq_some_iff.mp h
              cases heq
              -- a placeholder in front of the text would stand in front of the literal
              have hnone : front PLACEHOLDERS (c :: s') = none := by
                cases hsome : front PLACEHOLDERS (c :: s') with
                | none => rfl
                | some name =>
                  obtain ⟨hname, behind, hbehind⟩ := Template.marker_prefix hsome
                  simp only [hbehind] at hword
                  obtain ⟨more, hmore⟩ := word_of_literal (placeholder_word hname) hword
                  rw [← hmore, placeholder_front hname] at hfront
                  cases hfront
              have hrest := ih _ (by simp) hread rfl
              rw [renderWebhookTemplate] at hrest
              rw [literal_char hquote hslash hcontrol, hrest, map_some]
              show some (_, _) = some (render _ _ (c :: s'), _)
              rw [render_char hnone]
              rfl

end

/-! ## The body -/

section

open JsonText (literal shortOnly anyEscape Readers jsonReaders)

/-- A literal without numeric escapes. -/
def templateText : List Char → Option (List Char × List Char) := literal shortOnly 0

/-- A name without numeric escapes and without a placeholder. -/
def templateKey (text : List Char) : Option (List Char × List Char) :=
  (templateText text).filter fun (key, _) => Template.hasNone PLACEHOLDERS key

/-- JSON whose literals have no numeric escapes, with placeholders in texts only. -/
def templateReaders (number : List Char → Number) : Readers := ⟨templateKey, templateText, number⟩

theorem template_rewrites (number : List Char → Number) (values : List (String × String)) :
    JsonText.Rewrites (templateReaders number) (jsonReaders number) (fun text => renderWebhookTemplate text values .json)
      (fun text => renderWebhookTemplate text values .plain) where
  nil := rfl
  plain _ rest hc := render_char (front_plain hc rest)
  brace _ rest hc := render_char (Template.front_brace hc rest)
  text _ _ _ h := literal_render values h
  key _ k _ h := by
    obtain ⟨hread, hkey⟩ := Option.filter_eq_some_iff.mp h
    have hrender := literal_render values hread
    have hsame : renderWebhookTemplate k values .plain = k := Template.render_untouched hkey
    rw [hsame] at hrender
    exact hrender
  number := rfl

variable {s rest : List Char}

/-- Every reading of a literal without numeric escapes is one of `JSON.parse`. -/
theorem literal_anyEscape {text : List Char} (h : literal shortOnly 0 text = some (s, rest)) :
    literal anyEscape 0 text = some (s, rest) := by
  induction hlength : text.length using Nat.strong_induction_on generalizing text s with
  | _ n ih =>
    subst hlength
    cases text with
    | nil => simp [literal] at h
    | cons c tail =>
      by_cases hquote : c = '"'
      · rw [literal, if_pos hquote] at h ⊢
        exact h
      · by_cases hslash : c = '\\'
        · subst hslash
          cases tail with
          | nil => simp [literal, shortOnly] at h
          | cons e behind =>
            obtain ⟨d, s', hescape, hread, hs⟩ := literal_short h
            simp only at hs hread
            subst hs
            rw [literal_anyEscape_short hescape, ih _ (by simp only [List.length_cons]; omega) hread rfl, map_some]
        · by_cases hcontrol : c.toNat < 0x20
          · rw [literal, if_neg hquote, if_neg hslash, if_pos hcontrol] at h
            cases h
          · rw [literal_char hquote hslash hcontrol] at h ⊢
            obtain ⟨⟨s', rest'⟩, hread, heq⟩ := map_eq_some_iff.mp h
            cases heq
            rw [ih _ (by simp) hread rfl, map_some]

theorem template_is_json (number : List Char → Number) :
    JsonText.Rewrites (templateReaders number) (jsonReaders number) id id where
  nil := rfl
  plain _ _ _ := rfl
  brace _ _ _ := rfl
  text _ _ _ h := literal_anyEscape h
  key _ _ _ h := literal_anyEscape (Option.filter_eq_some_iff.mp h).1
  number := rfl

theorem literal_forward (escape : List Char → Option (Char × Nat)) {skip : Nat} {text : List Char}
    (h : literal escape skip text = some (s, rest)) : rest.length < text.length := by
  induction text generalizing skip s with
  | nil => simp [literal] at h
  | cons c tail ih =>
    have hcons : tail.length < (c :: tail).length := by simp
    cases skip with
    | succ skip => exact Nat.lt_trans (ih h) hcons
    | zero =>
      rw [literal] at h
      split_ifs at h with hquote hslash hcontrol
      · cases h
        exact hcons
      · obtain ⟨⟨d, length⟩, -, h⟩ := Option.bind_eq_some_iff.mp h
        obtain ⟨⟨s', rest'⟩, hread, heq⟩ := map_eq_some_iff.mp h
        cases heq
        exact Nat.lt_trans (ih hread) hcons
      · obtain ⟨⟨s', rest'⟩, hread, heq⟩ := map_eq_some_iff.mp h
        cases heq
        exact Nat.lt_trans (ih hread) hcons

theorem jsonReaders_forward (number : List Char → Number) : (jsonReaders number).Forward :=
  ⟨fun _ _ _ h => literal_forward _ h, fun _ _ _ h => literal_forward _ h⟩

end

/-! ## A fixed notification -/

def listRules : WebhookRules := ⟨Backup.githubRules, fun _ => "", fun _ => .finite 0⟩

def listWebhook : WebhookConfig := ⟨"", none, none, none, some "[\"\x7b\x7bmessage\x7d\x7d\"]", none, none⟩

/-- Its text has a quote, a line break and a placeholder. -/
def quotedNotification : NotificationMessage := ⟨"t", "\"\n\x7b\x7btitle\x7d\x7d", none, none, none, none⟩

end CfMonitor.Channels
