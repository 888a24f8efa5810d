/-
  Placeholders in the address of a `GET` webhook (`normalizeWebhookUrlForWrite` in `schema.ts`,
  `buildCustomWebhookRequest` in `webhook.ts`).

  1. **Platform** — `new URL` of an `https` text follows the URL standard; what it makes of an authority
     is a parameter (`HttpsRules`).

  2. **Saved** — an address is saved as it is written: the braces in its path are encoded, those in its
     query and its fragment stay.

  3. **Sent** — a request is made to the saved address with the placeholders filled in that are still
     there.  Every placeholder is filled in exactly if none of them stands in the path (`get_address_iff`).
-/
import CfMonitor.Channels.Webhook

namespace CfMonitor.Channels

open CfMonitor.Lib
open CfMonitor.Lib.WebUrl
open CfMonitor.Backup (BackupRules Url validateWebhookUrl normalizeSettingValue)
open Template (hasNone marker render)

/-! ## Platform -/

/-- What an authority stands for. -/
structure Authority where
  username : String
  password : String
  hostname : String
  port : String
  deriving DecidableEq

/-- The host as it is written, with its port. -/
def Authority.text (h : Authority) : List Char :=
  h.hostname.toList ++ (if h.port = "" then [] else ':' :: h.port.toList)

/-- Credentials in front of a host. -/
def Authority.credentials (h : Authority) : List Char :=
  if h.username = "" ∧ h.password = "" then []
  else h.username.toList ++ (if h.password = "" then [] else ':' :: h.password.toList) ++ ['@']

/-- A mark and what follows it, where that is not empty. -/
def searchText (mark : Char) (part : Option (List Char)) : String :=
  if part.getD [] = [] then "" else String.ofList (tailText mark part)

/-- The `URL` of an address. -/
def Authority.toUrl (h : Authority) (a : Address) : Url :=
  let written := a.encoded (h.credentials ++ h.text)
  ⟨"https:", h.username, h.password, h.hostname, h.port, String.ofList (written.segments.flatMap ('/' :: ·)),
    searchText '?' written.query, searchText '#' written.fragment, String.ofList written.text,
    String.ofList ("https://".toList ++ h.text)⟩

theorem toUrl_hostname (h : Authority) (a : Address) : (h.toUrl a).hostname = h.hostname := rfl

/-- What is documented of `new URL`: an `https` text is cut into parts, and `authority` reads the host. -/
structure HttpsRules (rules : BackupRules) (authority : List Char → Option Authority) : Prop where
  https : ∀ text a, splitAddress text.toList = some a →
    rules.parseUrl text = (authority a.authority).map fun h => h.toUrl a
  other : ∀ text u, splitAddress text.toList = none → rules.parseUrl text = some u → u.protocol ≠ "https:"
  /-- A host is written with visible characters and none that ends it. -/
  written : ∀ text h, authority text = some h → h.hostname ≠ "" → WrittenHost h.text
  /-- A host as it is written stands for itself. -/
  canonical : ∀ text h, authority text = some h → h.username = "" → h.password = "" → authority h.text = some h

/-! ## Saved -/

section

variable {rules : BackupRules} {authority : List Char → Option Authority}

theorem visible_untrimmed {c : Char} (h : isVisible c = true) : isTrimmed c = false := by
  rw [isVisible, Bool.and_eq_true, decide_eq_true_eq, decide_eq_true_eq] at h
  have hall : ∀ n : Fin 128, 0x20 < n.val ∧ n.val ≤ 0x7e → isTrimmed (Char.ofNat n.val) = false := by decide
  have hc := hall ⟨c.toNat, by omega⟩ h
  rwa [Char.ofNat_toNat] at hc

theorem trim_visible {text : List Char} (h : ∀ c ∈ text, isVisible c = true) : trim (String.ofList text) = String.ofList text := by
  refine Backup.trim_eq_self fun c hc => visible_untrimmed (h c ?_)
  rwa [String.toList_ofList] at hc

/-- An address that is accepted. -/
structure Accepted (rules : BackupRules) (authority : List Char → Option Authority) (a : Address) (h : Authority) :
    Prop where
  authority : authority a.authority = some h
  hostname : h.hostname ≠ ""
  username : h.username = ""
  password : h.password = ""
  safe : Backup.isUnsafeWebhookHostname rules h.hostname = false

/-- The address that is saved. -/
def savedUrl (a : Address) (h : Authority) : String := String.ofList (a.encoded h.text).text

variable {a : Address}

variable {h : Authority}

theorem toUrl_href (husername : h.username = "") (hpassword : h.password = "") :
    (h.toUrl a).href = savedUrl a h := by
  have hnone : h.credentials = [] := if_pos ⟨husername, hpassword⟩
  rw [Authority.toUrl, hnone, List.nil_append]
  rfl

theorem validateWebhookUrl_accepted (hrules : HttpsRules rules authority) {text : String}
    (hsplit : splitAddress (trim text).toList = some a) (haccepted : Accepted rules authority a h) :
    validateWebhookUrl rules text none = .ok ⟨savedUrl a h, rules.lower h.hostname⟩ := by
  have hparse : rules.parseUrl (trim text) = some (h.toUrl a) := by
    rw [hrules.https _ a hsplit, haccepted.authority, Option.map_some]
  rw [validateWebhookUrl, hparse]
  have hprotocol : ¬ (h.toUrl a).protocol ≠ "https:" := fun hne => hne rfl
  have hhostname : ¬ (h.toUrl a).hostname = "" := haccepted.hostname
  have hcredentials : ¬ ((h.toUrl a).username ≠ "" ∨ (h.toUrl a).password ≠ "") := by
    rintro (hne | hne)
    · exact hne haccepted.username
    · exact hne haccepted.password
  have hsafe : ¬ Backup.isUnsafeWebhookHostname rules (h.toUrl a).hostname = true := by
    rw [toUrl_hostname, haccepted.safe]
    exact Bool.false_ne_true
  simp only [Option.map_none, Option.getD_none]
  rw [if_neg hprotocol, if_neg hhostname, if_neg hcredentials, if_neg hsafe, if_neg (fun hself => hself.1 rfl),
    toUrl_href haccepted.username haccepted.password]
  rfl

variable {selfHost : Option String}

theorem accepted_of_validateWebhookUrl (hrules : HttpsRules rules authority) {text : String}
    {w : Backup.WebhookUrl} (hsplit : splitAddress (trim text).toList = some a)
    (hvalid : validateWebhookUrl rules text selfHost = .ok w) :
    ∃ h, Accepted rules authority a h ∧ w.url = savedUrl a h := by
  rw [validateWebhookUrl, hrules.https _ a hsplit] at hvalid
  cases hauthority : authority a.authority with
  | none =>
    rw [hauthority] at hvalid
    cases hvalid
  | some h =>
    rw [hauthority, Option.map_some] at hvalid
    simp only at hvalid
    split_ifs at hvalid with hprotocol hhost hcredentials hunsafe hself
    cases hvalid
    rw [not_or, not_not, not_not] at hcredentials
    exact ⟨h, ⟨hauthority, hhost, hcredentials.1, hcredentials.2, Bool.eq_false_of_not_eq_true hunsafe⟩,
      toUrl_href hcredentials.1 hcredentials.2⟩

/-- **What is saved** is the address as it is written. -/
theorem saved_of_normalize (hrules : HttpsRules rules authority) {text saved : String}
    (hsplit : splitAddress (trim text).toList = some a)
    (hsaved : normalizeSettingValue rules "webhook_url" (.str text) selfHost = .ok saved) :
    ∃ h, Accepted rules authority a h ∧ saved = savedUrl a h := by
  have hdefinition : ∃ d, Backup.definitionOf "webhook_url" = some d ∧ d.key = "webhook_url" ∧
      ∃ default maxLength, d.type = .string default maxLength := ⟨_, rfl, rfl, _, _, rfl⟩
  obtain ⟨d, hd, hkey, default, maxLength, htype⟩ := hdefinition
  rw [normalizeSettingValue, hd] at hsaved
  simp only [Backup.SettingDefinition.normalize, htype, hkey, if_true] at hsaved
  cases hwrite : Backup.normalizeWebhookUrlForWrite rules (.str text) selfHost with
  | error e =>
    rw [hwrite] at hsaved
    simp [Except.bind] at hsaved
  | ok written =>
    rw [hwrite] at hsaved
    simp only [Except.bind, Backup.SettingDefinition.check, htype] at hsaved
    split_ifs at hsaved with hport hlong
    cases hsaved
    rw [Backup.normalizeWebhookUrlForWrite] at hwrite
    simp only [Backup.optionalText] at hwrite
    split_ifs at hwrite with hempty
    · subst hempty
      have hnone : splitAddress (trim "").toList = none := by decide
      rw [hnone] at hsplit
      cases hsplit
    · cases hvalid : validateWebhookUrl rules text selfHost with
      | error e =>
        rw [hvalid] at hwrite
        split at hwrite <;> simp_all
      | ok w =>
        rw [hvalid] at hwrite
        cases hwrite
        exact accepted_of_validateWebhookUrl hrules hsplit hvalid

end

/-! ## Filled in -/

/-- The value of a placeholder as it is written into an address. -/
def urlValue (values : List (String × String)) (key : String) : List Char :=
  encodeURIComponent ((Assoc.get? values key).getD "").toList

/-- An address with every placeholder of its parts filled in. -/
def filled (a : Address) (values : List (String × String)) : Address :=
  let render := fun text => renderWebhookTemplate text values .url
  { a with segments := a.segments.map render, query := a.query.map render, fragment := a.fragment.map render }

/-- The address that a saved text stands for once it is rendered. -/
def rendered (a : Address) (values : List (String × String)) : Address :=
  let render := fun text => renderWebhookTemplate text values .url
  { a with query := a.query.map render, fragment := a.fragment.map render }

theorem isUnreserved_visible {c : Char} (h : isUnreserved c = true) : isVisible c = true := by
  have hall : ∀ n : Fin 128, isUnreserved (Char.ofNat n.val) = true → isVisible (Char.ofNat n.val) = true := by decide
  have hlt : c.toNat < 128 := by
    rw [isUnreserved, Bool.or_eq_true] at h
    rcases h with h | h
    · simp only [Char.isAlphanum, Char.isAlpha, Char.isUpper, Char.isLower, Char.isDigit, Bool.or_eq_true, Bool.and_eq_true,
        decide_eq_true_eq, ge_iff_le, UInt32.le_iff_toNat_le] at h
      have hval : c.val.toNat = c.toNat := rfl
      simp only [hval] at h
      have hends : 'Z'.val.toNat = 90 ∧ 'z'.val.toNat = 122 ∧ '9'.val.toNat = 57 := by decide
      omega
    · have hlist : ∀ d ∈ "-_.!~*'()".toList, d.toNat < 128 := by decide
      exact hlist c (List.contains_iff_mem.mp h)
  have hc := hall ⟨c.toNat, hlt⟩
  rw [Char.ofNat_toNat] at hc
  exact hc h

theorem hides_unreserved : Hides fun c => !isUnreserved c := fun _ hc =>
  isUnreserved_visible (by simpa using hc)

/-- What is written into an address is visible and has no `#`. -/
theorem urlValue_plain {values : List (String × String)} {key : String} {c : Char} (h : c ∈ urlValue values key) :
    isVisible c = true ∧ c ≠ '#' :=
  ⟨percentEncode_visible hides_unreserved h, percentEncode_ne (by decide) (by decide) h⟩

theorem renderWebhookTemplate_url (values : List (String × String)) (text : List Char) :
    renderWebhookTemplate text values .url = render PLACEHOLDERS (urlValue values) text := rfl

section

variable (values : List (String × String))

theorem not_in_marker {c : Char} (h : c ∈ ['/', '?', '#']) : ∀ name ∈ PLACEHOLDERS, c ∉ marker name := by
  have hall : ∀ d ∈ ['/', '?', '#'], ∀ name ∈ PLACEHOLDERS, d ∉ marker name := by decide
  exact hall c h

theorem render_tails (q f : Option (List Char)) :
    renderWebhookTemplate (tailText '?' q ++ tailText '#' f) values .url
      = tailText '?' (q.map fun text => renderWebhookTemplate text values .url)
        ++ tailText '#' (f.map fun text => renderWebhookTemplate text values .url) := by
  simp only [renderWebhookTemplate_url]
  have hhash : ∀ text, render PLACEHOLDERS (urlValue values) ('#' :: text)
      = '#' :: render PLACEHOLDERS (urlValue values) text :=
    fun text => Template.render_char (Template.front_plain (by decide) text)
  have hfragment : render PLACEHOLDERS (urlValue values) (tailText '#' f)
      = tailText '#' (f.map (render PLACEHOLDERS (urlValue values))) := by
    cases f with
    | none => rfl
    | some text => exact hhash text
  cases q with
  | none => exact hfragment
  | some q =>
    show render PLACEHOLDERS (urlValue values) ('?' :: (q ++ tailText '#' f)) = '?' :: (_ ++ _)
    rw [Template.render_char (Template.front_plain (by decide) _)]
    cases f with
    | none =>
      simp only [tailText, Option.map_none, List.append_nil]
    | some text =>
      simp only [tailText, Option.map_some]
      rw [Template.render_split (not_in_marker (by simp))]

variable {host : List Char}

theorem render_saved (a : Address) (hhost : hasNone PLACEHOLDERS host = true)
    (hresolved : Resolved a.segments) :
    renderWebhookTemplate (a.encoded host).text values .url = (rendered (a.encoded host) values).text := by
  obtain ⟨path, hpath⟩ := path_slash hresolved.encoded
  have hbrace : '\x7b' ∉ path := by
    intro hmem
    have hsegments : '\x7b' ∈ (a.segments.map (percentEncode inPath)).flatMap ('/' :: ·) := by
      rw [hpath]
      exact List.mem_cons_of_mem _ hmem
    rcases mem_path hsegments with hslash | ⟨segment, hsegment, hc⟩
    · cases hslash
    · obtain ⟨s, -, rfl⟩ := List.mem_map.mp hsegment
      exact percentEncode_ne (by decide) (by decide) hc rfl
  have hscheme : '\x7b' ∉ HTTPS ++ "//".toList := by decide
  have hkept : render PLACEHOLDERS (urlValue values) host = host := Template.render_untouched hhost
  rw [Address.text, Address.text]
  simp only [Address.encoded, rendered, hpath, List.append_assoc, List.cons_append]
  rw [← List.append_assoc HTTPS, renderWebhookTemplate_url, Template.render_plain hscheme,
    Template.render_split (not_in_marker (by simp)), hkept, Template.render_plain hbrace, ← renderWebhookTemplate_url, render_tails,
    List.append_assoc]

theorem render_encoded {set : Char → Bool} (hbraces : ∀ name ∈ PLACEHOLDERS, ∀ c ∈ marker name, set c = false)
    (hencoded : ∀ c ∈ ENCODED, set c = false) (text : List Char) :
    percentEncode set (renderWebhookTemplate (percentEncode set text) values .url)
      = percentEncode set (renderWebhookTemplate text values .url) := by
  have hplain : ∀ name ∈ PLACEHOLDERS, ∀ c ∈ marker name, ENCODED.contains c = false := by decide
  have hwrites : Template.Writes (encodeChar set) fun c => !set c && !ENCODED.contains c := by
    refine ⟨fun c hc => ?_, fun c hc => ⟨encodeChar_ne_nil set c, fun d hd => ?_⟩⟩
    · rw [Bool.and_eq_true, Bool.not_eq_true'] at hc
      exact if_neg (by rw [hc.1]; exact Bool.false_ne_true)
    · rcases mem_encodeChar hd with ⟨rfl, -⟩ | hd
      · exact hc
      · rw [Bool.and_eq_false_iff]
        exact .inr (by simpa using hd)
  refine Template.render_flatMap hwrites (fun name hname c hc => ?_) ?_ (encodeChar_twice hencoded) text
  · rw [hbraces name hname c hc, hplain name hname c hc]
    rfl
  · have hbrace := hbraces "title" (by decide) '\x7b' (by decide)
    have hdigits : ENCODED.contains '\x7b' = false := by decide
    rw [hbrace, hdigits]
    rfl

theorem rendered_written (a : Address) (hhost : WrittenHost host) (hresolved : Resolved a.segments) :
    (rendered (a.encoded host) values).Written := by
  have hwritten := encoded_written (a := a) hhost hresolved
  have hchars : ∀ {text : List Char} {c : Char}, c ∈ renderWebhookTemplate text values .url →
      c ∈ text ∨ (isVisible c = true ∧ c ≠ '#') := by
    intro text c hc
    exact (Template.mem_render hc).imp_right fun ⟨_, _, hvalue⟩ => urlValue_plain hvalue
  refine ⟨hwritten.host, hwritten.resolved, hwritten.path, fun q hq c hc => ?_, fun f hf c hc => ?_⟩
  · obtain ⟨t, ht, rfl⟩ := Option.map_eq_some_iff.mp hq
    exact (hchars hc).elim (hwritten.query t ht c) id
  · obtain ⟨t, ht, rfl⟩ := Option.map_eq_some_iff.mp hf
    exact (hchars hc).elim (hwritten.fragment t ht c) And.left

end

/-! ## Sent -/

/-- Every `GET` request to a saved address is made with all placeholders of the address filled in, as far
    as the headers are accepted. -/
def FillsAll (rules : WebhookRules) (saved : String) (a : Address) (h : Authority) : Prop :=
  ∀ (config : WebhookConfig) (notification : NotificationMessage) (nowMs : Int) (headers headers' : List (String × String)),
    config.url = saved → normalizedWebhookMethod config.method = .GET →
    parseWebhookHeaders rules config.headersJson = .ok headers →
    addBasicAuthHeader rules headers config.username config.password = .ok headers' →
    buildCustomWebhookRequest rules config notification nowMs
      = .ok ⟨savedUrl (filled a (templateValues rules notification nowMs)) h, rules.lower h.hostname, .GET, none, headers'⟩

section

variable {rules : WebhookRules} {authority : List Char → Option Authority}

/-- **The request that is made**: to the saved address, with its query and its fragment filled in. -/
theorem get_request (hrules : HttpsRules rules.toBackupRules authority) {a : Address} {h : Authority}
    (haccepted : Accepted rules.toBackupRules authority a h) (hresolved : Resolved a.segments)
    (hplain : hasNone PLACEHOLDERS h.text = true) {config : WebhookConfig} (notification : NotificationMessage)
    (nowMs : Int) {headers headers' : List (String × String)} (hurl : config.url = savedUrl a h)
    (hmethod : normalizedWebhookMethod config.method = .GET) (hheaders : parseWebhookHeaders rules config.headersJson = .ok headers)
    (hauth : addBasicAuthHeader rules headers config.username config.password = .ok headers') :
    buildCustomWebhookRequest rules config notification nowMs
      = .ok ⟨savedUrl (rendered a (templateValues rules notification nowMs)) h, rules.lower h.hostname, .GET, none, headers'⟩ := by
  have hhost := hrules.written _ h haccepted.authority haccepted.hostname
  generalize hvalues : templateValues rules notification nowMs = values
  have hwritten := rendered_written values a hhost hresolved
  have htext : renderWebhookTemplate config.url.toList values .url = (rendered (a.encoded h.text) values).text := by
    rw [hurl, savedUrl, String.toList_ofList]
    exact render_saved values a hplain hresolved
  have hsplit : splitAddress (trim (String.ofList (rendered (a.encoded h.text) values).text)).toList
      = some (rendered (a.encoded h.text) values) := by
    rw [trim_visible hwritten.visible, String.toList_ofList]
    exact splitAddress_text hwritten
  have haccepted' : Accepted rules.toBackupRules authority (rendered (a.encoded h.text) values) h :=
    ⟨hrules.canonical _ h haccepted.authority haccepted.username haccepted.password, haccepted.hostname, haccepted.username,
      haccepted.password, haccepted.safe⟩
  -- what is written in the query and the fragment is not encoded again
  have hsame : savedUrl (rendered (a.encoded h.text) values) h = savedUrl (rendered a values) h := by
    have hpath : ∀ s, percentEncode inPath (percentEncode inPath s) = percentEncode inPath s := percentEncode_twice (by decide)
    have hquery := @render_encoded values inQuery (by decide) (by decide)
    have hfragment := @render_encoded values inFragment (by decide) (by decide)
    simp only [savedUrl, rendered, Address.encoded, List.map_map, Option.map_map, Function.comp_def, hpath, hquery, hfragment]
  rw [buildCustomWebhookRequest, hmethod, hheaders]
  simp only [bind, Except.bind, hauth, hvalues, htext, validateWebhookUrl_accepted hrules hsplit haccepted', hsame, pure,
    Except.pure]

/-- A notification all of whose texts have one letter. -/
def shortNotification : NotificationMessage := ⟨"x", "x", some "x", some "x", some "x", some "x"⟩

theorem shortNotification_values (nowMs : Int) : templateValues rules shortNotification nowMs
    = [("title", "x"), ("message", "x"), ("event", "x"), ("client", "x"), ("time", "x"), ("emoji", "x"),
      ("source", "cf-vps-monitor")] := by
  have htime : orText (some "x") (rules.isoText nowMs) = "x" := by
    rw [orText, if_neg (by decide)]
  rw [templateValues, shortNotification, htime]
  rfl

theorem short_path {segments : List (List Char)} {segment : List Char} (hsegment : segment ∈ segments)
    (hfound : hasNone PLACEHOLDERS segment = false) {nowMs : Int} :
    ((segments.map fun s => percentEncode inPath
        (renderWebhookTemplate s (templateValues rules shortNotification nowMs) .url)).flatMap ('/' :: ·)).length
      < ((segments.map (percentEncode inPath)).flatMap ('/' :: ·)).length := by
  rw [shortNotification_values]
  have hshort := @Template.render_length PLACEHOLDERS (urlValue [("title", "x"), ("message", "x"), ("event", "x"),
    ("client", "x"), ("time", "x"), ("emoji", "x"), ("source", "cf-vps-monitor")]) (encodeChar inPath) (by decide)
  simp only [List.length_flatMap, List.map_map, Function.comp_def, List.length_cons]
  refine List.sum_lt_sum _ _ (fun s _ => ?_) ⟨segment, hsegment, ?_⟩
  · exact Nat.succ_le_succ (hshort s).1
  · exact Nat.succ_lt_succ ((hshort segment).2 hfound)

/-- **Every placeholder of a saved address is filled in** exactly if none of them stands in its path. -/
theorem get_address_iff (hrules : HttpsRules rules.toBackupRules authority) {text saved : String} {selfHost : Option String}
    {a : Address} {h : Authority} (hsplit : splitAddress (trim text).toList = some a) (hauthority : authority a.authority = some h)
    (hsaved : normalizeSettingValue rules.toBackupRules "webhook_url" (.str text) selfHost = .ok saved)
    (hplain : Template.hasNone PLACEHOLDERS h.text = true) :
    FillsAll rules saved a h ↔ ∀ segment ∈ a.segments, Template.hasNone PLACEHOLDERS segment = true := by
  obtain ⟨h', haccepted, rfl⟩ := saved_of_normalize hrules hsplit hsaved
  obtain rfl := Option.some.inj (hauthority.symm.trans haccepted.authority)
  have hresolved := splitAddress_resolved hsplit
  constructor
  · intro hall segment hsegment
    by_contra hfound
    let config : WebhookConfig := ⟨savedUrl a h, some "GET", none, none, none, none, none⟩
    have hmethod : normalizedWebhookMethod (some "GET") = .GET := by decide
    have hheaders : parseWebhookHeaders rules config.headersJson = .ok [] := rfl
    have hauth : addBasicAuthHeader rules [] config.username config.password = .ok [] := rfl
    have hfilled := hall config shortNotification 0 [] [] rfl hmethod hheaders hauth
    rw [get_request hrules haccepted hresolved hplain shortNotification 0 rfl hmethod hheaders hauth] at hfilled
    have hsame := congrArg WebhookRequest.url (Except.ok.inj hfilled)
    have hlength := congrArg (fun url => url.toList.length) hsame
    have hshort := @short_path rules _ _ hsegment (Bool.eq_false_of_not_eq_true hfound) 0
    simp only [savedUrl, String.toList_ofList, rendered, filled, Address.encoded, Address.text, List.length_append,
      List.map_map, Function.comp_def] at hlength hshort
    omega
  · intro hnone config notification nowMs headers headers' hurl hmethod hheaders hauth
    have hsame : rendered a (templateValues rules notification nowMs) = filled a (templateValues rules notification nowMs) := by
      have hsegments : a.segments.map (fun text => renderWebhookTemplate text (templateValues rules notification nowMs) .url)
          = a.segments := by
        conv_rhs => rw [← List.map_id a.segments]
        exact List.map_congr_left fun s hs => Template.render_untouched (hnone s hs)
      rw [rendered, filled, hsegments]
    rw [← hsame]
    exact get_request hrules haccepted hresolved hplain notification nowMs hurl hmethod hheaders hauth

end

/-! ## Addresses of one host -/

def hookHost : Authority := ⟨"", "", "hooks.example.com", ""⟩

def hookAuthority (text : List Char) : Option Authority := if text = "hooks.example.com".toList then some hookHost else none

def hookRules : WebhookRules :=
  ⟨{ Backup.githubRules with
      parseUrl := fun text => (splitAddress text.toList).bind fun a => (hookAuthority a.authority).map fun h => h.toUrl a },
    fun _ => "", fun _ => .finite 0⟩

theorem hookAuthority_eq {text : List Char} {h : Authority} (hread : hookAuthority text = some h) : h = hookHost := by
  rw [hookAuthority] at hread
  split_ifs at hread
  exact (Option.some.inj hread).symm

theorem hookHost_written : WrittenHost hookHost.text :=
  ⟨by decide, by decide, by decide⟩

theorem hookRules_https : HttpsRules hookRules.toBackupRules hookAuthority where
  https := by
    intro text a hsplit
    show ((splitAddress text.toList).bind fun a => (hookAuthority a.authority).map fun h => h.toUrl a) = _
    rw [hsplit, Option.bind_some]
  other := by
    intro text u hsplit hparse
    have hnone : ((splitAddress text.toList).bind fun a => (hookAuthority a.authority).map fun h => h.toUrl a) = some u := hparse
    rw [hsplit] at hnone
    cases hnone
  written := by
    intro text h hread _
    rw [hookAuthority_eq hread]
    exact hookHost_written
  canonical := by
    intro text h hread _ _
    rw [hookAuthority_eq hread]
    decide

/-- A placeholder in a query is filled in. -/
theorem get_address_query : FillsAll hookRules "https://hooks.example.com/send?text=\x7b\x7btitle\x7d\x7d"
      ⟨"hooks.example.com".toList, ["send".toList], some "text=\x7b\x7btitle\x7d\x7d".toList, none⟩ hookHost := by
  have hsplit : splitAddress (trim "https://hooks.example.com/send?text=\x7b\x7btitle\x7d\x7d").toList
      = some ⟨"hooks.example.com".toList, ["send".toList], some "text=\x7b\x7btitle\x7d\x7d".toList, none⟩ := by
    decide +kernel
  have hsaved : normalizeSettingValue hookRules.toBackupRules "webhook_url"
      (.str "https://hooks.example.com/send?text=\x7b\x7btitle\x7d\x7d") none
      = .ok "https://hooks.example.com/send?text=\x7b\x7btitle\x7d\x7d" := by decide +kernel
  exact (get_address_iff hookRules_https hsplit (by decide) hsaved (by decide +kernel)).mpr (by decide +kernel)

def diskNotification : NotificationMessage := ⟨"disk", "", none, none, none, none⟩

/-- A placeholder in a path is not: the address is saved with its braces encoded. -/
theorem path_placeholder_kept :
    let saved := "https://hooks.example.com/%7B%7Btitle%7D%7D"
    let address : Address := ⟨"hooks.example.com".toList, ["\x7b\x7btitle\x7d\x7d".toList], none, none⟩
    splitAddress (trim "https://hooks.example.com/\x7b\x7btitle\x7d\x7d").toList = some address
    ∧ normalizeSettingValue hookRules.toBackupRules "webhook_url"
        (.str "https://hooks.example.com/\x7b\x7btitle\x7d\x7d") none = .ok saved
    ∧ (buildCustomWebhookRequest hookRules ⟨saved, some "GET", none, none, none, none, none⟩ diskNotification 0).map
        (fun request => request.url) = .ok saved
    ∧ ¬ FillsAll hookRules saved address hookHost := by
  intro saved address
  have hurl : (buildCustomWebhookRequest hookRules ⟨saved, some "GET", none, none, none, none, none⟩ diskNotification 0).map
      (fun request => request.url) = .ok saved := by decide +kernel
  refine ⟨by decide +kernel, by decide +kernel, hurl, fun hall => ?_⟩
  rw [hall ⟨saved, some "GET", none, none, none, none, none⟩ diskNotification 0 [] [] rfl (by decide) rfl rfl] at hurl
  have hfilled : savedUrl (filled address (templateValues hookRules diskNotification 0)) hookHost
      = "https://hooks.example.com/disk" := by decide +kernel
  have hsame := Except.ok.inj hurl
  rw [hfilled] at hsame
  exact absurd hsame (by decide)

end CfMonitor.Channels
