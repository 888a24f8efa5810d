/-
  What was normalised once is normal.

  1. **Texts** — each normalisation gives a text that it leaves as it is (`Settles`), but for the
     repository URL.

  2. **Values** — so does `normalizeSettingValue` (`normalizeSettingValue_again`), and the defaults are
     normal as well (`normalizeSettingValue_default`).
-/
import CfMonitor.Backup.Settings
import CfMonitor.Lib.Split
import CfMonitor.Live.MonitorReport

namespace CfMonitor.Backup

open CfMonitor.Lib CfMonitor.Live
open Option (some)

variable {rules : BackupRules}

/-! ## Texts -/

/-- What the normalisation gives, it leaves as it is. -/
def Settles (f : Json → Option String) : Prop := ∀ value text, f value = some text → f (.str text) = some text

theorem settles_orEmpty {f : String → Option String}
    (h : ∀ written text, f written = some text → text ≠ "" → f text = some text) : Settles (orEmpty f) := by
  intro value text hf
  rw [orEmpty, Option.bind_eq_some_iff] at hf
  obtain ⟨written, -, hf⟩ := hf
  rw [orEmpty, optionalText, Option.bind_some]
  by_cases hempty : text = ""
  · rw [if_pos hempty, hempty]
  · rw [if_neg hempty]
    split_ifs at hf with hwritten
    · exact absurd (some.inj hf).symm hempty
    · exact h written text hf hempty

theorem lower_word (hlaw : rules.Lawful) {word : String} (h : ∀ c ∈ word.toList, 'a' ≤ c ∧ c ≤ 'z') :
    rules.lower (trim word) = word := by
  have hblank : ∀ c ∈ word.toList, isTrimmed c = false := by
    intro c hc
    obtain ⟨hlow, hhigh⟩ := h c hc
    have hlow : 97 ≤ c.val.toNat := hlow
    have hhigh : c.val.toNat ≤ 122 := hhigh
    rw [isTrimmed]
    simp only [Bool.or_eq_false_iff, Bool.and_eq_false_iff, decide_eq_false_iff_not, beq_eq_false_iff_ne,
      ne_eq, UInt32.le_iff_toNat_le, ← UInt32.toNat_inj, UInt32.reduceToNat]
    omega
  rw [trim_eq_self hblank, hlaw.lowerAscii word h]

theorem normalizeBoolean_text (hlaw : rules.Lawful) (b : Bool) :
    normalizeBoolean rules (.str (booleanText b)) = some (booleanText b) := by
  have hlower : rules.lower (trim (booleanText b)) = booleanText b := by
    cases b <;> exact lower_word hlaw (by decide)
  rw [normalizeBoolean]
  simp only [hlower]
  cases b <;> decide

theorem settles_boolean (hlaw : rules.Lawful) : Settles (normalizeBoolean rules) := by
  intro value text h
  suffices hb : ∃ b, text = booleanText b by
    obtain ⟨b, rfl⟩ := hb
    exact normalizeBoolean_text hlaw b
  cases value with
  | bool b => exact ⟨b, (some.inj h).symm⟩
  | str written =>
    rw [normalizeBoolean] at h
    split_ifs at h
    · exact ⟨true, (some.inj h).symm⟩
    · exact ⟨false, (some.inj h).symm⟩
  | _ => simp [normalizeBoolean] at h

theorem toString_int_ne_empty : ∀ n : Int, toString n ≠ ""
  | .ofNat _ => Nat.repr_ne_empty
  | .negSucc n => fun h => by
    have hchars := congrArg String.toList h
    rw [show toString (Int.negSucc n) = "-" ++ Nat.repr (n + 1) from rfl, String.toList_append] at hchars
    exact List.cons_ne_nil _ _ hchars

variable {default : Int}

/-- A decimal number in the range is read back. -/
theorem normalizeInteger_toString (hlaw : rules.Lawful) {n min max : Int} (hlow : min ≤ n) (hhigh : n ≤ max)
    (hmin : -maxSafeInteger ≤ min) (hmax : max ≤ maxSafeInteger) :
    normalizeInteger rules (.str (toString n)) default min max = some (toString n) := by
  have hnumber : finiteNumber rules (.str (toString n)) = some (n : ℚ) :=
    (hlaw.numberTrim _).trans (hlaw.numberInt n (by omega))
  have hwritten : optionalText (.str (toString n)) ≠ some "" :=
    fun h => toString_int_ne_empty n (some.inj h)
  rw [normalizeInteger, if_neg hwritten, hnumber]
  exact if_pos ⟨rfl, hlow, hhigh⟩

theorem settles_integer (hlaw : rules.Lawful) {min max : Int} (hlow : min ≤ default)
    (hhigh : default ≤ max) (hmin : -maxSafeInteger ≤ min) (hmax : max ≤ maxSafeInteger) :
    Settles fun value => normalizeInteger rules value default min max := by
  intro value text h
  suffices hn : ∃ n, text = toString n ∧ min ≤ n ∧ n ≤ max by
    obtain ⟨n, rfl, hlow, hhigh⟩ := hn
    exact normalizeInteger_toString hlaw hlow hhigh hmin hmax
  simp only [normalizeInteger] at h
  split_ifs at h with hempty
  · exact ⟨default, (some.inj h).symm, hlow, hhigh⟩
  · cases hx : finiteNumber rules value with
    | none => simp [hx] at h
    | some x =>
      simp only [hx] at h
      split_ifs at h with hrange
      exact ⟨x.num, (some.inj h).symm, hrange.2⟩

theorem hasHttpScheme_of_prefix {protocol text : String} (hprotocol : protocol ∈ ["http:", "https:"])
    (h : (protocol ++ "//").toList <+: text.toList) : hasHttpScheme text = true := by
  obtain ⟨rest, hrest⟩ := h
  rw [hasHttpScheme, ← hrest]
  simp only [List.mem_cons, List.not_mem_nil, or_false] at hprotocol
  rcases hprotocol with rfl | rfl
  · refine Bool.or_eq_true_iff.mpr (.inr ?_)
    rw [List.isPrefixOf_iff_prefix]
    exact ⟨_, rfl⟩
  · refine Bool.or_eq_true_iff.mpr (.inl ?_)
    rw [List.isPrefixOf_iff_prefix]
    exact ⟨_, rfl⟩

theorem settles_scriptDomain (hlaw : rules.Lawful) : Settles (orEmpty (scriptDomain rules)) := by
  refine settles_orEmpty fun written text h hne => ?_
  rw [scriptDomain] at h
  split_ifs at h with hblank
  · exact absurd (some.inj h).symm hne
  · cases hparse : rules.parseUrl (withScheme (trim written)) with
    | none => simp [hparse] at h
    | some u =>
      simp only [hparse] at h
      split_ifs at h with hprotocol hparts
      cases h
      have hhttp : u.protocol ∈ ["http:", "https:"] := by
        simp only [List.mem_cons, List.not_mem_nil, or_false]
        by_contra hno
        exact hprotocol ⟨fun h => hno (.inr h), fun h => hno (.inl h.1)⟩
      obtain ⟨htrim, hscheme, v, hv, horigin⟩ := hlaw.origin _ u hparse hhttp
      rw [scriptDomain]
      simp only [withScheme, htrim, if_neg hne, hasHttpScheme_of_prefix hhttp hscheme, if_true, hv]
      rw [horigin.protocol, horigin.hostname, if_neg hprotocol, horigin.username, horigin.password,
        if_neg (by simpa using fun h => hparts (.inr (.inr h))), horigin.origin]

theorem settles_siteLogoUrl : Settles (orEmpty siteLogoUrl) := by
  refine settles_orEmpty fun written text h _ => ?_
  rw [siteLogoUrl] at h
  split_ifs at h with hlogo
  cases h
  rw [siteLogoUrl, trim_trim, if_pos hlogo]

theorem emailAddress_again {written text : String} (h : emailAddress written = some text) :
    emailAddress text = some text := by
  rw [emailAddress] at h
  split_ifs at h with hempty hemail
  cases h
  rw [emailAddress, trim_trim, if_neg hempty, if_pos hemail]

theorem settles_webhookContentType : Settles normalizeWebhookContentType := by
  intro value text h
  cases hwritten : optionalText value with
  | none => simp [normalizeWebhookContentType, hwritten] at h
  | some written =>
    obtain ⟨chosen, hchosen⟩ : ∃ chosen, chosen = if written = "" then "application/json" else trim written :=
      ⟨_, rfl⟩
    have htrim : trim chosen = chosen := by
      rw [hchosen]
      split_ifs
      · exact trim_eq_self (by decide)
      · exact trim_trim written
    simp only [normalizeWebhookContentType, hwritten, ← hchosen] at h
    split_ifs at h with hwrong hslash
    cases h
    simp only [normalizeWebhookContentType, optionalText, if_neg (not_or.mp hwrong).1, htrim, if_neg hwrong,
      if_pos hslash]

theorem settles_webhookHeadersJson : Settles (orEmpty (webhookHeadersJson rules)) := by
  refine settles_orEmpty fun written text h hne => ?_
  rw [webhookHeadersJson] at h
  split_ifs at h with hempty
  · exact absurd (some.inj h).symm hne
  · have htext : text = trim written := by
      split at h
      · split_ifs at h
        exact (some.inj h).symm
      · cases h
    rw [webhookHeadersJson, htext, trim_trim, if_neg hempty]
    rw [htext] at h
    exact h

theorem isTrimmed_of_word {c : Char} (h : (c.isAlphanum || c == '_' || c == '-') = true) : isTrimmed c = false := by
  have hrange : (48 ≤ c.val.toNat ∧ c.val.toNat ≤ 57) ∨ (65 ≤ c.val.toNat ∧ c.val.toNat ≤ 90) ∨
      (97 ≤ c.val.toNat ∧ c.val.toNat ≤ 122) ∨ c.val.toNat = 95 ∨ c.val.toNat = 45 := by
    simp only [Bool.or_eq_true, beq_iff_eq, Char.isAlphanum, Char.isAlpha, Char.isUpper, Char.isLower,
      Char.isDigit, Bool.and_eq_true, decide_eq_true_eq, ge_iff_le, UInt32.le_iff_toNat_le] at h
    rcases h with (h | rfl) | rfl
    · have hbounds : 'A'.val.toNat = 65 ∧ 'Z'.val.toNat = 90 ∧ 'a'.val.toNat = 97 ∧ 'z'.val.toNat = 122 ∧
        '0'.val.toNat = 48 ∧ '9'.val.toNat = 57 := by decide
      omega
    · decide
    · decide
  rw [isTrimmed]
  simp only [Bool.or_eq_false_iff, Bool.and_eq_false_iff, decide_eq_false_iff_not, beq_eq_false_iff_ne,
    ne_eq, UInt32.le_iff_toNat_le, ← UInt32.toNat_inj, UInt32.reduceToNat]
  omega

theorem settles_activeTheme : Settles (normalizeActiveTheme rules) := by
  intro value text h
  obtain ⟨written, hwritten⟩ : ∃ written, written = ((settingToString rules value).map trim).getD "" := ⟨_, rfl⟩
  simp only [normalizeActiveTheme, ← hwritten] at h
  have hnamed : text ≠ "" ∧ text ≠ "default" ∧
      text.toList.all (fun c => c.isAlphanum || c == '_' || c == '-') = true := by
    by_cases hempty : written = ""
    · simp only [if_pos hempty, ite_self] at h
      rw [if_pos (by decide)] at h
      cases h
      decide
    · simp only [if_neg hempty] at h
      by_cases hdefault : written = "default"
      · simp only [if_pos hdefault] at h
        rw [if_pos (by decide)] at h
        cases h
        decide
      · simp only [if_neg hdefault] at h
        split_ifs at h with hword
        cases h
        exact ⟨hempty, hdefault, hword⟩
  obtain ⟨hne, hdefault, hword⟩ := hnamed
  have htrim : trim text = text :=
    trim_eq_self fun c hc => isTrimmed_of_word (List.all_eq_true.mp hword c hc)
  simp only [normalizeActiveTheme, settingToString, Option.map_some, Option.getD_some, htrim, if_neg hne,
    if_neg hdefault, if_pos hword]

/-! ## Recipients -/

theorem splitOnP_intercalate {p : Char → Bool} {sep : Char} (hsep : p sep = true) :
    ∀ {parts : List (List Char)}, parts ≠ [] → (∀ part ∈ parts, ∀ c ∈ part, p c = false) →
      ([sep].intercalate parts).splitOnP p = parts := by
  intro parts
  induction parts with
  | nil => exact fun h => absurd rfl h
  | cons part rest ih =>
    intro _ hparts
    have hpart : ∀ c ∈ part, p c = false := hparts part List.mem_cons_self
    cases rest with
    | nil => simpa [List.intercalate] using List.splitOnP_eq_singleton hpart
    | cons next rest =>
      have hrest := ih (List.cons_ne_nil _ _) fun part' hpart' => hparts part' (List.mem_cons_of_mem _ hpart')
      rw [show [sep].intercalate (part :: next :: rest) = part ++ sep :: [sep].intercalate (next :: rest) by
        simp [List.intercalate, List.intersperse], List.splitOnP_append_cons_of_forall_mem hpart sep hsep, hrest]

theorem distinct_distinct (items : List String) : distinct (distinct items) = distinct items := by
  rw [distinct, distinct, List.reverse_reverse, List.dedup_idem]

theorem mem_distinct {item : String} {items : List String} : item ∈ distinct items ↔ item ∈ items := by
  rw [distinct, List.mem_reverse, List.mem_dedup, List.mem_reverse]

theorem length_distinct (items : List String) : (distinct items).length ≤ items.length := by
  have hlength := (List.dedup_sublist items.reverse).length_le
  rw [List.length_reverse] at hlength
  rwa [distinct, List.length_reverse]

/-- An item of a list of recipients, as the normalisation leaves it. -/
structure Recipient (item : String) : Prop where
  nonempty : item ≠ ""
  trimmed : trim item = item
  plain : ∀ c ∈ item.toList, isRecipientSeparator c = false
  address : (emailAddress item).isSome = true

theorem recipients_joined {items : List String} (hne : items ≠ []) (h : ∀ item ∈ items, Recipient item) :
    (((",".intercalate items).toList.splitOnP isRecipientSeparator).map
      fun item => trim (String.ofList item)).filter (fun item => decide (item ≠ "")) = items := by
  rw [String.toList_intercalate, show ",".toList = [','] from rfl,
    splitOnP_intercalate (by decide) (by simpa using hne) (by
      intro part hpart c hc
      obtain ⟨item, hitem, rfl⟩ := List.mem_map.mp hpart
      exact (h item hitem).plain c hc), List.map_map]
  have hmap : items.map ((fun item => trim (String.ofList item)) ∘ String.toList) = items := by
    conv_rhs => rw [← List.map_id items]
    exact List.map_congr_left fun item hitem =>
      (congrArg trim String.ofList_toList).trans (h item hitem).trimmed
  rw [hmap]
  exact List.filter_eq_self.mpr fun item hitem => decide_eq_true (h item hitem).nonempty

theorem emailRecipients_again {written text : String} (h : emailRecipients written = some text)
    (hlen : units text ≤ 4000) : emailRecipients text = some text := by
  obtain ⟨recipients, hrecipients⟩ : ∃ recipients, recipients =
      ((written.toList.splitOnP isRecipientSeparator).map fun item => trim (String.ofList item)).filter
        fun item => decide (item ≠ "") := ⟨_, rfl⟩
  simp only [emailRecipients, ← hrecipients] at h
  split_ifs at h with hlong hcount hinvalid
  cases h
  obtain ⟨hsome, hmany⟩ := not_or.mp hcount
  have hitem : ∀ item ∈ distinct recipients, Recipient item := by
    intro item hitem
    have hmem : item ∈ recipients := mem_distinct.mp hitem
    have haddress : (emailAddress item).isSome = true := by
      by_contra hnone
      exact hinvalid (List.any_eq_true.mpr ⟨item, hmem, by simpa using hnone⟩)
    rw [hrecipients] at hmem
    obtain ⟨hmem, hne⟩ := List.mem_filter.mp hmem
    obtain ⟨part, hpart, rfl⟩ := List.mem_map.mp hmem
    refine ⟨of_decide_eq_true hne, trim_trim _, fun c hc => ?_, haddress⟩
    refine splitOnP_free hpart c ?_
    have hpart := (trim_part (String.ofList part)).subset hc
    rwa [String.toList_ofList] at hpart
  have hne : distinct recipients ≠ [] := by
    obtain ⟨item, hitem⟩ := List.exists_mem_of_ne_nil _ hsome
    exact List.ne_nil_of_mem (mem_distinct.mpr hitem)
  have hvalid : ¬ (distinct recipients).any (fun item => (emailAddress item).isNone) = true := by
    intro hany
    obtain ⟨item, hmem, hnone⟩ := List.any_eq_true.mp hany
    have hsome := (hitem item hmem).address
    simp [Option.isNone_iff_eq_none.mp hnone] at hsome
  have hcount : ¬ (distinct recipients = [] ∨ 20 < (distinct recipients).length) := by
    have hlength := length_distinct recipients
    rintro (h | h)
    · exact hne h
    · omega
  simp only [emailRecipients, recipients_joined hne hitem]
  rw [if_neg (by omega), if_neg hcount, if_neg hvalid, distinct_distinct]

/-! ## Values -/

theorem settles_emailAddress : Settles (orEmpty emailAddress) :=
  settles_orEmpty fun _ _ h _ => emailAddress_again h

theorem settles_smtpHost (hlaw : rules.Lawful) : Settles (normalizeSmtpHost rules) :=
  settles_orEmpty fun _ _ h _ => smtpHost_again hlaw h

theorem normalizeString_again (hlaw : rules.Lawful) {key : String} (hkey : key ≠ "update_repository_url")
    {value : Json} {text : String} (h : normalizeString rules key value = some text)
    (hlen : key = "email_smtp_recipients" → units text ≤ 4000) :
    normalizeString rules key (.str text) = some text := by
  simp only [normalizeString] at h ⊢
  split_ifs at h ⊢ with _ _ _ _ hrecipients
  · exact settles_scriptDomain hlaw value text h
  · exact settles_siteLogoUrl value text h
  · exact settles_smtpHost hlaw value text h
  · exact settles_emailAddress value text h
  · by_cases hempty : text = ""
    · rw [hempty]
      rfl
    · rw [orEmpty, optionalText, Option.bind_some, if_neg hempty]
      rw [orEmpty, Option.bind_eq_some_iff] at h
      obtain ⟨written, -, h⟩ := h
      split_ifs at h
      · exact absurd (some.inj h).symm hempty
      · exact emailRecipients_again h (hlen hrecipients)
  · exact settles_webhookContentType value text h
  · exact settles_webhookHeadersJson value text h
  · exact settles_activeTheme value text h
  · rfl

variable {selfHost : Option String}

theorem webhookUrl_again (hlaw : rules.Lawful) {value : Json} {text : String}
    (h : normalizeWebhookUrlForWrite rules value selfHost = .ok text) :
    normalizeWebhookUrlForWrite rules (.str text) none = .ok text := by
  rw [normalizeWebhookUrlForWrite] at h
  split at h
  · simp at h
  · split_ifs at h with hempty
    · cases h
      rfl
    · split at h
      · rename_i w hw
        cases h
        rw [normalizeWebhookUrlForWrite, optionalText]
        dsimp only
        split_ifs with hurl
        · rw [hurl]
        · rw [validateWebhookUrl_again hlaw hw]
      · simp at h
      · simp at h

theorem orInvalid_ok {key : String} {normalized : Option String} {text : String} :
    orInvalid key normalized = .ok text ↔ normalized = some text := by
  cases normalized <;> simp [orInvalid]

/-- What the schema promises of a definition. -/
def SettingDefinition.Sound (d : SettingDefinition) : Prop :=
  d.key ∉ REMOVED_SETTING_KEYS ∧ ¬ (d.key = "email_smtp_port" ∧ d.defaultValue = "25") ∧
  match d.type with
  | .string default maxLength =>
    units default ≤ maxLength ∧ (d.key = "email_smtp_recipients" → maxLength ≤ 4000) ∧
    (d.key ∈ ["script_domain", "site_logo_url", "update_repository_url", "email_smtp_host",
      "email_smtp_from_address", "email_smtp_recipients", "webhook_url", "webhook_headers_json"] → default = "") ∧
    (d.key = "webhook_content_type" → default = "application/json") ∧ (d.key = "active_theme" → default = "monitor")
  | .boolean _ => True
  | .integer default min max => min ≤ default ∧ default ≤ max ∧ -maxSafeInteger ≤ min ∧ max ≤ maxSafeInteger
  | .enum default values => default ≠ "" ∧ default ∈ values

instance (d : SettingDefinition) : Decidable d.Sound := by
  unfold SettingDefinition.Sound
  cases d.type <;> infer_instance

theorem schema_sound : ∀ d ∈ SETTING_SCHEMA, d.Sound := by decide +kernel

theorem definitionOf_key : ∀ d ∈ SETTING_SCHEMA, definitionOf d.key = some d := by decide +kernel

variable {d : SettingDefinition}

theorem definitionOf_some {key : String} (h : definitionOf key = some d) : d ∈ SETTING_SCHEMA ∧ d.key = key :=
  ⟨List.mem_of_find?_eq_some h, by simpa using List.find?_some h⟩

theorem SettingDefinition.normalize_again (hlaw : rules.Lawful) (hsound : d.Sound)
    (hkey : d.key ≠ "update_repository_url") {value : Json} {text : String}
    (h : d.normalize rules value selfHost = .ok text) (hcheck : d.check text = .ok text) :
    d.normalize rules (.str text) none = .ok text := by
  obtain ⟨-, -, hsound⟩ := hsound
  rw [SettingDefinition.normalize] at h ⊢
  cases htype : d.type with
  | string default maxLength =>
    simp only [htype] at h hsound ⊢
    split_ifs at h ⊢ with hwebhook
    · exact webhookUrl_again hlaw h
    · rw [orInvalid_ok] at h ⊢
      refine normalizeString_again hlaw hkey h fun hrecipients => ?_
      have hmax := hsound.2.1 hrecipients
      rw [SettingDefinition.check, if_neg (by simp [hrecipients])] at hcheck
      simp only [htype] at hcheck
      split_ifs at hcheck
      omega
  | boolean default =>
    simp only [htype] at h ⊢
    rw [orInvalid_ok] at h ⊢
    exact settles_boolean hlaw value text h
  | integer default min max =>
    simp only [htype] at h hsound ⊢
    rw [orInvalid_ok] at h ⊢
    exact settles_integer hlaw hsound.1 hsound.2.1 hsound.2.2.1 hsound.2.2.2 value text h
  | enum default values =>
    simp only [htype] at h ⊢
    rw [orInvalid_ok] at h ⊢
    rw [Option.filter_eq_some_iff] at h
    exact Option.filter_eq_some_iff.mpr ⟨rfl, h.2⟩

theorem SettingDefinition.check_ok {text checked : String} (h : d.check text = .ok checked) :
    checked = text := by
  rw [SettingDefinition.check] at h
  split_ifs at h
  cases htype : d.type <;> simp only [htype] at h
  · split_ifs at h
    exact (Except.ok.inj h).symm
  all_goals exact (Except.ok.inj h).symm

theorem normalizeSettingValue_ok {key text : String} {value : Json} :
    normalizeSettingValue rules key value selfHost = .ok text ↔
      ∃ d, definitionOf key = some d ∧ d.normalize rules value selfHost = .ok text ∧ d.check text = .ok text := by
  rw [normalizeSettingValue]
  cases hd : definitionOf key with
  | none => simp
  | some d =>
    simp only [some.injEq, exists_eq_left']
    cases hnormal : d.normalize rules value selfHost with
    | error e => simp [Except.bind]
    | ok normalized =>
      rw [Except.bind]
      constructor
      · intro h
        obtain rfl := SettingDefinition.check_ok h
        exact ⟨rfl, h⟩
      · rintro ⟨hsame, h⟩
        cases hsame
        exact h

/-- **What was normalised once is normal.** -/
theorem normalizeSettingValue_again (hlaw : rules.Lawful) {key text : String} {value : Json}
    (hkey : key ≠ "update_repository_url")
    (h : normalizeSettingValue rules key value selfHost = .ok text) :
    normalizeSettingValue rules key (.str text) none = .ok text := by
  obtain ⟨d, hd, hnormal, hcheck⟩ := normalizeSettingValue_ok.mp h
  obtain ⟨hmem, hdkey⟩ := definitionOf_some hd
  exact normalizeSettingValue_ok.mpr
    ⟨d, hd, d.normalize_again hlaw (schema_sound d hmem) (by rwa [hdkey]) hnormal hcheck, hcheck⟩

theorem SettingDefinition.normalize_default (hlaw : rules.Lawful) (hsound : d.Sound) :
    d.normalize rules (.str d.defaultValue) none = .ok d.defaultValue := by
  obtain ⟨-, -, hsound⟩ := hsound
  rw [SettingDefinition.normalize, SettingDefinition.defaultValue]
  cases htype : d.type with
  | string default maxLength =>
    simp only [htype] at hsound ⊢
    obtain ⟨-, -, hempty, hcontent, htheme⟩ := hsound
    by_cases hspecial : d.key ∈ ["script_domain", "site_logo_url", "update_repository_url", "email_smtp_host",
      "email_smtp_from_address", "email_smtp_recipients", "webhook_url", "webhook_headers_json"]
    · have hordinary : d.key ≠ "webhook_content_type" ∧ d.key ≠ "active_theme" := by
        constructor <;> intro hkey <;> rw [hkey] at hspecial <;> revert hspecial <;> decide
      rw [hempty hspecial]
      split_ifs
      · rfl
      · rw [orInvalid_ok, normalizeString, if_neg hordinary.1, if_neg hordinary.2]
        split_ifs
        all_goals rfl
    · simp only [List.mem_cons, List.not_mem_nil, or_false, not_or] at hspecial
      obtain ⟨h₁, h₂, h₃, h₄, h₅, h₆, h₇, h₈⟩ := hspecial
      rw [if_neg h₇, orInvalid_ok, normalizeString, if_neg h₁, if_neg h₂, if_neg h₃, if_neg h₄, if_neg h₅, if_neg h₆]
      by_cases hkey : d.key = "webhook_content_type"
      · rw [if_pos hkey, hcontent hkey]
        exact settles_webhookContentType .null _ rfl
      · rw [if_neg hkey, if_neg h₈]
        split_ifs with hactive
        · rw [htheme hactive]
          refine settles_activeTheme .null _ ?_
          simp only [normalizeActiveTheme, settingToString, Option.map_none, Option.getD_none, if_true]
          decide
        · rfl
  | boolean default => exact orInvalid_ok.mpr (normalizeBoolean_text hlaw default)
  | integer default min max =>
    simp only [htype] at hsound
    exact orInvalid_ok.mpr (normalizeInteger_toString hlaw hsound.1 hsound.2.1 hsound.2.2.1 hsound.2.2.2)
  | enum default values =>
    simp only [htype] at hsound
    exact orInvalid_ok.mpr (Option.filter_eq_some_iff.mpr ⟨rfl, decide_eq_true hsound⟩)

/-- **The defaults** are normal. -/
theorem normalizeSettingValue_default (hlaw : rules.Lawful) (hmem : d ∈ SETTING_SCHEMA) :
    normalizeSettingValue rules d.key (.str d.defaultValue) none = .ok d.defaultValue := by
  have hsound := schema_sound d hmem
  refine normalizeSettingValue_ok.mpr ⟨d, definitionOf_key d hmem, d.normalize_default hlaw hsound, ?_⟩
  obtain ⟨-, hport, hsound⟩ := hsound
  rw [SettingDefinition.check, if_neg hport]
  cases htype : d.type with
  | string default maxLength =>
    simp only [htype] at hsound
    have hvalue : d.defaultValue = default := by rw [SettingDefinition.defaultValue, htype]
    rw [hvalue]
    exact if_neg (by omega)
  | boolean default => rfl
  | integer default min max => rfl
  | enum default values => rfl

/-! ## Reading -/

theorem sanitize_passes : ∀ {fields : Fields},
    (∀ p ∈ fields, ∃ text, normalizeSettingValue rules p.1 p.2 selfHost = .ok text) → ∀ done : Sanitized,
      (fields.foldl (sanitizeEntry rules selfHost) done).errors = done.errors := by
  intro fields
  induction fields with
  | nil => exact fun _ _ => rfl
  | cons p rest ih =>
    intro h done
    obtain ⟨text, htext⟩ := h p List.mem_cons_self
    rw [List.foldl_cons, ih fun q hq => h q (List.mem_cons_of_mem _ hq)]
    rw [sanitizeEntry]
    split_ifs
    · rfl
    · rw [htext]

/-- The settings as an object. -/
def settingsJson (settings : List (String × String)) : Json := .obj (settings.map fun p => (p.1, .str p.2))

end CfMonitor.Backup
