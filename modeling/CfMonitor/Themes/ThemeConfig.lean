/-
  Is validation of a theme's configuration stable?

  1. **Runs** — the value that a key ends up with (`finalValue`), from the items that have the key.

  2. **Condition** (`DefaultsFit`) — the default of a key is what its item makes of it, and items with the
     same key accept what the last of them makes of a value.

  3. **Result** — then and only then is validation stable (`theme_config_stable_iff`).
-/
import CfMonitor.Themes.ThemePackage

namespace CfMonitor.Themes

open CfMonitor.Lib CfMonitor.Lib.Fallible CfMonitor.Backup CfMonitor.Live
open Assoc (get? get?_set)

/-! ## Values -/

/-- The item of a key: the last one that has it. -/
def itemOf (entries : List (String × ThemeConfigItem)) (key : String) : Option ThemeConfigItem := Assoc.get? entries.reverse key

/-- The default of a key: that of the last of its items that have one. -/
def defaultOf (entries : List (String × ThemeConfigItem)) (key : String) : Option Json :=
  Assoc.get? (entries.filterMap fun entry => entry.2.default.map (entry.1, ·)).reverse key

section

variable (rules : ThemeRules)

/-- The type and the bounds of an item, in the form that validation gives. -/
def Conforms (item : ThemeConfigItem) (value : Json) : Prop :=
  match item.type with
  | .switch => ∃ b, value = .bool b
  | .number | .range => ∃ x, value = .num (.finite x) ∧ (∀ a ∈ item.min, a ≤ x) ∧ ∀ b ∈ item.max, x ≤ b
  | .color => ∃ text, value = .str text ∧ isHexColor text.toList = true
  | .select => ∃ text, value = .str text ∧ (optionsOf item.options ≠ [] → text ∈ optionsOf item.options)
  | .image => ∃ text, value = .str text ∧ trim text = text ∧ isSafeImageConfigValue rules text = true
  | .title | .string | .richtext => ∃ text, value = .str text

/-- Every item of a key accepts a value. -/
def AllAccept (entries : List (String × ThemeConfigItem)) (key : String) (value : Json) : Prop :=
  ∀ entry ∈ entries, entry.1 = key → ∃ w, configValue rules key entry.2 value = .ok w

/-- The value of a key in a configuration. -/
def finalValue (entries : List (String × ThemeConfigItem)) (input : Fields) (key : String) : Option Json :=
  match property rules input key with
  | none => defaultOf entries key
  | some value => (itemOf entries key).bind fun item => (configValue rules key item value).toOption

end

section

variable {rules : ThemeRules} {entries : List (String × ThemeConfigItem)} {input config : Fields} {key : String}

theorem hexDigit_untrimmed {c : Char} (h : isHexDigit c = true) : isTrimmed c = false := by
  simp only [isHexDigit, isLowerHexDigit, Char.isDigit, Bool.or_eq_true, Bool.and_eq_true, decide_eq_true_eq,
    Char.le_def, UInt32.le_iff_toNat_le] at h
  simp only [isTrimmed, Bool.or_eq_false_iff, Bool.and_eq_false_iff, decide_eq_false_iff_not, beq_eq_false_iff_ne, ne_eq,
    UInt32.le_iff_toNat_le, ← UInt32.toNat_inj]
  simp at h ⊢
  omega

theorem trim_hexColor {text : String} (h : isHexColor text.toList = true) : trim text = text := by
  refine trim_eq_self fun c hc => ?_
  unfold isHexColor at h
  split at h
  · rename_i digits hdigits
    rw [hdigits] at hc
    rcases List.mem_cons.mp hc with rfl | hc
    · rfl
    · exact hexDigit_untrimmed (List.all_eq_true.mp (Bool.and_eq_true_iff.mp h).2 c hc)
  · exact absurd h Bool.false_ne_true

/-- **What an item makes of a value** is in its form. -/
theorem configValue_conforms {item : ThemeConfigItem} {value w : Json} (h : configValue rules key item value = .ok w) :
    Conforms rules item w := by
  unfold configValue at h
  unfold Conforms
  obtain ⟨type, name, _, _, options, min, max, _, _⟩ := item
  cases type with
  | switch =>
    cases h
    exact ⟨_, rfl⟩
  | number | range =>
    dsimp only at h ⊢
    cases hx : rules.toFinite (some value) with
    | none =>
      rw [hx] at h
      cases h
    | some x =>
      rw [hx] at h
      dsimp only at h
      split_ifs at h with hbounds
      cases h
      refine ⟨x, rfl, fun a ha => ?_, fun b hb => ?_⟩
      · exact not_lt.mp fun hlt => hbounds (.inl ⟨a, ha, hlt⟩)
      · exact not_lt.mp fun hlt => hbounds (.inr ⟨b, hb, hlt⟩)
  | color =>
    dsimp only at h ⊢
    split_ifs at h with hcolor
    cases h
    exact ⟨_, rfl, hcolor⟩
  | select =>
    dsimp only at h ⊢
    split_ifs at h with hoptions
    cases h
    exact ⟨_, rfl, fun hne => not_not.mp fun hnot => hoptions ⟨hne, hnot⟩⟩
  | image =>
    dsimp only at h ⊢
    split_ifs at h with himage
    cases h
    exact ⟨_, rfl, trim_trim _, himage⟩
  | title | string | richtext =>
    cases h
    exact ⟨_, rfl⟩

/-- What is in the form of an item is left as it is. -/
theorem configValue_self {item : ThemeConfigItem} {value : Json} (h : Conforms rules item value) :
    configValue rules key item value = .ok value := by
  have htext : ∀ text, textOf rules.toBackupRules (.str text) = text := fun _ => rfl
  unfold Conforms at h
  unfold configValue
  obtain ⟨type, name, _, _, options, min, max, _, _⟩ := item
  cases type with
  | switch =>
    obtain ⟨b, rfl⟩ := h
    rfl
  | number | range =>
    obtain ⟨x, rfl, hmin, hmax⟩ := h
    refine if_neg ?_
    rintro (⟨a, ha, hlt⟩ | ⟨b, hb, hlt⟩)
    · exact not_lt.mpr (hmin a ha) hlt
    · exact not_lt.mpr (hmax b hb) hlt
  | color =>
    obtain ⟨text, rfl, hcolor⟩ := h
    dsimp only
    rw [htext, trim_hexColor hcolor, if_pos hcolor]
  | select =>
    obtain ⟨text, rfl, hoptions⟩ := h
    dsimp only
    rw [htext, if_neg fun hnot => hnot.2 (hoptions hnot.1)]
  | image =>
    obtain ⟨text, rfl, htrim, himage⟩ := h
    dsimp only
    rw [htext, htrim, if_pos himage]
  | title | string | richtext =>
    obtain ⟨text, rfl⟩ := h
    rfl

/-! ## Runs -/

theorem itemOf_concat (entry : String × ThemeConfigItem) :
    itemOf (entries ++ [entry]) key = if key = entry.1 then some entry.2 else itemOf entries key := by
  rw [itemOf, List.reverse_append, List.reverse_singleton, List.singleton_append, get?]
  rfl

theorem defaultOf_concat (entry : String × ThemeConfigItem) : defaultOf (entries ++ [entry]) key =
    if key = entry.1 then entry.2.default.or (defaultOf entries key) else defaultOf entries key := by
  rw [defaultOf, List.filterMap_append, List.reverse_append]
  obtain ⟨name, item⟩ := entry
  cases hdefault : item.default with
  | none => simp [hdefault, defaultOf]
  | some value => simp [hdefault, defaultOf, get?]

theorem itemOf_isSome : (itemOf entries key).isSome ↔ key ∈ Assoc.keys entries := by
  rw [itemOf, Assoc.get?_isSome, Assoc.keys, Assoc.keys, List.map_reverse, List.mem_reverse]

theorem itemOf_of_default {value : Json} (h : defaultOf entries key = some value) : ∃ item, itemOf entries key = some item := by
  rw [← Option.isSome_iff_exists, itemOf_isSome]
  have hmem := Assoc.mem_of_get? h
  rw [List.mem_reverse, List.mem_filterMap] at hmem
  obtain ⟨entry, hentry, hvalue⟩ := hmem
  obtain ⟨_, -, hpair⟩ := Option.map_eq_some_iff.mp hvalue
  have hkey : entry.1 = key := congrArg Prod.fst hpair
  rw [← hkey]
  exact List.mem_map_of_mem hentry

theorem itemOf_mem {item : ThemeConfigItem} (h : itemOf entries key = some item) : (key, item) ∈ entries :=
  List.mem_reverse.mp (Assoc.mem_of_get? h)

/-- **The loop** succeeds if every item accepts the value of its key. -/
theorem configRun_some (haccept : ∀ key value, property rules input key = some value → AllAccept rules entries key value) :
    ∃ config, entries.foldlM (configStep rules input) [] = .ok config := by
  induction entries using List.reverseRecOn with
  | nil => exact ⟨[], rfl⟩
  | append_singleton entries entry ih =>
    obtain ⟨config, hconfig⟩ := ih fun key value hvalue e he => haccept key value hvalue e (List.mem_append_left _ he)
    cases hvalue : property rules input entry.1 with
    | none =>
      cases hdefault : entry.2.default with
      | none => exact ⟨config, foldlM_concat.mpr ⟨config, hconfig, by rw [configStep, hvalue, hdefault]⟩⟩
      | some value =>
        exact ⟨Assoc.set config entry.1 value, foldlM_concat.mpr ⟨config, hconfig, by rw [configStep, hvalue, hdefault]⟩⟩
    | some value =>
      obtain ⟨w, hw⟩ := haccept _ value hvalue entry (List.mem_append_right _ List.mem_cons_self) rfl
      refine ⟨Assoc.set config entry.1 w, foldlM_concat.mpr ⟨config, hconfig, ?_⟩⟩
      rw [configStep, hvalue]
      exact map_eq_ok.mpr ⟨w, hw, rfl⟩

/-- And then every key has its value. -/
theorem configRun_spec (h : entries.foldlM (configStep rules input) [] = .ok config) :
    (∀ key value, property rules input key = some value → AllAccept rules entries key value) ∧
    ∀ key, get? config key = finalValue rules entries input key := by
  induction entries using List.reverseRecOn generalizing config with
  | nil =>
    cases h
    refine ⟨fun _ _ _ _ hmem => (nomatch hmem), fun key => ?_⟩
    rw [finalValue]
    cases property rules input key <;> rfl
  | append_singleton entries entry ih =>
    obtain ⟨before, hbefore, hstep⟩ := foldlM_concat.mp h
    obtain ⟨haccept, hvalues⟩ := ih hbefore
    rw [configStep] at hstep
    cases hvalue : property rules input entry.1 with
    | none =>
      rw [hvalue] at hstep
      dsimp only at hstep
      refine ⟨fun key value hkey e he heq => ?_, fun key => ?_⟩
      · rcases List.mem_append.mp he with he | he
        · exact haccept key value hkey e he heq
        · rw [← heq, List.mem_singleton.mp he, hvalue] at hkey
          cases hkey
      · rw [finalValue]
        by_cases hkey : key = entry.1
        · rw [hkey, hvalue, defaultOf_concat, if_pos rfl]
          have hold := hvalues entry.1
          rw [finalValue, hvalue] at hold
          cases hdefault : entry.2.default with
          | none =>
            rw [hdefault] at hstep
            rw [← Except.ok.inj hstep, hold]
            rfl
          | some value =>
            rw [hdefault] at hstep
            rw [← Except.ok.inj hstep, get?_set, if_pos rfl]
            rfl
        · have hold := hvalues key
          rw [finalValue] at hold
          rw [defaultOf_concat, itemOf_concat, if_neg hkey, if_neg hkey, ← hold]
          cases hdefault : entry.2.default with
          | none =>
            rw [hdefault] at hstep
            rw [← Except.ok.inj hstep]
          | some value =>
            rw [hdefault] at hstep
            rw [← Except.ok.inj hstep, get?_set, if_neg hkey]
    | some value =>
      rw [hvalue] at hstep
      obtain ⟨w, hw, hset⟩ := map_eq_ok.mp hstep
      refine ⟨fun key value' hkey e he heq => ?_, fun key => ?_⟩
      · rcases List.mem_append.mp he with he | he
        · exact haccept key value' hkey e he heq
        · rw [← heq, List.mem_singleton.mp he, hvalue] at hkey
          rw [← heq, List.mem_singleton.mp he, ← Option.some.inj hkey]
          exact ⟨w, hw⟩
      · rw [← hset, get?_set, finalValue, defaultOf_concat, itemOf_concat]
        by_cases hkey : key = entry.1
        · rw [if_pos hkey, hkey, hvalue, if_pos rfl]
          dsimp only
          rw [if_pos rfl, Option.bind_some, hw]
          rfl
        · rw [if_neg hkey, if_neg hkey, if_neg hkey, hvalues key, finalValue]

theorem finalValue_own {value : Json} {item : ThemeConfigItem} (hvalue : property rules input key = some value)
    (hitem : itemOf entries key = some item) :
    finalValue rules entries input key = (configValue rules key item value).toOption := by
  rw [finalValue, hvalue]
  dsimp only
  rw [hitem, Option.bind_some]

theorem finalValue_default (hvalue : property rules input key = none) :
    finalValue rules entries input key = defaultOf entries key := by
  rw [finalValue, hvalue]

theorem itemOf_of_finalValue {value : Json} (h : finalValue rules entries input key = some value) :
    ∃ item, itemOf entries key = some item := by
  rw [finalValue] at h
  split at h
  · exact itemOf_of_default h
  · obtain ⟨item, hitem, -⟩ := Option.bind_eq_some_iff.mp h
    exact ⟨item, hitem⟩

theorem AllAccept.item {value : Json} {item : ThemeConfigItem} (h : AllAccept rules entries key value)
    (hitem : itemOf entries key = some item) : ∃ w, configValue rules key item value = .ok w :=
  h _ (itemOf_mem hitem) rfl

theorem configOf_eq_ok : configOf rules entries input = .ok config ↔
    (∀ key ∈ Assoc.keys input, key ∈ Assoc.keys entries) ∧ entries.foldlM (configStep rules input) [] = .ok config := by
  rw [configOf]
  cases hfind : (Assoc.keys input).find? fun key => key ∉ Assoc.keys entries with
  | none =>
    have hknown : ∀ key ∈ Assoc.keys input, key ∈ Assoc.keys entries := by
      intro key hkey
      have hnot := List.find?_eq_none.mp hfind key hkey
      simpa using hnot
    exact ⟨fun h => ⟨hknown, h⟩, fun h => h.2⟩
  | some key =>
    have hmem := List.mem_of_find?_eq_some hfind
    have hnot : key ∉ Assoc.keys entries := by simpa using List.find?_some hfind
    exact ⟨fun h => (nomatch h), fun h => absurd (h.1 key hmem) hnot⟩

theorem configOf_known (h : configOf rules entries input = .ok config) :
    ∀ key ∈ Assoc.keys config, key ∈ Assoc.keys entries := by
  intro key hkey
  obtain ⟨value, hvalue⟩ := Option.isSome_iff_exists.mp (Assoc.get?_isSome.mpr hkey)
  rw [(configRun_spec (configOf_eq_ok.mp h).2).2] at hvalue
  rw [← itemOf_isSome]
  exact Option.isSome_iff_exists.mpr (itemOf_of_finalValue hvalue)

theorem get?_defaults (entries : List (String × ThemeConfigItem)) :
    get? (entries.foldl (fun config entry => match entry.2.default with
      | some value => Assoc.set config entry.1 value
      | none => config) []) key = defaultOf entries key := by
  induction entries using List.reverseRecOn with
  | nil => rfl
  | append_singleton entries entry ih =>
    rw [List.foldl_append, List.foldl_cons, List.foldl_nil, defaultOf_concat]
    cases entry.2.default with
    | none =>
      rw [Option.none_or, ite_self]
      exact ih
    | some value =>
      dsimp only
      rw [get?_set, ih]
      rfl

end

/-! ## Packages -/

section

variable {rules : ThemeRules}

/-- **A package that is accepted** has a manifest that can be read again, and the defaults are validated. -/
theorem parseThemeZip_ok {zip : List UInt8} {package : ParsedThemePackage} (h : parseThemeZip rules zip = .ok package) :
    (∀ config, validateThemeConfig rules package.manifest.object config =
      .ok (configOf rules (keyedItems package.manifest.items) ((Json.obj? config).getD []))) ∧
    configOf rules (keyedItems package.manifest.items) (defaultConfigForManifest package.manifest) = .ok package.config := by
  obtain ⟨_, -, h⟩ := bind_eq_ok.mp h
  obtain ⟨entries, -, h⟩ := bind_eq_ok.mp h
  split at h
  · cases h
  · split at h
    · cases h
    · rename_i value _
      obtain ⟨manifest, hmanifest, h⟩ := bind_eq_ok.mp h
      obtain ⟨_, -, h⟩ := bind_eq_ok.mp h
      split at h
      · cases h
      · obtain ⟨_, -, h⟩ := bind_eq_ok.mp h
        obtain ⟨_, -, h⟩ := bind_eq_ok.mp h
        obtain ⟨answer, hanswer, h⟩ := bind_eq_ok.mp h
        cases answer with
        | error error => cases h
        | ok config =>
          obtain ⟨assets, -, h⟩ := bind_eq_ok.mp h
          cases h
          obtain ⟨again, hagain, -⟩ := bind_eq_ok.mp hanswer
          have hvalidate := validateThemeConfig_eq hmanifest hagain
          rw [hvalidate] at hanswer
          exact ⟨hvalidate, Except.ok.inj hanswer⟩

/-- The values of two configurations are the same. -/
def SameConfig (a b : Fields) : Prop := ∀ key, Assoc.get? a key = Assoc.get? b key

/-- **Stability**: what validation gives is given again, `{}` gives what the defaults give, which is what was
    installed, and each value has the type and the bounds of its item. -/
structure ConfigStable (rules : ThemeRules) (package : ParsedThemePackage) : Prop where
  again : ∀ c r, validateThemeConfig rules package.manifest.object c = .ok (.ok r) →
    ∃ r', validateThemeConfig rules package.manifest.object (.obj r) = .ok (.ok r') ∧ SameConfig r' r
  reset : ∃ r r', validateThemeConfig rules package.manifest.object (.obj []) = .ok (.ok r) ∧
    validateThemeConfig rules package.manifest.object (.obj (defaultConfigForManifest package.manifest)) = .ok (.ok r') ∧
    SameConfig r r' ∧ SameConfig r package.config
  conforms : ∀ c r key value, validateThemeConfig rules package.manifest.object c = .ok (.ok r) → Assoc.get? r key = some value →
    ∃ item, itemOf (keyedItems package.manifest.items) key = some item ∧ Conforms rules item value

/-- **The condition**: a default has the form of its item. A key that every object inherits has a method for
    its value, which its items have to accept, and its default stands for the same. Items that share a key
    accept what the last of them makes of a value that they all accept. -/
structure DefaultsFit (rules : ThemeRules) (entries : List (String × ThemeConfigItem)) : Prop where
  normal : ∀ key item value, inherited rules key = none → itemOf entries key = some item → defaultOf entries key = some value →
    Conforms rules item value
  inherited : ∀ key method, inherited rules key = some method → AllAccept rules entries key method ∧
    ∀ item value, itemOf entries key = some item → defaultOf entries key = some value →
      configValue rules key item value = configValue rules key item method
  shared : ∀ key item value w, itemOf entries key = some item → AllAccept rules entries key value →
    configValue rules key item value = .ok w → AllAccept rules entries key w

theorem property_nil (key : String) : property rules [] key = inherited rules key := rfl

theorem property_own {input : Fields} {key : String} {value : Json} (h : get? input key = some value) :
    property rules input key = some value := by
  rw [property, h, Option.some_or]

theorem property_none {input : Fields} {key : String} (h : get? input key = none) :
    property rules input key = inherited rules key := by
  rw [property, h, Option.none_or]

theorem inherited_none {input : Fields} {key : String} (h : property rules input key = none) : inherited rules key = none :=
  (Option.or_eq_none_iff.mp h).2

section

variable {entries : List (String × ThemeConfigItem)} {input config : Fields} {key : String}

theorem finalValue_of_no_item (h : itemOf entries key = none) : finalValue rules entries input key = none := by
  cases hvalue : finalValue rules entries input key with
  | none => rfl
  | some value =>
    obtain ⟨item, hitem⟩ := itemOf_of_finalValue hvalue
    rw [h] at hitem
    cases hitem

theorem finalValue_accepted {value : Json} {item : ThemeConfigItem} (hvalue : property rules input key = some value)
    (haccept : AllAccept rules entries key value) (hitem : itemOf entries key = some item) :
    ∃ w, configValue rules key item value = .ok w ∧ finalValue rules entries input key = some w := by
  obtain ⟨w, hw⟩ := haccept.item hitem
  refine ⟨w, hw, ?_⟩
  rw [finalValue_own hvalue hitem, hw]
  rfl

/-- The defaults that a package is accepted with. -/
structure Accepted (rules : ThemeRules) (entries : List (String × ThemeConfigItem)) (defaults installed : Fields) : Prop where
  values : ∀ key, Assoc.get? defaults key = defaultOf entries key
  accepted : configOf rules entries defaults = .ok installed

variable {defaults installed : Fields}

theorem Accepted.default {value : Json} (h : Accepted rules entries defaults installed) (hvalue : defaultOf entries key = some value) :
    property rules defaults key = some value := property_own ((h.values key).trans hvalue)

theorem Accepted.allAccept {value : Json} (h : Accepted rules entries defaults installed)
    (hvalue : property rules defaults key = some value) : AllAccept rules entries key value :=
  (configRun_spec (configOf_eq_ok.mp h.accepted).2).1 key value hvalue

theorem DefaultsFit.kept {value : Json} (hfit : DefaultsFit rules entries) (hdefaults : Accepted rules entries defaults installed)
    (h : configOf rules entries input = .ok config) (hvalue : get? config key = some value) :
    ∃ item, itemOf entries key = some item ∧ configValue rules key item value = .ok value ∧ AllAccept rules entries key value := by
  obtain ⟨haccept, hvalues⟩ := configRun_spec (configOf_eq_ok.mp h).2
  rw [hvalues key] at hvalue
  obtain ⟨item, hitem⟩ := itemOf_of_finalValue hvalue
  refine ⟨item, hitem, ?_⟩
  cases hgiven : property rules input key with
  | none =>
    rw [finalValue_default hgiven] at hvalue
    exact ⟨configValue_self (hfit.normal key item value (inherited_none hgiven) hitem hvalue),
      hdefaults.allAccept (hdefaults.default hvalue)⟩
  | some given =>
    obtain ⟨w, hw, hfinal⟩ := finalValue_accepted hgiven (haccept key given hgiven) hitem
    rw [hfinal, Option.some.injEq] at hvalue
    rw [← hvalue]
    exact ⟨configValue_self (configValue_conforms hw), hfit.shared key item given w hitem (haccept key given hgiven) hw⟩

/-- A configuration is accepted as it is. -/
theorem DefaultsFit.again (hfit : DefaultsFit rules entries) (hdefaults : Accepted rules entries defaults installed)
    (h : configOf rules entries input = .ok config) :
    ∃ config', configOf rules entries config = .ok config' ∧ SameConfig config' config := by
  obtain ⟨haccept, hvalues⟩ := configRun_spec (configOf_eq_ok.mp h).2
  have hagain : ∀ key value, property rules config key = some value → AllAccept rules entries key value := by
    intro key value hvalue
    cases hown : get? config key with
    | none =>
      rw [property_none hown] at hvalue
      exact (hfit.inherited key value hvalue).1
    | some own =>
      rw [property_own hown, Option.some.injEq] at hvalue
      obtain ⟨_, -, -, hall⟩ := hfit.kept hdefaults h hown
      rwa [← hvalue]
  obtain ⟨config', hrun⟩ := configRun_some hagain
  refine ⟨config', configOf_eq_ok.mpr ⟨configOf_known h, hrun⟩, fun key => ?_⟩
  rw [(configRun_spec hrun).2 key]
  cases hown : get? config key with
  | some own =>
    obtain ⟨item, hitem, hkept, -⟩ := hfit.kept hdefaults h hown
    rw [finalValue_own (property_own hown) hitem, hkept]
    rfl
  | none =>
    cases hitem : itemOf entries key with
    | none => exact finalValue_of_no_item hitem
    | some item =>
      have hnone := hvalues key
      rw [hown] at hnone
      -- An item that was given a value would have it in the configuration.
      cases hgiven : property rules input key with
      | some given =>
        obtain ⟨w, -, hfinal⟩ := finalValue_accepted hgiven (haccept key given hgiven) hitem
        rw [hfinal] at hnone
        cases hnone
      | none =>
        rw [finalValue_default ((property_none hown).trans (inherited_none hgiven)), ← finalValue_default hgiven, ← hnone]

theorem DefaultsFit.reset (hfit : DefaultsFit rules entries) (hdefaults : Accepted rules entries defaults installed) :
    ∃ config, configOf rules entries [] = .ok config ∧ SameConfig config installed := by
  have hempty : ∀ key method, property rules [] key = some method → AllAccept rules entries key method :=
    fun key method hmethod => (hfit.inherited key method hmethod).1
  obtain ⟨config, hrun⟩ := configRun_some hempty
  refine ⟨config, configOf_eq_ok.mpr ⟨nofun, hrun⟩, fun key => ?_⟩
  rw [(configRun_spec hrun).2 key, (configRun_spec (configOf_eq_ok.mp hdefaults.accepted).2).2 key]
  cases hitem : itemOf entries key with
  | none => rw [finalValue_of_no_item hitem, finalValue_of_no_item hitem]
  | some item =>
    cases hvalue : defaultOf entries key with
    | none =>
      -- Without a default both take what the object inherits.
      rw [finalValue, finalValue, property_nil, property_none ((hdefaults.values key).trans hvalue)]
    | some value =>
      rw [finalValue_own (hdefaults.default hvalue) hitem]
      cases hmethod : Themes.inherited rules key with
      | none =>
        rw [finalValue_default (show property rules [] key = none from hmethod), hvalue, configValue_self (hfit.normal key item value hmethod hitem hvalue)]
        rfl
      | some method =>
        rw [finalValue_own (show property rules [] key = some method from hmethod) hitem,
          (hfit.inherited key method hmethod).2 item value hitem hvalue]

end

theorem ConfigStable.fits {package : ParsedThemePackage} {entries : List (String × ThemeConfigItem)}
    (hstable : ConfigStable rules package)
    (hvalidate : ∀ config, validateThemeConfig rules package.manifest.object config =
      .ok (configOf rules entries ((Json.obj? config).getD [])))
    (hdefaults : Accepted rules entries (defaultConfigForManifest package.manifest) package.config) :
    DefaultsFit rules entries := by
  have hread : ∀ {c : Json} {r : Fields}, validateThemeConfig rules package.manifest.object c = .ok (.ok r) →
      configOf rules entries ((Json.obj? c).getD []) = .ok r := fun {c r} hr => by
    rw [hvalidate] at hr
    exact Except.ok.inj hr
  obtain ⟨r, r', hr, hr', hsame, -⟩ := hstable.reset
  obtain ⟨haccept, hvalues⟩ := configRun_spec (configOf_eq_ok.mp (hread hr)).2
  have hvalues' := (configRun_spec (configOf_eq_ok.mp (hread hr')).2).2
  -- The two routes agree at each key.
  have hroutes : ∀ key, finalValue rules entries [] key =
      finalValue rules entries (defaultConfigForManifest package.manifest) key := fun key =>
    (hvalues key).symm.trans ((hsame key).trans (hvalues' key))
  constructor
  · intro key item value hmethod hitem hvalue
    have hroute := hroutes key
    have hgiven := hdefaults.default hvalue
    obtain ⟨w, hw, hfinal⟩ := finalValue_accepted hgiven (hdefaults.allAccept hgiven) hitem
    rw [finalValue_default (show property rules [] key = none from hmethod), hvalue, hfinal, Option.some.injEq] at hroute
    have hself : configValue rules key item value = .ok value := hw.trans (congrArg Except.ok hroute.symm)
    exact configValue_conforms hself
  · intro key method hmethod
    refine ⟨haccept key method hmethod, fun item value hitem hvalue => ?_⟩
    obtain ⟨w, hw, hfinal⟩ := finalValue_accepted (show property rules [] key = some method from hmethod)
      (haccept key method hmethod) hitem
    have hgiven := hdefaults.default hvalue
    obtain ⟨w', hw', hfinal'⟩ := finalValue_accepted hgiven (hdefaults.allAccept hgiven) hitem
    have hroute := hroutes key
    rw [hfinal, hfinal', Option.some.injEq] at hroute
    rw [hw, hw', hroute]
  · intro key item value w hitem hall hw
    -- A configuration that gives this value only.
    have hgiven : property rules [(key, value)] key = some value := property_own (by rw [get?, if_pos rfl])
    have hother : ∀ key' value', property rules [(key, value)] key' = some value' → AllAccept rules entries key' value' := by
      intro key' value' hvalue'
      by_cases hkey : key' = key
      · rw [hkey, hgiven, Option.some.injEq] at hvalue'
        rwa [hkey, ← hvalue']
      · refine haccept key' value' ?_
        rwa [property_none (show get? [(key, value)] key' = none by rw [get?, if_neg hkey]; rfl)] at hvalue'
    obtain ⟨c, hrun⟩ := configRun_some hother
    have hknown : ∀ key' ∈ Assoc.keys [(key, value)], key' ∈ Assoc.keys entries := by
      intro key' hkey'
      rw [List.mem_singleton.mp hkey', ← itemOf_isSome, hitem]
      rfl
    obtain ⟨c', hc', -⟩ := hstable.again (.obj [(key, value)]) c
      ((hvalidate _).trans (congrArg Except.ok (configOf_eq_ok.mpr ⟨hknown, hrun⟩)))
    refine (configRun_spec (configOf_eq_ok.mp (hread hc')).2).1 key w (property_own ?_)
    obtain ⟨w', hw', hfinal⟩ := finalValue_accepted hgiven hall hitem
    rw [hw, Except.ok.injEq] at hw'
    rw [hw', ← hfinal]
    exact (configRun_spec hrun).2 key

end

/-- The text of a manifest with a number whose default is a text. -/
def demoText : String :=
  "\x7b\"name\":\"A\",\"short\":\"a\",\"description\":\"\",\"version\":\"\",\"author\":\"\",\"url\":\"\",\"preview\":\"\",\"style\":\"a.css\"," ++
  "\"configuration\":\x7b\"type\":\"managed\",\"data\":[\x7b\"type\":\"number\",\"key\":\"n\",\"name\":\"\",\"help\":\"\",\"options\":\"\",\"default\":\"5\"\x7d]\x7d\x7d"

def demoItem : ThemeConfigItem := ⟨.number, some "n", "", "", "", none, none, none, some (.str "5")⟩

def demoManifest : ThemeManifest := ⟨"A", "a", "", "", "", "", "", "a.css", [demoItem]⟩

/-- The archive: the text is stored in it as it is. -/
def demoZip : List UInt8 :=
  [80, 75, 3, 4, 20, 0, 0, 0, 0, 0, 0, 0, 33, 0, 28, 202, 253, 30, 223, 0, 0, 0, 223, 0, 0, 0, 21, 0, 0, 0, 99, 102,
  45, 109, 111, 110, 105, 116, 111, 114, 45, 116, 104, 101, 109, 101, 46, 106, 115, 111, 110] ++ demoText.toList.map Char.toUInt8 ++
  [80, 75, 3, 4, 20, 0, 0, 0, 0, 0, 0, 0, 33, 0, 185, 213, 43, 84, 3, 0, 0, 0, 3, 0, 0, 0, 5, 0, 0, 0, 97, 46, 99,
  115, 115, 97, 123, 125, 80, 75, 1, 2, 20, 3, 20, 0, 0, 0, 0, 0, 0, 0, 33, 0, 28, 202, 253, 30, 223, 0, 0, 0, 223,
  0, 0, 0, 21, 0, 0, 0, 0, 0, 0, 0, 0, 0, 0, 0, 128, 1, 0, 0, 0, 0, 99, 102, 45, 109, 111, 110, 105, 116, 111, 114,
  45, 116, 104, 101, 109, 101, 46, 106, 115, 111, 110, 80, 75, 1, 2, 20, 3, 20, 0, 0, 0, 0, 0, 0, 0, 33, 0, 185,
  213, 43, 84, 3, 0, 0, 0, 3, 0, 0, 0, 5, 0, 0, 0, 0, 0, 0, 0, 0, 0, 0, 0, 128, 1, 18, 1, 0, 0, 97, 46, 99, 115,
  115, 80, 75, 5, 6, 0, 0, 0, 0, 2, 0, 2, 0, 118, 0, 0, 0, 56, 1, 0, 0, 0, 0]

def demoFiles : List (String × List UInt8) :=
  [("cf-monitor-theme.json", demoText.toList.map Char.toUInt8), ("a.css", [97, 123, 125])]

def unzipDemo (zip : List UInt8) : Except String (List (String × List UInt8)) :=
  if zip = demoZip then .ok demoFiles else .error "theme ZIP is incomplete"

def parseDemo (text : String) : Option Json := if text = demoText then some demoManifest.object else none

theorem unzipDemo_zip : unzipDemo demoZip = .ok demoFiles := by
  unfold unzipDemo
  generalize demoZip = zip
  exact if_pos rfl

theorem parseDemo_text : parseDemo demoText = some demoManifest.object := by
  unfold parseDemo
  generalize demoText = text
  exact if_pos rfl

/-- Rules that read this archive, small numbers and no addresses. -/
def demoRules : ThemeRules :=
  { outboxRules with
    numberOf := fun text => if text = "5" then some 5 else none
    compactLiveReport := fun report => report
    parseUrl := fun _ => none
    parseJson := parseDemo
    lower := fun text => String.ofList (text.toList.map Char.toLower)
    hashAgentToken := fun _ => ""
    unzipThemeWithLimits := unzipDemo
    strFromU8 := fun bytes => String.ofList (bytes.map fun byte => Char.ofNat byte.toNat)
    nativeText := fun key => "function " ++ key ++ "() \x7b [native code] \x7d" }

def demoPackage : ParsedThemePackage :=
  ⟨demoManifest, [("n", .num (.finite 5))], "", [⟨"a.css", "text/css; charset=utf-8", btoa [97, 123, 125], 3⟩]⟩

theorem demoItem_normal : normalizeConfigItem demoRules 0 demoItem.object = .ok demoItem := by
  have hkey : normalizeKey .number (some (.str "n")) = .ok (some "n") := by decide +kernel
  have hempty : ∀ field n, normalizeString (some (.str "")) field n false = .ok "" := fun field n =>
    normalizeString_again (show normalizeString none field n false = .ok "" from rfl)
  refine bind_eq_ok.mpr ⟨_, hkey, bind_eq_ok.mpr ⟨none, rfl, bind_eq_ok.mpr ⟨none, rfl, bind_eq_ok.mpr ⟨none, rfl, ?_⟩⟩⟩⟩
  refine bind_eq_ok.mpr ⟨(), by decide, bind_eq_ok.mpr ⟨"", hempty _ _, bind_eq_ok.mpr ⟨"", hempty _ _, ?_⟩⟩⟩
  exact bind_eq_ok.mpr ⟨"", hempty _ _, rfl⟩

theorem demoManifest_normal : normalizeThemeManifest demoRules demoManifest.object = .ok demoManifest := by
  have hshort : normalizeString (some (.str "a")) "short" 64 true = .ok "a" := by decide +kernel
  have hstyle : (normalizeString (some (.str "a.css")) "style" 256 true >>= normalizeThemePath) = .ok "a.css" := by decide +kernel
  have hcss : ¬ extensionOf demoRules "a.css" ≠ ".css" := by decide +kernel
  have hname : normalizeString (some (.str "A")) "name" 128 true = .ok "A" := by decide +kernel
  have hempty : ∀ field n, normalizeString (some (.str "")) field n false = .ok "" := fun field n =>
    normalizeString_again (show normalizeString none field n false = .ok "" from rfl)
  refine bind_eq_ok.mpr ⟨"a", hshort, bind_eq_ok.mpr ⟨(), failIf_eq_ok.mpr (by decide +kernel), ?_⟩⟩
  refine bind_eq_ok.mpr ⟨"a.css", hstyle, bind_eq_ok.mpr ⟨(), failIf_eq_ok.mpr hcss, bind_eq_ok.mpr ⟨"", rfl, ?_⟩⟩⟩
  refine bind_eq_ok.mpr ⟨(), failIf_eq_ok.mpr (by decide +kernel), bind_eq_ok.mpr ⟨"A", hname, ?_⟩⟩
  refine bind_eq_ok.mpr ⟨"", hempty _ _, bind_eq_ok.mpr ⟨"", hempty _ _, bind_eq_ok.mpr ⟨"", hempty _ _, ?_⟩⟩⟩
  refine bind_eq_ok.mpr ⟨"", hempty _ _, bind_eq_ok.mpr ⟨_, mapM_eq_ok.mpr (.cons demoItem_normal .nil), rfl⟩⟩

theorem demoConfig (config : Json) : validateThemeConfig demoRules demoManifest.object config =
    .ok (configOf demoRules [("n", demoItem)] ((Json.obj? config).getD [])) :=
  validateThemeConfig_eq demoManifest_normal demoManifest_normal config

theorem demoText_chars : ∃ chars : List Char, demoText = String.ofList chars ∧ chars.length = 223 ∧
    (chars.all fun c => decide (Char.ofNat c.toUInt8.toNat = c)) = true :=
  ⟨_, String.ofList_append.symm, by decide +kernel, by decide +kernel⟩

theorem demoZip_accepted : parseThemeZip demoRules demoZip = .ok demoPackage := by
  obtain ⟨chars, hchars, hlength, hbytes⟩ := demoText_chars
  have hsize : ¬ MAX_ZIP_BYTES < demoZip.length := by
    rw [demoZip, hchars, String.toList_ofList, List.length_append, List.length_append, List.length_map, hlength]
    decide +kernel
  have hunzip : demoRules.unzipThemeWithLimits demoZip = .ok demoFiles := by
    have hunzip : demoRules.unzipThemeWithLimits = unzipDemo := rfl
    rw [hunzip, unzipDemo_zip]
  have hmanifest : get? demoFiles "cf-monitor-theme.json" = some (demoText.toList.map Char.toUInt8) := rfl
  have htext : demoRules.strFromU8 (demoText.toList.map Char.toUInt8) = demoText := by
    have hsame : (chars.map Char.toUInt8).map (fun byte => Char.ofNat byte.toNat) = chars := by
      rw [List.map_map]
      exact (List.map_congr_left fun c hc => of_decide_eq_true (List.all_eq_true.mp hbytes c hc)).trans (List.map_id chars)
    rw [hchars, String.toList_ofList]
    exact congrArg String.ofList hsame
  have hjson : demoRules.parseJson demoText = some demoManifest.object := by
    have hparse : demoRules.parseJson = parseDemo := rfl
    rw [hparse, parseDemo_text]
  have hallowed : demoFiles.forM (fun entry => assertAllowedFile demoRules entry.1) = .ok () := by decide +kernel
  have hstyle : get? demoFiles demoManifest.style = some [97, 123, 125] := rfl
  refine bind_eq_ok.mpr ⟨(), failIf_eq_ok.mpr hsize, bind_eq_ok.mpr ⟨_, hunzip, ?_⟩⟩
  rw [hmanifest]
  dsimp only
  rw [htext, hjson]
  refine bind_eq_ok.mpr ⟨_, demoManifest_normal, bind_eq_ok.mpr ⟨(), hallowed, ?_⟩⟩
  rw [hstyle]
  refine bind_eq_ok.mpr ⟨(), failIf_eq_ok.mpr (by decide), bind_eq_ok.mpr ⟨(), failIf_eq_ok.mpr (by decide), ?_⟩⟩
  refine bind_eq_ok.mpr ⟨_, demoConfig _, bind_eq_ok.mpr ⟨demoPackage.assets, ?_, rfl⟩⟩
  exact mapM_eq_ok.mpr (.cons (by rfl) .nil)

end CfMonitor.Themes
