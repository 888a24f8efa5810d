/-
  Settings that were saved, read back and saved again (`normalizeSettingValue`, `buildAdminSettings` in
  `schema.ts`, `POST /settings` in `admin.ts`).

  1. **Repository** — the normalisation takes one `.git` from the end of the path.  What is left names
     the repository only if it has no further `.git` there and is no dot segment, which the next
     reading of the address drops (`plainPath`).

  2. **Values** — every other value settles, and a host of its own only ever refuses.

  3. **Tables** — what was stored is read as it is, and a page that is saved unedited changes nothing.
-/
import CfMonitor.Backup.StoredSettings
import CfMonitor.Live.OutboxRuns

namespace CfMonitor.Backup

open CfMonitor.Lib CfMonitor.Live
open String (ofList toList_append toList_ofList)
open List (all_eq_true append_assoc mem_cons_self splitOn)
open Assoc (get?)

/-! ## Repository -/

/-- The address that a repository is read from. -/
def repositoryAddress (raw : String) : String :=
  if hasHttpScheme raw then raw
  else if startsWith "github.com/" raw then "https://" ++ raw
  else if isOwnerAndRepository raw then "https://github.com/" ++ raw
  else raw

/-- A segment of a path that stands for the directory itself. -/
def isSingleDot (segment : List Char) : Bool :=
  [".", "%2e"].any fun dot => segment.map Char.toLower == dot.toList

/-- A segment of a path that stands for the directory above. -/
def isDoubleDot (segment : List Char) : Bool :=
  ["..", ".%2e", "%2e.", "%2e%2e"].any fun dot => segment.map Char.toLower == dot.toList

/-- The path of `/owner/name`, as a URL of a scheme like `https:` has it. -/
def writtenPath (owner name : List Char) : List Char :=
  if isDoubleDot name then ['/']
  else if isSingleDot name then '/' :: owner ++ ['/']
  else '/' :: owner ++ '/' :: name

/-- What is documented of the paths of addresses. -/
structure BackupRules.Paths (rules : BackupRules) : Prop where
  /-- A path has its blanks encoded. -/
  blanks : ∀ text u, rules.parseUrl text = some u → u.protocol = "https:" →
    ∀ c ∈ u.pathname.toList, isTrimmed c = false
  /-- The first two names of a path, the second perhaps without its end, are encoded as they are: an
      address made of them has the path that is written. -/
  rewritten : ∀ text u slashes owner name rest, rules.parseUrl text = some u → u.protocol = "https:" →
    u.pathname.toList = slashes ++ (owner ++ '/' :: name) ++ rest → (∀ c ∈ slashes, c = '/') →
    '/' ∉ owner → '/' ∉ name → owner ≠ [] → name ≠ [] →
    ∃ v, rules.parseUrl ("https://github.com/" ++ String.ofList owner ++ "/" ++ String.ofList name) = some v ∧
      v.protocol = "https:" ∧ v.hostname = "github.com" ∧ v.username = "" ∧ v.password = "" ∧
      v.search = "" ∧ v.hash = "" ∧ v.pathname.toList = writtenPath owner name

/-- A path in front of whose end no `.git` stands, and which does not end in a dot segment. -/
def plainPath (path : List Char) : Bool :=
  !".git".toList.isSuffixOf (path.map Char.toLower) &&
    !(path.splitOn '/').getLast?.any fun name => isSingleDot name || isDoubleDot name

section

variable (rules : BackupRules)

/-- The path that a repository is read from, without the slashes around it and one `.git`, is plain. -/
def plainRepository (value : Json) : Bool :=
  match optionalText value with
  | none => true
  | some text =>
    if text = "" then true
    else match rules.parseUrl (repositoryAddress (trim text)) with
      | none => true
      | some u => plainPath (withoutGit (withoutSlashes u.pathname.toList))

/-- The repository of a path. -/
def repositoryOf (path : List Char) : Option String :=
  match (withoutGit (withoutSlashes path)).splitOn '/' with
  | [owner, repository] =>
    if owner = [] ∨ repository = [] then none
    else some ("https://github.com/" ++ String.ofList owner ++ "/" ++ String.ofList repository)
  | _ => none

theorem updateRepositoryUrl_eq (text : String) : updateRepositoryUrl rules text =
    match rules.parseUrl (repositoryAddress (trim text)) with
    | none => none
    | some u =>
      if u.protocol ≠ "https:" ∨ rules.lower u.hostname ≠ "github.com" then none
      else if u.username ≠ "" ∨ u.password ≠ "" ∨ u.search ≠ "" ∨ u.hash ≠ "" then none
      else repositoryOf u.pathname.toList := rfl

variable {rules}

variable {path : List Char}

theorem repositoryOf_some {text : String} (h : repositoryOf path = some text) :
    ∃ owner name, (withoutGit (withoutSlashes path)).splitOn '/' = [owner, name] ∧ owner ≠ [] ∧ name ≠ [] ∧
      text = "https://github.com/" ++ ofList owner ++ "/" ++ ofList name := by
  unfold repositoryOf at h
  split at h
  · rename_i owner name hsplit
    split_ifs at h with hempty
    obtain ⟨howner, hname⟩ := not_or.mp hempty
    exact ⟨owner, name, hsplit, howner, hname, (Option.some.inj h).symm⟩
  · cases h

variable {owner name : List Char}

/-- The two parts of a path, which have no slashes. -/
theorem splitOn_pair (h : path.splitOn '/' = [owner, name]) :
    path = owner ++ '/' :: name ∧ '/' ∉ owner ∧ '/' ∉ name := by
  have hplain : ∀ part ∈ path.splitOn '/', '/' ∉ part := fun part hpart => not_mem_part hpart
  rw [h] at hplain
  refine ⟨?_, hplain owner (by simp), hplain name (by simp)⟩
  have hjoin : ['/'].intercalate (path.splitOn '/') = path := List.intercalate_splitOn '/'
  rw [h] at hjoin
  simpa [List.intercalate] using hjoin.symm

theorem splitOn_of_pair (howner : '/' ∉ owner) (hname : '/' ∉ name) :
    (owner ++ '/' :: name).splitOn '/' = [owner, name] := by
  have hplain : ∀ part ∈ [owner, name], ∀ c ∈ part, (c == '/') = false := by
    intro part hpart c hc
    rcases List.mem_pair.mp hpart with rfl | rfl
    · exact beq_false_of_ne fun h => howner (h ▸ hc)
    · exact beq_false_of_ne fun h => hname (h ▸ hc)
  have hjoin := splitOnP_intercalate (p := (· == '/')) (by decide : ('/' == '/') = true) (List.cons_ne_nil owner [name]) hplain
  rw [splitOn]
  simpa [List.intercalate] using hjoin

theorem withoutGit_prefix (path : List Char) : ∃ rest, withoutGit path ++ rest = path := by
  rw [withoutGit]
  split_ifs
  · exact ⟨_, List.take_append_drop _ _⟩
  · exact ⟨[], List.append_nil _⟩

theorem withoutSlashes_infix (path : List Char) :
    ∃ front back, path = front ++ withoutSlashes path ++ back ∧ ∀ c ∈ front, c = '/' := by
  refine ⟨path.takeWhile (· == '/'), (path.dropWhile (· == '/')).rtakeWhile (· == '/'), ?_, fun c hc => ?_⟩
  · have hback := List.rdropWhile_append_rtakeWhile (p := (· == '/')) (l := path.dropWhile (· == '/'))
    have hfront := List.takeWhile_append_dropWhile (p := (· == '/')) (l := path)
    rw [append_assoc]
    rw [withoutSlashes, ← List.rdropWhile, hback, hfront]
  · simpa using List.mem_takeWhile_imp hc

theorem withoutSlashes_pair (howner : '/' ∉ owner) (hname : '/' ∉ name) (hne : owner ≠ [])
    (hne' : name ≠ []) : withoutSlashes ('/' :: owner ++ '/' :: name) = owner ++ '/' :: name := by
  have hfront : ('/' :: owner ++ '/' :: name).dropWhile (· == '/') = owner ++ '/' :: name := by
    cases owner with
    | nil => exact absurd rfl hne
    | cons c rest =>
      have hc : c ≠ '/' := fun h => howner (h ▸ mem_cons_self)
      simp [hc]
  rw [withoutSlashes, hfront]
  obtain ⟨front, c, rfl⟩ := List.eq_nil_or_concat name |>.resolve_left hne'
  have hc : c ≠ '/' := fun h => hname (by simp [h])
  simp [hc]

theorem withoutSlashes_single (howner : '/' ∉ owner) : '/' ∉ withoutSlashes ('/' :: owner ++ ['/']) := by
  intro hmem
  rw [withoutSlashes, List.mem_reverse] at hmem
  have hfront : ∀ c ∈ (('/' :: owner ++ ['/']).dropWhile (· == '/')).reverse.dropWhile (· == '/'), c ∈ owner := by
    intro c hc
    cases owner with
    | nil => simp [List.dropWhile] at hc
    | cons d rest =>
      have hd : d ≠ '/' := fun h => howner (h ▸ mem_cons_self)
      have hdrop : (('/' :: (d :: rest) ++ ['/']).dropWhile (· == '/')) = d :: rest ++ ['/'] := by
        simp [hd]
      rw [hdrop, List.reverse_append, List.reverse_singleton, List.singleton_append] at hc
      rw [List.dropWhile_cons_of_pos (by decide)] at hc
      exact List.mem_reverse.mp ((List.dropWhile_suffix _).subset hc)
  exact howner (hfront _ hmem)

theorem repositoryOf_noSlash (h : '/' ∉ withoutSlashes path) : repositoryOf path = none := by
  obtain ⟨rest, hrest⟩ := withoutGit_prefix (withoutSlashes path)
  have hnone : '/' ∉ withoutGit (withoutSlashes path) := fun hmem => h (hrest ▸ List.mem_append_left _ hmem)
  rw [repositoryOf]
  cases hfound : repositoryOf path with
  | none => exact hfound
  | some text =>
    obtain ⟨owner, name, hsplit, -, -, -⟩ := repositoryOf_some hfound
    rw [(splitOn_pair hsplit).1] at hnone
    exact absurd (List.mem_append_right _ mem_cons_self) hnone

theorem plainPath_pair (howner : '/' ∉ owner) (hname : '/' ∉ name) : plainPath (owner ++ '/' :: name) = true ↔
      ¬ (".git".toList.isSuffixOf ((owner ++ '/' :: name).map Char.toLower) = true) ∧
        isSingleDot name = false ∧ isDoubleDot name = false := by
  rw [plainPath, splitOn_of_pair howner hname]
  simp only [List.getLast?_cons_cons, List.getLast?_singleton, Option.any_some, Bool.and_eq_true, Bool.not_eq_true',
    Bool.or_eq_false_iff, Bool.not_eq_true]

/-- **The second reading**: the path that was written names the same repository exactly if it is plain. -/
theorem repositoryOf_writtenPath (howner : '/' ∉ owner) (hname : '/' ∉ name)
    (hne : owner ≠ []) (hne' : name ≠ []) :
    repositoryOf (writtenPath owner name) =
        some ("https://github.com/" ++ ofList owner ++ "/" ++ ofList name) ↔
      plainPath (owner ++ '/' :: name) = true := by
  rw [plainPath_pair howner hname, writtenPath]
  by_cases hdouble : isDoubleDot name = true
  · rw [if_pos hdouble, repositoryOf_noSlash (by decide)]
    simp [hdouble]
  · rw [if_neg hdouble]
    by_cases hsingle : isSingleDot name = true
    · rw [if_pos hsingle, repositoryOf_noSlash (withoutSlashes_single howner)]
      simp [hsingle]
    · rw [if_neg hsingle]
      have hstripped := withoutSlashes_pair howner hname hne hne'
      by_cases hgit : ".git".toList.isSuffixOf ((owner ++ '/' :: name).map Char.toLower) = true
      · -- Another `.git` goes, and the text becomes shorter.
        refine iff_of_false (fun hsame => ?_) fun h => h.1 hgit
        obtain ⟨owner', name', hsplit, -, -, htext⟩ := repositoryOf_some hsame
        rw [hstripped] at hsplit
        have hcut := (splitOn_pair hsplit).1
        have hlists := congrArg String.toList htext
        simp only [toList_append, toList_ofList, append_assoc, List.append_cancel_left_eq] at hlists
        have hwhole : owner ++ '/' :: name = owner' ++ '/' :: name' := hlists
        rw [← hwhole, withoutGit, if_pos hgit] at hcut
        have hlength := congrArg List.length hcut
        rw [List.length_take] at hlength
        have hfour := (List.isSuffixOf_iff_suffix.mp hgit).length_le
        rw [List.length_map] at hfour
        have hgitLength : ".git".toList.length = 4 := by decide
        omega
      · refine iff_of_true ?_ ⟨hgit, Bool.eq_false_of_not_eq_true hsingle, Bool.eq_false_of_not_eq_true hdouble⟩
        rw [repositoryOf, hstripped, withoutGit, if_neg hgit, splitOn_of_pair howner hname]
        exact if_neg (not_or.mpr ⟨hne, hne'⟩)

/-- **A repository URL** settles exactly if the path that it was read from is plain. -/
theorem updateRepositoryUrl_again (hlaw : rules.Lawful) (hpaths : rules.Paths) {written text : String}
    (h : updateRepositoryUrl rules written = some text) :
    updateRepositoryUrl rules text = some text ↔
      ∀ u, rules.parseUrl (repositoryAddress (trim written)) = some u →
        plainPath (withoutGit (withoutSlashes u.pathname.toList)) = true := by
  rw [updateRepositoryUrl_eq] at h
  cases hparse : rules.parseUrl (repositoryAddress (trim written)) with
  | none => simp [hparse] at h
  | some u =>
    simp only [hparse] at h
    split_ifs at h with hhost hcredentials
    obtain ⟨hprotocol, hhost⟩ := not_or.mp hhost
    have hprotocol := not_not.mp hprotocol
    have hhost := not_not.mp hhost
    obtain ⟨owner, name, hsplit, hne, hne', rfl⟩ := repositoryOf_some h
    obtain ⟨hpath, howner, hname⟩ := splitOn_pair hsplit
    obtain ⟨rest, hrest⟩ := withoutGit_prefix (withoutSlashes u.pathname.toList)
    obtain ⟨front, back, hwhole, hfront⟩ := withoutSlashes_infix u.pathname.toList
    have hparts : u.pathname.toList = front ++ (owner ++ '/' :: name) ++ (rest ++ back) := by
      rw [← hpath, ← append_assoc, append_assoc front, hrest]
      exact hwhole
    obtain ⟨v, hv, hv₁, hv₂, hv₃, hv₄, hv₅, hv₆, hv₇⟩ :=
      hpaths.rewritten _ u front owner name (rest ++ back) hparse hprotocol hparts hfront howner hname hne hne'
    -- The text that was written has no blanks around it and is an address already.
    have htrim : trim ("https://github.com/" ++ ofList owner ++ "/" ++ ofList name) =
        "https://github.com/" ++ ofList owner ++ "/" ++ ofList name := by
      refine trim_eq_self fun c hc => ?_
      simp only [toList_append, toList_ofList, List.mem_append] at hc
      have hu := hpaths.blanks _ u hparse hprotocol
      rcases hc with ((hc | hc) | hc) | hc
      · revert c
        decide
      · exact hu c (by rw [hparts]; simp [hc])
      · revert c
        decide
      · exact hu c (by rw [hparts]; simp [hc])
    have haddress : repositoryAddress ("https://github.com/" ++ ofList owner ++ "/" ++ ofList name) =
        "https://github.com/" ++ ofList owner ++ "/" ++ ofList name := by
      have hscheme : "https:" ∈ ["http:", "https:"] := by decide
      refine if_pos ?_
      refine hasHttpScheme_of_prefix hscheme ⟨"github.com/".toList ++ (owner ++ '/' :: name), ?_⟩
      simp only [toList_append, toList_ofList]
      simp
    have hgithub : rules.lower v.hostname = "github.com" := by rw [hv₂, ← hhost, hlaw.lower]
    rw [updateRepositoryUrl_eq, htrim, haddress, hv]
    simp only [hv₁, hgithub, hv₃, hv₄, hv₅, hv₆, hv₇, Option.some.injEq, forall_eq']
    rw [if_neg (by simp), if_neg (by simp), repositoryOf_writtenPath howner hname hne hne', hpath]

/-! ## Values -/

variable {selfHost : Option String}

variable {w : WebhookUrl}

theorem validateWebhookUrl_host {written : String}
    (h : validateWebhookUrl rules written selfHost = .ok w) : validateWebhookUrl rules written none = .ok w := by
  rw [validateWebhookUrl] at h ⊢
  cases hparse : rules.parseUrl (trim written) with
  | none => simp [hparse] at h
  | some u =>
    simp only [hparse] at h ⊢
    split_ifs at h with hprotocol hhost hcredentials hunsafe hself
    rw [if_neg hprotocol, if_neg hhost, if_neg hcredentials, if_neg hunsafe, if_neg (by simp)]
    exact h

theorem normalize_repository (value : Json) (selfHost : Option String) (text : String) :
    normalizeSettingValue rules "update_repository_url" value selfHost = .ok text ↔
      orEmpty (updateRepositoryUrl rules) value = some text ∧ units text ≤ 256 := by
  rw [normalizeSettingValue_ok]
  have hd : definitionOf "update_repository_url" = some ⟨"update_repository_url", .string "" 256⟩ := by decide +kernel
  rw [hd]
  simp only [Option.some.injEq, exists_eq_left']
  refine and_congr ?_ ?_
  · exact orInvalid_ok
  rw [SettingDefinition.check, if_neg (by simp)]
  dsimp only
  split_ifs with hlong
  · exact iff_of_false (by simp) (not_le.mpr hlong)
  · exact iff_of_true rfl (not_lt.mp hlong)

/-- **A value** that was normalised is a fixed point, a repository URL exactly if its path is plain. -/
theorem normalizeSettingValue_again_iff (hlaw : rules.Lawful) (hpaths : rules.Paths) {key text : String} {value : Json}
    (h : normalizeSettingValue rules key value selfHost = .ok text) :
    normalizeSettingValue rules key (.str text) none = .ok text ↔
      (key = "update_repository_url" → plainRepository rules value = true) := by
  by_cases hkey : key = "update_repository_url"
  · subst hkey
    obtain ⟨hread, hunits⟩ := normalize_repository value selfHost text |>.mp h
    rw [normalize_repository, forall_prop_of_true rfl]
    rw [orEmpty, Option.bind_eq_some_iff] at hread
    obtain ⟨written, hwritten, hread⟩ := hread
    rw [orEmpty, optionalText, Option.bind_some, plainRepository, hwritten]
    dsimp only
    by_cases hempty : written = ""
    · rw [if_pos hempty] at hread
      rw [if_pos (Option.some.inj hread).symm, if_pos hempty]
      exact iff_of_true ⟨hread, hunits⟩ rfl
    · rw [if_neg hempty] at hread ⊢
      have hne : text ≠ "" := by
        rintro rfl
        rw [updateRepositoryUrl_eq] at hread
        cases hparse : rules.parseUrl (repositoryAddress (trim written)) with
        | none => simp [hparse] at hread
        | some u =>
          simp only [hparse] at hread
          split_ifs at hread
          obtain ⟨owner, name, -, -, -, htext⟩ := repositoryOf_some hread
          exact absurd (congrArg String.toList htext) (by simp)
      rw [if_neg hne, updateRepositoryUrl_again hlaw hpaths hread, and_iff_left hunits]
      cases hparse : rules.parseUrl (repositoryAddress (trim written)) with
      | none => simp
      | some u => simp
  · exact iff_of_true (normalizeSettingValue_again hlaw hkey h) fun h => absurd h hkey

theorem normalizeSettingValue_host {key text : String} {value : Json}
    (h : normalizeSettingValue rules key value selfHost = .ok text) :
    normalizeSettingValue rules key value none = .ok text := by
  obtain ⟨d, hd, hnormal, hcheck⟩ := normalizeSettingValue_ok.mp h
  refine normalizeSettingValue_ok.mpr ⟨d, hd, ?_, hcheck⟩
  rw [SettingDefinition.normalize] at hnormal ⊢
  cases htype : d.type with
  | string default maxLength =>
    simp only [htype] at hnormal ⊢
    split_ifs at hnormal ⊢ with hwebhook
    · rw [normalizeWebhookUrlForWrite] at hnormal ⊢
      cases hread : optionalText value with
      | none => simp [hread] at hnormal
      | some written =>
        simp only [hread] at hnormal ⊢
        split_ifs at hnormal ⊢ with hempty
        · exact hnormal
        · cases hurl : validateWebhookUrl rules written selfHost with
          | error e =>
            rw [hurl] at hnormal
            split at hnormal
            · exact absurd ‹Except.error e = Except.ok _› (by simp)
            · cases hnormal
            · cases hnormal
          | ok w =>
            rw [hurl] at hnormal
            rw [validateWebhookUrl_host hurl]
            exact hnormal
    · exact hnormal
  | _ => simpa only [htype] using hnormal

theorem normalizeSettingValue_anyHost {key : String} (hkey : key ≠ "webhook_url") (value : Json)
    (selfHost : Option String) :
    normalizeSettingValue rules key value selfHost = normalizeSettingValue rules key value none := by
  rw [normalizeSettingValue, normalizeSettingValue]
  cases hd : definitionOf key with
  | none => rfl
  | some d =>
    have hdkey := (definitionOf_some hd).2
    have hsame : d.normalize rules value selfHost = d.normalize rules value none := by
      rw [SettingDefinition.normalize, SettingDefinition.normalize]
      cases d.type with
      | string default maxLength => dsimp only; rw [if_neg (by rwa [hdkey]), if_neg (by rwa [hdkey])]
      | _ => rfl
    dsimp only
    rw [hsame]

/-- An address that a host accepted, it accepts as it was stored. -/
theorem validateWebhookUrl_same (hlaw : rules.Lawful) {written : String}
    (h : validateWebhookUrl rules written selfHost = .ok w) : validateWebhookUrl rules w.url selfHost = .ok w := by
  rw [validateWebhookUrl] at h
  cases hparse : rules.parseUrl (trim written) with
  | none => simp [hparse] at h
  | some u =>
    simp only [hparse] at h
    split_ifs at h with hprotocol hhost hcredentials hunsafe hself
    cases h
    obtain ⟨htrim, hagain⟩ := hlaw.href _ u hparse (by rw [not_not.mp hprotocol]; decide)
    rw [validateWebhookUrl]
    simp only [htrim, hagain]
    rw [if_neg hprotocol, if_neg hhost, if_neg hcredentials, if_neg hunsafe, if_neg hself]

theorem normalize_webhook (value : Json) (selfHost : Option String) (text : String) :
    normalizeSettingValue rules "webhook_url" value selfHost = .ok text ↔
      normalizeWebhookUrlForWrite rules value selfHost = .ok text ∧ units text ≤ 2048 := by
  rw [normalizeSettingValue_ok]
  have hd : definitionOf "webhook_url" = some ⟨"webhook_url", .string "" 2048⟩ := by decide +kernel
  rw [hd]
  simp only [Option.some.injEq, exists_eq_left']
  refine and_congr Iff.rfl ?_
  rw [SettingDefinition.check, if_neg (by simp)]
  dsimp only
  split_ifs with hlong
  · exact iff_of_false (by simp) (not_le.mpr hlong)
  · exact iff_of_true rfl (not_lt.mp hlong)

theorem normalizeSettingValue_sameHost (hlaw : rules.Lawful) {key text : String} {value : Json}
    (h : normalizeSettingValue rules key value selfHost = .ok text)
    (hagain : normalizeSettingValue rules key (.str text) none = .ok text) :
    normalizeSettingValue rules key (.str text) selfHost = .ok text := by
  by_cases hkey : key = "webhook_url"
  · subst hkey
    obtain ⟨hwrite, hunits⟩ := (normalize_webhook value selfHost text).mp h
    refine (normalize_webhook _ selfHost text).mpr ⟨?_, hunits⟩
    rw [normalizeWebhookUrlForWrite] at hwrite ⊢
    rw [optionalText]
    dsimp only
    split_ifs with hempty
    · rw [hempty]
    · split at hwrite
      · cases hwrite
      · split_ifs at hwrite with hwritten
        · exact absurd (Except.ok.inj hwrite).symm hempty
        · split at hwrite
          · rename_i w hw
            cases hwrite
            rw [validateWebhookUrl_same hlaw hw]
          · cases hwrite
          · cases hwrite
  · rw [normalizeSettingValue_anyHost hkey]
    exact hagain

variable {d : SettingDefinition}

theorem normalizeSettingValue_default_host (hlaw : rules.Lawful) (hmem : d ∈ SETTING_SCHEMA)
    (selfHost : Option String) :
    normalizeSettingValue rules d.key (.str d.defaultValue) selfHost = .ok d.defaultValue := by
  have hdefault := normalizeSettingValue_default hlaw hmem
  by_cases hkey : d.key = "webhook_url"
  · have hempty : d.defaultValue = "" := by
      have hall : ∀ d ∈ SETTING_SCHEMA, d.key = "webhook_url" → d.defaultValue = "" := by decide +kernel
      exact hall d hmem hkey
    rw [hkey, hempty]
    exact (normalize_webhook _ selfHost "").mpr ⟨rfl, by decide⟩
  · rw [normalizeSettingValue_anyHost hkey]
    exact hdefault

/-! ## Tables -/

variable {fields : Fields}

/-- **What is stored of an input** with distinct keys: every entry that was accepted. -/
theorem get?_sanitized (hkeys : (Assoc.keys fields).Nodup) (key text : String) :
    get? (sanitizeSettingsForStorage rules (.obj fields) selfHost).settings key = some text ↔
      ∃ value, (key, value) ∈ fields ∧ key ∉ REMOVED_SETTING_KEYS ∧
        normalizeSettingValue rules key value selfHost = .ok text := by
  show get? (fields.foldl (sanitizeEntry rules selfHost) ⟨[], [], []⟩).settings key = some text ↔ _
  induction fields using List.reverseRecOn with
  | nil => simp [get?]
  | append_singleton fields entry ih =>
    have hnodup : (Assoc.keys fields).Nodup ∧ entry.1 ∉ Assoc.keys fields := by
      rw [Assoc.keys, List.map_append, List.nodup_append] at hkeys
      exact ⟨hkeys.1, fun hmem => hkeys.2.2 _ hmem _ (by simp) rfl⟩
    have ih := ih hnodup.1
    rw [List.foldl_append, List.foldl_cons, List.foldl_nil]
    by_cases hkey : key = entry.1
    · -- The earlier entries say nothing of this key.
      subst hkey
      have hnone : ∀ value, (entry.1, value) ∉ fields := fun value hmem =>
        hnodup.2 (List.mem_map.mpr ⟨_, hmem, rfl⟩)
      have hbefore : get? (fields.foldl (sanitizeEntry rules selfHost) ⟨[], [], []⟩).settings entry.1 ≠ some text :=
        fun h => by
          obtain ⟨value, hmem, -⟩ := ih.mp h
          exact hnone value hmem
      have hentry : ∀ value, (entry.1, value) ∈ fields ++ [entry] ↔ value = entry.2 := by
        intro value
        simp only [List.mem_append, hnone value, false_or, List.mem_singleton, Prod.ext_iff, true_and]
      simp only [hentry, exists_eq_left]
      rw [sanitizeEntry]
      split_ifs with hremoved
      · exact iff_of_false hbefore fun h => h.1 hremoved
      · cases hnormal : normalizeSettingValue rules entry.1 entry.2 selfHost with
        | error e => exact iff_of_false hbefore fun h => absurd h.2 (by simp)
        | ok value =>
          dsimp only
          rw [Assoc.get?_set, if_pos rfl]
          simp [hremoved]
    · have hother : get? (sanitizeEntry rules selfHost
          (fields.foldl (sanitizeEntry rules selfHost) ⟨[], [], []⟩) entry).settings key =
          get? (fields.foldl (sanitizeEntry rules selfHost) ⟨[], [], []⟩).settings key := by
        rw [sanitizeEntry]
        split_ifs
        · rfl
        · cases normalizeSettingValue rules entry.1 entry.2 selfHost with
          | error e => rfl
          | ok value =>
            dsimp only
            rw [Assoc.get?_set, if_neg hkey]
      rw [hother, ih]
      refine exists_congr fun value => and_congr_left fun _ => ?_
      simp only [List.mem_append, List.mem_singleton, Prod.ext_iff]
      tauto

theorem sanitized_keys (fields : Fields) (selfHost : Option String) :
    (Assoc.keys (sanitizeSettingsForStorage rules (.obj fields) selfHost).settings).Nodup := by
  have hkept : ∀ (fields : Fields) (done : Sanitized), (Assoc.keys done.settings).Nodup →
      (Assoc.keys (fields.foldl (sanitizeEntry rules selfHost) done).settings).Nodup := by
    intro fields
    induction fields with
    | nil => exact fun _ h => h
    | cons entry rest ih =>
      intro done h
      rw [List.foldl_cons]
      refine ih _ ?_
      rw [sanitizeEntry]
      split_ifs
      · exact h
      · cases normalizeSettingValue rules entry.1 entry.2 selfHost with
        | error e => exact h
        | ok value => exact Assoc.keys_set_nodup h
  exact hkept fields _ List.nodup_nil

theorem get?_buildAdminSettings (stored : List (String × String)) (key : String) :
    get? (buildAdminSettings rules stored) key = (definitionOf key).map (adminSetting rules stored) := by
  have hall : ∀ l : List SettingDefinition, get? (l.map fun d => (d.key, adminSetting rules stored d)) key =
      (l.find? fun d => d.key == key).map (adminSetting rules stored) := by
    intro l
    induction l with
    | nil => rfl
    | cons d rest ih =>
      rw [List.map_cons, get?, List.find?_cons]
      by_cases hkey : key = d.key
      · simp [hkey]
      · rw [if_neg hkey, ih, beq_false_of_ne (Ne.symm hkey)]
  exact hall SETTING_SCHEMA

variable {stored : List (String × String)}

/-- What is stored under a key is read as it is exactly if it is a fixed point. -/
theorem adminSetting_eq_iff (hlaw : rules.Lawful)
    (hmem : d ∈ SETTING_SCHEMA) {text : String} (hstored : get? stored d.key = some text) :
    adminSetting rules stored d = text ↔ normalizeSettingValue rules d.key (.str text) none = .ok text := by
  rw [adminSetting, hstored, Option.getD_some]
  cases hnormal : normalizeSettingValue rules d.key (.str text) none with
  | ok value =>
    dsimp only
    exact ⟨congrArg Except.ok, Except.ok.inj⟩
  | error e =>
    refine iff_of_false ?_ (by simp)
    rintro rfl
    rw [normalizeSettingValue_default hlaw hmem] at hnormal
    simp at hnormal

section

variable (rules)

/-- What `POST /settings` stores of a body from which the masked previews were taken. -/
def changedSettings (stored : List (String × String)) (body : Json) (selfHost : Option String) :
    Except (List String) (List (String × String)) :=
  let normalized := sanitizeSettingsForStorage rules body selfHost
  if normalized.errors = [] then
    .ok (normalized.settings.filter fun p =>
      decide (Assoc.get? (buildAdminSettings rules stored) p.1 ≠ some p.2))
  else .error normalized.errors

/-- A page of settings as it is shown, which leaves some of them out. -/
def shownSettings (stored : List (String × String)) (shown : String → Bool) : Json :=
  settingsJson ((buildAdminSettings rules stored).filter fun p => shown p.1)

end

/-- What is stored is what is read. -/
def Unchanged (rules : BackupRules) (stored : List (String × String)) : Prop :=
  ∀ key text, Assoc.get? stored key = some text → Assoc.get? (buildAdminSettings rules stored) key = some text

/-- What an unchanged table shows under a key is a fixed point. -/
theorem adminSetting_again (hlaw : rules.Lawful) (hunchanged : Unchanged rules stored)
    (hmem : d ∈ SETTING_SCHEMA) :
    normalizeSettingValue rules d.key (.str (adminSetting rules stored d)) none = .ok (adminSetting rules stored d) := by
  cases hstored : get? stored d.key with
  | none =>
    have hdefault := normalizeSettingValue_default hlaw hmem
    rw [adminSetting, hstored, Option.getD_none, hdefault]
    exact hdefault
  | some text =>
    have hshown := hunchanged d.key text hstored
    rw [get?_buildAdminSettings, definitionOf_key d hmem] at hshown
    have hsame : adminSetting rules stored d = text := Option.some.inj hshown
    rw [hsame]
    exact (adminSetting_eq_iff hlaw hmem hstored).mp hsame

theorem mem_shownSettings {shown : String → Bool} {p : String × Json}
    (h : p ∈ ((buildAdminSettings rules stored).filter fun p => shown p.1).map fun p => (p.1, Json.str p.2)) :
    ∃ d ∈ SETTING_SCHEMA, p = (d.key, .str (adminSetting rules stored d)) := by
  obtain ⟨q, hq, rfl⟩ := List.mem_map.mp h
  obtain ⟨d, hd, rfl⟩ := List.mem_map.mp (List.mem_of_mem_filter hq)
  exact ⟨d, hd, rfl⟩

theorem keys_shownSettings (stored : List (String × String)) (shown : String → Bool) :
    (Assoc.keys (((buildAdminSettings rules stored).filter fun p => shown p.1).map fun p => (p.1, Json.str p.2))).Nodup := by
  have hkeys : (Assoc.keys (buildAdminSettings rules stored)).Nodup := by
    rw [Assoc.keys, buildAdminSettings, List.map_map]
    have hschema : (SETTING_SCHEMA.map SettingDefinition.key).Nodup := by decide +kernel
    exact hschema
  have hshown := Assoc.keys_filter_nodup (fun p => shown p.1) hkeys
  rw [Assoc.keys] at hshown ⊢
  rw [List.map_map]
  exact hshown

/-- **A page that is saved unedited** changes nothing, whatever it shows and under whichever host. -/
theorem changedSettings_nothing (hlaw : rules.Lawful) (hunchanged : Unchanged rules stored)
    {shown : String → Bool} {changed : List (String × String)}
    (h : changedSettings rules stored (shownSettings rules stored shown) selfHost = .ok changed) : changed = [] := by
  simp only [changedSettings] at h
  split_ifs at h
  cases h
  refine List.filter_eq_nil_iff.mpr fun p hp => ?_
  have hget := Assoc.get?_of_mem (sanitized_keys _ _) hp
  obtain ⟨value, hvalue, -, hnormal⟩ := (get?_sanitized (keys_shownSettings stored shown) p.1 p.2).mp hget
  obtain ⟨d, hd, hentry⟩ := mem_shownSettings hvalue
  obtain ⟨hkey, rfl⟩ := Prod.ext_iff.mp hentry
  dsimp only at hkey
  have hsame := normalizeSettingValue_host hnormal
  rw [hkey, adminSetting_again hlaw hunchanged hd] at hsame
  rw [hkey, get?_buildAdminSettings, definitionOf_key d hd, Option.map_some, Except.ok.inj hsame]
  simp

/-- Under the host that accepted what is stored, it is not refused either. -/
theorem changedSettings_same (hlaw : rules.Lawful) (hkeys : (Assoc.keys fields).Nodup)
    (hunchanged : Unchanged rules (sanitizeSettingsForStorage rules (.obj fields) selfHost).settings)
    (shown : String → Bool) :
    changedSettings rules (sanitizeSettingsForStorage rules (.obj fields) selfHost).settings
      (shownSettings rules (sanitizeSettingsForStorage rules (.obj fields) selfHost).settings shown) selfHost =
      .ok [] := by
  let stored := (sanitizeSettingsForStorage rules (.obj fields) selfHost).settings
  have herrors : (sanitizeSettingsForStorage rules (shownSettings rules stored shown) selfHost).errors = [] := by
    refine sanitize_passes (fun p hp => ?_) ⟨[], [], []⟩
    obtain ⟨d, hd, rfl⟩ := mem_shownSettings hp
    refine ⟨adminSetting rules stored d, ?_⟩
    have hagain := adminSetting_again hlaw hunchanged hd
    cases hstored : get? stored d.key with
    | none =>
      have hdefault : adminSetting rules stored d = d.defaultValue := by
        rw [adminSetting, hstored, Option.getD_none, normalizeSettingValue_default hlaw hd]
      rw [hdefault]
      exact normalizeSettingValue_default_host hlaw hd selfHost
    | some text =>
      have hshown := hunchanged d.key text hstored
      rw [get?_buildAdminSettings, definitionOf_key d hd] at hshown
      obtain ⟨value, -, -, hnormal⟩ := (get?_sanitized hkeys d.key text).mp hstored
      have hsame : adminSetting rules stored d = text := Option.some.inj hshown
      rw [hsame] at hagain ⊢
      exact normalizeSettingValue_sameHost hlaw hnormal hagain
  have hok : ∃ changed, changedSettings rules stored (shownSettings rules stored shown) selfHost = .ok changed := by
    simp only [changedSettings, herrors, if_true]
    exact ⟨_, rfl⟩
  obtain ⟨changed, hchanged⟩ := hok
  show changedSettings rules stored (shownSettings rules stored shown) selfHost = .ok []
  rw [hchanged, changedSettings_nothing hlaw hunchanged hchanged]

/-- What was stored of an input is read as it is, and pages that are saved unedited change nothing: under the
    same host nothing is refused, under another one nothing is stored. -/
structure Saved (rules : BackupRules) (fields : Fields) (selfHost : Option String) : Prop where
  unchanged : Unchanged rules (sanitizeSettingsForStorage rules (.obj fields) selfHost).settings
  again : ∀ shown, changedSettings rules (sanitizeSettingsForStorage rules (.obj fields) selfHost).settings
    (shownSettings rules (sanitizeSettingsForStorage rules (.obj fields) selfHost).settings shown) selfHost = .ok []
  elsewhere : ∀ shown host changed,
    changedSettings rules (sanitizeSettingsForStorage rules (.obj fields) selfHost).settings
      (shownSettings rules (sanitizeSettingsForStorage rules (.obj fields) selfHost).settings shown) host = .ok changed →
    changed = []

/-- **Saved settings** are fixed points, and stay what they are when they are read and saved again, exactly if the
    path of the repository that was given is plain. -/
theorem saved_settings_settle (hlaw : rules.Lawful) (hpaths : rules.Paths) :
    (∀ key value text, normalizeSettingValue rules key value none = .ok text →
      (normalizeSettingValue rules key (.str text) none = .ok text ↔
        (key = "update_repository_url" → plainRepository rules value = true))) ∧
    ∀ fields selfHost, (Assoc.keys fields).Nodup →
      (Saved rules fields selfHost ↔ ∀ value, ("update_repository_url", value) ∈ fields →
        (normalizeSettingValue rules "update_repository_url" value selfHost).isOk = true →
        plainRepository rules value = true) := by
  refine ⟨fun key value text h => normalizeSettingValue_again_iff hlaw hpaths h, fun fields selfHost hkeys => ?_⟩
  have hiff : Unchanged rules (sanitizeSettingsForStorage rules (.obj fields) selfHost).settings ↔
      ∀ value, ("update_repository_url", value) ∈ fields →
        (normalizeSettingValue rules "update_repository_url" value selfHost).isOk = true →
        plainRepository rules value = true := by
    constructor
    · intro hunchanged value hmem hok
      cases hnormal : normalizeSettingValue rules "update_repository_url" value selfHost with
      | error e => simp [hnormal, Except.isOk, Except.toBool] at hok
      | ok text =>
        have hstored := (get?_sanitized hkeys "update_repository_url" text).mpr ⟨value, hmem, by decide, hnormal⟩
        have hshown := hunchanged _ _ hstored
        obtain ⟨d, hd, -⟩ := normalizeSettingValue_ok.mp hnormal
        obtain ⟨hd', hkey⟩ := definitionOf_some hd
        rw [get?_buildAdminSettings, hd] at hshown
        have hfixed := (adminSetting_eq_iff hlaw hd' (hkey ▸ hstored)).mp (Option.some.inj hshown)
        rw [hkey] at hfixed
        exact (normalizeSettingValue_again_iff hlaw hpaths hnormal).mp hfixed rfl
    · intro hplain key text hstored
      obtain ⟨value, hmem, -, hnormal⟩ := (get?_sanitized hkeys key text).mp hstored
      obtain ⟨d, hd, -⟩ := normalizeSettingValue_ok.mp hnormal
      obtain ⟨hd', rfl⟩ := definitionOf_some hd
      have hfixed := (normalizeSettingValue_again_iff hlaw hpaths hnormal).mpr fun hkey =>
        hplain value (hkey ▸ hmem) (by rw [← hkey, hnormal]; rfl)
      rw [get?_buildAdminSettings, hd, Option.map_some, (adminSetting_eq_iff hlaw hd' hstored).mpr hfixed]
  rw [← hiff]
  exact ⟨fun h => h.unchanged, fun h =>
    ⟨h, changedSettings_same hlaw hkeys h, fun _ _ _ => changedSettings_nothing hlaw h⟩⟩

/-! ## One platform -/

/-- A path of plain characters; where it is only a name in a directory, the name may be a dot segment. -/
def githubPath (names : List Char) : Option (List Char) :=
  let isDot (segment : List Char) : Bool := isSingleDot segment || isDoubleDot segment
  if !names.all (fun c => isRepositoryChar c || c == '/') then none
  else if !(names.splitOn '/').any isDot then some ('/' :: names)
  else match names.splitOn '/' with
    | [owner, name] =>
      if owner = [] ∨ isDot owner = true then none else some (writtenPath owner name)
    | _ => none

def githubUrl (path : List Char) : Url :=
  ⟨"https:", "", "", "github.com", "", String.ofList path, "", "", "https://github.com" ++ String.ofList path,
    "https://github.com"⟩

/-- The addresses of one host. -/
def parseGithub (text : String) : Option Url :=
  if text = "https://github.com" then some (githubUrl ['/'])
  else if startsWith "https://github.com/" text then
    (githubPath (text.toList.drop "https://github.com/".length)).map githubUrl
  else none

/-- `Number` of a decimal integer. -/
def decimalOf (text : String) : Option ℚ :=
  match (trim text).toList with
  | '-' :: digits => if digits.all Char.isDigit then some (-(Nat.ofDigitChars 10 digits 0 : ℚ)) else none
  | digits => if digits.all Char.isDigit then some (Nat.ofDigitChars 10 digits 0) else none

/-- Rules for fixed inputs: addresses of one host, decimal integers, texts in lower case. -/
def githubRules : BackupRules :=
  ⟨⟨⟨outboxRules, decimalOf⟩, fun report => report⟩, parseGithub, fun _ => none, fun text => text, fun _ => ""⟩

theorem githubRules_parseUrl (text : String) : githubRules.parseUrl text = parseGithub text := rfl

theorem githubRules_numberOf (text : String) : githubRules.numberOf text = decimalOf text := rfl

theorem githubRules_lower (text : String) : githubRules.lower text = text := rfl

end

/-- The names of a path: plain, and none of them a dot segment. -/
structure PlainNames (names : List Char) : Prop where
  plain : ∀ c ∈ names, (isRepositoryChar c || c == '/') = true
  segments : ∀ segment ∈ names.splitOn '/', isSingleDot segment = false ∧ isDoubleDot segment = false

theorem PlainNames.nil : PlainNames [] := ⟨nofun, by decide⟩

theorem splitOn_cons_slash (names : List Char) : ('/' :: names).splitOn '/' = [] :: names.splitOn '/' := by
  rw [splitOn, splitOn]
  exact List.splitOnP_append_cons_of_forall_mem (by simp : ∀ c ∈ ([] : List Char), (c == '/') = false) '/' rfl names

theorem splitOn_append_slash {owner : List Char} (howner : '/' ∉ owner) (names : List Char) :
    (owner ++ '/' :: names).splitOn '/' = owner :: names.splitOn '/' := by
  rw [splitOn, splitOn]
  refine List.splitOnP_append_cons_of_forall_mem (fun c hc => ?_) '/' rfl names
  exact beq_false_of_ne fun h => howner (by rwa [← h])

theorem githubPath_plain {names path : List Char} (h : githubPath names = some path) :
    ∃ names', path = '/' :: names' ∧ PlainNames names' := by
  simp only [githubPath] at h
  split_ifs at h with hchars hdots
  · refine ⟨names, (Option.some.inj h).symm, fun c hc => ?_, fun segment hsegment => ?_⟩
    · rw [Bool.not_eq_true', Bool.not_eq_false] at hchars
      exact all_eq_true.mp hchars c hc
    · rw [Bool.not_eq_true'] at hdots
      exact Bool.or_eq_false_iff.mp (Bool.eq_false_of_not_eq_true (List.any_eq_false.mp hdots segment hsegment))
  · split at h
    · rename_i owner name hsplit
      split_ifs at h with howner
      cases h
      obtain ⟨hne, hdot⟩ := not_or.mp howner
      obtain ⟨hnames, hslash, -⟩ := splitOn_pair hsplit
      have hplain : ∀ c ∈ owner, (isRepositoryChar c || c == '/') = true := by
        intro c hc
        rw [Bool.not_eq_true', Bool.not_eq_false] at hchars
        exact all_eq_true.mp hchars c (hnames ▸ List.mem_append_left _ hc)
      rw [writtenPath]
      split_ifs with hdouble hsingle
      · exact ⟨[], rfl, .nil⟩
      · refine ⟨owner ++ ['/'], rfl, fun c hc => ?_, fun segment hsegment => ?_⟩
        · rcases List.mem_append.mp hc with hc | hc
          · exact hplain c hc
          · rw [List.mem_singleton.mp hc]
            rfl
        · rw [splitOn_append_slash hslash] at hsegment
          rcases List.mem_cons.mp hsegment with rfl | hsegment
          · exact Bool.or_eq_false_iff.mp (Bool.eq_false_of_not_eq_true hdot)
          · exact PlainNames.nil.segments segment hsegment
      · -- A name that is no dot segment is not written here.
        refine absurd ?_ hdots
        rw [hsplit]
        simp only [List.any_cons, List.any_nil, Bool.or_false, Bool.not_eq_true', Bool.or_eq_false_iff]
        exact ⟨Bool.or_eq_false_iff.mp (Bool.eq_false_of_not_eq_true hdot), Bool.eq_false_of_not_eq_true hsingle,
          Bool.eq_false_of_not_eq_true hdouble⟩
    · cases h

theorem parseGithub_plain {text : String} {u : Url} (h : parseGithub text = some u) :
    ∃ names, u = githubUrl ('/' :: names) ∧ PlainNames names := by
  rw [parseGithub] at h
  split_ifs at h
  · exact ⟨[], (Option.some.inj h).symm, .nil⟩
  · obtain ⟨path, hpath, rfl⟩ := Option.map_eq_some_iff.mp h
    obtain ⟨names, rfl, hnames⟩ := githubPath_plain hpath
    exact ⟨names, rfl, hnames⟩

theorem parseGithub_path (names : List Char) :
    parseGithub ("https://github.com/" ++ ofList names) = (githubPath names).map githubUrl := by
  have hlists : ("https://github.com/" ++ ofList names).toList = "https://github.com/".toList ++ names := by
    rw [toList_append]
    exact congrArg _ toList_ofList
  have hne : ("https://github.com/" ++ ofList names) ≠ "https://github.com" := fun h => by
    have hlength := congrArg List.length (hlists ▸ congrArg String.toList h)
    rw [List.length_append] at hlength
    have h₁ : "https://github.com/".toList.length = 19 := by decide
    have h₂ : "https://github.com".toList.length = 18 := by decide
    omega
  have hstart : startsWith "https://github.com/" ("https://github.com/" ++ ofList names) = true := by
    rw [startsWith, hlists, List.isPrefixOf_iff_prefix]
    exact List.prefix_append _ _
  rw [parseGithub, if_neg hne, if_pos hstart, hlists]
  rw [List.drop_left' (by decide)]

theorem githubPath_names {names : List Char} (h : PlainNames names) : githubPath names = some ('/' :: names) := by
  have hchars : names.all (fun c => isRepositoryChar c || c == '/') = true := all_eq_true.mpr h.plain
  have hdots : (names.splitOn '/').any (fun segment => isSingleDot segment || isDoubleDot segment) = false := by
    refine List.any_eq_false.mpr fun segment hsegment => ?_
    rw [(h.segments segment hsegment).1, (h.segments segment hsegment).2]
    exact Bool.false_ne_true
  simp only [githubPath, hchars, hdots]
  rfl

theorem isTrimmed_of_plain {c : Char} (h : (isRepositoryChar c || c == '/') = true) : isTrimmed c = false := by
  simp only [isRepositoryChar, Bool.or_eq_true, beq_iff_eq] at h
  rcases h with (((h | h) | rfl) | h) | rfl
  · exact isTrimmed_of_word (by simp [h])
  · exact isTrimmed_of_word (by simp [h])
  · decide
  · exact isTrimmed_of_word (by simp [h])
  · decide

theorem decimalOf_toString (n : Int) : decimalOf (toString n) = some (n : ℚ) := by
  have hdigit : ∀ (m : Nat), ∀ c ∈ (toString m).toList, c.isDigit = true := by
    intro m c hc
    rw [Nat.toString_eq_repr, Nat.toList_repr] at hc
    exact Nat.isDigit_of_mem_toDigits (by decide) (by decide) hc
  have hword : ∀ c : Char, c.isDigit = true → isTrimmed c = false := fun c hc =>
    isTrimmed_of_word (by simp [Char.isAlphanum, hc])
  cases n with
  | ofNat m =>
    show decimalOf (toString m) = _
    have htrim : trim (toString m) = toString m := trim_eq_self fun c hc => hword c (hdigit m c hc)
    rw [decimalOf, htrim]
    split
    · rename_i digits hlist
      have hminus := hdigit m '-' (by rw [hlist]; exact mem_cons_self)
      cases hminus
    · rw [if_pos (all_eq_true.mpr (hdigit m)), Nat.toString_eq_repr, Nat.toList_repr,
        Nat.ofDigitChars_ten_toDigits]
      rfl
  | negSucc m =>
    show decimalOf ("-" ++ toString (m + 1)) = _
    have hlist : ("-" ++ toString (m + 1)).toList = '-' :: (toString (m + 1)).toList := by
      rw [toList_append]
      rfl
    have htrim : trim ("-" ++ toString (m + 1)) = "-" ++ toString (m + 1) := by
      refine trim_eq_self fun c hc => ?_
      rw [hlist] at hc
      rcases List.mem_cons.mp hc with rfl | hc
      · decide
      · exact hword c (hdigit _ c hc)
    rw [decimalOf, htrim, hlist]
    simp only [all_eq_true.mpr (hdigit (m + 1)), if_true]
    rw [Nat.toString_eq_repr, Nat.toList_repr, Nat.ofDigitChars_ten_toDigits, Int.cast_negSucc]

theorem githubUrl_href (names : List Char) :
    (githubUrl ('/' :: names)).href = "https://github.com/" ++ ofList names := by
  have hslash : ofList ('/' :: names) = "/" ++ ofList names := by
    rw [← String.toList_inj]
    simp only [toList_append, toList_ofList]
    rfl
  rw [githubUrl, hslash, ← String.append_assoc]
  rfl

theorem githubUrl_again {names : List Char} (h : PlainNames names) :
    trim (githubUrl ('/' :: names)).href = (githubUrl ('/' :: names)).href ∧
      parseGithub (githubUrl ('/' :: names)).href = some (githubUrl ('/' :: names)) := by
  rw [githubUrl_href, parseGithub_path, githubPath_names h]
  refine ⟨trim_eq_self fun c hc => ?_, rfl⟩
  simp only [toList_append, toList_ofList, List.mem_append] at hc
  rcases hc with hc | hc
  · revert c
    decide
  · exact isTrimmed_of_plain (h.plain c hc)

theorem githubUrl_origin (names : List Char) :
    trim (githubUrl ('/' :: names)).origin = (githubUrl ('/' :: names)).origin ∧
      ((githubUrl ('/' :: names)).protocol ++ "//").toList <+: (githubUrl ('/' :: names)).origin.toList ∧
      ∃ v, parseGithub (githubUrl ('/' :: names)).origin = some v ∧ (githubUrl ('/' :: names)).Origin v := by
  have htrim : trim "https://github.com" = "https://github.com" := by decide
  refine ⟨htrim, ?_, githubUrl ['/'], rfl, ⟨rfl, rfl, rfl, rfl, rfl⟩⟩
  show "https://".toList <+: "https://github.com".toList
  decide

theorem githubRules_lawful : githubRules.Lawful where
  href := by
    intro text u h _
    rw [githubRules_parseUrl] at h ⊢
    obtain ⟨names, rfl, hnames⟩ := parseGithub_plain h
    exact githubUrl_again hnames
  origin := by
    intro text u h _
    rw [githubRules_parseUrl] at h
    obtain ⟨names, rfl, -⟩ := parseGithub_plain h
    exact githubUrl_origin names
  lower := fun _ => rfl
  lowerAscii := fun text _ => githubRules_lower text
  numberTrim := by
    intro text
    rw [githubRules_numberOf, githubRules_numberOf, decimalOf, decimalOf, trim_trim]
  numberInt := by
    intro n _
    rw [githubRules_numberOf]
    exact decimalOf_toString n
  digest := by
    intro token
    have hempty : githubRules.hashAgentToken token = "" := rfl
    rw [hempty]
    decide

theorem githubRules_paths : githubRules.Paths where
  blanks := by
    intro text u h _ c hc
    rw [githubRules_parseUrl] at h
    obtain ⟨names, rfl, hnames⟩ := parseGithub_plain h
    rw [githubUrl, toList_ofList] at hc
    rcases List.mem_cons.mp hc with rfl | hc
    · decide
    · exact isTrimmed_of_plain (hnames.plain c hc)
  rewritten := by
    intro text u slashes owner name rest h hprotocol hparts hslashes howner hname hne hne'
    rw [githubRules_parseUrl] at h
    obtain ⟨names, rfl, hnames⟩ := parseGithub_plain h
    rw [githubUrl, toList_ofList] at hparts
    have hread : ∃ slashes', names = slashes' ++ (owner ++ '/' :: name) ++ rest ∧ ∀ c ∈ slashes', c = '/' := by
      cases slashes with
      | nil =>
        obtain ⟨c, owner', rfl⟩ := List.exists_cons_of_ne_nil hne
        rw [List.nil_append, append_assoc, List.cons_append] at hparts
        exact absurd (by rw [(List.cons.inj hparts).1]; exact mem_cons_self) howner
      | cons c slashes' =>
        rw [append_assoc, List.cons_append, ← append_assoc] at hparts
        exact ⟨slashes', (List.cons.inj hparts).2, fun c hc => hslashes c (List.mem_cons_of_mem _ hc)⟩
    obtain ⟨slashes', rfl, hslashes'⟩ := hread
    have hsegment : owner ∈ (slashes' ++ (owner ++ '/' :: name) ++ rest).splitOn '/' := by
      clear hparts hnames h hslashes hprotocol
      induction slashes' with
      | nil =>
        rw [List.nil_append, append_assoc, List.cons_append, splitOn_append_slash howner]
        exact mem_cons_self
      | cons c slashes' ih =>
        obtain rfl := hslashes' c mem_cons_self
        rw [append_assoc, List.cons_append, splitOn_cons_slash, ← append_assoc]
        exact List.mem_cons_of_mem _ (ih fun c hc => hslashes' c (List.mem_cons_of_mem _ hc))
    obtain ⟨hsingle, hdouble⟩ := hnames.segments owner hsegment
    have hchars : (owner ++ '/' :: name).all (fun c => isRepositoryChar c || c == '/') = true :=
      all_eq_true.mpr fun c hc =>
        hnames.plain c (List.mem_append_left _ (List.mem_append_right _ hc))
    have hpath : githubPath (owner ++ '/' :: name) = some (writtenPath owner name) := by
      simp only [githubPath, hchars, splitOn_of_pair howner hname, List.any_cons, List.any_nil, hsingle, hdouble,
        Bool.or_false, Bool.false_or, Bool.not_true, Bool.false_eq_true, if_false, or_false, if_neg hne, writtenPath]
      cases hname₁ : isSingleDot name <;> cases hname₂ : isDoubleDot name <;> simp
    refine ⟨githubUrl (writtenPath owner name), ?_, rfl, rfl, rfl, rfl, rfl, rfl, toList_ofList⟩
    have hwhole : "https://github.com/" ++ ofList owner ++ "/" ++ ofList name =
        "https://github.com/" ++ ofList (owner ++ '/' :: name) := by
      rw [← String.toList_inj]
      simp only [toList_append, toList_ofList, append_assoc]
      rfl
    rw [hwhole, githubRules_parseUrl, parseGithub_path, hpath]
    rfl

/-- Two endings are one too many: the second goes when the setting is read. -/
theorem second_ending_goes : ¬ ∀ rules : BackupRules, rules.Lawful → rules.Paths → ∀ key value text,
      normalizeSettingValue rules key value none = .ok text →
      normalizeSettingValue rules key (.str text) none = .ok text := by
  intro h
  have hagain := h githubRules githubRules_lawful githubRules_paths "update_repository_url"
    (.str "https://github.com/o/r.git.git") "https://github.com/o/r.git" (by decide +kernel)
  revert hagain
  decide +kernel

/-- One ending is taken, and the settings stay what they are. -/
theorem one_ending_settles :
    normalizeSettingValue githubRules "update_repository_url" (.str "https://github.com/o/r") none =
      .ok "https://github.com/o/r" ∧
    Saved githubRules [("update_repository_url", .str "https://github.com/o/r.git"), ("language", .str "en")] none := by
  have hsettle := saved_settings_settle githubRules_lawful githubRules_paths
  refine ⟨(hsettle.1 "update_repository_url" (.str "https://github.com/o/r.git") _ (by decide +kernel)).mpr
    fun _ => by decide +kernel, (hsettle.2 _ none (by decide)).mpr fun value hmem _ => ?_⟩
  simp only [List.mem_cons, Prod.mk.injEq, true_and, List.not_mem_nil, or_false] at hmem
  rcases hmem with rfl | ⟨h, -⟩
  · decide +kernel
  · exact absurd h (by decide)

end CfMonitor.Backup
