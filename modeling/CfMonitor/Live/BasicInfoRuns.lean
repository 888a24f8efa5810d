/-
  When acknowledged host information is in the row.

  1. **Specification** (`Held`) — the row holds the texts and the positive numbers that a request
     brought, for nine columns.

  2. **Condition** (`InfoWorld.Meets`) — there is a row; a number is a whole one; and what the writer
     leaves out because it takes it for stored is in the row: the value of the cached record, or the
     value that the object remembers.

  3. **Results** — `acknowledged_info_stored`, and where it fails `remembered_report_ignored`.
-/
import CfMonitor.Live.BasicInfoSync

namespace CfMonitor.Live

open CfMonitor.Lib
open Assoc (get? get?_flatMap)
open ViewerWorld (basicInfoPatch)

/-! ## Specification -/

def hostTexts : List String :=
  ["cpu_name", "virtualization", "arch", "os", "kernel_version", "gpu_name", "version"]

def hostNumbers : List String := ["cpu_cores", "mem_total"]

/-- The text that host information brings for a column: not empty, and without blanks around it. -/
def providedText (info : Fields) (field : String) : Option String :=
  match Json.str? (Assoc.get? info field) with
  | some text => if trim text = "" then none else some (trim text)
  | none => none

/-- The positive number that it brings for a column. -/
def providedNumber (info : Fields) (field : String) : Option ℚ :=
  match Assoc.get? info field with
  | some (.num (.finite x)) => if 0 < x then some x else none
  | _ => none

/-- The row holds what host information brings. -/
structure Held (info : Fields) (row : Option HostRow) : Prop where
  text : ∀ field ∈ hostTexts, ∀ text, providedText info field = some text →
    ∃ r, row = some r ∧ r.text field = text
  number : ∀ field ∈ hostNumbers, ∀ x, providedNumber info field = some x →
    ∃ r, row = some r ∧ (r.number field : ℚ) = x

/-- What a writer takes for stored. -/
structure Assumed where
  text : String → Option String
  number : String → Option ℚ

/-- The row justifies what is left out, and can hold the rest. -/
structure Justified (info : Fields) (row : Option HostRow) (assumed : Assumed) : Prop where
  text : ∀ field ∈ hostTexts, ∀ text, providedText info field = some text →
    ∃ r, row = some r ∧ (assumed.text field = some text → r.text field = text)
  number : ∀ field ∈ hostNumbers, ∀ x, providedNumber info field = some x →
    ∃ r, row = some r ∧ (assumed.number field = some x → (r.number field : ℚ) = x) ∧ x.den = 1

/-- The route takes the values of the record for stored. -/
def Assumed.ofRecord (client : HostRow) : Assumed :=
  ⟨fun field => some (client.text field), fun field => some (client.number field)⟩

/-- The object takes for stored what the signature says, once the patch has that signature. -/
def Assumed.ofSignature (remembered : Option PatchSignature) (patch : Fields) : Assumed :=
  if remembered = some (patchSignature patch) then
    ⟨fun field => (Assoc.get? (patchSignature patch) field).bind Prod.fst,
      fun field => (Assoc.get? (patchSignature patch) field).bind Prod.snd⟩
  else ⟨fun _ => none, fun _ => none⟩

/-- The condition of a step: an acknowledged request finds a row that justifies what its writer leaves
    out.  A request whose update fails is not acknowledged. -/
def InfoWorld.Meets (rules : ViewerRules) (w : InfoWorld) : InfoEvent → Prop
  | .upload body age => ∀ client, w.record age = some client →
    (updateClient w.row (routePatch client body)).isSome →
    Justified body w.row (.ofRecord client)
  | .report basicInfo current =>
    let patch := ViewerWorld.basicInfoPatch rules basicInfo
    current = true →
    (w.signature = some (patchSignature patch) ∨ (updateClient w.row patch).isSome) →
    Justified basicInfo w.row (.ofSignature w.signature patch)
  | _ => True

/-- The acknowledged host information since the last write is in the row. -/
def InfoWorld.Stored (w : InfoWorld) : Prop := ∀ info ∈ w.standing, Held info w.row

/-! ## Casts -/

theorem roundHalfEven_int (n : Int) : roundHalfEven (n : ℚ) = n := by
  rw [roundHalfEven, Rat.floor_intCast]
  have hzero : (n : ℚ) - n = 0 := by simp
  simp only [hzero]
  rw [if_pos (by norm_num)]

variable {field : String}

variable {x : ℚ}

theorem castNumber_eq {n : Int} (h : castNumber field x = some n) : (n : ℚ) = x ↔ x.den = 1 := by
  have hwhole : (n : ℚ) = x → x.den = 1 := fun heq => heq ▸ Rat.den_intCast n
  refine ⟨hwhole, fun hden => ?_⟩
  have hself : (x.num : ℚ) = x := (Rat.den_eq_one_iff x).mp hden
  rw [castNumber] at h
  split_ifs at h
  · -- the text of a whole number
    rw [toInteger] at h
    split_ifs at h
    rw [← Option.some.inj h]
    exact hself
  · -- rounding
    rw [toBigint] at h
    split_ifs at h
    rw [← Option.some.inj h, ← hself, roundHalfEven_int]

/-! ## Updates -/

variable {info : Fields} {row : Option HostRow}

variable {row' : Option HostRow}

/-- **One update.**  Where the patch leaves out exactly what is taken for stored, the row afterwards
    holds what was brought if and only if the row before justifies it. -/
theorem held_updateClient {patch : Fields} {assumed : Assumed} (hupdate : updateClient row patch = some row')
    (htext : ∀ field ∈ hostTexts, ∀ text, providedText info field = some text →
      get? patch field = if assumed.text field = some text then none else some (.str text))
    (hnumber : ∀ field ∈ hostNumbers, ∀ x, providedNumber info field = some x → get? patch field
        = if assumed.number field = some x then none else some (.num (.finite x))) :
    Held info row' ↔ Justified info row assumed := by
  cases row with
  | none =>
    cases hupdate
    constructor
    · intro h
      refine ⟨fun field hfield text hprovided => ?_, fun field hfield x hprovided => ?_⟩
      · obtain ⟨r, hr, -⟩ := h.text field hfield text hprovided
        cases hr
      · obtain ⟨r, hr, -⟩ := h.number field hfield x hprovided
        cases hr
    · intro h
      refine ⟨fun field hfield text hprovided => ?_, fun field hfield x hprovided => ?_⟩
      · obtain ⟨r, hr, -⟩ := h.text field hfield text hprovided
        cases hr
      · obtain ⟨r, hr, -⟩ := h.number field hfield x hprovided
        cases hr
  | some r =>
    rw [updateClient] at hupdate
    split_ifs at hupdate with hall
    cases hupdate
    rw [List.all_eq_true] at hall
    have hcolumn : ∀ field ∈ hostNumbers, field ∈ numberColumns := by decide
    have htext' : ∀ field ∈ hostTexts, ∀ text, providedText info field = some text →
        (patchedText patch field (r.text field) = text
          ↔ (assumed.text field = some text → r.text field = text)) := by
      intro field hfield text hprovided
      rw [patchedText, htext field hfield text hprovided]
      by_cases hassumed : assumed.text field = some text
      · rw [if_pos hassumed]
        exact ⟨fun h _ => h, fun h => h hassumed⟩
      · rw [if_neg hassumed]
        exact ⟨fun _ h => absurd h hassumed, fun _ => rfl⟩
    have hnumber' : ∀ field ∈ hostNumbers, ∀ x, providedNumber info field = some x →
        ((((patchedNumber patch field (r.number field)).getD (r.number field) : Int) : ℚ) = x
          ↔ (assumed.number field = some x → (r.number field : ℚ) = x) ∧ x.den = 1) := by
      intro field hfield x hprovided
      have hsome := hall field (hcolumn field hfield)
      rw [patchedNumber, hnumber field hfield x hprovided] at hsome ⊢
      by_cases hassumed : assumed.number field = some x
      · rw [if_pos hassumed]
        show (r.number field : ℚ) = x ↔ _
        exact ⟨fun h => ⟨fun _ => h, h ▸ Rat.den_intCast _⟩, fun h => h.1 hassumed⟩
      · rw [if_neg hassumed] at hsome ⊢
        obtain ⟨n, hn⟩ := Option.isSome_iff_exists.mp hsome
        have hcast : castNumber field x = some n := hn
        show (((castNumber field x).getD (r.number field) : Int) : ℚ) = x ↔ _
        rw [hcast, Option.getD_some, castNumber_eq hcast]
        exact ⟨fun h => ⟨fun h' => absurd h' hassumed, h⟩, fun h => h.2⟩
    constructor
    · intro h
      refine ⟨fun field hfield text hprovided => ⟨r, rfl, ?_⟩, fun field hfield x hprovided => ⟨r, rfl, ?_⟩⟩
      · obtain ⟨r', hr', heq⟩ := h.text field hfield text hprovided
        cases hr'
        exact (htext' field hfield text hprovided).mp heq
      · obtain ⟨r', hr', heq⟩ := h.number field hfield x hprovided
        cases hr'
        exact (hnumber' field hfield x hprovided).mp heq
    · intro h
      refine ⟨fun field hfield text hprovided => ⟨_, rfl, ?_⟩, fun field hfield x hprovided => ⟨_, rfl, ?_⟩⟩
      · obtain ⟨r', hr', heq⟩ := h.text field hfield text hprovided
        cases hr'
        exact (htext' field hfield text hprovided).mpr heq
      · obtain ⟨r', hr', heq⟩ := h.number field hfield x hprovided
        cases hr'
        exact (hnumber' field hfield x hprovided).mpr heq

/-! ## The patches -/

theorem nonEmptyString_provided {text : String}
    (h : providedText info field = some text) (fallback : String) :
    nonEmptyString (get? info field) fallback = text := by
  rw [providedText] at h
  rw [nonEmptyString]
  cases hstr : Json.str? (get? info field) with
  | none => rw [hstr] at h; cases h
  | some value =>
    rw [hstr] at h
    by_cases hblank : trim value = ""
    · exact absurd ((if_pos hblank).symm.trans h) (by simp)
    · exact (if_neg hblank).trans (Option.some.inj ((if_neg hblank).symm.trans h))

theorem providedNumber_some (h : providedNumber info field = some x) :
    get? info field = some (.num (.finite x)) ∧ 0 < x := by
  rw [providedNumber] at h
  split at h
  · rename_i y hget
    split_ifs at h with hpos
    rw [← Option.some.inj h]
    exact ⟨hget, hpos⟩
  · cases h

theorem nextValues_nodup (client : HostRow) (body : Fields) :
    (Assoc.keys (nextValues client body)).Nodup := by
  show (["cpu_name", "virtualization", "arch", "cpu_cores", "os", "kernel_version", "gpu_name",
    "mem_total", "swap_total", "disk_total", "version"] : List String).Nodup
  decide

variable {body : Fields}

/-- The route leaves out the values of the record. -/
theorem get?_routePatch_text (client : HostRow)
    (hfield : field ∈ hostTexts) {text : String} (h : providedText body field = some text) :
    get? (routePatch client body) field
      = if some (client.text field) = some text then none else some (.str text) := by
  have hnext : get? (nextValues client body) field
      = some (.str (nonEmptyString (get? body field) (client.text field))) := by
    simp only [hostTexts, List.mem_cons, List.not_mem_nil, or_false] at hfield
    rcases hfield with rfl | rfl | rfl | rfl | rfl | rfl | rfl <;> rfl
  rw [routePatch, buildChangedClientPatch, Assoc.get?_filter _ (nextValues_nodup client body), hnext,
    nonEmptyString_provided h]
  by_cases hsame : client.text field = text
  · rw [if_pos (by rw [hsame])]
    exact Option.filter_some_neg (by simp [clientFieldChanged, hsame])
  · rw [if_neg (by simpa using hsame)]
    exact Option.filter_some_pos (by simp [clientFieldChanged, hsame])

theorem get?_routePatch_number (client : HostRow)
    (hfield : field ∈ hostNumbers) (h : providedNumber body field = some x) :
    get? (routePatch client body) field
      = if some (client.number field : ℚ) = some x then none else some (.num (.finite x)) := by
  obtain ⟨hget, hpos⟩ := providedNumber_some h
  have hpositive : positiveNumber (get? body field) (client.number field) = x := by
    rw [hget]
    exact if_pos hpos
  have hnext : get? (nextValues client body) field
      = some (.num (.finite (positiveNumber (get? body field) (client.number field)))) := by
    simp only [hostNumbers, List.mem_cons, List.not_mem_nil, or_false] at hfield
    rcases hfield with rfl | rfl <;> rfl
  rw [routePatch, buildChangedClientPatch, Assoc.get?_filter _ (nextValues_nodup client body), hnext,
    hpositive]
  by_cases hsame : (client.number field : ℚ) = x
  · rw [if_pos (by rw [hsame])]
    exact Option.filter_some_neg (by simp [clientFieldChanged, hsame])
  · rw [if_neg (by simpa using hsame)]
    exact Option.filter_some_pos (by simp [clientFieldChanged, hsame])

section Object

variable (rules : ViewerRules) (info : Fields) (field : String)

/-- What the object takes over from a text field. -/
def textEntry : Fields :=
  match Json.str? (Assoc.get? info field) with
  | some value =>
    if trim value = "" then []
    else if (field = "ipv4" ∨ field = "ipv6") ∧ rules.isPublicIpAddress (trim value) = false then []
    else if field = "region" ∧ isUsefulRegion (trim value) = false then []
    else [(field, .str (trim value))]
  | none => []

/-- What it takes over from a number field. -/
def numberEntry : Fields :=
  if field = "disk_total" ∧ ViewerWorld.isZeroOrNull (Assoc.get? info field) then [(field, .int 0)]
  else match rules.toFinite (Assoc.get? info field) with
    | some x =>
      if (if field = "swap_total" then 0 ≤ x else 0 < x) then [(field, .num (.finite x))] else []
    | none => []

def reportTexts : List String :=
  ["cpu_name", "virtualization", "arch", "os", "kernel_version", "gpu_name", "ipv4", "ipv6", "region",
    "version"]

theorem basicInfoPatch_eq : basicInfoPatch rules info
    = reportTexts.flatMap (textEntry rules info) ++ numberColumns.flatMap (numberEntry rules info) :=
  rfl

variable {rules info field}

theorem textEntry_key : ∀ p ∈ textEntry rules info field, p.1 = field := by
  intro p hp
  rw [textEntry] at hp
  split at hp
  · split_ifs at hp
    · cases hp
    · cases hp
    · cases hp
    · rw [List.mem_singleton.mp hp]
  · cases hp

theorem numberEntry_key : ∀ p ∈ numberEntry rules info field, p.1 = field := by
  intro p hp
  rw [numberEntry] at hp
  split at hp
  · rw [List.mem_singleton.mp hp]
  · split at hp
    · rename_i x hx
      by_cases hy : if field = "swap_total" then 0 ≤ x else 0 < x
      · rw [if_pos hy] at hp
        rw [List.mem_singleton.mp hp]
      · rw [if_neg hy] at hp
        cases hp
    · cases hp

/-- The object takes over the texts that a report brings. -/
theorem get?_basicInfoPatch_text (hfield : field ∈ hostTexts) {text : String}
    (h : providedText info field = some text) :
    get? (basicInfoPatch rules info) field = some (.str text) := by
  have hplain : ∀ field ∈ hostTexts,
      field ∈ reportTexts ∧ field ≠ "ipv4" ∧ field ≠ "ipv6" ∧ field ≠ "region" := by decide
  obtain ⟨hlisted, hipv4, hipv6, hregion⟩ := hplain field hfield
  have hentry : textEntry rules info field = [(field, .str text)] := by
    rw [textEntry]
    rw [providedText] at h
    cases hstr : Json.str? (get? info field) with
    | none => rw [hstr] at h; cases h
    | some value =>
      rw [hstr] at h
      by_cases hblank : trim value = ""
      · exact absurd ((if_pos hblank).symm.trans h) (by simp)
      · obtain rfl : trim value = text := Option.some.inj ((if_neg hblank).symm.trans h)
        simp only [hblank, hipv4, hipv6, hregion, false_or, false_and, if_false]
  rw [basicInfoPatch_eq, Assoc.get?_append, get?_flatMap (fun _ => textEntry_key),
    if_pos hlisted, hentry, get?, if_pos rfl, Option.some_or]

theorem get?_basicInfoPatch_number (hfield : field ∈ hostNumbers) {x : ℚ}
    (h : providedNumber info field = some x) :
    get? (basicInfoPatch rules info) field = some (.num (.finite x)) := by
  have hplain : ∀ field ∈ hostNumbers,
      field ∉ reportTexts ∧ field ∈ numberColumns ∧ field ≠ "disk_total" ∧ field ≠ "swap_total" := by
    decide
  obtain ⟨hother, hlisted, hdisk, hswap⟩ := hplain field hfield
  obtain ⟨hget, hpos⟩ := providedNumber_some h
  have hentry : numberEntry rules info field = [(field, .num (.finite x))] := by
    have hfinite : rules.toFinite (some (.num (.finite x))) = some x := rfl
    rw [numberEntry, hget, hfinite]
    simp only [hdisk, hswap, hpos, false_and, if_false, if_true]
  rw [basicInfoPatch_eq, Assoc.get?_append, get?_flatMap (fun _ => textEntry_key),
    if_neg hother, Option.none_or, get?_flatMap (fun _ => numberEntry_key), if_pos hlisted,
    hentry, get?, if_pos rfl]

end Object

variable {rules : ViewerRules}

/-! ## Steps -/

/-- An empty patch leaves the row alone. -/
theorem updateClient_nil (row : Option HostRow) : updateClient row [] = some row := by
  cases row with
  | none => rfl
  | some r => rfl

variable {w : InfoWorld}

theorem record_patch {client : HostRow} (h : updateClient w.row (routePatch client body) = some row) :
    Held body row ↔ Justified body w.row (.ofRecord client) :=
  held_updateClient h (fun _ hfield _ hprovided => get?_routePatch_text client hfield hprovided)
    fun _ hfield _ hprovided => get?_routePatch_number client hfield hprovided

namespace InfoWorld

variable {w stored : InfoWorld} {patch : Fields}

theorem Stored.store (hI : w.Stored) (h : w.store patch = some stored) :
    updateClient w.row patch = some stored.row ∧ stored.Stored := by
  rw [InfoWorld.store] at h
  split at h
  · cases h
  · rename_i hnone
    cases h
    refine ⟨?_, hI⟩
    -- no row is there to be updated
    cases hrow : w.row with
    | none => rfl
    | some r =>
      rw [hrow, updateClient] at hnone
      split_ifs at hnone
      cases Option.some.inj hnone
  · rename_i row hrow
    cases h
    exact ⟨hrow, nofun⟩

theorem Stored.storeChanged (hI : w.Stored) (h : w.storeChanged patch = some stored) :
    updateClient w.row patch = some stored.row ∧ stored.Stored := by
  rw [InfoWorld.storeChanged] at h
  split_ifs at h with hempty
  · cases h
    obtain rfl : patch = [] := by simpa using hempty
    exact ⟨updateClient_nil w.row, hI⟩
  · exact hI.store h

theorem store_none (h : w.store patch = none) : updateClient w.row patch = none := by
  rw [store] at h
  split at h
  · assumption
  · cases h
  · cases h

theorem storeChanged_none (h : w.storeChanged patch = none) : updateClient w.row patch = none := by
  rw [storeChanged] at h
  split_ifs at h
  exact store_none h

/-- An update beside the requests. -/
theorem Stored.getD (hI : w.Stored) {result : Option InfoWorld}
    (h : ∀ stored, result = some stored → stored.Stored) : (result.getD w).Stored := by
  cases result with
  | none => exact hI
  | some stored => exact h stored rfl

theorem Stored.acknowledge (hI : w.Stored) (info : Fields) :
    (w.acknowledge info).Stored ↔ Held info w.row := by
  constructor
  · exact fun h => h info List.mem_cons_self
  · intro h other hmem
    rcases List.mem_cons.mp hmem with rfl | hmem
    · exact h
    · exact hI other hmem

end InfoWorld

variable {remembered : Option PatchSignature}

theorem held_remembered (h : basicInfoPatch rules info = [] ∨
      remembered = some (patchSignature (basicInfoPatch rules info))) :
    Held info row ↔ Justified info row (.ofSignature remembered (basicInfoPatch rules info)) := by
  have hlookup : ∀ field, (get? (patchSignature (basicInfoPatch rules info)) field)
      = (get? (basicInfoPatch rules info) field).map scalarOf :=
    fun field => Assoc.get?_map scalarOf _ field
  refine held_updateClient (updateClient_nil row) (fun field hfield text hprovided => ?_)
    fun field hfield x hprovided => ?_
  · have hpatch : get? (basicInfoPatch rules info) field = some (.str text) :=
      get?_basicInfoPatch_text hfield hprovided
    rcases h with hempty | hsame
    · rw [hempty] at hpatch
      simp [get?] at hpatch
    · have hassumed : (get? (patchSignature (basicInfoPatch rules info)) field).bind
          Prod.fst = some text := by rw [hlookup, hpatch]; rfl
      rw [Assumed.ofSignature, if_pos hsame, if_pos hassumed]
      rfl
  · have hpatch : get? (basicInfoPatch rules info) field
        = some (.num (.finite x)) := get?_basicInfoPatch_number hfield hprovided
    rcases h with hempty | hsame
    · rw [hempty] at hpatch
      simp [get?] at hpatch
    · have hassumed : (get? (patchSignature (basicInfoPatch rules info)) field).bind
          Prod.snd = some x := by rw [hlookup, hpatch]; rfl
      rw [Assumed.ofSignature, if_pos hsame, if_pos hassumed]
      rfl

theorem held_written (hnew : remembered ≠ some (patchSignature (basicInfoPatch rules info)))
    (h : updateClient row (basicInfoPatch rules info) = some row') :
    Held info row' ↔ Justified info row (.ofSignature remembered (basicInfoPatch rules info)) := by
  rw [Assumed.ofSignature, if_neg hnew]
  refine held_updateClient h (fun field hfield text hprovided => ?_) fun field hfield x hprovided => ?_
  · rw [get?_basicInfoPatch_text hfield hprovided]
    rfl
  · rw [get?_basicInfoPatch_number hfield hprovided]
    rfl

/-- **A report in the object** keeps the acknowledged information in the row, if and only if it meets
    the condition. -/
theorem syncBasicInfoFromReport_stored (hI : w.Stored) (info : Fields) (current : Bool) :
    (syncBasicInfoFromReport rules w info current).Stored ↔ w.Meets rules (.report info current) := by
  rw [syncBasicInfoFromReport, InfoWorld.Meets]
  by_cases hskip : ((basicInfoPatch rules info).isEmpty ||
      w.signature == some (patchSignature (basicInfoPatch rules info))) = true
  · have hcases : basicInfoPatch rules info = [] ∨
        w.signature = some (patchSignature (basicInfoPatch rules info)) := by
      simpa using hskip
    have hanswered : w.signature = some (patchSignature (basicInfoPatch rules info)) ∨
        (updateClient w.row (basicInfoPatch rules info)).isSome = true := by
      refine hcases.symm.imp id fun hempty => ?_
      rw [hempty, updateClient_nil]
      rfl
    rw [if_pos hskip]
    cases current with
    | false => exact ⟨nofun, fun _ => hI⟩
    | true =>
      rw [if_pos rfl, hI.acknowledge, held_remembered hcases]
      exact ⟨fun h _ _ => h, fun h => h rfl hanswered⟩
  · have hnew : w.signature ≠ some (patchSignature (basicInfoPatch rules info)) := by
      simp only [Bool.or_eq_true, not_or, beq_iff_eq] at hskip
      exact hskip.2
    rw [if_neg hskip]
    cases hstore : w.store (basicInfoPatch rules info) with
    | none =>
      have hfailed := InfoWorld.store_none hstore
      refine ⟨fun _ _ h => ?_, fun _ => hI⟩
      rcases h with hsame | hsome
      · exact absurd hsame hnew
      · rw [hfailed] at hsome
        cases hsome
    | some stored =>
      obtain ⟨hupdate, hstored⟩ := hI.store hstore
      cases current with
      | false => exact ⟨nofun, fun _ => hstored⟩
      | true =>
        have hsigned : ({ stored with
            signature := some (patchSignature (basicInfoPatch rules info)) }
            : InfoWorld).Stored := hstored
        show (InfoWorld.acknowledge _ info).Stored ↔ _
        rw [hsigned.acknowledge, held_written hnew hupdate]
        exact ⟨fun h _ _ => h, fun h => h rfl (.inr (by rw [hupdate]; rfl))⟩

/-- **One step** keeps the acknowledged information in the row, if and only if it meets the
    condition. -/
theorem infoStep_stored {w' : InfoWorld} {e : InfoEvent} (hI : w.Stored)
    (hs : infoStep rules w e = some w') : w'.Stored ↔ w.Meets rules e := by
  cases e with
  | upload body age =>
    obtain ⟨client, hclient, rfl⟩ := Option.map_eq_some_iff.mp hs
    cases hstore : w.storeChanged (routePatch client body) with
    | none =>
      have hfailed := InfoWorld.storeChanged_none hstore
      refine ⟨fun _ other hother hsome => ?_, fun _ => hI⟩
      obtain rfl := Option.some.inj (hclient.symm.trans hother)
      rw [hfailed] at hsome
      cases hsome
    | some stored =>
      obtain ⟨hupdate, hstored⟩ := hI.storeChanged hstore
      show (stored.acknowledge body).Stored ↔ _
      rw [hstored.acknowledge, record_patch hupdate]
      refine ⟨fun h other hother _ => ?_, fun h => h client hclient (by rw [hupdate]; rfl)⟩
      obtain rfl := Option.some.inj (hclient.symm.trans hother)
      exact h
  | reportBatch info age =>
    obtain ⟨client, -, rfl⟩ := Option.map_eq_some_iff.mp hs
    exact iff_of_true (hI.getD fun _ h => (hI.storeChanged h).2) trivial
  | report info current =>
    cases hs
    exact syncBasicInfoFromReport_stored hI info current
  | version text =>
    cases hs
    exact iff_of_true (hI.getD fun _ h => (hI.store h).2) trivial
  | deleteClient =>
    cases hs
    exact iff_of_true nofun trivial
  | createClient =>
    rw [infoStep] at hs
    split_ifs at hs
    cases hs
    exact iff_of_true nofun trivial
  | forget =>
    cases hs
    exact iff_of_true hI trivial

/-! ## Runs -/

/-- **Acknowledged host information is in the row.**  In every state of a run the row holds all
    information that was acknowledged since the last write, if and only if every acknowledged request
    of the run finds a row that justifies what its writer leaves out. -/
theorem acknowledged_info_stored (rules : ViewerRules) (es : List InfoEvent) :
    (infoMachine rules).Along (fun _ _ w' => w'.Stored) .start es
      ↔ (infoMachine rules).Along (fun w e _ => w.Meets rules e) .start es :=
  (infoMachine rules).along_iff_kept (fun _ _ _ hI hs => infoStep_stored hI hs) es .start
    nofun

/-- Host information with one text. -/
def osInfo (os : String) : Fields := [("os", .str os)]

/-- Nothing of the rules matters for one text. -/
def plainInfoRules : ViewerRules :=
  ⟨⟨⟨⟨fun _ => false, fun _ => "", fun _ => true⟩, fun _ => none⟩, fun _ => none⟩, id⟩

/-- The host reports one system, uploads another, and reports the first again: the object remembers
    the report and writes nothing. -/
def reportedAgain : List InfoEvent :=
  [.createClient, .report (osInfo "A") true, .upload (osInfo "B") (some 0), .report (osInfo "A") true]

/-- The system in the row, and those of the requests acknowledged since the last write. -/
def InfoWorld.systems (w : InfoWorld) : Option String × List (Option String) :=
  (w.row.map (·.text "os"), w.standing.map (providedText · "os"))

/-- The last report is acknowledged, and the row holds what was uploaded. -/
theorem remembered_report_ignored : ¬ ∀ (es : List InfoEvent) (w : InfoWorld),
    (infoMachine plainInfoRules).run .start es = some w → w.Stored := by
  intro h
  have hsystems : ((infoMachine plainInfoRules).run .start reportedAgain).map InfoWorld.systems
      = some (some "B", [some "A", some "B"]) := by decide +kernel
  obtain ⟨w, hrun, hw⟩ := Option.map_eq_some_iff.mp hsystems
  obtain ⟨hrow, hstanding⟩ := Prod.mk.inj hw
  have hacknowledged : some "A" ∈ w.standing.map (providedText · "os") := by
    rw [hstanding]
    exact List.mem_cons_self
  obtain ⟨info, hmem, hprovided⟩ := List.mem_map.mp hacknowledged
  obtain ⟨r, hr, hos⟩ := (h reportedAgain w hrun info hmem).text "os" (by decide) "A" hprovided
  rw [hr] at hrow
  have hsame : "A" = "B" := hos.symm.trans (Option.some.inj hrow)
  exact absurd hsame (by decide)

/-- A client that is deleted and created again keeps its signature: the row stays empty. -/
example : ((infoMachine plainInfoRules).run .start [.createClient, .report (osInfo "A") true,
    .deleteClient, .createClient, .report (osInfo "A") true]).map InfoWorld.systems
    = some (some "", [some "A"]) := by decide +kernel

end CfMonitor.Live
