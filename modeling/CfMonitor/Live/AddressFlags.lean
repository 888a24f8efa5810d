/-
  The address flags of the management snapshot (`sanitizeAdminClientSnapshotItem`,
  `upsertAdminClientSnapshot`).

  Every entry says beside its addresses whether they are public ones: `has_ipv4` and `has_ipv6`.  The
  flags are computed on what comes in, and stored in what it is merged into.

  1. **Flags** (`Rules.Flagged`) — the flags of an entry are those of its addresses.

  2. **Condition** (`Rules.KeepsFlags`) — a client object that leaves an address out does not meet an
     entry that has a public one there.

  3. **Results** — when the flags describe the addresses (`address_flags_hold`).
-/
import CfMonitor.Live.SyncedControls

namespace CfMonitor.Live

open CfMonitor.Lib
open Assoc (get? get?_erase get?_set)

/-! ## Flags -/

/-- The address fields, with their flags. -/
def addressFlags : List (String × String) := [("ipv4", "has_ipv4"), ("ipv6", "has_ipv6")]

namespace Rules

variable (rules : Rules)

/-- The flags of a row describe its addresses. -/
def Flagged (row : ClientRow) : Prop :=
  ∀ p ∈ addressFlags, Assoc.get? row.fields p.2 = some (.bool (rules.hasAddress p.1 row.fields))

/-- The client object of an upsert gives every address that its entry has. -/
def KeepsFlags (s : AdminStore) : AdminCall → Prop
  | .upsert client fromAgent _ _ =>
    ∀ snapshot, readAdminClientsSnapshot s.snapshot = some snapshot →
      payloadUuid client ≠ "" → ¬ (fromAgent = true ∧ payloadUuid client ∈ snapshot.removed) →
        ∀ previous, Assoc.get? (byUuid snapshot.clients) (payloadUuid client) = some previous →
          ∀ p ∈ addressFlags, Assoc.get? client p.1 = none →
            rules.hasAddress p.1 previous.fields = rules.isPublicIpAddress ""
  | _ => True

end Rules

/-- The client object of a call has every field once. -/
def AdminCall.Distinct : AdminCall → Prop
  | .upsert client _ _ _ => (Assoc.keys client).Nodup
  | _ => True

/-- The flags of all entries hold. -/
def AdminStore.Flagged (rules : Rules) (s : AdminStore) : Prop :=
  ∀ snapshot, s.snapshot = some snapshot → ∀ row ∈ snapshot.clients, rules.Flagged row

namespace Rules

variable {rules : Rules}

/-! ## Rows -/

variable {field : String}

theorem hasAddress_congr {a b : Fields} (h : get? a field = get? b field) :
    rules.hasAddress field a = rules.hasAddress field b := by
  rw [hasAddress, hasAddress, h]

theorem hasAddress_missing {a : Fields} (h : get? a field = none) :
    rules.hasAddress field a = rules.isPublicIpAddress "" := by
  rw [hasAddress, h]
  rfl

variable {fields : Fields}

theorem hideAddress_missing {k : String} :
    get? (rules.hideAddress field fields) k = none ↔ get? fields k = none := by
  rw [hideAddress]
  split
  · rename_i value hvalue
    split_ifs
    · rw [get?_set]
      split_ifs with hk
      · subst hk
        simp [hvalue]
      · exact Iff.rfl
    · exact Iff.rfl
  · exact Iff.rfl

/-- Hiding an address changes nothing else. -/
theorem get?_hideAddress_ne {k : String} (hk : k ≠ field) :
    get? (rules.hideAddress field fields) k = get? fields k := by
  rw [hideAddress]
  split
  · split_ifs
    · rw [get?_set, if_neg hk]
    · rfl
  · rfl

theorem flagged_set {safe : Fields} {uuid : String} :
    rules.Flagged ⟨uuid, Assoc.erase (Assoc.set (Assoc.set safe "has_ipv4"
      (.bool (rules.hasAddress "ipv4" safe))) "has_ipv6"
      (.bool (rules.hasAddress "ipv6" (Assoc.set safe "has_ipv4" (.bool (rules.hasAddress "ipv4" safe))))))
      "uuid"⟩ := by
  intro p hp
  simp only [addressFlags, List.mem_cons, List.not_mem_nil, or_false] at hp
  rcases hp with rfl | rfl
  · rw [get?_erase, if_neg (by decide), get?_set, if_neg (by decide), get?_set,
      if_pos rfl]
    refine congrArg (fun b => some (Json.bool b)) (hasAddress_congr ?_)
    rw [get?_erase, if_neg (by decide), get?_set, if_neg (by decide), get?_set,
      if_neg (by decide)]
  · rw [get?_erase, if_neg (by decide), get?_set, if_pos rfl]
    refine congrArg (fun b => some (Json.bool b)) (hasAddress_congr ?_)
    rw [get?_erase, if_neg (by decide), get?_set _ "has_ipv6", if_neg (by decide)]

variable {safe : ClientRow}

/-- **A sanitised row is flagged.** -/
theorem sanitized_flagged {client : Fields}
    (h : rules.sanitizeAdminClientSnapshotItem client = some safe) : rules.Flagged safe := by
  rw [sanitizeAdminClientSnapshotItem] at h
  dsimp only at h
  split_ifs at h
  cases h
  exact flagged_set

/-- It leaves out the addresses that the client object leaves out. -/
theorem sanitized_missing {client : Fields}
    (h : rules.sanitizeAdminClientSnapshotItem client = some safe) {p : String × String}
    (hp : p ∈ addressFlags) : get? safe.fields p.1 = none ↔ get? client p.1 = none := by
  rw [sanitizeAdminClientSnapshotItem] at h
  dsimp only at h
  split_ifs at h
  cases h
  have hother : p.1 ≠ "uuid" ∧ p.1 ≠ "has_ipv4" ∧ p.1 ≠ "has_ipv6" ∧ p.1 ≠ "token" ∧ p.1 ≠ "token_hash" := by
    revert p
    decide
  obtain ⟨huuid, hhas4, hhas6, htoken, hhash⟩ := hother
  rw [get?_erase, if_neg huuid, get?_set, if_neg hhas6, get?_set, if_neg hhas4,
    hideAddress_missing, hideAddress_missing, withoutToken, get?_erase, if_neg hhash,
    get?_erase, if_neg htoken]

theorem sanitized_uuid {client : Fields} (h : rules.sanitizeAdminClientSnapshotItem client = some safe) :
    safe.uuid = payloadUuid client ∧ payloadUuid client ≠ "" := by
  rw [sanitizeAdminClientSnapshotItem] at h
  dsimp only at h
  split_ifs at h with huuid
  cases h
  exact ⟨rfl, huuid⟩

theorem sanitized_of_uuid (rules : Rules) {client : Fields} (h : payloadUuid client ≠ "") :
    ∃ safe, rules.sanitizeAdminClientSnapshotItem client = some safe := by
  rw [sanitizeAdminClientSnapshotItem]
  dsimp only
  rw [if_neg h]
  exact ⟨_, rfl⟩

theorem restored_flagged (client : Fields) : rules.Flagged (rules.restoredClientMetadata client) := by
  have hhidden : ∀ (fields : Fields) (k : String), k ≠ "ipv6" →
      get? (rules.hideAddress "ipv6" fields) k = get? fields k :=
    fun fields k hk => get?_hideAddress_ne hk
  intro p hp
  simp only [addressFlags, List.mem_cons, List.not_mem_nil, or_false] at hp
  rw [restoredClientMetadata]
  rcases hp with rfl | rfl
  · rw [get?_erase, if_neg (by decide), get?_set, if_neg (by decide), hhidden _ _ (by decide),
      get?_set, if_pos rfl]
    refine congrArg (fun b => some (Json.bool b)) (hasAddress_congr ?_)
    rw [get?_erase, if_neg (by decide), get?_set _ "has_ipv6", if_neg (by decide),
      hhidden _ _ (by decide), get?_set, if_neg (by decide)]
  · rw [get?_erase, if_neg (by decide), get?_set, if_pos rfl]
    refine congrArg (fun b => some (Json.bool b)) (hasAddress_congr ?_)
    rw [get?_erase, if_neg (by decide), get?_set _ "has_ipv6", if_neg (by decide)]

theorem reorderRow_flagged {orders : List (String × Option Json)} {row : ClientRow}
    (h : rules.Flagged row) : rules.Flagged (reorderRow orders row) := by
  intro p hp
  have hother : p.1 ≠ "sort_order" ∧ p.2 ≠ "sort_order" := by
    revert p
    decide
  rw [reorderRow_fields orders row hother.2, h p hp]
  exact congrArg (fun b => some (Json.bool b)) (hasAddress_congr (reorderRow_fields orders row hother.1).symm)

/-- **A merged row is flagged** if and only if no address is kept that has not its flag. -/
theorem mergeRow_flagged {client : Fields} {previous : Option ClientRow}
    (h : rules.sanitizeAdminClientSnapshotItem client = some safe) (hclient : (Assoc.keys client).Nodup) :
    rules.Flagged (mergeRow previous safe) ↔
      ∀ row, previous = some row → ∀ p ∈ addressFlags, get? client p.1 = none →
        rules.hasAddress p.1 row.fields = rules.isPublicIpAddress "" := by
  have hnodup := sanitized_nodup hclient h
  have hmerged : ∀ k, get? (mergeRow previous safe).fields k
      = (get? safe.fields k).or (get? ((previous.map ClientRow.fields).getD []) k) :=
    fun k => Assoc.get?_merge hnodup k
  -- the flag is that of the sanitised row, the address the one that the merge keeps
  have hflag : ∀ p ∈ addressFlags, get? (mergeRow previous safe).fields p.2
      = some (.bool (rules.hasAddress p.1 safe.fields)) := by
    intro p hp
    rw [hmerged, sanitized_flagged h p hp]
    rfl
  have hsame : rules.Flagged (mergeRow previous safe) ↔ ∀ p ∈ addressFlags,
      rules.hasAddress p.1 safe.fields = rules.hasAddress p.1 (mergeRow previous safe).fields := by
    refine forall_congr' fun p => forall_congr' fun hp => ?_
    rw [hflag p hp]
    simp
  rw [hsame]
  constructor
  · intro hall row hrow p hp hmissing
    have hsafe : get? safe.fields p.1 = none := (sanitized_missing h hp).mpr hmissing
    rw [← hasAddress_missing hsafe, hall p hp]
    refine hasAddress_congr ?_
    rw [hmerged, hsafe, hrow]
    rfl
  · intro hall p hp
    cases hgiven : get? safe.fields p.1 with
    | some value =>
      refine hasAddress_congr ?_
      rw [hmerged, hgiven]
      rfl
    | none =>
      have hkept : get? (mergeRow previous safe).fields p.1
          = get? ((previous.map ClientRow.fields).getD []) p.1 := by
        rw [hmerged, hgiven]
        rfl
      rw [hasAddress_missing hgiven, hasAddress_congr hkept]
      cases hrow : previous with
      | none => exact (hasAddress_missing rfl).symm
      | some row => exact (hall row hrow p hp ((sanitized_missing h hp).mp hgiven)).symm

variable {body : Fields}

variable {stored : Option AdminClientsSnapshot}

theorem write_flagged {snapshot : AdminClientsSnapshot} {now : Int}
    (h : ∀ previous, stored = some previous → ∀ row ∈ previous.clients, rules.Flagged row)
    (hw : rules.writeAdminClientsSnapshot stored body now = .ok snapshot) :
    ∀ row ∈ snapshot.clients, rules.Flagged row := by
  have hbody : ∀ row ∈ rules.bodyRows body, rules.Flagged row := by
    intro row hrow
    obtain ⟨client, -, hsafe⟩ := List.mem_filterMap.mp hrow
    exact sanitized_flagged hsafe
  rw [write_ok hw, writtenSnapshot]
  split
  · rename_i p hp
    split_ifs at hp
    intro row hrow
    obtain ⟨old, hold, rfl⟩ := List.mem_map.mp hrow
    cases stored with
    | none => simp [readAdminClientsSnapshot] at hp
    | some previous =>
      cases hp
      exact reorderRow_flagged (h previous rfl old hold)
  · exact fun row hrow => hbody row (List.mem_filter.mp hrow).1

theorem restoreRequest_rows {expected : Int} {clients : List ClientRow}
    (h : rules.restoreRequest body = .ok (expected, clients)) :
    ∃ items, clients = (objects items).map rules.restoredClientMetadata := by
  rw [restoreRequest] at h
  cases hv : safeInteger? (get? body "expected_version") with
  | none => rw [hv] at h; cases h
  | some v =>
    rw [hv] at h
    by_cases hneg : v < 0
    · simp [hneg] at h
    · cases hc : Json.arr? (get? body "clients") with
      | none => simp [hneg, hc] at h
      | some items =>
        simp only [hneg, hc, if_false] at h
        split_ifs at h
        exact ⟨items, (Prod.mk.inj (Except.ok.inj h)).2.symm⟩

theorem restore_flagged {snapshot : AdminClientsSnapshot}
    {now : Int} (hr : rules.restoreClients stored body now = .ok snapshot) :
    ∀ row ∈ snapshot.clients, rules.Flagged row := by
  rw [restoreClients] at hr
  cases hrequest : rules.restoreRequest body with
  | error refusal => rw [hrequest] at hr; cases hr
  | ok request =>
    obtain ⟨expected, clients⟩ := request
    rw [hrequest] at hr
    dsimp only at hr
    split_ifs at hr
    cases hr
    obtain ⟨items, rfl⟩ := restoreRequest_rows hrequest
    intro row hrow
    obtain ⟨client, -, rfl⟩ := List.mem_map.mp hrow
    exact restored_flagged client

end Rules

/-! ## Steps -/

section Steps

variable {rules : Rules} {s : AdminStore}

theorem mem_byUuid_clients {clients : List ClientRow} {p : String × ClientRow}
    (h : p ∈ Rules.byUuid clients) : p.2 ∈ clients := by
  rcases Assoc.mem_merge h with hnil | hrow
  · cases hnil
  · obtain ⟨row, hmem, rfl⟩ := List.mem_map.mp hrow
    exact hmem

/-- **An upsert keeps the flags** if and only if it meets the condition. -/
theorem upsert_flagged {client : Fields} {fromAgent : Bool} {current : Option LiveName} {now : Int}
    (h : s.Flagged rules) (hclient : (Assoc.keys client).Nodup) :
    (adminStep rules s (.upsert client fromAgent current now)).Flagged rules
      ↔ rules.KeepsFlags s (.upsert client fromAgent current now) := by
  cases hstore : rules.storeOf s.snapshot (.upsert client fromAgent current now) with
  | none =>
    rw [adminStep, hstore]
    refine iff_of_true h fun snapshot hread huuid hallowed previous hprevious => ?_
    -- a call that names a row which it may write stores a snapshot
    obtain ⟨safe, hsafe⟩ := rules.sanitized_of_uuid huuid
    have hrow := hprevious
    rw [← (Rules.sanitized_uuid hsafe).1] at hallowed hrow
    have hstored : (fromAgent && ((get? (Rules.byUuid snapshot.clients) safe.uuid).isNone ||
        snapshot.removed.contains safe.uuid)) = false := by
      simpa [hrow] using hallowed
    rw [Rules.storeOf, Rules.upsertAdminClientSnapshot, hsafe, hread] at hstore
    simp only [hstored, Bool.false_eq_true, if_false] at hstore
    cases hstore
  | some stored =>
    rw [adminStep, hstore]
    obtain ⟨safe, hsafe, ⟨hnone, -, rfl⟩ | ⟨p, hp, hagent, rfl⟩⟩ := Rules.upsert_stored hstore
    · refine iff_of_true ?_ fun snapshot hread => ?_
      · intro snapshot hsnapshot row hrow
        cases hsnapshot
        obtain rfl := List.mem_singleton.mp hrow
        exact Rules.sanitized_flagged hsafe
      · rw [hnone] at hread
        simp [Rules.readAdminClientsSnapshot] at hread
    · obtain ⟨huuid, hnamed⟩ := Rules.sanitized_uuid hsafe
      have hold : ∀ row ∈ p.clients, rules.Flagged row := by
        cases hs : s.snapshot with
        | none => simp [Rules.readAdminClientsSnapshot, hs] at hp
        | some before =>
          rw [hs] at hp
          cases hp
          exact h before hs
      have hmerged : rules.Flagged (Rules.mergeRow (get? (Rules.byUuid p.clients) safe.uuid) safe) ↔ _ :=
        Rules.mergeRow_flagged hsafe hclient
      constructor
      · intro hflags snapshot hread _ _ previous hprevious
        obtain rfl := Option.some.inj (hp.symm.trans hread)
        refine hmerged.mp (hflags _ rfl _ ?_) previous (huuid ▸ hprevious)
        refine List.mem_map.mpr ⟨_, Assoc.mem_of_get? (k := safe.uuid) ?_, rfl⟩
        rw [get?_set, if_pos rfl]
        rfl
      · intro hkeeps snapshot hsnapshot row hrow
        cases hsnapshot
        obtain ⟨⟨k, c⟩, hc, rfl⟩ := List.mem_map.mp hrow
        rcases Assoc.mem_set hc with heq | hmem
        · cases heq
          refine hmerged.mpr fun previous hprevious => ?_
          refine hkeeps p hp hnamed ?_ previous (huuid ▸ hprevious)
          rintro ⟨hfrom, hremoved⟩
          exact (hagent hfrom).2 (huuid ▸ hremoved)
        · exact hold c (mem_byUuid_clients hmem)

/-- **What one call does to the flags.** -/
theorem adminStep_flagged {call : AdminCall} (h : s.Flagged rules) (hcall : call.Distinct) :
    (adminStep rules s call).Flagged rules ↔ rules.KeepsFlags s call := by
  cases call with
  | upsert client fromAgent current now => exact upsert_flagged h hcall
  | put body now =>
    refine iff_of_true ?_ trivial
    rw [adminStep]
    cases hstore : rules.storeOf s.snapshot (.put body now) with
    | none => exact h
    | some stored =>
      intro snapshot hsnapshot
      cases hsnapshot
      exact Rules.write_flagged h (Rules.put_accepted hstore)
  | remove uuid now =>
    refine iff_of_true ?_ trivial
    intro snapshot hsnapshot row hrow
    cases hsnapshot
    have hmem := (List.mem_filter.mp hrow).1
    cases hs : s.snapshot with
    | none => simp [Rules.readAdminClientsSnapshot, hs] at hmem
    | some stored =>
      rw [hs] at hmem
      exact h stored hs row hmem
  | restore body now =>
    refine iff_of_true ?_ trivial
    rw [adminStep]
    cases hstore : rules.storeOf s.snapshot (.restore body now) with
    | none => exact h
    | some stored =>
      intro snapshot hsnapshot
      cases hsnapshot
      exact Rules.restore_flagged (Rules.restore_accepted hstore)

end Steps

/-! ## Runs -/

/-- An object without a snapshot. -/
def AdminStore.empty : AdminStore := ⟨none, 0⟩

/-- **The flags describe the addresses** in every state of a run, if and only if no upsert of the run
    leaves out an address that is public in the entry it meets. -/
theorem address_flags_hold (rules : Rules) (calls : List AdminCall) (hcalls : ∀ call ∈ calls, call.Distinct) :
    (adminMachine rules).Along (fun _ _ s => s.Flagged rules) .empty calls
      ↔ (adminMachine rules).Along (fun s call _ => rules.KeepsFlags s call) .empty calls := by
  refine (adminMachine rules).along_iff_kept_of_labels ?_ calls .empty ?_ hcalls
  · intro s call s' hflagged hcall hs
    cases hs
    exact adminStep_flagged hflagged hcall
  · intro snapshot hsnapshot
    simp [AdminStore.empty] at hsnapshot

/-- Two public addresses. -/
def shownAddresses : List String := ["8.8.8.8", "2001:4860:4860::8888"]

/-- Rules that know them. -/
def shownAddressRules : Rules where
  isPublicIpAddress := fun text => shownAddresses.contains text
  toText := fun value => (Json.str? (some value)).getD ""
  fits := fun _ => true

/-- An administrator's node with both addresses. -/
def bothAddresses : Fields :=
  [("uuid", .str "a"), ("ipv4", .str "8.8.8.8"), ("ipv6", .str "2001:4860:4860::8888")]

/-- What a report says of a node that is reached over IPv4. -/
def oneAddress : Fields := [("uuid", .str "a"), ("ipv4", .str "8.8.8.8")]

/-- A node is removed, and comes back with one address. -/
theorem removed_node_flags :
    (adminMachine shownAddressRules).Along (fun _ _ s => s.Flagged shownAddressRules) .empty
      [.upsert bothAddresses false none 1, .remove "a" 2, .upsert oneAddress false none 3] := by
  refine (address_flags_hold shownAddressRules _ ?_).mpr ⟨?_, trivial, ?_, trivial⟩
  · intro call hcall
    simp only [List.mem_cons, List.not_mem_nil, or_false] at hcall
    rcases hcall with rfl | rfl | rfl
    · show (Assoc.keys bothAddresses).Nodup
      decide
    · trivial
    · show (Assoc.keys oneAddress).Nodup
      decide
  · intro snapshot hsnapshot
    simp [Rules.readAdminClientsSnapshot, AdminStore.empty] at hsnapshot
  · intro snapshot hsnapshot _ _ previous hprevious
    cases hsnapshot
    have hmem := Assoc.mem_of_get? hprevious
    have huuid : previous.uuid = "a" := (Rules.mem_byUuid hmem).trans (by decide +kernel)
    have hkept := (List.mem_filter.mp (mem_byUuid_clients hmem)).2
    exact absurd huuid (of_decide_eq_true hkept)

/-- The `has_ipv6` of each entry, and whether its `ipv6` is a public address. -/
def AdminStore.ipv6Flags (s : AdminStore) : List (Bool × Bool) :=
  ((s.snapshot.map AdminClientsSnapshot.clients).getD []).map fun row =>
    (Json.truthy (Assoc.get? row.fields "has_ipv6"), shownAddressRules.hasAddress "ipv6" row.fields)

/-- A report with one address leaves the other one without its flag. -/
theorem partial_report_flags : ¬ ∀ (calls : List AdminCall) (s : AdminStore),
    (∀ call ∈ calls, call.Distinct) → (adminMachine shownAddressRules).run .empty calls = some s →
      s.Flagged shownAddressRules := by
  intro h
  have hflags : ((adminMachine shownAddressRules).run .empty
      [.upsert bothAddresses false none 1, .upsert oneAddress true none 2]).map AdminStore.ipv6Flags
      = some [(false, true)] := by decide +kernel
  obtain ⟨s, hrun, hs⟩ := Option.map_eq_some_iff.mp hflags
  have hdistinct : ∀ call ∈ ([.upsert bothAddresses false none 1, .upsert oneAddress true none 2] :
      List AdminCall), call.Distinct := by
    intro call hcall
    simp only [List.mem_cons, List.not_mem_nil, or_false] at hcall
    rcases hcall with rfl | rfl
    · show (Assoc.keys bothAddresses).Nodup
      decide
    · show (Assoc.keys oneAddress).Nodup
      decide
  have hflagged := h _ s hdistinct hrun
  cases hsnapshot : s.snapshot with
  | none => simp [AdminStore.ipv6Flags, hsnapshot] at hs
  | some snapshot =>
    rw [AdminStore.ipv6Flags, hsnapshot] at hs
    obtain ⟨row, hrow, hpair⟩ := List.mem_map.mp (hs ▸ List.mem_singleton_self (false, true))
    obtain ⟨hflag, haddress⟩ := Prod.mk.inj hpair
    rw [hflagged snapshot hsnapshot row hrow ("ipv6", "has_ipv6") (by simp [addressFlags])] at hflag
    cases haddress.symm.trans hflag

end CfMonitor.Live
