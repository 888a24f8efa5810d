/-
  Runs of the object under refresh requests.

  1. **Property** (`UpToDate`, `Effective`) — everything in a policy was read from the database as it was at the last
     refresh request before the policy was started, or later; and no read that was in flight at a refresh fills a cache
     with something older.

  2. **Condition** (`ReadsNew`) — a refresh empties the caches of the tasks, but it does not stop a read: the one in flight
     fills the cache again.  And the settings, and for `/policy-refresh` the ping tasks, stay in their cache.

  3. **Invariant** (`PolicyInv`) — what a refresh has emptied holds nothing from before it.
-/
import CfMonitor.Live.AgentPolicy

namespace CfMonitor.Live

open CfMonitor.Lib

variable {ω : Type}

/-! ## Property -/

/-- The last refresh request before the policy was started. -/
def PolicyDraft.refreshed (d : PolicyDraft ω) : Nat := max d.pingRefreshed d.policyRefreshed

/-- The last refresh request. -/
def PolicyObject.refreshed (o : PolicyObject ω) : Nat := max o.pingRefreshed o.policyRefreshed

/-- Everything in a policy is from after the last refresh before its start. -/
structure UpToDate (d : PolicyDraft ω) : Prop where
  settings : ∀ v, d.settings = some v → d.refreshed ≤ v.readAt
  pingTasks : ∀ v, d.pingTasks = some v → d.refreshed ≤ v.readAt
  interval : ∀ v, d.interval = some v → d.refreshed ≤ v.readAt
  websiteProbeTasks : ∀ v, d.websiteProbeTasks = some v → d.refreshed ≤ v.readAt

/-- A cache holds nothing from before a moment. -/
def PolicyObject.KeptSince (o : PolicyObject ω) (table : PolicyTable) (moment : Nat) : Prop :=
  match table with
  | .settings => o.settings.Since moment
  | .pingTasks => o.pingTasks.Since moment
  | .websiteProbeTasks clientId => (o.websiteSlot clientId).Since moment

/-- What the refreshes are for. -/
structure Effective (o : PolicyObject ω) (event : PolicyEvent) (o' : PolicyObject ω) : Prop where
  upToDate : ∀ d ∈ o'.drafts, UpToDate d
  noOldWrite : ∀ read moment, event = .settle read moment → ∀ r, o.read? read = some r → r.since < o.refreshed →
    o'.KeptSince r.table o.refreshed

/-! ## Condition -/

/-- No read in flight at a refresh returns what was there before; no policy that is not forced starts, and none comes to
    its ping tasks, while what was read before a refresh that preceded it is fresh. -/
def ReadsNew (o : PolicyObject ω) : PolicyEvent → PolicyObject ω → Prop
  | .settle read moment, _ => ∀ r, o.read? read = some r → r.since < o.refreshed → o.refreshed ≤ moment
  | .start _ now _ forced, _ => forced = false → ∀ v, o.settings.fresh now = some v → o.refreshed ≤ v.readAt
  | .resume i _, _ => ∀ d, o.drafts[i]? = some d → d.pingTasks = none → ∀ v, o.pingTasks.fresh d.now = some v →
    d.policyRefreshed ≤ v.readAt
  | _, _ => True

/-! ## Invariant -/

/-- A policy was started before now, and the settings of the object are not older than the last refresh before. -/
structure DraftInv (o : PolicyObject ω) (d : PolicyDraft ω) : Prop where
  ping : d.pingRefreshed ≤ o.pingRefreshed
  policy : d.policyRefreshed ≤ o.policyRefreshed
  upToDate : UpToDate d
  current : d.settings.isSome → d.refreshed ≤ o.policySettings.readAt

structure PolicyInv (o : PolicyObject ω) : Prop where
  moment : o.refreshed ≤ o.moment
  pingTasks : o.pingTasks.Since o.pingRefreshed
  websiteProbeTasks : ∀ p ∈ o.websiteProbeTasks, p.2.Since o.refreshed
  drafts : ∀ d ∈ o.drafts, DraftInv o d

theorem policyInv_start : PolicyInv (PolicyObject.start : PolicyObject ω) := by
  constructor
  · exact Nat.le_refl 0
  · exact Slot.since_empty
  · exact fun p hp => absurd hp List.not_mem_nil
  · exact fun d hd => absurd hd List.not_mem_nil

section Calls

variable (o : PolicyObject ω)

/-- What a call of a getter may change: a read may begin, and then it is pending. -/
structure Asks (o o' : PolicyObject ω) : Prop where
  drafts : o'.drafts = o.drafts
  moment : o'.moment = o.moment
  pingRefreshed : o'.pingRefreshed = o.pingRefreshed
  policyRefreshed : o'.policyRefreshed = o.policyRefreshed
  policySettings : o'.policySettings = o.policySettings
  pingTasks : o'.pingTasks.cached = o.pingTasks.cached
  websiteProbeTasks : ∀ moment, (∀ p ∈ o.websiteProbeTasks, p.2.Since moment) →
    ∀ p ∈ o'.websiteProbeTasks, p.2.Since moment

theorem Asks.refl : Asks o o :=
  ⟨rfl, rfl, rfl, rfl, rfl, rfl, fun _ h => h⟩

theorem asks_settings (now : Int) (forced : Bool) : Asks o (o.getAgentPolicySettings now forced).2 := by
  rw [PolicyObject.getAgentPolicySettings]
  cases o.settings.ask now forced with
  | found v => exact Asks.refl o
  | joins read => exact Asks.refl o
  | reads => exact ⟨rfl, rfl, rfl, rfl, rfl, rfl, fun _ h => h⟩

theorem asks_pingTasks (now : Int) : Asks o (o.getPingTasks now).2 := by
  rw [PolicyObject.getPingTasks]
  cases o.pingTasks.ask now false with
  | found v => exact Asks.refl o
  | joins read => exact Asks.refl o
  | reads => exact ⟨rfl, rfl, rfl, rfl, rfl, rfl, fun _ h => h⟩

theorem since_websiteSlot {o : PolicyObject ω} {moment : Nat} (h : ∀ p ∈ o.websiteProbeTasks, p.2.Since moment)
    (clientId : String) : (o.websiteSlot clientId).Since moment := by
  rw [PolicyObject.websiteSlot]
  cases hslot : Assoc.get? o.websiteProbeTasks clientId with
  | none => exact Slot.since_empty
  | some slot => exact h (clientId, slot) (Assoc.mem_of_get? hslot)

variable {clientId : String}

theorem since_set {slots : List (String × Slot (List ω))} {moment : Nat} (h : ∀ p ∈ slots, p.2.Since moment)
    {slot : Slot (List ω)} (hslot : slot.Since moment) :
    ∀ p ∈ Assoc.set slots clientId slot, p.2.Since moment := by
  intro p hp
  rcases Assoc.mem_set hp with rfl | hold
  · exact hslot
  · exact h p hold

theorem asks_websiteProbeTasks (now : Int) (clientId : String) :
    Asks o (o.getWebsiteProbeTasks now clientId).2 := by
  rw [PolicyObject.getWebsiteProbeTasks]
  cases (o.websiteSlot clientId).ask now false with
  | found v => exact Asks.refl o
  | joins read => exact Asks.refl o
  | reads =>
    exact ⟨rfl, rfl, rfl, rfl, rfl, rfl,
      fun moment h => since_set h ((since_websiteSlot h clientId).awaits o.nextRead)⟩

variable {o} {o' : PolicyObject ω}

theorem PolicyInv.asks (h : PolicyInv o) (hasks : Asks o o') : PolicyInv o' := by
  have hrefreshed : o'.refreshed = o.refreshed := by
    rw [PolicyObject.refreshed, PolicyObject.refreshed, hasks.pingRefreshed, hasks.policyRefreshed]
  constructor
  · rw [hrefreshed, hasks.moment]
    exact h.moment
  · intro p hp
    rw [hasks.pingTasks] at hp
    rw [hasks.pingRefreshed]
    exact h.pingTasks p hp
  · rw [hrefreshed]
    exact hasks.websiteProbeTasks _ h.websiteProbeTasks
  · intro d hd
    rw [hasks.drafts] at hd
    obtain ⟨hping, hpolicy, hup, hcurrent⟩ := h.drafts d hd
    refine ⟨?_, ?_, hup, ?_⟩
    · rw [hasks.pingRefreshed]
      exact hping
    · rw [hasks.policyRefreshed]
      exact hpolicy
    · rw [hasks.policySettings]
      exact hcurrent

variable {now : Int}

/-- What a call returns at once was in the cache. -/
theorem found_settings {forced : Bool} {v : Stamped AgentPolicySettings}
    (h : (o.getAgentPolicySettings now forced).1.value? = some v) :
    forced = false ∧ o.settings.fresh now = some v := by
  rw [PolicyObject.getAgentPolicySettings] at h
  cases hask : o.settings.ask now forced with
  | found w =>
    rw [hask] at h
    cases h
    exact Slot.ask_found hask
  | joins read =>
    rw [hask] at h
    simp [Answer.value?] at h
  | reads =>
    rw [hask] at h
    simp [Answer.value?] at h

theorem found_pingTasks {v : Stamped (List PolicyPingTask)}
    (h : (o.getPingTasks now).1.value? = some v) : o.pingTasks.fresh now = some v := by
  rw [PolicyObject.getPingTasks] at h
  cases hask : o.pingTasks.ask now false with
  | found w =>
    rw [hask] at h
    cases h
    exact (Slot.ask_found hask).2
  | joins read =>
    rw [hask] at h
    simp [Answer.value?] at h
  | reads =>
    rw [hask] at h
    simp [Answer.value?] at h

theorem found_websiteProbeTasks {v : Stamped (List ω)}
    (h : (o.getWebsiteProbeTasks now clientId).1.value? = some v) : (o.websiteSlot clientId).fresh now = some v := by
  rw [PolicyObject.getWebsiteProbeTasks] at h
  cases hask : (o.websiteSlot clientId).ask now false with
  | found w =>
    rw [hask] at h
    cases h
    exact (Slot.ask_found hask).2
  | joins read =>
    rw [hask] at h
    simp [Answer.value?] at h
  | reads =>
    rw [hask] at h
    simp [Answer.value?] at h

end Calls

/-! ## Steps -/

section Steps

variable {o o' : PolicyObject ω}

theorem PolicyInv.withDrafts (h : PolicyInv o) {drafts : List (PolicyDraft ω)} (hdrafts : ∀ d ∈ drafts, DraftInv o d) :
    PolicyInv { o with drafts } :=
  ⟨h.moment, h.pingTasks, h.websiteProbeTasks, fun d hd =>
    ⟨(hdrafts d hd).ping, (hdrafts d hd).policy, (hdrafts d hd).upToDate, (hdrafts d hd).current⟩⟩

variable {d : PolicyDraft ω}

theorem PolicyInv.setDraft (h : PolicyInv o) (i : Nat) (hd : DraftInv o d) :
    PolicyInv { o with drafts := o.drafts.set i d } := by
  refine h.withDrafts fun other hother => ?_
  rcases List.mem_or_eq_of_mem_set hother with hold | rfl
  · exact h.drafts other hold
  · exact hd

theorem PolicyInv.startPolicy (h : PolicyInv o) (clientId : Option String) {now : Int} (reportNow : Bool) {forced : Bool}
    (hnew : forced = false → ∀ v, o.settings.fresh now = some v → o.refreshed ≤ v.readAt) :
    PolicyInv (o.startPolicy clientId now reportNow forced) := by
  have hasks := asks_settings o now forced
  have hinv := h.asks hasks
  refine hinv.withDrafts fun d hd => ?_
  rcases List.mem_append.mp hd with hold | hadded
  · exact hinv.drafts d (hasks.drafts ▸ hold)
  · rw [List.mem_singleton.mp hadded]
    have hfound : ∀ v, (o.getAgentPolicySettings now forced).1.value? = some v →
        o.refreshed ≤ v.readAt ∧ o.policySettings = v := by
      intro v hv
      obtain ⟨hforced, hfresh⟩ := found_settings hv
      obtain ⟨expiresAt, hcached⟩ := Slot.cached_of_fresh hfresh
      refine ⟨hnew hforced v hfresh, ?_⟩
      rw [PolicyObject.policySettings, hcached]
      rfl
    refine ⟨Nat.le_of_eq hasks.pingRefreshed.symm, Nat.le_of_eq hasks.policyRefreshed.symm,
      ⟨fun v hv => (hfound v hv).1, ?_, ?_, ?_⟩, ?_⟩
    · exact nofun
    · exact nofun
    · exact nofun
    · intro hsome
      obtain ⟨v, hv⟩ := Option.isSome_iff_exists.mp hsome
      obtain ⟨hle, hsame⟩ := hfound v hv
      show o.refreshed ≤ (o.getAgentPolicySettings now forced).2.policySettings.readAt
      rw [hasks.policySettings, hsame]
      exact hle

variable {i : Nat}

theorem PolicyInv.askPingTasks (h : PolicyInv o) (hd : d ∈ o.drafts) (viewerCount : Nat)
    (hnew : ∀ v, o.pingTasks.fresh d.now = some v → d.policyRefreshed ≤ v.readAt) :
    PolicyInv (o.askPingTasks i d viewerCount) := by
  have hasks := asks_pingTasks o d.now
  have hinv := h.asks hasks
  obtain ⟨hping, hpolicy, hup, hcurrent⟩ := hinv.drafts d (hasks.drafts.symm ▸ hd)
  have hset := hinv.setDraft i (d := { d with
    waits := (o.getPingTasks d.now).1.read?, viewerCount, pingTasks := (o.getPingTasks d.now).1.value? }) ?_
  · rw [hasks.drafts] at hset
    exact hset
  · refine ⟨hping, hpolicy, ⟨hup.settings, fun v hv => ?_, hup.interval, hup.websiteProbeTasks⟩, hcurrent⟩
    have hfresh := found_pingTasks hv
    have hsince := h.pingTasks.of_fresh hfresh
    have hstarted := (h.drafts d hd).ping
    have hcond := hnew v hfresh
    show max d.pingRefreshed d.policyRefreshed ≤ v.readAt
    omega

theorem DraftInv.refreshed_le (h : DraftInv o d) : d.refreshed ≤ o.refreshed := by
  have hping := h.ping
  have hpolicy := h.policy
  show max d.pingRefreshed d.policyRefreshed ≤ max o.pingRefreshed o.policyRefreshed
  omega

theorem PolicyInv.askWebsiteProbeTasks (h : PolicyInv o) (hd : d ∈ o.drafts)
    (hsettings : d.settings.isSome) : PolicyInv (o.askWebsiteProbeTasks i d) := by
  have hold := h.drafts d hd
  have hle := hold.refreshed_le
  have hinterval : ∀ v, some o.policySettings = some v → d.refreshed ≤ v.readAt := by
    intro v hv
    rw [← Option.some.inj hv]
    exact hold.current hsettings
  rw [PolicyObject.askWebsiteProbeTasks]
  cases d.clientId.filter fun client => decide (client ≠ "") with
  | none =>
    refine h.setDraft i ⟨hold.ping, hold.policy, ⟨hold.upToDate.settings, hold.upToDate.pingTasks, hinterval, ?_⟩,
      hold.current⟩
    intro v hv
    rw [← Option.some.inj hv]
    exact Nat.le_trans hle h.moment
  | some client =>
    have hasks := asks_websiteProbeTasks o d.now client
    have hinv := h.asks hasks
    obtain ⟨hping, hpolicy, hup, hcurrent⟩ := hinv.drafts d (hasks.drafts.symm ▸ hd)
    have hset := hinv.setDraft i (d := { d with
      waits := (o.getWebsiteProbeTasks d.now client).1.read?, interval := some o.policySettings,
      websiteProbeTasks := (o.getWebsiteProbeTasks d.now client).1.value? }) ?_
    · rw [hasks.drafts] at hset
      exact hset
    · refine ⟨hping, hpolicy, ⟨hup.settings, hup.pingTasks, hinterval, fun v hv => ?_⟩, hcurrent⟩
      have hsince := (since_websiteSlot h.websiteProbeTasks client).of_fresh (found_websiteProbeTasks hv)
      exact Nat.le_trans hle hsince

theorem PolicyInv.resume (h : PolicyInv o) {viewerCount : Nat}
    (hnew : ∀ d, o.drafts[i]? = some d → d.pingTasks = none → ∀ v, o.pingTasks.fresh d.now = some v →
      d.policyRefreshed ≤ v.readAt) (hstep : o.resume i viewerCount = some o') : PolicyInv o' := by
  obtain ⟨d, hd, hresume⟩ := Option.bind_eq_some_iff.mp hstep
  have hmem : d ∈ o.drafts := List.mem_of_getElem? hd
  split_ifs at hresume with hwaits hpings hinterval
  · cases hresume
    exact h.askPingTasks hmem viewerCount (hnew d hd (Option.isNone_iff_eq_none.mp hpings))
  · cases hresume
    refine h.askWebsiteProbeTasks hmem ?_
    rw [Bool.or_eq_true, not_or] at hwaits
    exact Option.isSome_iff_ne_none.mpr fun hnone => hwaits.2 (Option.isNone_iff_eq_none.mpr hnone)

variable {rules : PolicySettingRules} {tables : Nat → PolicyTables ω}

/-- The value of a read is not older than the last refresh. -/
theorem settled_new {read moment : Nat}
    (hnew : ∀ r, o.read? read = some r → r.since < o.refreshed → o.refreshed ≤ moment)
    (hstep : o.settle rules tables read moment = some o') :
    ∃ r, o.read? read = some r ∧ o.refreshed ≤ moment ∧ o' = o.settleRead rules (tables moment) r moment := by
  obtain ⟨r, hfind, hsettle⟩ := Option.bind_eq_some_iff.mp hstep
  split_ifs at hsettle with hbetween
  refine ⟨r, hfind, ?_, (Option.some.inj hsettle).symm⟩
  by_cases hflight : r.since < o.refreshed
  · exact hnew r hfind hflight
  · omega

/-- The calls that wait for a read get something new. -/
theorem mem_deliver {read : Nat} {receive : PolicyDraft ω → PolicyDraft ω}
    (hd : d ∈ o.deliver read receive) : ∃ old ∈ o.drafts, d = old ∨ d = { receive old with waits := none } := by
  obtain ⟨old, hold, rfl⟩ := List.mem_map.mp hd
  refine ⟨old, hold, ?_⟩
  split_ifs
  · exact .inr rfl
  · exact .inl rfl

theorem PolicyInv.settleRead (h : PolicyInv o) (rules : PolicySettingRules) (tables : PolicyTables ω) (r : PolicyRead)
    {moment : Nat} (hnew : o.refreshed ≤ moment) :
    PolicyInv (o.settleRead rules tables r moment) ∧
      (o.settleRead rules tables r moment).KeptSince r.table o.refreshed := by
  have hping : o.pingRefreshed ≤ moment := Nat.le_trans (Nat.le_max_left _ _) hnew
  have hlater : ∀ d ∈ o.drafts, d.refreshed ≤ moment := fun d hd =>
    Nat.le_trans (h.drafts d hd).refreshed_le hnew
  rw [PolicyObject.settleRead]
  cases htable : r.table with
  | settings =>
    refine ⟨⟨h.moment, h.pingTasks, h.websiteProbeTasks, fun d hd => ?_⟩, Slot.since_settle hnew⟩
    obtain ⟨old, hold, rfl | rfl⟩ := mem_deliver hd
    · obtain ⟨hp, hpolicy, hup, -⟩ := h.drafts d hold
      exact ⟨hp, hpolicy, hup, fun _ => hlater d hold⟩
    · obtain ⟨hp, hpolicy, hup, -⟩ := h.drafts old hold
      refine ⟨hp, hpolicy, ⟨fun v hv => ?_, hup.pingTasks, hup.interval, hup.websiteProbeTasks⟩, fun _ => hlater old hold⟩
      rw [← Option.some.inj hv]
      exact hlater old hold
  | pingTasks =>
    refine ⟨⟨h.moment, Slot.since_settle hping, h.websiteProbeTasks, fun d hd => ?_⟩, Slot.since_settle hnew⟩
    obtain ⟨old, hold, rfl | rfl⟩ := mem_deliver hd
    · obtain ⟨hp, hpolicy, hup, hcurrent⟩ := h.drafts d hold
      exact ⟨hp, hpolicy, hup, hcurrent⟩
    · obtain ⟨hp, hpolicy, hup, hcurrent⟩ := h.drafts old hold
      refine ⟨hp, hpolicy, ⟨hup.settings, fun v hv => ?_, hup.interval, hup.websiteProbeTasks⟩, hcurrent⟩
      rw [← Option.some.inj hv]
      exact hlater old hold
  | websiteProbeTasks clientId =>
    refine ⟨⟨h.moment, h.pingTasks, since_set h.websiteProbeTasks (Slot.since_settle hnew), fun d hd => ?_⟩, ?_⟩
    · obtain ⟨old, hold, rfl | rfl⟩ := mem_deliver hd
      · obtain ⟨hp, hpolicy, hup, hcurrent⟩ := h.drafts d hold
        exact ⟨hp, hpolicy, hup, hcurrent⟩
      · obtain ⟨hp, hpolicy, hup, hcurrent⟩ := h.drafts old hold
        refine ⟨hp, hpolicy, ⟨hup.settings, hup.pingTasks, hup.interval, fun v hv => ?_⟩, hcurrent⟩
        rw [← Option.some.inj hv]
        exact hlater old hold
    · show ((Assoc.get? (Assoc.set o.websiteProbeTasks clientId _) clientId).getD Slot.empty).Since _
      rw [Assoc.get?_set, if_pos rfl]
      exact Slot.since_settle hnew

theorem PolicyInv.refresh (h : PolicyInv o) (pingTasks : Bool) : PolicyInv (o.refresh pingTasks) := by
  have hmoment : max o.pingRefreshed o.policyRefreshed ≤ o.moment := h.moment
  rw [PolicyObject.refresh]
  split_ifs
  · refine ⟨?_, Slot.since_empty, nofun, fun d hd => ?_⟩
    · show max o.moment o.policyRefreshed ≤ o.moment
      omega
    · obtain ⟨hping, hpolicy, hup, hcurrent⟩ := h.drafts d hd
      exact ⟨show d.pingRefreshed ≤ o.moment by omega, hpolicy, hup, hcurrent⟩
  · refine ⟨?_, h.pingTasks, nofun, fun d hd => ?_⟩
    · show max o.pingRefreshed o.moment ≤ o.moment
      omega
    · obtain ⟨hping, hpolicy, hup, hcurrent⟩ := h.drafts d hd
      exact ⟨hping, show d.policyRefreshed ≤ o.moment by omega, hup, hcurrent⟩

theorem PolicyInv.restore (h : PolicyInv o) : PolicyInv o.restore := by
  have hsame : o.restore.policySettings = o.policySettings := by
    rw [PolicyObject.policySettings, PolicyObject.policySettings, PolicyObject.restore]
    show ((o.settings.cached.map fun p => (p.1, POLICY_SETTING_CACHE_MS)).map Prod.fst).getD _ = _
    cases o.settings.cached <;> rfl
  refine ⟨h.moment, Slot.since_empty, nofun, fun d hd => ?_⟩
  obtain ⟨hping, hpolicy, hup, hcurrent⟩ := h.drafts d hd
  refine ⟨hping, hpolicy, hup, ?_⟩
  rw [hsame]
  exact hcurrent

theorem PolicyInv.askTable (h : PolicyInv o) (table : PolicyTable) (now : Int) : PolicyInv (o.askTable table now) := by
  cases table with
  | settings => exact h.asks (asks_settings o now false)
  | pingTasks => exact h.asks (asks_pingTasks o now)
  | websiteProbeTasks clientId =>
    show PolicyInv (if clientId = "" then o else _)
    split_ifs
    · exact h
    · exact h.asks (asks_websiteProbeTasks o now clientId)

theorem policyInv_step (h : PolicyInv o)
    {event : PolicyEvent} (hnew : ReadsNew o event o') (hstep : (policyMachine rules tables).step o event = some o') :
    PolicyInv o' ∧ Effective o event o' := by
  have hkeep : PolicyInv o' → (∀ read moment, event = .settle read moment → ∀ r, o.read? read = some r →
      r.since < o.refreshed → o'.KeptSince r.table o.refreshed) → PolicyInv o' ∧ Effective o event o' :=
    fun hinv hwrite => ⟨hinv, ⟨fun d hd => (hinv.drafts d hd).upToDate, hwrite⟩⟩
  cases event with
  | write =>
    cases hstep
    refine hkeep ⟨Nat.le_succ_of_le h.moment, h.pingTasks, h.websiteProbeTasks, fun d hd => ?_⟩
      nofun
    obtain ⟨hping, hpolicy, hup, hcurrent⟩ := h.drafts d hd
    exact ⟨hping, hpolicy, hup, hcurrent⟩
  | start clientId now reportNow forced =>
    cases hstep
    exact hkeep (h.startPolicy clientId reportNow hnew) nofun
  | resume i viewerCount => exact hkeep (h.resume hnew hstep) nofun
  | settle read moment =>
    obtain ⟨r, hread, hmoment, rfl⟩ := settled_new hnew hstep
    obtain ⟨hinv, hkept⟩ := h.settleRead rules (tables moment) r hmoment
    refine hkeep hinv fun read' moment' hevent other hother _ => ?_
    obtain ⟨rfl, -⟩ := PolicyEvent.settle.inj hevent
    obtain rfl := Option.some.inj (hread.symm.trans hother)
    exact hkept
  | ask table now =>
    cases hstep
    exact hkeep (h.askTable table now) nofun
  | refresh pingTasks =>
    cases hstep
    exact hkeep (h.refresh pingTasks) nofun
  | restore =>
    cases hstep
    exact hkeep h.restore nofun

end Steps

/-! ## Runs -/

/-- **A refresh is effective** in runs whose reads and caches have nothing from before it. -/
theorem refresh_effective (rules : PolicySettingRules) (tables : Nat → PolicyTables ω) {events : List PolicyEvent}
    (hnew : (policyMachine rules tables).Along ReadsNew .start events) :
    (policyMachine rules tables).Along Effective .start events :=
  (policyMachine rules tables).along_imp (I := PolicyInv)
    (fun _ _ _ hinv hcond hstep => policyInv_step hinv hcond hstep) events .start policyInv_start hnew

/-! ### Witnesses -/

/-- Settings that are all at their fallbacks. -/
def noNumbers : PolicySettingRules := ⟨fun _ stored => stored.getD "", fun _ => none⟩

def pingEveryone : PolicyPingTask := ⟨some 1, "t", "icmp", "h", true, [], 60⟩

/-- The one ping task is deleted by the first write. -/
def deletedTask : Nat → PolicyTables Unit
  | 0 => ⟨fun _ => none, [pingEveryone], fun _ _ => []⟩
  | _ + 1 => ⟨fun _ => none, [], fun _ _ => []⟩

/-- The ping tasks are cached when the request comes. -/
def refreshedCache : List PolicyEvent :=
  [.ask .pingTasks 100000, .settle 0 0, .write, .refresh true, .start (some "a") 100001 false true, .settle 1 1,
    .resume 0 0]

/-- The ping tasks are being read when the request comes. -/
def refreshedRead : List PolicyEvent :=
  [.ask .pingTasks 100000, .write, .refresh true, .settle 0 0, .start (some "a") 100001 false true, .settle 1 1,
    .resume 0 0, .resume 0 0, .settle 2 1]

theorem cache_emptied : (policyMachine noNumbers deletedTask).Along Effective .start refreshedCache := by
  apply refresh_effective
  refine ⟨trivial, ?_, trivial, trivial, ?_, ?_, ?_, trivial⟩
  · -- nothing was refreshed yet
    intro r _ hflight
    exact absurd hflight (Nat.not_lt_zero _)
  · exact fun hforced => absurd hforced (by simp)
  · -- the read of the settings began after the request
    intro r hread hflight
    obtain rfl := Option.some.inj hread
    exact absurd hflight (by decide)
  · intro d _ _ v hfresh
    have hempty : (none : Option (Stamped (List PolicyPingTask))) = some v := hfresh
    exact absurd hempty (by simp)

/-- **A deleted task comes back**: the read that was in flight fills the cache that the request has emptied. -/
theorem deleted_task_sent : ∃ (o : PolicyObject Unit) (d : PolicyDraft Unit) (message : AgentPolicyMessage Unit),
    (policyMachine noNumbers deletedTask).run .start refreshedRead = some o ∧ d ∈ o.drafts ∧ ¬ UpToDate d ∧
      d.policy = some message ∧ message.ping_tasks ≠ [] ∧ ∀ moment, d.refreshed ≤ moment →
        (deletedTask moment).pingTasks = [] := by
  refine ⟨_, _, _, rfl, List.mem_singleton.mpr rfl, ?_, rfl, ?_, ?_⟩
  · intro hup
    cases hup.pingTasks _ rfl
  · decide
  · intro moment hle
    cases moment with
    | zero => cases hle
    | succ m => rfl

end CfMonitor.Live
