/-
  Runs of metadata changes over the live list and the cached list.

  1. **Condition** — what the stored patch forgets: that a client was removed before it is shown again, and which of
     removal and showing came first within a change; and it does not see a client hidden by another value than `true`.

  2. **Result** — in a run whose changes avoid this, the two lists are the same after every change.
-/
import Mathlib
import CfMonitor.Frontend.ClientPatches
import CfMonitor.Lib.Machine

namespace CfMonitor.Frontend

open CfMonitor.Lib

/-! ## One change -/

/-- The two lists and what they come from. -/
structure ClientsView where
  list : List ClientInfo
  stored : Option StoredPatch

/-- What a change must be for one client, so that both lists take it in alike. -/
structure AlikeAt (base : List ClientInfo) (s : ClientsView) (delta : ClientDelta) (uuid : String) : Prop where
  /-- A client that is taken out is not shown by the same change. -/
  once : Removes delta uuid → showsOf uuid (entriesOf delta) = []
  /-- A client that is hidden by another value than `true` is not in the list, unless it is taken out as well. -/
  absent : ¬ Removes delta uuid → ∀ before after plainly,
    entriesOf delta = before ++ (uuid, .hides plainly) :: after →
      findClient s.list uuid = none ∧ showsOf uuid before = []
  /-- A client that was taken out is shown again with all fields in which the base differs from a new client. -/
  complete : showsOf uuid (entriesOf delta) ≠ [] → uuid ∈ removedOf s.stored →
    ∀ client, findClient base uuid = some client → ∀ f : ClientField,
      (∀ p ∈ showsOf uuid (entriesOf delta), p.field f = none) → client.field f = normalizeField uuid f none

variable {uuid : String}

variable (entries : List (String × Upsert))

theorem act_places (current : Option ClientInfo)
    (habsent : ∀ before after plainly, entries = before ++ (uuid, .hides plainly) :: after →
      current = none ∧ showsOf uuid before = []) :
    entries.foldl (act uuid) current = places current (showsOf uuid entries) := by
  induction entries generalizing current with
  | nil => rfl
  | cons entry rest ih =>
    obtain ⟨other, effect⟩ := entry
    by_cases heq : other = uuid
    · subst heq
      cases effect with
      | hides plainly =>
        obtain ⟨rfl, -⟩ := habsent [] rest plainly rfl
        have hskip : showsOf other ((other, .hides plainly) :: rest) = showsOf other rest := by simp [showsOf]
        rw [List.foldl_cons, act, if_pos rfl, hskip]
        refine ih none ?_
        intro before after plainly' hsplit
        obtain ⟨-, hnone⟩ := habsent ((other, .hides plainly) :: before) after plainly' (by rw [hsplit]; rfl)
        exact ⟨rfl, by simpa [showsOf] using hnone⟩
      | shows patch =>
        have hcons : showsOf other ((other, .shows patch) :: rest) = patch :: showsOf other rest := by simp [showsOf]
        rw [List.foldl_cons, act, if_pos rfl, hcons]
        refine ih (some (place current patch)) ?_
        intro before after plainly hsplit
        -- an entry that hides it would come after one that shows it
        obtain ⟨-, hnone⟩ := habsent ((other, .shows patch) :: before) after plainly (by rw [hsplit]; rfl)
        simp [showsOf] at hnone
    · have hskip : showsOf uuid ((other, effect) :: rest) = showsOf uuid rest := by simp [showsOf, heq]
      rw [List.foldl_cons, act, if_neg heq, hskip]
      refine ih current ?_
      intro before after plainly hsplit
      obtain ⟨hcurrent, hnone⟩ := habsent ((other, effect) :: before) after plainly (by rw [hsplit]; rfl)
      exact ⟨hcurrent, by simpa [showsOf, heq] using hnone⟩

/-- Entries that do not show a client. -/
theorem act_unshown (hnone : showsOf uuid entries = []) (current : Option ClientInfo) :
    entries.foldl (act uuid) current = none ∨
      entries.foldl (act uuid) current = current ∧ ∀ plainly, (uuid, Upsert.hides plainly) ∉ entries := by
  induction entries generalizing current with
  | nil => exact .inr ⟨rfl, fun _ => List.not_mem_nil⟩
  | cons entry rest ih =>
    obtain ⟨other, effect⟩ := entry
    by_cases heq : other = uuid
    · subst heq
      cases effect with
      | hides plainly =>
        left
        have hrest : showsOf other rest = [] := by simpa [showsOf] using hnone
        rw [List.foldl_cons, act, if_pos rfl]
        rcases ih hrest none with hgone | ⟨hsame, -⟩
        · exact hgone
        · exact hsame
      | shows patch => simp [showsOf] at hnone
    · have hrest : showsOf uuid rest = [] := by simpa [showsOf, heq] using hnone
      rw [List.foldl_cons, act, if_neg heq]
      rcases ih hrest current with hgone | ⟨hsame, hnot⟩
      · exact .inl hgone
      · refine .inr ⟨hsame, fun plainly hmem => ?_⟩
        rcases List.mem_cons.mp hmem with hhead | hin
        · exact heq (Prod.mk.inj hhead).1.symm
        · exact hnot plainly hin

/-- **One change.**  Where the condition holds, a client of both lists stays the same. -/
theorem AlikeAt.step {c : Collation} {base : List ClientInfo} {s : ClientsView} {delta : ClientDelta} {uuid : String}
    (halike : AlikeAt base s delta uuid) (hlist : c.PublicList s.list) (h : Recorded s.stored) (now : Int)
    (hread : readClientPatch s.stored now = s.stored) (hsame : findClient s.list uuid = viewOf base s.stored uuid) :
    findClient (mergePublicClientPatch c false s.list (some delta)) uuid =
      viewOf base (patchCachedPublicBootstrapClients s.stored (some delta) now) uuid := by
  obtain ⟨hout, hin⟩ := (patchCached_spec h delta now hread).2 uuid
  rw [(find_merge hlist delta uuid).2, viewOf]
  by_cases hremoves : Removes delta uuid
  · have hnone := halike.once hremoves
    obtain ⟨hremoved, hpatch⟩ := hout hremoves hnone
    rw [if_pos hremoved, hpatch, view]
    rcases act_unshown (entriesOf delta) hnone
        (if uuid ∈ delta.remove then none else findClient s.list uuid) with hgone | ⟨hstart, hnot⟩
    · exact hgone
    · rw [hstart, if_pos (hremoves.resolve_right (hnot true))]
  · obtain ⟨hremoved, hpatch⟩ := hin hremoves
    have hlisted : uuid ∉ delta.remove := fun hmem => hremoves (.inl hmem)
    rw [if_neg hlisted, act_places _ _ (halike.absent hremoves), hsame, hpatch, viewOf]
    have hpatches : ∀ p ∈ showsOf uuid (entriesOf delta), p.uuid = uuid := fun p hp => showsOf_uuid hp
    by_cases hshown : showsOf uuid (entriesOf delta) = []
    · have hkeep : uuid ∈ removedOf (patchCachedPublicBootstrapClients s.stored (some delta) now) ↔
          uuid ∈ removedOf s.stored := hremoved.trans (and_iff_left hshown)
      rw [hshown]
      simp only [hkeep]
      rfl
    · have hback : uuid ∉ removedOf (patchCachedPublicBootstrapClients s.stored (some delta) now) :=
        fun hmem => hshown (hremoved.mp hmem).2
      rw [if_neg hback]
      by_cases hwas : uuid ∈ removedOf s.stored
      · -- shown again: the live list starts from nothing, the cached one from the base
        have hfresh : patchOf s.stored uuid = none := h.apart uuid hwas
        rw [if_pos hwas, hfresh, places_view none _ (by simp) hpatches]
        cases hcomposed : composed none (showsOf uuid (entriesOf delta)) with
        | none => exact absurd hcomposed (by
            obtain ⟨p, rest, hp⟩ := List.exists_cons_of_ne_nil hshown
            rw [hp]
            exact composed_ne_none rest (p.over none))
        | some q =>
          have hq : q.uuid = uuid := (composed_uuid _ (by simp) hpatches hcomposed)
          cases hfound : findClient base uuid with
          | none => rfl
          | some client =>
            have hfield : ∀ f, (q.field f).getD (normalizeField q.uuid f none) = (q.field f).getD (client.field f) := by
              intro f
              cases hvalue : q.field f with
              | some value => rfl
              | none =>
                have hnone := (composed_field _ none q hcomposed f hvalue).1
                rw [hq]
                exact (halike.complete hshown hwas client hfound f hnone).symm
            exact congrArg (fun field => some (ClientInfo.mk q.uuid field)) (funext hfield)
      · rw [if_neg hwas]
        exact places_view _ _ (fun q hq => (h.patch_normal hq).1) hpatches

/-! ## Runs -/

/-- A change and when it is received. -/
abbrev PatchEvent := Option ClientDelta × Int

def patchMachine (c : Collation) : Machine ClientsView PatchEvent :=
  ⟨fun s event => some {
    list := mergePublicClientPatch c false s.list event.1
    stored := patchCachedPublicBootstrapClients s.stored event.1 event.2 }⟩

/-- The condition on a change, for every client. -/
def Alike (base : List ClientInfo) (s : ClientsView) (event : PatchEvent) (_ : ClientsView) : Prop :=
  ∀ delta, event.1 = some delta → ∀ uuid, AlikeAt base s delta uuid

/-- Within the lifetime of a patch that is saved at `first`. -/
def WithinLifetime (first now : Int) : Prop := first ≤ now ∧ now ≤ first + PUBLIC_BOOTSTRAP_CLIENT_PATCH_MAX_AGE_MS

/-- The `uuid`s that an event is about. -/
def namedIn (event : PatchEvent) : List String := ((event.1.map entriesOf).getD []).map Prod.fst

/-- The `uuid`s of the base and of the changes. -/
def namedIds (base : List ClientInfo) (events : List PatchEvent) : List String :=
  uuids base ++ events.flatMap namedIn

/-- The change leaves the client out. -/
def GoneIn (delta : ClientDelta) (uuid : String) : Prop :=
  (uuid ∈ delta.remove ∧ showsOf uuid (entriesOf delta) = []) ∨
    ∃ before plainly after, entriesOf delta = before ++ (uuid, .hides plainly) :: after ∧ showsOf uuid after = []

/-- Some change leaves the client out, and none shows it later. -/
def Gone (events : List PatchEvent) (uuid : String) : Prop :=
  ∃ before delta now after, events = before ++ (some delta, now) :: after ∧ GoneIn delta uuid ∧
    ∀ event ∈ after, ∀ d, event.1 = some d → showsOf uuid (entriesOf d) = []

/-- The two lists have the same clients. -/
structure SameClients (c : Collation) (base : List ClientInfo) (ids : List String) (first : Int) (s : ClientsView) :
    Prop where
  list : c.PublicList s.list
  recorded : Recorded s.stored
  same : ∀ uuid, findClient s.list uuid = viewOf base s.stored uuid
  saved : ∀ patch, s.stored = some patch → first ≤ patch.saved_at
  named : ∀ uuid ∈ uuids s.list, uuid ∈ ids

variable {stored : Option StoredPatch}

theorem read_within {first now : Int}
    (hsaved : ∀ patch, stored = some patch → first ≤ patch.saved_at) (hnow : WithinLifetime first now) :
    readClientPatch stored now = stored := by
  cases stored with
  | none => rfl
  | some patch =>
    have hfirst := hsaved patch rfl
    have hage := hnow.2
    rw [readClientPatch, Option.filter_some, if_pos]
    rw [decide_eq_true_eq]
    omega

theorem saved_patch {detail : Option ClientDelta} {now first : Int} (hfirst : first ≤ now)
    (hsaved : ∀ patch, stored = some patch → first ≤ patch.saved_at) :
    ∀ patch, patchCachedPublicBootstrapClients stored detail now = some patch → first ≤ patch.saved_at := by
  intro patch hpatch
  rw [patchCachedPublicBootstrapClients] at hpatch
  cases hparts : clientPatchFromDetail detail with
  | none =>
    rw [hparts] at hpatch
    exact hsaved patch hpatch
  | some parts =>
    rw [hparts] at hpatch
    cases hpatch
    exact hfirst

theorem act_named (current : Option ClientInfo)
    (h : entries.foldl (act uuid) current ≠ none) : current ≠ none ∨ uuid ∈ entries.map Prod.fst := by
  induction entries generalizing current with
  | nil => exact .inl h
  | cons entry rest ih =>
    by_cases heq : entry.1 = uuid
    · exact .inr (by simp [heq])
    · rw [List.foldl_cons, act, if_neg heq] at h
      rcases ih current h with hcurrent | hmem
      · exact .inl hcurrent
      · exact .inr (List.mem_cons_of_mem _ hmem)

theorem mem_uuids_iff {clients : List ClientInfo} :
    uuid ∈ uuids clients ↔ findClient clients uuid ≠ none := by
  rw [findClient, ne_eq, Assoc.findBy_eq_none, not_not]
  rfl

theorem SameClients.step {c : Collation} {base : List ClientInfo} {ids : List String} {first : Int} (s : ClientsView)
    (event : PatchEvent) (s' : ClientsView) (h : SameClients c base ids first s)
    (hgood : (WithinLifetime first event.2 ∧ ∀ uuid ∈ namedIn event, uuid ∈ ids) ∧ Alike base s event s')
    (hstep : (patchMachine c).step s event = some s') : SameClients c base ids first s' := by
  obtain ⟨⟨hnow, hnamed⟩, halike⟩ := hgood
  cases hstep
  obtain ⟨detail, now⟩ := event
  have hread := read_within h.saved hnow
  cases detail with
  | none => exact ⟨h.list, h.recorded, h.same, h.saved, h.named⟩
  | some delta =>
    refine ⟨(find_merge h.list delta "").1, (patchCached_spec h.recorded delta now hread).1, ?_, ?_, ?_⟩
    · intro uuid
      exact (halike delta rfl uuid).step h.list h.recorded now hread (h.same uuid)
    · exact saved_patch hnow.1 h.saved
    · intro uuid hmem
      rw [mem_uuids_iff, (find_merge h.list delta uuid).2] at hmem
      rcases act_named _ _ hmem with hcurrent | hentry
      · apply h.named
        rw [mem_uuids_iff]
        intro hnone
        rw [hnone, ite_self] at hcurrent
        exact hcurrent rfl
      · exact hnamed uuid hentry

variable {c : Collation}

/-- A client that a change leaves out is not in the live list. -/
theorem find_gone {current : List ClientInfo} (hcurrent : c.PublicList current) {delta : ClientDelta}
    (hgone : GoneIn delta uuid) :
    findClient (mergePublicClientPatch c false current (some delta)) uuid = none := by
  rw [(find_merge hcurrent delta uuid).2]
  rcases hgone with ⟨hlisted, hnone⟩ | ⟨before, plainly, after, hentries, hnone⟩
  · rw [if_pos hlisted]
    rcases act_unshown (entriesOf delta) hnone none with hout | ⟨hsame, -⟩
    · exact hout
    · exact hsame
  · rw [hentries, List.foldl_append, List.foldl_cons, act, if_pos rfl]
    rcases act_unshown after hnone none with hout | ⟨hsame, -⟩
    · exact hout
    · exact hsame

theorem find_stays (events : List PatchEvent) (s s' : ClientsView)
    (hlist : c.PublicList s.list) (hout : findClient s.list uuid = none)
    (hunshown : ∀ event ∈ events, ∀ d, event.1 = some d → showsOf uuid (entriesOf d) = [])
    (hrun : (patchMachine c).run s events = some s') : findClient s'.list uuid = none := by
  refine ((patchMachine c).run_inv_of (I := fun s => c.PublicList s.list ∧ findClient s.list uuid = none)
    ?_ events s s' ⟨hlist, hout⟩ hunshown hrun).2
  rintro s ⟨detail, now⟩ s' ⟨hlist, hout⟩ hunshown hstep
  cases hstep
  cases detail with
  | none => exact ⟨hlist, hout⟩
  | some delta =>
    refine ⟨(find_merge hlist delta uuid).1, ?_⟩
    show findClient (mergePublicClientPatch c false s.list (some delta)) uuid = none
    rw [(find_merge hlist delta uuid).2, hout, ite_self]
    rcases act_unshown (entriesOf delta) (hunshown delta rfl) none with hgone | ⟨hsame, -⟩
    · exact hgone
    · exact hsame

theorem publicList_run (events : List PatchEvent) (s s' : ClientsView) (hlist : c.PublicList s.list)
    (hrun : (patchMachine c).run s events = some s') : c.PublicList s'.list := by
  refine (patchMachine c).run_inv (I := fun s => c.PublicList s.list) ?_ hlist hrun
  rintro s ⟨detail, now⟩ s' hlist hstep
  cases hstep
  cases detail with
  | none => exact hlist
  | some delta => exact (find_merge hlist delta "").1

/-- The order by code points. -/
def codePoints : Collation where
  le a b := decide (a ≤ b)
  le_trans a b c hab hbc := by
    rw [decide_eq_true_eq] at hab hbc ⊢
    exact String.le_trans hab hbc
  le_total a b := by
    rw [Bool.or_eq_true, decide_eq_true_eq, decide_eq_true_eq]
    exact String.le_total a b

/-- A client that no one has set anything of. -/
def nodeX : ClientInfo := clientOf "x" []

theorem publicList_nodeX : codePoints.PublicList [nodeX] :=
  ⟨List.pairwise_singleton _ _, List.nodup_singleton _⟩

/-- A change that hides the client with the given value. -/
def hideEvent (value : Json) : PatchEvent := (some ⟨[.obj [("uuid", .str "x"), ("hidden", value)]], []⟩, 0)

theorem entries_hiding {value : Json} (h : booleanField (some value) = true) :
    entriesOf ⟨[.obj [("uuid", .str "x"), ("hidden", value)]], []⟩ = [("x", .hides (isTrue (some value)))] := by
  have hupsert : upsertOf (.obj [("uuid", .str "x"), ("hidden", value)]) =
      some ("x", .hides (isTrue (some value))) := by
    have htrim : trim "x" = "x" := by decide +kernel
    have huuid : recordUuid [("uuid", .str "x"), ("hidden", value)] = "x" := htrim
    have hvalue : Assoc.get? [("uuid", .str "x"), ("hidden", value)] "hidden" = some value := rfl
    simp only [upsertOf, Json.obj?, huuid, hvalue, h, if_true]
    rfl
  rw [entriesOf, List.filterMap_cons_some hupsert, List.filterMap_nil]

end CfMonitor.Frontend
