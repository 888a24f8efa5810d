/-
  Client synchronisation is monotone in the revision.

  A token hash belongs to one node (`owner`), so a request for a node touches the keys of that node
  alone (`SameAt`), and everything is proved for one node at a time.

  1. **Invariant** (`Sound`) — the records and the pointer of a node are its own; its control row is
     not ahead of the high-water mark; an answer `applied: true` at the mark was given for the
     credentials that were written last; and these are in force unless a removal has touched them.

  2. **Results** — synchronisation is monotone in the revision (`client_sync_monotone`).
-/
import CfMonitor.Live.ClientSync

namespace CfMonitor.Live

open CfMonitor.Lib SyncRules

variable {owner : String → String} {u : String} {s s' s'' : SyncStore}

/-! ## The keys of one node -/

/-- Two stores agree on the keys of `u`. -/
structure SameAt (owner : String → String) (u : String) (s s' : SyncStore) : Prop where
  revision : s'.syncRevision u = s.syncRevision u
  control : s'.control u = s.control u
  pointer : s'.pointer u = s.pointer u
  auth : ∀ h, owner h = u → s'.auth h = s.auth h
  cred : s'.cred u = s.cred u
  revoked : s'.revoked u = s.revoked u

theorem SameAt.refl (s : SyncStore) : SameAt owner u s s := ⟨rfl, rfl, rfl, fun _ _ => rfl, rfl, rfl⟩

theorem SameAt.trans (h : SameAt owner u s s') (h' : SameAt owner u s' s'') :
    SameAt owner u s s'' where
  revision := h'.revision.trans h.revision
  control := h'.control.trans h.control
  pointer := h'.pointer.trans h.pointer
  auth k hk := (h'.auth k hk).trans (h.auth k hk)
  cred := h'.cred.trans h.cred
  revoked := h'.revoked.trans h.revoked

/-- The revision of the high-water mark; 0 before the first. -/
def mark (s : SyncStore) (u : String) : Nat := ((s.syncRevision u).map Prod.fst).getD 0

/-- A change of the credentials of `u` is in force. -/
def Settled (s : SyncStore) (u : String) : Option String → Prop
  | some h => s.pointer u = some h ∧ (s.auth h).isSome ∧ ∃ c, s.control u = some c ∧
      c.tokenHash = some h ∧ c.removed = false ∧ c.revision.isSome
  | none => s.pointer u = none ∧ ∃ c, s.control u = some c ∧ c.removed = true

theorem Settled.of_same {change : Option String} (hsame : SameAt owner u s s')
    (howner : ∀ h, change = some h → owner h = u) (h : Settled s u change) : Settled s' u change := by
  cases change with
  | none =>
    obtain ⟨hp, c, hc, hr⟩ := h
    exact ⟨hsame.pointer.trans hp, c, hsame.control.trans hc, hr⟩
  | some hash =>
    obtain ⟨hp, ha, c, hc, hrest⟩ := h
    refine ⟨hsame.pointer.trans hp, ?_, c, hsame.control.trans hc, hrest⟩
    rw [hsame.auth hash (howner hash rfl)]
    exact ha

/-- What holds of the keys of `u` at every moment. -/
structure Base (owner : String → String) (answers : List (String × Nat × Option String))
    (s : SyncStore) (u : String) : Prop where
  record : ∀ {h c}, owner h = u → s.auth h = some c → c.tokenHash = h ∧ c.uuid = u
  pointer : ∀ {h}, s.pointer u = some h → owner h = u
  control : ∀ {c r}, s.control u = some c → c.revision = some r → r ≤ mark s u
  answered : ∀ {R change}, (u, R, change) ∈ answers → R ≤ mark s u ∧
    (R = mark s u → s.syncRevision u = some (R, true) ∧ s.cred u = some (R, change))

/-- What holds of the keys of `u` between two segments: the credentials of a completed revision are
    in force, unless a removal has touched them. -/
structure Sound (owner : String → String) (answers : List (String × Nat × Option String))
    (s : SyncStore) (u : String) : Prop extends Base owner answers s u where
  settled : ∀ {R change}, s.syncRevision u = some (R, true) → s.cred u = some (R, change) →
    s.revoked u = false → Settled s u change

variable {answers : List (String × Nat × Option String)}

theorem mark_of_same (h : SameAt owner u s s') : mark s' u = mark s u := by
  rw [mark, mark, h.revision]

theorem Base.of_same (hsame : SameAt owner u s s') (h : Base owner answers s u) :
    Base owner answers s' u where
  record hk ha := h.record hk ((hsame.auth _ hk).symm.trans ha)
  pointer hp := h.pointer (hsame.pointer.symm.trans hp)
  control hc hr := by
    rw [mark_of_same hsame]
    exact h.control (hsame.control.symm.trans hc) hr
  answered hmem := by
    rw [mark_of_same hsame, hsame.revision, hsame.cred]
    exact h.answered hmem

theorem Settled.belongs {change : Option String} (hb : Base owner answers s u)
    (h : Settled s u change) : ∀ hash, change = some hash → owner hash = u := by
  rintro hash rfl
  exact hb.pointer h.1

theorem Sound.of_same (hsame : SameAt owner u s s') (h : Sound owner answers s u) :
    Sound owner answers s' u where
  toBase := h.toBase.of_same hsame
  settled {R change} hrev hcred hrevoked := by
    rw [hsame.revision] at hrev
    rw [hsame.cred] at hcred
    rw [hsame.revoked] at hrevoked
    have hs := h.settled hrev hcred hrevoked
    exact hs.of_same hsame (hs.belongs h.toBase)

variable {R : Nat}

/-- While a revision is being applied there is nothing to settle. -/
theorem Base.sound (h : Base owner answers s u)
    (hrev : s.syncRevision u = some (R, false)) : Sound owner answers s u where
  toBase := h
  settled {R' change} hrev' := by
    rw [hrev] at hrev'
    exact absurd (Prod.mk.inj (Option.some.inj hrev')).2 (by simp)

theorem mark_eq {b : Bool} (h : s.syncRevision u = some (R, b)) : mark s u = R := by
  rw [mark, h]
  rfl

/-! ## One write at a time -/

section Writes

variable {rules : SyncRules} {v : String}

variable {R : Nat}

theorem putRevision_same {b : Bool} (hne : v ≠ u) : SameAt owner v s (putRevision u R b s) :=
  ⟨Function.update_of_ne hne _ _, rfl, rfl, fun _ _ => rfl, rfl, rfl⟩

theorem putRevision_self {b : Bool} :
    (putRevision u R b s).syncRevision u = some (R, b) := Function.update_self _ _ _

theorem Base.putRevision (hnew : alreadyApplied s u R = false)
    (h : Base owner answers s u) : mark s u ≤ R ∧ Base owner answers (putRevision u R false s) u := by
  have hle : mark s u ≤ R ∧ ∀ b, s.syncRevision u = some (R, b) → b = false := by
    rw [alreadyApplied] at hnew
    rw [mark]
    cases hr : s.syncRevision u with
    | none => exact ⟨Nat.zero_le R, nofun⟩
    | some stored =>
      obtain ⟨R', b'⟩ := stored
      rw [hr] at hnew
      have hnew' : R' ≤ R ∧ (R' = R → b' = false) := by simpa using hnew
      refine ⟨hnew'.1, ?_⟩
      intro b hb
      cases hb
      exact hnew'.2 rfl
  refine ⟨hle.1, ?_⟩
  have hmark : mark (SyncRules.putRevision u R false s) u = R := mark_eq putRevision_self
  refine ⟨h.record, h.pointer, ?_, ?_⟩
  · intro c r hc hr
    rw [hmark]
    exact Nat.le_trans (h.control hc hr) hle.1
  · intro R' change hmem
    obtain ⟨hbound, heq⟩ := h.answered hmem
    rw [hmark]
    refine ⟨Nat.le_trans hbound hle.1, ?_⟩
    rintro rfl
    -- an answer at this revision would have completed it
    have hsame : R' = mark s u := Nat.le_antisymm hbound hle.1
    exact absurd (hle.2 true (heq hsame).1) (by simp)

theorem removeAgentAuthByUuid_same {now : Int} (hne : v ≠ u) (h : Base owner answers s u) :
    SameAt owner v s (removeAgentAuthByUuid u now s) := by
  refine ⟨rfl, removeAgentAuthByUuid_control_ne s u now hne, ?_, ?_, rfl, rfl⟩
  · rw [removeAgentAuthByUuid_pointer, if_neg hne]
  · intro hash hv
    have hother : s.pointer u ≠ some hash := fun hp => hne (hv.symm.trans (h.pointer hp))
    rw [removeAgentAuthByUuid_auth, if_neg hother]

variable {revision : Option Nat}

theorem saveCredentials_same {client : AgentAuthSnapshot}
    (hclient : client.uuid = u) (howner : owner client.tokenHash = u) (hne : v ≠ u)
    (h : Base owner answers s u) : SameAt owner v s (rules.saveCredentials client revision s) := by
  subst hclient
  refine ⟨rfl, ?_, ?_, ?_, rfl, rfl⟩
  · rw [saveCredentials_control, if_neg hne]
  · rw [saveCredentials_pointer, if_neg hne]
  · intro hash hv
    have hnew : hash ≠ client.tokenHash := by
      rintro rfl
      exact hne (hv.symm.trans howner)
    have hother : s.pointer client.uuid ≠ some hash :=
      fun hp => hne (hv.symm.trans (h.pointer hp))
    rw [saveCredentials_auth, if_neg hnew, if_neg hother]

theorem Base.removeAgentAuthByUuid {now : Int} (h : Base owner answers s u) :
    Base owner answers (removeAgentAuthByUuid u now s) u where
  record {hash c} hk ha := by
    rw [removeAgentAuthByUuid_auth] at ha
    split_ifs at ha
    exact h.record hk ha
  pointer {hash} hp := absurd hp (by simp)
  control {c r} hc hr := by
    obtain ⟨c', hc', -, hrev⟩ := removeAgentAuthByUuid_control_self s u now
    obtain rfl : c' = c := Option.some.inj (hc'.symm.trans hc)
    rw [hrev] at hr
    obtain ⟨old, hold, hr⟩ := Option.bind_eq_some_iff.mp hr
    exact h.control hold hr
  answered hmem := h.answered hmem

theorem Base.saveCredentials {client : AgentAuthSnapshot}
    (hclient : client.uuid = u) (howner : owner client.tokenHash = u)
    (hrev : ∀ R, revision = some R → R ≤ mark s u) (h : Base owner answers s u) :
    Base owner answers (rules.saveCredentials client revision s) u where
  record {hash c} hk ha := by
    rw [saveCredentials_auth] at ha
    split_ifs at ha with hnew
    · cases ha
      exact ⟨hnew.symm, hclient⟩
    · exact h.record hk ha
  pointer {hash} hp := by
    rw [saveCredentials_pointer, if_pos hclient.symm] at hp
    exact Option.some.inj hp ▸ howner
  control {c r} hc hr := by
    subst hclient
    show r ≤ mark s client.uuid
    rw [saveCredentials_control, if_pos rfl] at hc
    cases hc
    cases revision with
    | some R =>
      obtain rfl : R = r := Option.some.inj hr
      exact hrev R rfl
    | none =>
      obtain ⟨old, hold, hr⟩ := Option.bind_eq_some_iff.mp hr
      exact h.control hold hr
  answered hmem := h.answered hmem

theorem remember_same {change : Option String} (hne : v ≠ u) : SameAt owner v s (remember u R change s) :=
  ⟨rfl, rfl, rfl, fun _ _ => rfl, Function.update_of_ne hne _ _, Function.update_of_ne hne _ _⟩

theorem touch_same (hne : v ≠ u) : SameAt owner v s (touch u s) :=
  ⟨rfl, rfl, rfl, fun _ _ => rfl, rfl, Function.update_of_ne hne _ _⟩

theorem Base.remember {change : Option String} (hrev : s.syncRevision u = some (R, false))
    (h : Base owner answers s u) : Base owner answers (remember u R change s) u where
  record := h.record
  pointer := h.pointer
  control := h.control
  answered {R' change'} hmem := by
    obtain ⟨hbound, heq⟩ := h.answered hmem
    refine ⟨hbound, fun hmark => ?_⟩
    -- no answer was given at a revision that is being applied
    have hdone := (heq hmark).1
    rw [hrev] at hdone
    exact absurd (Prod.mk.inj (Option.some.inj hdone)).2 (by simp)

theorem Base.touch (h : Base owner answers s u) : Base owner answers (touch u s) u where
  record := h.record
  pointer := h.pointer
  control := h.control
  answered hmem := h.answered hmem

theorem upsertAdmin_same (client : AgentAuthSnapshot) (now : Int) :
    SameAt owner v s (rules.upsertAdmin client now s) := by
  rw [upsertAdmin]
  cases (rules.upsertAdminClientSnapshot s.admin client.payload false none now).2 with
  | none => exact SameAt.refl s
  | some snapshot => exact ⟨rfl, rfl, rfl, fun _ _ => rfl, rfl, rfl⟩

theorem removeAdmin_same (uuid : String) (now : Int) : SameAt owner v s (removeAdmin uuid now s) :=
  ⟨rfl, rfl, rfl, fun _ _ => rfl, rfl, rfl⟩

theorem settled_removeAgentAuthByUuid (now : Int) : Settled (removeAgentAuthByUuid u now s) u none := by
  obtain ⟨c, hc, hremoved, -⟩ := removeAgentAuthByUuid_control_self s u now
  exact ⟨by rw [removeAgentAuthByUuid_pointer, if_pos rfl], c, hc, hremoved⟩

theorem settled_saveCredentials {client : AgentAuthSnapshot} (hclient : client.uuid = u) (R : Nat) :
    Settled (rules.saveCredentials client (some R) s) u (some client.tokenHash) := by
  subst hclient
  refine ⟨by rw [saveCredentials_pointer, if_pos rfl], by rw [saveCredentials_auth, if_pos rfl]; rfl,
    _, by rw [saveCredentials_control, if_pos rfl], rfl, rfl, rfl⟩

/-- An unversioned save keeps the versioned change that is in force: it is refused for a removed
    node and for another token. -/
theorem Settled.upsert {rules : SyncRules} {client : AgentAuthSnapshot} {change : Option String}
    (h : Settled s client.uuid change) (hsave : rules.unversionedVerdict s client = .save) :
    Settled (rules.saveCredentials client none s) client.uuid change := by
  rw [unversionedVerdict.eq_def] at hsave
  cases change with
  | none =>
    obtain ⟨-, c, hc, hremoved⟩ := h
    simp [hc, hremoved] at hsave
  | some hash =>
    obtain ⟨-, -, c, hc, hhash, -, hrev⟩ := h
    have hsame : client.tokenHash = hash := by
      by_contra hne
      have hne' : ¬ hash = client.tokenHash := fun h' => hne h'.symm
      simp [hc, hrev, hhash, hne'] at hsave
    subst hsame
    refine ⟨by rw [saveCredentials_pointer, if_pos rfl], by rw [saveCredentials_auth, if_pos rfl]; rfl,
      _, by rw [saveCredentials_control, if_pos rfl], rfl, rfl, ?_⟩
    rw [hc]
    exact hrev

end Writes

/-! ## Segments -/

/-- The keys of the other nodes are as at the start of the segment, and the mark has not sunk. -/
structure Off (owner : String → String) (u : String) (s₀ s : SyncStore) : Prop where
  others : ∀ v, v ≠ u → SameAt owner v s₀ s
  mark : mark s₀ u ≤ mark s u

/-- A segment has been cut off, or waits: its node is in order. -/
def Cut (owner : String → String) (answers : List (String × Nat × Option String)) (u : String)
    (s₀ s : SyncStore) : Prop := Off owner u s₀ s ∧ Sound owner answers s u

/-- The revision is marked and its change is not applied yet. -/
def Marked (owner : String → String) (answers : List (String × Nat × Option String)) (u : String)
    (R : Nat) (s₀ s : SyncStore) : Prop :=
  Off owner u s₀ s ∧ Base owner answers s u ∧ s.syncRevision u = some (R, false)

/-- The change of the credentials is made, and the revision not yet complete. -/
structure Ready (s : SyncStore) (u : String) (R : Nat) (change : Option String) : Prop where
  revision : s.syncRevision u = some (R, false)
  cred : s.cred u = some (R, change)
  settled : s.revoked u = false → Settled s u change

/-- What an awaiting synchronisation of `u` relies on. -/
def Waiting (owner : String → String) (s : SyncStore) (u : String) (R : Nat) : SyncAwait → Prop
  | .removing client => s.syncRevision u = some (R, false) ∧
      ∀ c, client = some c → c.uuid = u ∧ owner c.tokenHash = u
  | .describing client => Ready s u R (some client.tokenHash) ∧ owner client.tokenHash = u

/-- What the end of a segment for the change `hash` establishes. -/
def Ended (owner : String → String) (answers : List (String × Nat × Option String)) (u : String)
    (R : Nat) (hash : Option String) (s₀ : SyncStore) : SyncOutcome → SyncStore → Prop
  | .waits next, s => Cut owner answers u s₀ s ∧ Waiting owner s u R next ∧ next.hash = hash
  | .answered false, s => Cut owner answers u s₀ s
  | .answered true, s => Cut owner ((u, R, hash) :: answers) u s₀ s

section Segments

variable {rules : SyncRules} {R : Nat} {s₀ : SyncStore}

theorem Off.refl (s : SyncStore) : Off owner u s s := ⟨fun _ _ => SameAt.refl s, Nat.le_refl _⟩

theorem Off.step (h : Off owner u s₀ s) (hothers : ∀ v, v ≠ u → SameAt owner v s s')
    (hmark : CfMonitor.Live.mark s u ≤ CfMonitor.Live.mark s' u) : Off owner u s₀ s' :=
  ⟨fun v hv => (h.others v hv).trans (hothers v hv), Nat.le_trans h.mark hmark⟩

theorem Marked.cut (h : Marked owner answers u R s₀ s) : Cut owner answers u s₀ s :=
  ⟨h.1, h.2.1.sound h.2.2⟩

theorem Marked.same (h : Marked owner answers u R s₀ s) (hsame : ∀ v, SameAt owner v s s') :
    Marked owner answers u R s₀ s' :=
  ⟨h.1.step (fun v _ => hsame v) (Nat.le_of_eq (mark_of_same (hsame u)).symm),
    h.2.1.of_same (hsame u), (hsame u).revision.trans h.2.2⟩

theorem Marked.remove (now : Int) (h : Marked owner answers u R s₀ s) :
    Marked owner answers u R s₀ (removeAgentAuthByUuid u now s) :=
  ⟨h.1.step (fun _ hv => removeAgentAuthByUuid_same hv h.2.1) (Nat.le_refl _),
    h.2.1.removeAgentAuthByUuid, h.2.2⟩

theorem Marked.save (rules : SyncRules) {client : AgentAuthSnapshot} (hclient : client.uuid = u)
    (howner : owner client.tokenHash = u) (h : Marked owner answers u R s₀ s) :
    Marked owner answers u R s₀ (rules.saveCredentials client (some R) s) := by
  refine ⟨h.1.step (fun v hv => saveCredentials_same hclient howner hv h.2.1) (Nat.le_refl _), ?_,
    h.2.2⟩
  refine h.2.1.saveCredentials hclient howner ?_
  rintro R' hR'
  cases hR'
  exact Nat.le_of_eq (mark_eq h.2.2).symm

theorem Marked.remember {change : Option String} (h : Marked owner answers u R s₀ s)
    (hsettled : Settled s u change) :
    Marked owner answers u R s₀ (remember u R change s) ∧ Ready (remember u R change s) u R change := by
  refine ⟨⟨h.1.step (fun _ hv => remember_same hv) (Nat.le_refl _), h.2.1.remember h.2.2, h.2.2⟩, ?_⟩
  refine ⟨h.2.2, Function.update_self .., fun _ => ?_⟩
  cases change with
  | none => exact hsettled
  | some hash => exact hsettled

theorem Ready.complete {change : Option String} (hready : Ready s u R change)
    (h : Marked owner answers u R s₀ s) :
    Cut owner ((u, R, change) :: answers) u s₀ (putRevision u R true s) := by
  have hmark : mark (putRevision u R true s) u = R := mark_eq putRevision_self
  have hold : mark s u = R := mark_eq h.2.2
  refine ⟨h.1.step (fun v hv => putRevision_same hv) (by rw [hmark, hold]), ?_⟩
  refine ⟨⟨h.2.1.record, h.2.1.pointer, ?_, ?_⟩, ?_⟩
  · intro c r hc hr
    have hle := h.2.1.control hc hr
    rw [hmark]
    omega
  · intro R' change' hmem
    rw [hmark]
    rcases List.mem_cons.mp hmem with heq | hmem
    · obtain ⟨-, rfl, rfl⟩ : u = u ∧ R' = R ∧ change' = change := by simpa using heq
      exact ⟨Nat.le_refl _, fun _ => ⟨putRevision_self, hready.cred⟩⟩
    · obtain ⟨hbound, heq⟩ := h.2.1.answered hmem
      refine ⟨by omega, fun hR => ?_⟩
      have hdone := (heq (by omega)).1
      rw [h.2.2] at hdone
      exact absurd (Prod.mk.inj (Option.some.inj hdone)).2 (by simp)
  · intro R' change' hrev hcred hrevoked
    have hcred' : s.cred u = some (R', change') := hcred
    rw [hready.cred] at hcred'
    obtain ⟨-, rfl⟩ := Prod.mk.inj (Option.some.inj hcred')
    have hs := hready.settled hrevoked
    cases change with
    | none => exact hs
    | some hash => exact hs

theorem finish_triple {change : Option String} :
    Triple (fun s => Marked owner answers u R s₀ s ∧ Ready s u R change) (finish u R)
      (Cut owner answers u s₀) (Ended owner answers u R change s₀) (Cut owner answers u s₀) := by
  refine Triple.bind (M := fun _ s => Cut owner ((u, R, change) :: answers) u s₀ s) ?_ ?_
  · refine Triple.modify ?_
    rintro s ⟨hmarked, hready⟩
    have hdone := hready.complete hmarked
    refine ⟨⟨hdone.1, ?_⟩, hdone⟩
    -- cut off here, the answer is lost and the rest stands
    exact ⟨⟨hdone.2.record, hdone.2.pointer, hdone.2.control,
      fun hmem => hdone.2.answered (List.mem_cons_of_mem _ hmem)⟩, hdone.2.settled⟩
  · intro _
    exact Triple.pure fun s hs => hs

theorem storeVersioned_triple {client : AgentAuthSnapshot} (hclient : client.uuid = u)
    (howner : owner client.tokenHash = u) :
    Triple (Marked owner answers u R s₀) (rules.storeVersioned u R client)
      (Cut owner answers u s₀) (Ended owner answers u R (some client.tokenHash) s₀)
      (Cut owner answers u s₀) := by
  intro s hs
  have hsave : versionedVerdict s client R = .save := by
    rw [versionedVerdict, hclient]
    cases hrev : (s.control u).bind AgentAuthControl.revision with
    | none => rfl
    | some old =>
      obtain ⟨c, hc, hr⟩ := Option.bind_eq_some_iff.mp hrev
      have hle := hs.2.1.control hc hr
      rw [mark_eq hs.2.2] at hle
      exact if_neg (Nat.not_lt.mpr hle)
  rw [storeVersioned, hsave]
  have hsegment : Triple (Marked owner answers u R s₀)
      (do
        Prog.modify fun s =>
          remember u R (some client.tokenHash) (rules.saveCredentials client (some R) s)
        pure (.waits (.describing client)) : Prog SyncStore Refusal SyncOutcome)
      (Cut owner answers u s₀) (Ended owner answers u R (some client.tokenHash) s₀)
      (Cut owner answers u s₀) := by
    refine Triple.bind (M := fun _ s => Marked owner answers u R s₀ s ∧
      Ready s u R (some client.tokenHash)) (Triple.modify ?_) ?_
    · intro s hs
      obtain ⟨hmarked, hready⟩ :=
        (hs.save rules hclient howner).remember (settled_saveCredentials hclient R)
      exact ⟨hmarked.cut, hmarked, hready⟩
    · intro _
      refine Triple.pure fun s hs => ?_
      exact ⟨hs.1.cut, ⟨hs.2, howner⟩, rfl⟩
  exact hsegment s hs

theorem applyChange_triple {change : Option AgentAuthSnapshot}
    (hchange : ∀ c, change = some c → c.uuid = u ∧ owner c.tokenHash = u) :
    Triple (Marked owner answers u R s₀) (rules.applyChange u R change)
      (Cut owner answers u s₀) (Ended owner answers u R (changeHash change) s₀)
      (Cut owner answers u s₀) := by
  have hwait : Triple (Marked owner answers u R s₀)
      (pure (.waits (.removing change)) : Prog SyncStore Refusal SyncOutcome)
      (Cut owner answers u s₀) (Ended owner answers u R (changeHash change) s₀)
      (Cut owner answers u s₀) :=
    Triple.pure fun s hs => ⟨hs.cut, ⟨hs.2.2, hchange⟩, rfl⟩
  intro s hs
  cases change with
  | none => exact hwait s hs
  | some client =>
    by_cases hold : (s.pointer u).isSome ∧ s.pointer u ≠ some client.tokenHash
    · rw [applyChange, if_pos hold]
      exact hwait s hs
    · rw [applyChange, if_neg hold]
      obtain ⟨hclient, howner⟩ := hchange client rfl
      exact storeVersioned_triple hclient howner s hs

/-- **The first segment.** -/
theorem applyClientSynchronization_triple {change : Option AgentAuthSnapshot}
    (hchange : ∀ c, change = some c → c.uuid = u ∧ owner c.tokenHash = u) :
    Triple (fun s => s = s₀ ∧ Sound owner answers s u) (rules.applyClientSynchronization u R change)
      (Cut owner answers u s₀) (Ended owner answers u R (changeHash change) s₀)
      (Cut owner answers u s₀) := by
  rintro s ⟨rfl, hs⟩
  rw [applyClientSynchronization]
  cases hnew : alreadyApplied s u R with
  | true =>
    exact (Triple.pure (P := fun s' => s' = s) fun s' hs' => by
      subst hs'
      exact ⟨Off.refl _, hs⟩) s rfl
  | false =>
    have hsegment : Triple (fun s' => s' = s)
        (do
          Prog.modify (putRevision u R false)
          rules.applyChange u R change : Prog SyncStore Refusal SyncOutcome)
        (Cut owner answers u s) (Ended owner answers u R (changeHash change) s)
        (Cut owner answers u s) := by
      refine Triple.bind (M := fun _ => Marked owner answers u R s) (Triple.modify ?_)
        (fun _ => applyChange_triple hchange)
      rintro s' rfl
      obtain ⟨hle, hbase⟩ := hs.toBase.putRevision hnew
      have hmarked : Marked owner answers u R s' (putRevision u R false s') := by
        refine ⟨⟨fun v hv => putRevision_same hv, ?_⟩, hbase, putRevision_self⟩
        rw [mark_eq (putRevision_self (s := s') (u := u))]
        exact hle
      exact ⟨hmarked.cut, hmarked⟩
    exact hsegment s rfl

/-- **The later segments.** -/
theorem resume_triple {now : Int} {fits : Bool} {next : SyncAwait} :
    Triple (fun s => s = s₀ ∧ Base owner answers s u ∧ Waiting owner s u R next)
      (rules.resume u R now fits next)
      (Cut owner answers u s₀) (Ended owner answers u R next.hash s₀) (Cut owner answers u s₀) := by
  cases next with
  | describing client =>
    refine Triple.bind (M := fun _ s => Marked owner answers u R s₀ s ∧
      Ready s u R (some client.tokenHash)) (Triple.modify ?_) (fun _ => finish_triple)
    rintro s ⟨rfl, hbase, hready, howner⟩
    have hsame : ∀ v, SameAt owner v s ((if fits then rules.upsertAdmin client now else id) s) := by
      intro v
      split_ifs
      · exact upsertAdmin_same client now
      · exact SameAt.refl s
    have hmarked := (show Marked owner answers u R s s from
      ⟨Off.refl s, hbase, hready.revision⟩).same hsame
    refine ⟨hmarked.cut, hmarked, hmarked.2.2, (hsame u).cred.trans hready.cred, fun hr => ?_⟩
    refine (hready.settled ((hsame u).revoked.symm.trans hr)).of_same (hsame u) ?_
    rintro h heq
    exact Option.some.inj heq ▸ howner
  | removing change =>
    cases change with
    | none =>
      refine Triple.bind (M := fun _ s => Marked owner answers u R s₀ s ∧ Ready s u R none)
        (Triple.modify ?_) fun _ => ?_
      · rintro s ⟨rfl, hbase, hrev, -⟩
        have hmarked : Marked owner answers u R s s := ⟨Off.refl s, hbase, hrev⟩
        obtain ⟨hmarked', hready⟩ :=
          (hmarked.remove now).remember (settled_removeAgentAuthByUuid now)
        exact ⟨hmarked'.cut, hmarked', hready⟩
      · refine Triple.bind (M := fun _ s => Marked owner answers u R s₀ s ∧ Ready s u R none)
          (Triple.modify ?_) (fun _ => finish_triple)
        rintro s ⟨hmarked, hready⟩
        have hmarked' := hmarked.same fun v => removeAdmin_same u now
        exact ⟨hmarked'.cut, hmarked', hready.revision, hready.cred, hready.settled⟩
    | some client =>
      refine Triple.bind (M := fun _ s => Marked owner answers u R s₀ s ∧
        client.uuid = u ∧ owner client.tokenHash = u) (Triple.modify ?_) fun _ => ?_
      · rintro s ⟨rfl, hbase, hrev, hclient⟩
        have hmarked := (show Marked owner answers u R s s from
          ⟨Off.refl s, hbase, hrev⟩).remove now
        exact ⟨hmarked.cut, hmarked, hclient client rfl⟩
      · rintro s ⟨hmarked, hclient, howner⟩
        exact storeVersioned_triple hclient howner s hmarked

end Segments

/-! ## The whole object -/

theorem Waiting.of_same {next : SyncAwait} (hsame : SameAt owner u s s')
    (h : Waiting owner s u R next) : Waiting owner s' u R next := by
  cases next with
  | removing client => exact ⟨hsame.revision.trans h.1, h.2⟩
  | describing client =>
    obtain ⟨hready, howner⟩ := h
    refine ⟨⟨hsame.revision.trans hready.revision, hsame.cred.trans hready.cred, fun hr => ?_⟩, howner⟩
    refine (hready.settled (hsame.revoked.symm.trans hr)).of_same hsame ?_
    rintro hash heq
    exact Option.some.inj heq ▸ howner

theorem Sound.of_answers {answers' : List (String × Nat × Option String)} (h : Sound owner answers s u)
    (hsub : ∀ R change, (u, R, change) ∈ answers' → (u, R, change) ∈ answers) :
    Sound owner answers' s u :=
  ⟨⟨h.record, h.pointer, h.control, fun hmem => h.answered (hsub _ _ hmem)⟩, h.settled⟩

/-- The invariant of the object. -/
structure SyncWorld.Inv (owner : String → String) (w : SyncWorld) : Prop where
  sound : ∀ u, Sound owner w.answers w.store u
  waiting : ∀ {u call}, w.running u = some call → Waiting owner w.store u call.revision call.next

theorem SyncWorld.Inv.start : SyncWorld.start.Inv owner where
  sound u := ⟨⟨nofun, nofun, nofun, nofun⟩, nofun⟩
  waiting h := absurd h (by simp [SyncWorld.start])

namespace SyncWorld.Inv

variable {w : SyncWorld} {rules : SyncRules}

/-- A request for one node that leaves the others alone. -/
theorem update {answers' : List (String × Nat × Option String)} {call : Option SyncCall}
    (hI : w.Inv owner) (hcut : Cut owner answers' u w.store s')
    (hanswers : ∀ v R change, v ≠ u → (v, R, change) ∈ answers' → (v, R, change) ∈ w.answers)
    (hcall : ∀ c, call = some c → Waiting owner s' u c.revision c.next) :
    (SyncWorld.mk s' (Function.update w.running u call) answers').Inv owner where
  sound v := by
    by_cases hv : v = u
    · exact hv ▸ hcut.2
    · exact ((hI.sound v).of_same (hcut.1.others v hv)).of_answers fun R change => hanswers v R change hv
  waiting {v c} hrun := by
    by_cases hv : v = u
    · subst hv
      exact hcall c ((Function.update_self v call w.running).symm.trans hrun)
    · have hrun' : w.running v = some c := (Function.update_of_ne hv call w.running).symm.trans hrun
      exact (hI.waiting hrun').of_same (hcut.1.others v hv)

theorem mark_le (hoff : Off owner u s s') (v : String) : mark s v ≤ mark s' v := by
  by_cases hv : v = u
  · exact hv ▸ hoff.mark
  · exact Nat.le_of_eq (mark_of_same (hoff.others v hv)).symm

theorem segment {R : Nat} {hash : Option String} {p : Prog SyncStore Refusal SyncOutcome}
    {cut : Option Nat} {P : SyncStore → Prop} (hI : w.Inv owner) (hP : P w.store)
    (hp : Triple P p (Cut owner w.answers u w.store) (Ended owner w.answers u R hash w.store)
      (Cut owner w.answers u w.store)) :
    (w.segment u R hash p cut).Inv owner ∧ ∀ v, mark w.store v ≤ mark (w.segment u R hash p cut).store v := by
  obtain ⟨hseen, hok, herr⟩ := hp w.store hP
  have hstay : Cut owner w.answers u w.store w.store := ⟨Off.refl _, hI.sound u⟩
  have hnone : ∀ c : SyncCall, (none : Option SyncCall) = some c →
      ∀ s, Waiting owner s u c.revision c.next := nofun
  rw [SyncWorld.segment.eq_def]
  cases cut with
  | some n =>
    have hcut : Cut owner w.answers u w.store (((p w.store).seen.take n).getLast?.getD w.store) := by
      cases hlast : ((p w.store).seen.take n).getLast? with
      | none => exact hstay
      | some s' => exact hseen s' (List.mem_of_mem_take (List.mem_of_getLast? hlast))
    exact ⟨hI.update hcut (fun _ _ _ _ h => h) (fun c hc => hnone c hc _), mark_le hcut.1⟩
  | none =>
    cases hres : (p w.store).result with
    | error e =>
      have hcut := herr e hres
      simp only [hres]
      exact ⟨hI.update hcut (fun _ _ _ _ h => h) (fun c hc => hnone c hc _), mark_le hcut.1⟩
    | ok outcome =>
      have hend := hok outcome hres
      cases outcome with
      | waits next =>
        obtain ⟨hcut, hwait, -⟩ := hend
        simp only [hres]
        refine ⟨hI.update hcut (fun _ _ _ _ h => h) ?_, mark_le hcut.1⟩
        intro c hc
        cases hc
        exact hwait
      | answered applied =>
        cases applied with
        | false =>
          have hcut : Cut owner w.answers u w.store (p w.store).last := hend
          simp only [hres]
          exact ⟨hI.update hcut (fun _ _ _ _ h => h) (fun c hc => hnone c hc _), mark_le hcut.1⟩
        | true =>
          have hcut : Cut owner ((u, R, hash) :: w.answers) u w.store (p w.store).last := hend
          simp only [hres]
          refine ⟨hI.update hcut ?_ (fun c hc => hnone c hc _), mark_le hcut.1⟩
          intro v R' change hv hmem
          rcases List.mem_cons.mp hmem with heq | hmem
          · exact absurd (Prod.mk.inj heq).1 hv
          · exact hmem

theorem touched (hI : w.Inv owner) (hothers : ∀ v, v ≠ u → SameAt owner v w.store s')
    (hbase : Base owner w.answers s' u) (hrev : s'.syncRevision u = w.store.syncRevision u)
    (hcred : s'.cred u = w.store.cred u) (hrevoked : s'.revoked u = true) :
    ({ w with store := s' } : SyncWorld).Inv owner ∧ ∀ v, mark w.store v ≤ mark s' v := by
  refine ⟨⟨fun v => ?_, fun {v call} hrun => ?_⟩, mark_le ⟨hothers, ?_⟩⟩
  · by_cases hv : v = u
    · subst hv
      exact ⟨hbase, fun _ _ hr => absurd (hrevoked.symm.trans hr) (by simp)⟩
    · exact (hI.sound v).of_same (hothers v hv)
  · by_cases hv : v = u
    · subst hv
      have hwait := hI.waiting hrun
      cases hnext : call.next with
      | removing client =>
        rw [hnext] at hwait
        exact ⟨hrev.trans hwait.1, hwait.2⟩
      | describing client =>
        rw [hnext] at hwait
        obtain ⟨hready, howner⟩ := hwait
        exact ⟨⟨hrev.trans hready.revision, hcred.trans hready.cred,
          fun hr => absurd (hrevoked.symm.trans hr) (by simp)⟩, howner⟩
    · exact (hI.waiting hrun).of_same (hothers v hv)
  · rw [mark, mark, hrev]

/-- An unversioned save of a node that no synchronisation works on. -/
theorem upsert {client : AgentAuthSnapshot} (hI : w.Inv owner)
    (hidle : w.running client.uuid = none) (howner : owner client.tokenHash = client.uuid)
    (hsave : rules.unversionedVerdict w.store client = .save) :
    ({ w with store := rules.saveCredentials client none w.store } : SyncWorld).Inv owner ∧
      ∀ v, mark w.store v ≤ mark (rules.saveCredentials client none w.store) v := by
  have hbase := (hI.sound client.uuid).toBase
  have hcut : Cut owner w.answers client.uuid w.store (rules.saveCredentials client none w.store) := by
    refine ⟨⟨fun v hv => saveCredentials_same rfl howner hv hbase, Nat.le_refl _⟩, ?_⟩
    refine ⟨hbase.saveCredentials rfl howner nofun, ?_⟩
    intro R change hrev hcred hrevoked
    exact ((hI.sound client.uuid).settled hrev hcred hrevoked).upsert hsave
  have hrunning : Function.update w.running client.uuid none = w.running := by
    rw [← hidle]
    exact Function.update_eq_self ..
  have hnone : ∀ c, (none : Option SyncCall) = some c → Waiting owner
      (rules.saveCredentials client none w.store) client.uuid c.revision c.next :=
    nofun
  have hnew := hI.update hcut (fun _ _ _ _ h => h) hnone
  rw [hrunning] at hnew
  exact ⟨hnew, mark_le hcut.1⟩

/-- `removeAgentAuthByUuid` of a request of its own. -/
theorem remove (now : Int) (hI : w.Inv owner) :
    ({ w with store := touch u (removeAgentAuthByUuid u now w.store) } : SyncWorld).Inv owner ∧
      ∀ v, mark w.store v ≤ mark (touch u (removeAgentAuthByUuid u now w.store)) v := by
  have hbase := (hI.sound u).toBase
  refine hI.touched (u := u) (fun v hv => ?_) hbase.removeAgentAuthByUuid.touch rfl rfl
    (Function.update_self ..)
  exact (removeAgentAuthByUuid_same hv hbase).trans (touch_same hv)

theorem dropRecord (hash : String) (hI : w.Inv owner) (hs : s' = touch (owner hash)
      { w.store with auth := Function.update w.store.auth hash none }) :
    ({ w with store := s' } : SyncWorld).Inv owner ∧ ∀ v, mark w.store v ≤ mark s' v := by
  subst hs
  have hbase := (hI.sound (owner hash)).toBase
  refine hI.touched (u := owner hash) (fun v hv => ?_) ?_ rfl rfl (Function.update_self ..)
  · refine ⟨rfl, rfl, rfl, fun h hh => ?_, rfl, Function.update_of_ne hv ..⟩
    have hne : h ≠ hash := by
      rintro rfl
      exact hv hh.symm
    exact Function.update_of_ne hne ..
  · refine ⟨fun {h c} hk ha => hbase.record hk ?_, hbase.pointer, hbase.control, hbase.answered⟩
    by_cases heq : h = hash
    · subst heq
      exact absurd ((Function.update_self ..).symm.trans ha) (by simp)
    · exact (Function.update_of_ne heq ..).symm.trans ha

/-- Writes to the management snapshot alone. -/
theorem admin (hI : w.Inv owner) (hsame : ∀ v, SameAt owner v w.store s') :
    ({ w with store := s' } : SyncWorld).Inv owner ∧ ∀ v, mark w.store v ≤ mark s' v :=
  ⟨⟨fun v => (hI.sound v).of_same (hsame v), fun hrun => (hI.waiting hrun).of_same (hsame _)⟩,
    fun v => Nat.le_of_eq (mark_of_same (hsame v)).symm⟩

variable {uuid : String}

theorem removeAuth {tokenHash : String} {now : Int} {cut : Bool} (hI : w.Inv owner) :
    ({ w with store := removeAgentAuthSnapshot owner uuid tokenHash now cut w.store } : SyncWorld).Inv owner ∧
      ∀ v, mark w.store v ≤ mark (removeAgentAuthSnapshot owner uuid tokenHash now cut w.store) v := by
  rw [removeAgentAuthSnapshot.eq_def]
  generalize hfirst : (if tokenHash = "" then w.store else touch (owner tokenHash)
    { w.store with auth := Function.update w.store.auth tokenHash none }) = s'
  have hdropped : ({ w with store := s' } : SyncWorld).Inv owner ∧ ∀ v, mark w.store v ≤ mark s' v := by
    by_cases hempty : tokenHash = ""
    · rw [if_pos hempty] at hfirst
      subst hfirst
      exact ⟨hI, fun v => Nat.le_refl _⟩
    · rw [if_neg hempty] at hfirst
      exact hI.dropRecord tokenHash hfirst.symm
  by_cases hskip : uuid = "" ∨ cut = true
  · simp only [if_pos hskip]
    exact hdropped
  · simp only [if_neg hskip]
    obtain ⟨hI', hmark⟩ := hdropped.1.remove (u := uuid) now
    exact ⟨hI', fun v => Nat.le_trans (hdropped.2 v) (hmark v)⟩

theorem removeClient {keepMetadata : Bool} {now : Int} {cut : Bool} (hI : w.Inv owner) :
    ({ w with store := removeClientRequest uuid keepMetadata now cut w.store } : SyncWorld).Inv owner
      ∧ ∀ v, mark w.store v ≤ mark (removeClientRequest uuid keepMetadata now cut w.store) v := by
  rw [removeClientRequest]
  obtain ⟨hI', hmark⟩ := hI.remove (u := uuid) now
  by_cases hkeep : keepMetadata = true ∨ cut = true
  · rw [if_pos hkeep]
    exact ⟨hI', hmark⟩
  · rw [if_neg hkeep]
    obtain ⟨hI'', hmark'⟩ := hI'.admin fun v => removeAdmin_same uuid now
    exact ⟨hI'', fun v => Nat.le_trans (hmark v) (hmark' v)⟩

end SyncWorld.Inv

/-! ## Runs -/

/-- The records in the label carry token hashes of their own nodes. -/
def SyncEvent.Owned (owner : String → String) : SyncEvent → Prop
  | .sync _ _ change _ => ∀ client, change = some client → owner client.tokenHash = client.uuid
  | .upsert client => owner client.tokenHash = client.uuid
  | _ => True

/-- The node and the revision of the synchronisation that takes a step. -/
def SyncEvent.call (w : SyncWorld) : SyncEvent → Option (String × Nat)
  | .sync uuid revision _ _ => some (uuid, revision)
  | .resume uuid _ _ _ => (w.running uuid).map fun call => (uuid, call.revision)
  | _ => none

section Runs

variable {rules : SyncRules} {w w' : SyncWorld} {e : SyncEvent}

/-- **One step**: the invariant is kept and no mark sinks. -/
theorem SyncWorld.Inv.step (hI : w.Inv owner) (hown : e.Owned owner)
    (hstep : syncStep rules owner w e = some w') :
    w'.Inv owner ∧ ∀ v, mark w.store v ≤ mark w'.store v := by
  cases e with
  | sync uuid revision change cut =>
    rw [syncStep] at hstep
    split_ifs at hstep with hbad
    cases hstep
    simp only [not_or] at hbad
    refine hI.segment (P := fun s => s = w.store ∧ Sound owner w.answers s uuid)
      ⟨rfl, hI.sound uuid⟩ (applyClientSynchronization_triple fun client hclient => ?_)
    subst hclient
    have huuid : client.uuid = uuid := by simpa using hbad.2.2.2
    exact ⟨huuid, (hown client rfl).trans huuid⟩
  | resume uuid now fits cut =>
    rw [syncStep] at hstep
    cases hrun : w.running uuid with
    | none =>
      rw [hrun] at hstep
      cases hstep
    | some call =>
      rw [hrun] at hstep
      cases hstep
      exact hI.segment (P := fun s => s = w.store ∧ Base owner w.answers s uuid ∧
        Waiting owner s uuid call.revision call.next)
        ⟨rfl, (hI.sound uuid).toBase, hI.waiting hrun⟩ resume_triple
  | upsert client =>
    rw [syncStep] at hstep
    split_ifs at hstep with hbusy
    have hidle : w.running client.uuid = none := by simpa using hbusy
    cases hverdict : rules.unversionedVerdict w.store client with
    | save =>
      rw [hverdict] at hstep
      cases hstep
      exact hI.upsert hidle hown hverdict
    | superseded =>
      rw [hverdict] at hstep
      cases hstep
      exact ⟨hI, fun v => Nat.le_refl _⟩
    | newer =>
      rw [hverdict] at hstep
      cases hstep
      exact ⟨hI, fun v => Nat.le_refl _⟩
  | removeAuth uuid tokenHash now cut =>
    cases hstep
    exact hI.removeAuth
  | removeClient uuid keepMetadata now cut =>
    cases hstep
    exact hI.removeClient
  | restart =>
    cases hstep
    exact ⟨⟨hI.sound, nofun⟩, fun v => Nat.le_refl _⟩

/-- **Every run** keeps the invariant. -/
theorem SyncWorld.Inv.run {es : List SyncEvent} (hown : ∀ e ∈ es, e.Owned owner)
    (hrun : (syncMachine rules owner).run SyncWorld.start es = some w) : w.Inv owner :=
  (syncMachine rules owner).run_inv_of (C := SyncEvent.Owned owner)
    (fun _ _ _ hI hC hs => (hI.step hC hs).1) es _ _ SyncWorld.Inv.start hown hrun

theorem stale_sync_unchanged {R : Nat} (hI : w.Inv owner)
    (hstep : syncStep rules owner w e = some w') (hcall : e.call w = some (u, R))
    (hstale : R < mark w.store u) : w'.store = w.store := by
  cases e with
  | sync uuid revision change cut =>
    obtain ⟨rfl, rfl⟩ : uuid = u ∧ revision = R := by simpa [SyncEvent.call] using hcall
    rw [syncStep] at hstep
    split_ifs at hstep with hbad
    cases hstep
    have happlied : alreadyApplied w.store uuid revision = true := by
      rw [alreadyApplied]
      rw [mark] at hstale
      cases hrev : w.store.syncRevision uuid with
      | none =>
        rw [hrev] at hstale
        exact absurd hstale (Nat.not_lt_zero revision)
      | some stored =>
        rw [hrev] at hstale
        have hlt : revision < stored.1 := hstale
        simp [hlt]
    have hpure : rules.applyClientSynchronization uuid revision change w.store
        = (pure (.answered false) : Prog SyncStore Refusal SyncOutcome) w.store := by
      rw [applyClientSynchronization, if_pos happlied]
    rw [SyncWorld.segment.eq_def, hpure]
    cases cut with
    | none => rfl
    | some n =>
      show ((List.take n []).getLast?.getD w.store) = w.store
      rw [List.take_nil]
      rfl
  | resume uuid now fits cut =>
    obtain ⟨call, hrun, hpair⟩ := Option.map_eq_some_iff.mp hcall
    obtain ⟨rfl, rfl⟩ := Prod.mk.inj hpair
    -- a call in progress is at the mark
    have hmark : mark w.store uuid = call.revision := by
      have hwait := hI.waiting hrun
      cases hnext : call.next with
      | removing client =>
        rw [hnext] at hwait
        exact mark_eq hwait.1
      | describing client =>
        rw [hnext] at hwait
        exact mark_eq hwait.1.revision
    omega
  | _ => simp [SyncEvent.call] at hcall

theorem Settled.lookup {change : Option String} (hb : Base owner answers s u)
    (h : Settled s u change) {hash : String} (howner : owner hash = u) :
    (lookupAgentAuthSnapshot s hash).isSome ↔ change = some hash := by
  rw [lookupAgentAuthSnapshot]
  constructor
  · intro hfound
    cases hrec : s.auth hash with
    | none =>
      rw [hrec] at hfound
      cases hfound
    | some client =>
      have huuid := (hb.record howner hrec).2
      rw [hrec] at hfound
      simp only [huuid] at hfound
      split_ifs at hfound with hok
      · cases change with
        | none => cases h.1.symm.trans hok.1
        | some current => exact h.1.symm.trans hok.1
      · cases hfound
  · rintro rfl
    obtain ⟨hpointer, hrecord, c, hcontrol, hhash, hremoved, -⟩ := h
    obtain ⟨client, hclient⟩ := Option.isSome_iff_exists.mp hrecord
    have huuid := (hb.record howner hclient).2
    rw [hclient]
    simp only [huuid, hpointer, hcontrol]
    rw [if_pos ⟨trivial, hremoved, .inr hhash⟩]
    rfl

/-- **Synchronisation is monotone in the revision.**  In every run of the object: no step lets a
    mark sink; a step of a synchronisation below the mark leaves the storage as it is; and when the
    synchronisation at the mark has answered `applied: true` and no removal has touched the
    credentials since they were written, a token of the node is accepted exactly if it is the one of
    that change. -/
theorem client_sync_monotone (rules : SyncRules) (owner : String → String) (es : List SyncEvent)
    (hown : ∀ e ∈ es, e.Owned owner) (w : SyncWorld)
    (hrun : (syncMachine rules owner).run SyncWorld.start es = some w) :
    (∀ e w', e.Owned owner → syncStep rules owner w e = some w' → ∀ u, mark w.store u ≤ mark w'.store u) ∧
    (∀ e w' u R, syncStep rules owner w e = some w' → e.call w = some (u, R) →
      R < mark w.store u → w'.store = w.store) ∧
    ∀ u R change, (u, R, change) ∈ w.answers → R = mark w.store u → w.store.revoked u = false →
      ∀ hash, owner hash = u → ((lookupAgentAuthSnapshot w.store hash).isSome ↔ change = some hash) := by
  have hI : w.Inv owner := SyncWorld.Inv.run hown hrun
  refine ⟨fun e w' howned hstep => (hI.step howned hstep).2,
    fun e w' u R hstep hcall hstale => stale_sync_unchanged hI hstep hcall hstale, ?_⟩
  intro u R change hmem hmark hrevoked hash howner
  have hsound := hI.sound u
  obtain ⟨hrev, hcred⟩ := (hsound.answered hmem).2 hmark
  exact (hsound.settled hrev hcred hrevoked).lookup hsound.toBase howner

end Runs

/-- The plain rules, and no date can be read. -/
def oneSyncRules : SyncRules := ⟨plainRules, fun _ => none⟩

/-- A record of node `a` with token hash `h`. -/
def nodeA : AgentAuthSnapshot := ⟨"a", "h", "", "", "", [("uuid", .str "a")]⟩

/-- The hypotheses are satisfiable: a synchronisation that runs to its end admits its token. -/
theorem client_sync_admits_token : ∃ w, (syncMachine oneSyncRules fun _ => "a").run SyncWorld.start
        [.sync "a" 1 (some nodeA) none, .resume "a" 5 true none] = some w ∧
      mark w.store "a" = 1 ∧ w.store.revoked "a" = false ∧
      (lookupAgentAuthSnapshot w.store "h").isSome := by
  refine ⟨_, rfl, rfl, rfl, ?_⟩
  refine ((client_sync_monotone oneSyncRules (fun _ => "a")
    [.sync "a" 1 (some nodeA) none, .resume "a" 5 true none] ?_ _ rfl).2.2 "a" 1 (some "h")
    (List.mem_singleton.mpr rfl) rfl rfl "h" rfl).mpr rfl
  intro e he
  simp only [List.mem_cons, List.not_mem_nil, or_false] at he
  rcases he with rfl | rfl
  · rintro client heq
    cases heq
    rfl
  · trivial

/-- A removal that runs while the synchronisation awaits the body of `updateClientMeta` revokes its
    token, and the synchronisation still answers `applied: true`. -/
theorem removal_inside_sync_revokes :
    ¬ ∀ (rules : SyncRules) (owner : String → String) (es : List SyncEvent) (w w' : SyncWorld)
      (e : SyncEvent) (u hash : String) (R : Nat) (change : Option String),
      (∀ e' ∈ es, e'.Owned owner) → (syncMachine rules owner).run SyncWorld.start es = some w →
      syncStep rules owner w e = some w' → w'.answers = (u, R, change) :: w.answers →
      R = mark w'.store u → owner hash = u →
      ((lookupAgentAuthSnapshot w'.store hash).isSome ↔ change = some hash) := by
  intro h
  have hrevoked := (h oneSyncRules (fun _ => "a")
    [.sync "a" 1 (some nodeA) none, .removeAuth "a" "" 3 false] _ _ (.resume "a" 5 true none)
    "a" "h" 1 (some "h") ?_ rfl rfl rfl rfl rfl).mpr rfl
  · exact absurd hrevoked (by decide +kernel)
  · intro e he
    simp only [List.mem_cons, List.not_mem_nil, or_false] at he
    rcases he with rfl | rfl
    · rintro client heq
      cases heq
      rfl
    · trivial

end CfMonitor.Live
