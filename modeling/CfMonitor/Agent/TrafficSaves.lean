/-
  Saves of a running tracker, with files that cannot be read for a while.

  1. **Program** — a file that exists may fail to be read, at the load and at any save, and be readable
     later.  The revision is a `uint64`: after `2 ^ 64 - 1` comes 0.

  2. **Update** (`write_keeps`) — what a save that succeeds leaves in the state file and in the backup,
     and what it keeps of the rest, failed or not.

  3. **Result** — when recovery finds the last save (`saves_read_back_iff`).
-/
import CfMonitor.Agent.TrafficRuns

namespace CfMonitor.Agent

open CfMonitor.Lib
open Directory (get?_put get?_remove)

/-! ## What an update leaves -/

/-- A property of directories that survives the operations of an update: entries that are `ok` may be
    written, any entry may be put aside under a name that recovery does not look at, and any name
    may be removed. -/
structure Kept (ok : Entry → Prop) (I : TrafficDir → Prop) : Prop where
  put : ∀ {d : TrafficDir} {n : String} {e : Entry}, I d → ok e → I (d.put n e)
  remove : ∀ {d : TrafficDir} (n : String), I d → I (d.remove n)
  aside : ∀ {d : TrafficDir} (random : String) (e : Entry), I d → I (d.put (corruptPrefix ++ random) e)

section Update

variable {ok : Entry → Prop} {I : TrafficDir → Prop} {next : TrafficResetState} {plan : WritePlan}

variable {d : TrafficDir}

variable {e : Entry}

theorem Kept.rename (hI : Kept ok I) {src : String} (dst : String)
    (hsrc : d.get? src = some e) (he : ok e) (h : I d) : I (d.rename src dst) := by
  unfold Directory.rename
  rw [hsrc]
  exact hI.put (hI.remove src h) he

/-- A complete generation under a name. -/
def Complete (name : String) (data : Entry) (d : TrafficDir) : Prop := d.get? name = some data

/-- The backup of the generation before is in place. -/
def BackedUp (prior : Option Entry) (d : TrafficDir) : Prop :=
  ∀ data, prior = some data → Complete bakName data d

variable {name : String}

theorem Complete.put {m : String} {data : Entry} (h : Complete name data d)
    (hne : m ≠ name) : Complete name data (d.put m e) := by
  rw [Complete, get?_put, if_neg (Ne.symm hne)]
  exact h

theorem Complete.remove {m : String} {data : Entry} (h : Complete name data d)
    (hne : m ≠ name) : Complete name data (d.remove m) := by
  rw [Complete, get?_remove, if_neg (Ne.symm hne)]
  exact h

theorem complete_put (name : String) (data : Entry) (d : TrafficDir) :
    Complete name data (d.put name data) := by
  rw [Complete, get?_put, if_pos rfl]

theorem complete_rename {src : String} (dst : String) (hsrc : d.get? src = some e) :
    Complete dst e (d.rename src dst) ∧ ∀ {name data}, name ≠ dst → name ≠ src → Complete name data d →
      Complete name data (d.rename src dst) := by
  have hget := d.get?_rename dst hsrc
  refine ⟨?_, fun hdst hne h => ?_⟩
  · rw [Complete, hget, if_pos rfl]
  · rw [Complete, hget, if_neg hdst, if_neg hne]
    exact h

/-- The new generation, whatever becomes of its file. -/
theorem stage_keeps (hI : Kept ok I) (hnext : ∀ p : Progress, ok (p.entry (marshalIndent next)))
    (temp : TempPlan) :
    Triple I (writeSyncedTrafficTemp stagedPrefix (marshalIndent next) temp) I
      (fun n d => I d ∧ isStaged n = true ∧ Complete n (marshalIndent next) d) I :=
  writeSyncedTrafficTemp_triple (M := I) (fun _ h => h) (fun _ h _ => hI.put h (hnext (.torn "")))
    (fun _ p h => hI.put h (hnext p))
    (fun _ h => ⟨hI.put h (hnext .whole), isStaged_staged _, complete_put _ _ _⟩)
    (fun _ h => h) (fun _ h => h) (fun _ h => ⟨hI.remove _ h, hI.remove _ h⟩)

variable {prior : Option Entry}

theorem backup_keeps (hI : Kept ok I) {staged : String} (hstaged : isStaged staged = true)
    (hprior : ∀ data, prior = some data → ∀ p : Progress, ok (p.entry data)) :
    Triple (fun d => I d ∧ Complete staged (marshalIndent next) d) (backupWhenAny prior plan) I
      (fun _ d => (I d ∧ Complete staged (marshalIndent next) d) ∧ BackedUp prior d) I := by
  cases prior with
  | none => exact Triple.pure fun d h => ⟨h, nofun⟩
  | some data =>
    have hdata := hprior data rfl
    show Triple _ (backupPrior data plan) _ _ _
    unfold backupPrior
    -- the staged backup has a new name, so it is not written over the staged generation
    refine Triple.bind (M := fun b d => (I d ∧ Complete staged (marshalIndent next) d) ∧ b ≠ staged
        ∧ Complete b data d) (writeSyncedTrafficTemp_triple
      (M := fun d => I d ∧ Complete staged (marshalIndent next) d
        ∧ backupPrefix ++ plan.backup.random ≠ staged)
      (fun _ h => h.1) ?_ ?_ ?_ (fun _ h => h.1) (fun _ h => h.1) ?_) fun b => ?_
    · rintro d ⟨hd, hs⟩ hfresh
      have hne : backupPrefix ++ plan.backup.random ≠ staged := by
        intro heq
        rw [Complete, ← heq, hfresh] at hs
        cases hs
      exact ⟨hI.put hd (hdata (.torn "")), hs.put hne, hne⟩
    · rintro d p ⟨hd, hs, hne⟩
      exact ⟨hI.put hd (hdata p), hs.put hne, hne⟩
    · rintro d ⟨hd, hs, hne⟩
      exact ⟨⟨hI.put hd (hdata .whole), hs.put hne⟩, hne, complete_put _ _ _⟩
    · rintro d ⟨hd, -, -⟩
      exact ⟨hI.remove _ hd, hI.remove _ hd⟩
    unfold replaceFile
    refine Triple.bind (M := fun _ d => (I d ∧ Complete staged (marshalIndent next) d)
        ∧ BackedUp (some data) d) ?_ fun _ => Triple.check fun _ h => h.1.1
    refine Triple.bind (Triple.check fun _ h => h.1.1) fun _ => Triple.modify ?_
    rintro d ⟨⟨hd, hs⟩, hne, hb⟩
    have hI' := hI.rename bakName hb (hdata .whole) hd
    obtain ⟨hbak, hothers⟩ := complete_rename bakName hb
    refine ⟨hI', ⟨hI', hothers (isStaged_ne hstaged).2.1 (Ne.symm hne) hs⟩, fun data' h => ?_⟩
    cases h
    exact hbak

/-- What is in place after an update: the new generation, and the backup of the one before. -/
def Placed (next : TrafficResetState) (prior : Option Entry) (d : TrafficDir) : Prop :=
  Complete mainName (marshalIndent next) d ∧ BackedUp prior d

theorem install_keeps (hI : Kept ok I) (hnext : ∀ p : Progress, ok (p.entry (marshalIndent next)))
    (hprior : ∀ data, prior = some data → ∀ p : Progress, ok (p.entry data)) :
    Triple I (installGeneration next prior plan) I (fun _ d => I d ∧ Placed next prior d) I := by
  unfold installGeneration
  refine Triple.bind (stage_keeps hI hnext plan.staged) fun staged => ?_
  by_cases hst : isStaged staged = true
  swap
  · rintro d ⟨-, hd, -⟩
    exact absurd hd hst
  unfold placeGeneration
  refine Triple.bind (Triple.conseq (backup_keeps hI hst hprior) (fun d hd => ⟨hd.1, hd.2.2⟩)
    (fun _ h => h) (fun _ _ h => h) (fun _ h => h)) fun _ => ?_
  refine Triple.bind (M := fun _ d => I d ∧ Placed next prior d) ?_ fun _ => ?_
  · unfold replaceFile
    refine Triple.bind (Triple.check fun _ h => h.1.1) fun _ => Triple.modify ?_
    rintro d ⟨⟨hd, hs⟩, hbak⟩
    have hI' := hI.rename mainName hs (hnext .whole) hd
    obtain ⟨hmain, hothers⟩ := complete_rename mainName hs
    exact ⟨hI', hI', hmain, fun data hdata =>
      hothers (by decide) (Ne.symm (isStaged_ne hst).2.1) (hbak data hdata)⟩
  refine Triple.bind (Triple.check fun _ h => h.1) fun _ => ?_
  refine Triple.bind (Triple.check fun _ h => h.1) fun _ => ?_
  unfold cleanup
  refine Triple.bind Triple.get fun d₀ => ?_
  refine Triple.conseq (P := fun d => I d ∧ Placed next prior d)
    (Triple.forEach fun m hm => Triple.modify ?_) (fun d hd => hd.2) (fun _ h => h) (fun _ _ h => h)
    (fun _ h => h)
  rintro d ⟨hd, hmain, hbak⟩
  have hm := (List.mem_filter.mp hm).2
  obtain ⟨hne, hne'⟩ : m ≠ mainName ∧ m ≠ bakName := by simpa using hm
  cases plan.sticks m with
  | true => exact ⟨hd, hd, hmain, hbak⟩
  | false =>
    exact ⟨hI.remove m hd, hI.remove m hd, hmain.remove hne, fun data hdata => (hbak data hdata).remove hne'⟩

theorem quarantine_keeps (hI : Kept ok I) (name : String) (q : QuarantinePlan) :
    Triple I (quarantineOne name q) I (fun _ => I) I := by
  unfold quarantineOne
  refine Triple.bind Triple.get fun d₀ => ?_
  refine Triple.bind (M := fun _ => I) ?_ fun _ => ?_
  · refine Triple.conseq (P := I) (writeSyncedTrafficTemp_triple (M := I) (fun _ h => h)
      (fun _ h _ => hI.aside _ _ h) (fun _ _ h => hI.aside _ _ h) (fun _ h => hI.aside _ _ h)
      (fun _ h => h) (fun _ h => h) (fun _ h => ⟨hI.remove _ h, hI.remove _ h⟩))
      (fun _ hd => hd.2) (fun _ h => h) (fun _ _ h => h) (fun _ h => h)
  refine Triple.bind (Triple.check fun _ h => h) fun _ => ?_
  refine Triple.bind (Triple.check fun _ h => h) fun _ => ?_
  exact Triple.modify fun d h => ⟨hI.remove name h, hI.remove name h⟩

/-- The bytes of the generation before. -/
def priorData (d : TrafficDir) : Option Entry :=
  match readTrafficResetState d with
  | .ok g => some g.data
  | .error _ => none

/-- **An update** keeps what its operations keep, and when it succeeds the new generation and the
    backup are in place. -/
theorem write_keeps (next : TrafficResetState) (plan : WritePlan) (hI : Kept ok I)
    (hnext : ∀ gap, ∀ p : Progress, ok (p.entry (marshalIndent (markHistory gap next))))
    (hprior : ∀ g, readTrafficResetState d = .ok g → ∀ p : Progress, ok (p.entry g.data)) :
    Triple (fun d' => d' = d ∧ I d') (writeTrafficResetState next plan) I
      (fun _ d' => I d' ∧ Placed (markHistory (historyGap d next) next) (priorData d) d') I := by
  unfold writeTrafficResetState
  refine Triple.bind (Triple.check fun _ h => h.2) fun _ => ?_
  refine Triple.bind (Triple.check fun _ h => h.2) fun _ => ?_
  refine Triple.bind Triple.get fun d₁ => ?_
  by_cases hd : d₁ = d
  swap
  · rintro d' ⟨rfl, h, -⟩
    exact absurd h hd
  subst hd
  unfold historyGap priorData
  cases hread : readTrafficResetState d₁ with
  | ok g =>
    refine Triple.conseq (install_keeps hI (hnext _) ?_) (fun _ h => h.2.2) (fun _ h => h)
      (fun _ _ h => h) (fun _ h => h)
    intro data hdata
    cases hdata
    exact hprior g hread
  | error e =>
    have hnone : ∀ data, (none : Option Entry) = some data → ∀ p : Progress, ok (p.entry data) :=
      nofun
    cases e with
    | fatal names => exact Triple.fail_with fun _ h => h.2.2
    | notExist =>
      exact Triple.conseq (install_keeps hI (hnext false) hnone) (fun _ h => h.2.2) (fun _ h => h)
        (fun _ _ h => h) (fun _ h => h)
    | corruption names =>
      refine Triple.bind (M := fun _ => I) ?_ fun _ => install_keeps hI (hnext true) hnone
      exact Triple.conseq (Triple.forEach fun m _ => quarantine_keeps hI m _) (fun _ h => h.2.2)
        (fun _ h => h) (fun _ _ h => h) (fun _ h => h)

end Update

/-! ## Instances -/

theorem kept_true : Kept (fun _ => True) fun _ => True :=
  ⟨fun _ _ => trivial, fun _ _ => trivial, fun _ _ _ => trivial⟩

/-- The entry is no fatal one, and below the revision of `s` if it decodes. -/
def Older (s : TrafficResetState) (e : Entry) : Prop :=
  classify (some e) ≠ .fatal ∧ ∀ s', classify (some e) = .valid s' → s'.revision < s.revision

theorem kept_beats (s : TrafficResetState) : Kept (Older s) (Beats s) where
  put := by
    intro d n e h he k hk
    rw [get?_put]
    by_cases hkn : k = n
    · rw [if_pos hkn]
      exact he
    · rw [mem_candidates, get?_put, if_neg hkn] at hk
      rw [if_neg hkn]
      exact h k (mem_candidates.mpr hk)
  remove := fun n h => h.remove n
  aside := fun random e h => h.put_corrupt random e

/-- No generation is above the revision `r`. -/
def Behind (r : Nat) (d : TrafficDir) : Prop :=
  ∀ m ∈ trafficStateCandidates d, ∀ s', classify (d.get? m) = .valid s' → s'.revision ≤ r

theorem kept_behind (r : Nat) :
    Kept (fun e => ∀ s', classify (some e) = .valid s' → s'.revision ≤ r) (Behind r) where
  put := by
    intro d n e h he k hk
    rw [get?_put]
    by_cases hkn : k = n
    · rw [if_pos hkn]
      exact he
    · rw [mem_candidates, get?_put, if_neg hkn] at hk
      rw [if_neg hkn]
      exact h k (mem_candidates.mpr hk)
  remove := by
    intro d n h k hk
    rw [mem_candidates, get?_remove] at hk
    rw [get?_remove]
    by_cases hkn : k = n
    · rw [if_pos hkn]
      exact nofun
    · rw [if_neg hkn] at hk ⊢
      exact h k (mem_candidates.mpr hk)
  aside := by
    intro d random e h k hk
    have hne : k ≠ corruptPrefix ++ random := by
      rintro rfl
      exact corrupt_hidden random _ hk
    rw [mem_candidates, get?_put, if_neg hne] at hk
    rw [get?_put, if_neg hne]
    exact h k (mem_candidates.mpr hk)

variable {s : TrafficResetState}

variable {e : Entry} {s' : TrafficResetState}

/-- A document while it is being written: damaged, or the record that it has at the end. -/
theorem progress_valid (p : Progress)
    (hs : ∀ s', classify (some e) = .valid s' → s' = s) (h : classify (some (p.entry e)) = .valid s') :
    s' = s := by
  cases p with
  | torn text => simp [Progress.entry, classify] at h
  | whole => exact hs s' h
  | trimmed layout =>
    cases e with
    | document layout' st => exact hs s' h
    | directory => exact hs s' h
    | unreadable => exact hs s' h
    | torn text => exact hs s' h

theorem progress_fatal (p : Progress) (h : classify (some e) = .valid s) :
    classify (some (p.entry e)) ≠ .fatal := by
  cases p with
  | torn text => simp [Progress.entry, classify]
  | whole =>
    show classify (some e) ≠ .fatal
    simp [h]
  | trimmed layout =>
    cases e with
    | document layout' st =>
      show classify (some (.document layout' st)) ≠ .fatal
      simp [h]
    | _ => simp [classify] at h

theorem classify_document_valid {layout : String}
    (h : classify (some (.document layout s)) = .valid s') : s' = s ∧ Accepted s := by
  rw [classify] at h
  cases hd : decodeTrafficState s with
  | ok t =>
    rw [hd] at h
    obtain rfl := Verdict.valid.inj h
    exact decode_ok hd
  | error e =>
    rw [hd] at h
    cases e <;> cases h

/-! ## Reading back -/

/-- Recovery finds the record, but for the mark of a gap that the write may have set. -/
def ReadsBack (s : TrafficResetState) (d : TrafficDir) : Prop :=
  ∃ g gap, readTrafficResetState d = .ok g ∧ g.state = markHistory gap s

variable {d : TrafficDir}

variable {g : Generation}

/-- Every generation that recovery finds decodes. -/
theorem read_accepted (h : readTrafficResetState d = .ok g) : Accepted g.state := by
  have hval := read_data_valid h
  cases hd : g.data with
  | document layout st =>
    rw [hd] at hval
    obtain ⟨heq, hacc⟩ := classify_document_valid hval
    exact heq ▸ hacc
  | _ => rw [hd] at hval; simp [classify] at hval

theorem accepted_markHistory {gap : Bool} : Accepted (markHistory gap s) ↔ Accepted s := by
  constructor
  · intro h
    cases gap with
    | false => exact h
    | true =>
      have hback : markHistory false s = { markHistory true s with historyIncomplete := s.historyIncomplete } := rfl
      have hd : decodeTrafficState { s with historyIncomplete := true } = .ok _ := h
      show decodeTrafficState s = .ok s
      unfold decodeTrafficState badPolicyDay badCounters at hd ⊢
      split_ifs at hd ⊢ <;> rfl
  · exact markHistory_accepted

theorem keepBest_first (g : Generation) (l : List Generation)
    (h : ∀ g' ∈ l, g'.state.revision ≤ g.state.revision) : l.foldl keepBest (some g) = some g := by
  induction l with
  | nil => rfl
  | cons g' l ih =>
    have hg' := h g' List.mem_cons_self
    have hstep : keepBest (some g) g' = some g := if_neg (by omega)
    rw [List.foldl_cons, hstep]
    exact ih fun k hk => h k (List.mem_cons_of_mem g' hk)

/-- **The state file wins** over everything that is not above it: it comes first. -/
theorem main_wins {above : TrafficResetState} (hmain : Complete mainName e d)
    (hval : classify (some e) = .valid s) (hrev : above.revision = s.revision + 1) (hbeats : Beats above d) :
    readTrafficResetState d = .ok ⟨s, e, mainName⟩ := by
  have hgen : generationAt d mainName = some ⟨s, e, mainName⟩ :=
    generationAt_eq_some.mpr ⟨by rw [hmain]; exact hval, hmain, rfl⟩
  refine read_eq_ok_iff.mpr ⟨fun n hn => (hbeats n hn).1, ?_⟩
  show (List.filterMap (generationAt d) (mainName :: _)).foldl keepBest none = _
  rw [List.filterMap_cons_some hgen, List.foldl_cons]
  refine keepBest_first _ _ fun g' hg' => ?_
  obtain ⟨n, hn, hgn⟩ := List.mem_filterMap.mp hg'
  have hlt := (hbeats n (List.mem_cons_of_mem _ hn)).2 _ (generationAt_eq_some.mp hgn).1
  show g'.state.revision ≤ s.revision
  omega

/-- What recovery finds is not below any generation. -/
theorem read_max (h : readTrafficResetState d = .ok g) : Behind g.state.revision d := by
  intro m hm s' hs'
  obtain ⟨g', hg', rfl⟩ := mem_generations hm hs'
  exact (keepBest_max _ none g (read_eq_ok_iff.mp h).2).1 g' hg'

section Save

variable {d : TrafficDir} {s : TrafficResetState} {plan : WritePlan}

theorem marshal_valid {gap : Bool} {s' : TrafficResetState}
    (h : classify (some (marshalIndent (markHistory gap s))) = .valid s') : s' = markHistory gap s :=
  (classify_document_valid h).1

/-- **A save that succeeds is read back** exactly when the record decodes and the generation before
    is not above it. -/
theorem write_reads_back_iff (hok : (writeTrafficResetState s plan d).result = .ok ()) :
    ReadsBack s (writeTrafficResetState s plan d).last ↔
      Accepted s ∧ ∀ g, readTrafficResetState d = .ok g → g.state.revision ≤ s.revision := by
  have hplaced := (((write_keeps s plan kept_true (fun _ _ => trivial)
    (fun _ _ _ => trivial)) d ⟨rfl, trivial⟩).2.1 () hok).2
  constructor
  · rintro ⟨g', gap, hread, hg'⟩
    refine ⟨accepted_markHistory.mp (hg' ▸ read_accepted hread), fun g hg => ?_⟩
    -- the generation before is in the backup
    have hprior : priorData d = some g.data := by
      rw [priorData, hg]
    have hbak : Complete bakName g.data _ := hplaced.2 _ hprior
    have hmem : bakName ∈ trafficStateCandidates (writeTrafficResetState s plan d).last :=
      mem_candidates.mpr (.inl (.inr (.inl rfl)))
    have hmax := read_max hread bakName hmem g.state (by rw [hbak]; exact read_data_valid hg)
    rw [hg', markHistory_revision] at hmax
    exact hmax
  · rintro ⟨hacc, hrev⟩
    have hold : ∀ {e : Entry} {s₀ : TrafficResetState}, classify (some e) = .valid s₀ →
        s₀.revision ≤ s.revision → ∀ p : Progress, Older { s with revision := s.revision + 1 } (p.entry e) := by
      intro e s₀ hval hle p
      refine ⟨progress_fatal p hval, fun s' hs' => ?_⟩
      obtain rfl := progress_valid p (s := s₀) (fun t ht => by rw [hval] at ht; cases ht; rfl) hs'
      exact Nat.lt_succ_of_le hle
    have hmarked : ∀ gap, classify (some (marshalIndent (markHistory gap s))) = .valid (markHistory gap s) :=
      fun gap => classify_document (markHistory_accepted hacc) ""
    have hbeats : Beats { s with revision := s.revision + 1 } d := by
      cases hread : readTrafficResetState d with
      | ok g => exact beats_of_read hread (Nat.lt_succ_of_le (hrev g hread))
      | error e =>
        refine beats_of_none hread fun names he => ?_
        -- a fatal candidate would have ended the save
        subst he
        have hrefused : ∃ e, (writeTrafficResetState s plan d).result = .error e := (write_refused hread).1
        obtain ⟨e, he⟩ := hrefused
        rw [hok] at he
        cases he
    obtain ⟨hlast, hmain, -⟩ := ((write_keeps s plan (kept_beats _)
      (fun gap => hold (hmarked gap) (by rw [markHistory_revision]))
      (fun g hg => hold (read_data_valid hg) (hrev g hg))) d ⟨rfl, hbeats⟩).2.1 () hok
    exact ⟨_, historyGap d s, main_wins hmain (hmarked _) (by rw [markHistory_revision]) hlast, rfl⟩

/-- An update that succeeds or fails leaves no generation above its own, if there was none. -/
theorem write_behind (h : Behind s.revision d) : Behind s.revision (writeTrafficResetState s plan d).last := by
  have hnext : ∀ gap, ∀ p : Progress, ∀ s',
      classify (some (p.entry (marshalIndent (markHistory gap s)))) = .valid s' → s'.revision ≤ s.revision := by
    intro gap p s' hs'
    rw [progress_valid p (fun t ht => marshal_valid ht) hs', markHistory_revision]
  have hprior : ∀ g, readTrafficResetState d = .ok g → ∀ p : Progress, ∀ s',
      classify (some (p.entry g.data)) = .valid s' → s'.revision ≤ s.revision := by
    intro g hg p s' hs'
    have hval := read_data_valid hg
    rw [progress_valid p (s := g.state) (fun t ht => by rw [hval] at ht; cases ht; rfl) hs']
    obtain ⟨n, hn, hgen⟩ : ∃ n ∈ trafficStateCandidates d, generationAt d n = some g := by
      rcases keepBest_mem _ none g (read_eq_ok_iff.mp hg).2 with hnone | hmem
      · cases hnone
      · exact List.mem_filterMap.mp hmem
    exact h n hn _ (generationAt_eq_some.mp hgen).1
  obtain ⟨-, hpost, hfail⟩ := write_keeps s plan (kept_behind s.revision) hnext hprior d ⟨rfl, h⟩
  cases hr : (writeTrafficResetState s plan d).result with
  | ok u => exact (hpost u hr).1
  | error e => exact hfail e hr

end Save

/-! ## The tracker and its files -/

/-- What cannot be read at one time: the listing, and the files of these names. -/
structure ReadFaults where
  listed : Bool := true
  fails : String → Bool := fun _ => false

/-- `readTrafficResetState` with files that cannot be read: each of them is one of the `fatalErrors`. -/
def readWithFaults (fails : String → Bool) (d : TrafficDir) : Except ReadError Generation :=
  if (trafficStateCandidates d).any fails then
    .error (.fatal ((trafficStateCandidates d).filter
      fun n => fails n || decide (classify (d.get? n) = .fatal)))
  else readTrafficResetState d

/-- `load` of a new tracker. -/
def loadWithFaults (faults : ReadFaults) (d : TrafficDir) : TrafficResetState :=
  if faults.listed then
    match readWithFaults faults.fails d with
    | .ok g => g.state
    | .error (.corruption _) => { historyIncomplete := true }
    | .error _ => {}
  else {}

/-- `writeTrafficResetState` with files that its first read cannot read.  A damaged file that cannot be
    read again for its quarantine is a copy that is not `created`. -/
def writeWithFaults (fails : String → Bool) (next : TrafficResetState) (plan : WritePlan) : FileProg Unit := do
  let d ← Prog.get
  if plan.mkdir && plan.listed && (trafficStateCandidates d).any fails then
    Prog.fail (.read (.fatal ((trafficStateCandidates d).filter
      fun n => fails n || decide (classify (d.get? n) = .fatal))))
  else writeTrafficResetState next plan

/-- The tracker, its files, and the last write if it succeeded: the directory before it and the
    record. -/
structure SavingWorld where
  tracker : TrafficResetTracker
  files : TrafficDir
  last : Option (TrafficDir × TrafficResetState)

inductive SaveEvent where
  | policy (day : Int) (fails : String → Bool) (plan : WritePlan)
  | sample (x : Sample) (fails : String → Bool) (plan : WritePlan)
  | save (fails : String → Bool) (plan : WritePlan)

/-- `t.state.Revision++`, on a `uint64`. -/
def nextRevision (s : TrafficResetState) : TrafficResetState :=
  { s with revision := (s.revision + 1) % 2 ^ 64 }

/-- `save`: the write gets a copy of the record, so the mark of a gap does not reach the tracker. -/
def saveTracker (w : SavingWorld) (t : TrafficResetTracker) (fails : String → Bool) (plan : WritePlan) :
    SavingWorld :=
  let t' := { t with state := nextRevision t.state }
  let run := writeWithFaults fails t'.state plan w.files
  match run.result with
  | .ok _ => ⟨t', run.last, some (w.files, t'.state)⟩
  | .error _ => ⟨t', run.last, none⟩

section Runs

variable (loc : Location)

/-- One call on the tracker.  A day that the policy already gave is not saved. -/
def savesStep (w : SavingWorld) : SaveEvent → Option SavingWorld
  | .policy day fails plan =>
    let t := (w.tracker.setPolicyResetDay day).1
    if w.tracker.policyResetDay = some day then some { w with tracker := t }
    else some (saveTracker w t fails plan)
  | .sample x fails plan => some (saveTracker w (w.tracker.adjustInterfacesSinceBoot loc x) fails plan)
  | .save fails plan => some (saveTracker w w.tracker fails plan)

def savesMachine : Machine SavingWorld SaveEvent := ⟨savesStep loc⟩

/-- A new tracker on the files as it can read them. -/
def SavingWorld.start (resetDay : Int) (scope : String) (faults : ReadFaults) (d : TrafficDir) : SavingWorld :=
  ⟨TrafficResetTracker.newTrafficResetTracker resetDay scope (loadWithFaults faults d), d, none⟩

end Runs

/-! ## Runs -/

namespace SavingWorld

variable {loc : Location} {w w' : SavingWorld} {t : TrafficResetTracker} {fails : String → Bool}
  {plan : WritePlan}

/-- The last write, if it succeeded, was one without faults. -/
def Recorded (w : SavingWorld) : Prop :=
  ∀ before s, w.last = some (before, s) → ∃ plan, (writeTrafficResetState s plan before).result = .ok ()
    ∧ w.files = (writeTrafficResetState s plan before).last

theorem write_faults (fails : String → Bool) (plan : WritePlan) (s : TrafficResetState) (d : TrafficDir) :
    writeWithFaults fails s plan d = writeTrafficResetState s plan d
      ∨ (∃ e, (writeWithFaults fails s plan d).result = .error e) ∧ (writeWithFaults fails s plan d).last = d := by
  by_cases h : (plan.mkdir && plan.listed && (trafficStateCandidates d).any fails) = true
  · right
    have hrun : writeWithFaults fails s plan d = Prog.fail (.read (.fatal ((trafficStateCandidates d).filter
        fun n => fails n || decide (classify (d.get? n) = .fatal)))) d := by
      show (if _ then _ else _ : FileProg Unit) d = _
      rw [if_pos h]
    rw [hrun]
    exact ⟨⟨_, rfl⟩, rfl⟩
  · left
    show (if _ then _ else _ : FileProg Unit) d = _
    rw [if_neg h]

/-- **One save**: it is counted, and it has succeeded without faults or is not the last write. -/
theorem saveTracker_cases (w : SavingWorld) (t : TrafficResetTracker) (fails : String → Bool) (plan : WritePlan) :
    (saveTracker w t fails plan).tracker.state = nextRevision t.state ∧
      ((saveTracker w t fails plan).last = none ∧ ((saveTracker w t fails plan).files = w.files
          ∨ (saveTracker w t fails plan).files = (writeTrafficResetState (nextRevision t.state) plan w.files).last)
      ∨ (saveTracker w t fails plan).last = some (w.files, nextRevision t.state)
        ∧ (writeTrafficResetState (nextRevision t.state) plan w.files).result = .ok ()
        ∧ (saveTracker w t fails plan).files
          = (writeTrafficResetState (nextRevision t.state) plan w.files).last) := by
  rw [saveTracker]
  dsimp only
  rcases write_faults fails plan (nextRevision t.state) w.files with hrun | ⟨⟨e, he⟩, hlast⟩
  · rw [hrun]
    cases hr : (writeTrafficResetState (nextRevision t.state) plan w.files).result with
    | ok u => exact ⟨rfl, .inr ⟨rfl, rfl, rfl⟩⟩
    | error e => exact ⟨rfl, .inl ⟨rfl, .inr rfl⟩⟩
  · rw [he]
    exact ⟨rfl, .inl ⟨rfl, .inl hlast⟩⟩

/-- A call saves, or it leaves the record and the files alone. -/
theorem step_cases {e : SaveEvent} (h : savesStep loc w e = some w') :
    (w'.tracker.state = w.tracker.state ∧ w'.files = w.files ∧ w'.last = w.last)
      ∨ ∃ t fails plan, t.state.revision = w.tracker.state.revision ∧ w' = saveTracker w t fails plan := by
  cases e with
  | policy day fails plan =>
    rw [savesStep] at h
    split_ifs at h with hknown
    · cases h
      refine .inl ⟨?_, rfl, rfl⟩
      simp [TrafficResetTracker.setPolicyResetDay, hknown]
    · cases h
      refine .inr ⟨_, fails, plan, ?_, rfl⟩
      simp [TrafficResetTracker.setPolicyResetDay, hknown]
  | sample x fails plan =>
    cases h
    exact .inr ⟨_, fails, plan, adjust_revision, rfl⟩
  | save fails plan =>
    cases h
    exact .inr ⟨_, fails, plan, rfl, rfl⟩

theorem Recorded.step {e : SaveEvent} (hw : w.Recorded) (h : savesStep loc w e = some w') : w'.Recorded := by
  rcases step_cases h with ⟨-, hfiles, hlast⟩ | ⟨t, fails, plan, -, rfl⟩
  · intro before s hs
    rw [hlast] at hs
    rw [hfiles]
    exact hw before s hs
  · intro before s hs
    rcases (saveTracker_cases w t fails plan).2 with ⟨hnone, -⟩ | ⟨hsome, hok, hfiles⟩
    · rw [hnone] at hs
      cases hs
    · rw [hsome] at hs
      cases hs
      exact ⟨plan, hok, hfiles⟩

/-- The tracker is not behind its files, or no save can succeed: and no save was made behind them. -/
structure Ahead (w : SavingWorld) : Prop where
  files : Behind w.tracker.state.revision w.files ∨ ∃ names, readTrafficResetState w.files = .error (.fatal names)
  last : ∀ before s, w.last = some (before, s) → ∀ g, readTrafficResetState before = .ok g →
    g.state.revision ≤ s.revision

/-- What recovery finds is one of the generations. -/
theorem read_behind {d : TrafficDir} {g : Generation} {r : Nat} (h : Behind r d)
    (hread : readTrafficResetState d = .ok g) : g.state.revision ≤ r := by
  rcases keepBest_mem _ none g (read_eq_ok_iff.mp hread).2 with hnone | hmem
  · cases hnone
  · obtain ⟨n, hn, hgen⟩ := List.mem_filterMap.mp hmem
    exact h n hn _ (generationAt_eq_some.mp hgen).1

theorem Ahead.step {e : SaveEvent} (hw : w.Ahead) (hwrap : w.tracker.state.revision + 1 < 2 ^ 64)
    (h : savesStep loc w e = some w') :
    w'.Ahead ∧ w'.tracker.state.revision ≤ w.tracker.state.revision + 1 := by
  rcases step_cases h with ⟨hstate, hfiles, hlast⟩ | ⟨t, fails, plan, hrev, rfl⟩
  · refine ⟨⟨?_, ?_⟩, ?_⟩
    · rw [hstate, hfiles]
      exact hw.files
    · rw [hlast]
      exact hw.last
    · rw [hstate]
      omega
  · obtain ⟨hstate, hcases⟩ := saveTracker_cases w t fails plan
    have hnext : (nextRevision t.state).revision = w.tracker.state.revision + 1 := by
      show (t.state.revision + 1) % 2 ^ 64 = _
      omega
    refine ⟨⟨?_, ?_⟩, by rw [hstate, hnext]⟩
    · rw [hstate]
      rcases hw.files with hbehind | ⟨names, hfatal⟩
      · left
        have hbefore : Behind (nextRevision t.state).revision w.files := by
          intro m hm s' hs'
          have := hbehind m hm s' hs'
          omega
        rcases hcases with ⟨-, hfiles | hfiles⟩ | ⟨-, -, hfiles⟩
        · rw [hfiles]
          exact hbefore
        · rw [hfiles]
          exact write_behind hbefore
        · rw [hfiles]
          exact write_behind hbefore
      · -- nothing is written beside a fatal candidate
        right
        have hsame : (writeTrafficResetState (nextRevision t.state) plan w.files).last = w.files :=
          (write_refused hfatal).2 _ List.mem_cons_self
        refine ⟨names, ?_⟩
        rcases hcases with ⟨-, hfiles | hfiles⟩ | ⟨-, -, hfiles⟩
        · rw [hfiles]
          exact hfatal
        · rw [hfiles, hsame]
          exact hfatal
        · rw [hfiles, hsame]
          exact hfatal
    · intro before s hs g hg
      rcases hcases with ⟨hnone, -⟩ | ⟨hsome, hok, -⟩
      · rw [hnone] at hs
        cases hs
      · rw [hsome] at hs
        cases hs
        rcases hw.files with hbehind | ⟨names, hfatal⟩
        · have := read_behind hbehind hg
          omega
        · rw [hfatal] at hg
          cases hg

end SavingWorld

theorem newTracker_state (resetDay : Int) (scope : String) (s : TrafficResetState) :
    (TrafficResetTracker.newTrafficResetTracker resetDay scope s).state = s := by
  unfold TrafficResetTracker.newTrafficResetTracker TrafficResetTracker.restoreResetDay
  simp only
  split
  · split_ifs <;> rfl
  · split_ifs <;> rfl

theorem start_ahead (resetDay : Int) (scope : String) {faults : ReadFaults}
    (hlisted : faults.listed = true) (hfails : ∀ n ∈ trafficStateCandidates d, faults.fails n = false) :
    (SavingWorld.start resetDay scope faults d).Ahead := by
  refine ⟨?_, nofun⟩
  have hread : readWithFaults faults.fails d = readTrafficResetState d := by
    rw [readWithFaults, if_neg]
    rw [List.any_eq_true]
    rintro ⟨n, hn, hf⟩
    rw [hfails n hn] at hf
    cases hf
  show Behind (TrafficResetTracker.newTrafficResetTracker resetDay scope (loadWithFaults faults d)).state.revision d
    ∨ ∃ names, readTrafficResetState d = .error (.fatal names)
  rw [newTracker_state, loadWithFaults, if_pos hlisted, hread]
  cases hd : readTrafficResetState d with
  | ok g => exact .inl (read_max hd)
  | error e =>
    cases e with
    | fatal names => exact .inr ⟨names, rfl⟩
    | corruption names =>
      left
      intro m hm s' hs'
      have hbeaten : Beats {} d := beats_of_none hd (by simp)
      exact absurd ((hbeaten m hm).2 s' hs') (Nat.not_lt_zero _)
    | notExist =>
      left
      intro m hm s' hs'
      have hbeaten : Beats {} d := beats_of_none hd (by simp)
      exact absurd ((hbeaten m hm).2 s' hs') (Nat.not_lt_zero _)

section Results

variable {loc : Location} {resetDay : Int} {scope : String} {faults : ReadFaults} {d : TrafficDir}

theorem run_ahead (hlisted : faults.listed = true)
    (hfails : ∀ n ∈ trafficStateCandidates d, faults.fails n = false) (es : List SaveEvent) :
    ∀ w, (savesMachine loc).run (SavingWorld.start resetDay scope faults d) es = some w →
      (loadWithFaults faults d).revision + es.length < 2 ^ 64 →
      w.Ahead ∧ w.tracker.state.revision ≤ (loadWithFaults faults d).revision + es.length := by
  induction es using List.reverseRecOn with
  | nil =>
    intro w hr _
    cases hr
    refine ⟨start_ahead resetDay scope hlisted hfails, ?_⟩
    show (TrafficResetTracker.newTrafficResetTracker resetDay scope (loadWithFaults faults d)).state.revision ≤ _
    rw [newTracker_state]
    exact Nat.le_refl _
  | append_singleton es e ih =>
    intro w hr hlen
    obtain ⟨u, hu, hstep⟩ := (savesMachine loc).run_concat.mp hr
    rw [List.length_append, List.length_singleton] at hlen ⊢
    obtain ⟨hahead, hrev⟩ := ih u hu (by omega)
    obtain ⟨hahead', hrev'⟩ := hahead.step (by omega) hstep
    exact ⟨hahead', by omega⟩

/-- **What a successful save leaves is what the next start loads**, in every run of a tracker, exactly
    when the record decodes and no generation in the files before that save is above it; and the
    latter is so when the load could read every file and the revisions do not wrap. -/
theorem saves_read_back_iff (loc : Location) (resetDay : Int) (scope : String) (faults : ReadFaults)
    (d : TrafficDir) (es : List SaveEvent) (w : SavingWorld)
    (hrun : (savesMachine loc).run (SavingWorld.start resetDay scope faults d) es = some w) :
    (∀ before s, w.last = some (before, s) → (ReadsBack s w.files ↔
        Accepted s ∧ ∀ g, readTrafficResetState before = .ok g → g.state.revision ≤ s.revision))
    ∧ (faults.listed = true → (∀ n ∈ trafficStateCandidates d, faults.fails n = false) →
      (loadWithFaults faults d).revision + es.length < 2 ^ 64 →
      ∀ before s, w.last = some (before, s) → ∀ g, readTrafficResetState before = .ok g →
        g.state.revision ≤ s.revision) := by
  constructor
  · intro before s hs
    have hstart : (SavingWorld.start resetDay scope faults d).Recorded :=
      nofun
    obtain ⟨plan, hok, hfiles⟩ :=
      (savesMachine loc).run_inv (I := SavingWorld.Recorded) (fun _ _ _ hI h => hI.step h) hstart hrun before s hs
    rw [hfiles]
    exact write_reads_back_iff hok
  · intro hlisted hfails hlen
    exact (run_ahead hlisted hfails es w hrun hlen).1.last

end Results

/-- The fifth generation, in the state file. -/
def fifthDirectory : TrafficDir :=
  Directory.empty.put mainName (marshalIndent { firstGeneration with revision := 5 })

/-- A sample that is saved without a fault. -/
def oneSave : List SaveEvent := [.sample (smallSample 10 20 1788696000 1788307200) (fun _ => false) smoothPlan]

/-- The revisions of the last record and of what recovery finds. -/
def savedRevisions (faults : ReadFaults) : Option (Option (Bool × Nat) × Option Nat) :=
  ((savesMachine Location.utc).run (SavingWorld.start 1 "scope" faults fifthDirectory) oneSave).map fun w =>
    (w.last.map fun p => (decide (Accepted p.2), p.2.revision), (recovered w.files).map (·.revision))

/-- The state file could not be read at the start, and can be later: the first save has revision 1, and
    the fifth generation, now in the backup, comes before it. -/
theorem unread_generation_comes_back : ∃ w before s, (savesMachine Location.utc).run
        (SavingWorld.start 1 "scope" ⟨true, fun n => decide (n = mainName)⟩ fifthDirectory) oneSave = some w
      ∧ w.last = some (before, s) ∧ Accepted s ∧ ¬ ReadsBack s w.files := by
  have hrevisions : savedRevisions ⟨true, fun n => decide (n = mainName)⟩ = some (some (true, 1), some 5) := by
    decide +kernel
  rw [savedRevisions, Option.map_eq_some_iff] at hrevisions
  obtain ⟨w, hw, hpair⟩ := hrevisions
  obtain ⟨hlast, hrecovered⟩ := Prod.mk.inj hpair
  obtain ⟨⟨before, s⟩, hs, hboth⟩ := Option.map_eq_some_iff.mp hlast
  obtain ⟨hacc, hone⟩ := Prod.mk.inj hboth
  refine ⟨w, before, s, hw, hs, of_decide_eq_true hacc, ?_⟩
  rintro ⟨g, gap, hread, hg⟩
  rw [recovered_of_read hread, hg] at hrecovered
  have hfive : (markHistory gap s).revision = 5 := Option.some.inj hrecovered
  have hone' : s.revision = 1 := hone
  rw [markHistory_revision] at hfive
  omega

/-- With a file that can be read the save is read back. -/
theorem saves_read_back_fifth :
    ∃ w before s, (savesMachine Location.utc).run (SavingWorld.start 1 "scope" {} fifthDirectory) oneSave = some w
      ∧ w.last = some (before, s) ∧ ReadsBack s w.files := by
  have hrevisions : savedRevisions {} = some (some (true, 6), some 6) := by decide +kernel
  rw [savedRevisions, Option.map_eq_some_iff] at hrevisions
  obtain ⟨w, hw, hpair⟩ := hrevisions
  obtain ⟨hlast, -⟩ := Prod.mk.inj hpair
  obtain ⟨⟨before, s⟩, hs, hboth⟩ := Option.map_eq_some_iff.mp hlast
  obtain ⟨hacc, -⟩ := Prod.mk.inj hboth
  obtain ⟨hiff, hahead⟩ := saves_read_back_iff Location.utc 1 "scope" {} fifthDirectory oneSave w hw
  exact ⟨w, before, s, hw, hs, (hiff before s hs).mpr
    ⟨of_decide_eq_true hacc, hahead rfl (fun _ _ => rfl) (by decide +kernel) before s hs⟩⟩

end CfMonitor.Agent
