/-
  Traffic state files are crash safe.

  Specification
    Recovery from any directory that an update leaves behind, at a crash or at its end, finds the
    generation before the update or the new one, and the new one once the update succeeded.

  Correctness
    Two predicates on directories carry the proof.
    * `Untouched d₀ n d` — `d` is `d₀` but for the name `n`, which `d₀` does not have.  It holds
      while the new generation is being staged under `n`; a torn file there is invisible to
      recovery (`Untouched.read`).
    * `Wins s n d` — `n` holds the generation `s`, and every other candidate is damaged or of a
      lower revision.  It holds from the moment the staged file is complete, first for the staged
      name and after the rename for the state file, whatever is written, moved or removed beside
      it (`Wins.put`, `Wins.remove`, `Wins.install`).
-/
import CfMonitor.Agent.TrafficFiles

namespace CfMonitor.Agent

open CfMonitor.Lib
open Directory (get?_put get?_remove)
open Option (some)

/-! ## Recovery, taken apart -/

variable {g : Generation}

theorem generationAt_eq_some {d : TrafficDir} {n : String} : generationAt d n = some g ↔
      classify (d.get? n) = .valid g.state ∧ d.get? n = some g.data ∧ g.name = n := by
  unfold generationAt
  constructor
  · intro h
    split at h
    · next s e hs he =>
      obtain rfl := some.inj h
      exact ⟨hs, he, rfl⟩
    · exact absurd h (by simp)
  · rintro ⟨hs, he, rfl⟩
    rw [hs, he]

/-- Recovery succeeds when no candidate is fatal and some candidate decodes. -/
theorem read_eq_ok_iff {d : TrafficDir} : readTrafficResetState d = .ok g ↔
      (∀ n ∈ trafficStateCandidates d, classify (d.get? n) ≠ .fatal)
      ∧ ((trafficStateCandidates d).filterMap (generationAt d)).foldl keepBest none = some g := by
  have hfatal : ((trafficStateCandidates d).filter
      fun n => decide (classify (d.get? n) = .fatal)) = [] ↔
      ∀ n ∈ trafficStateCandidates d, classify (d.get? n) ≠ .fatal := by
    rw [List.filter_eq_nil_iff]
    simp
  unfold readTrafficResetState
  simp only
  by_cases h : ∀ n ∈ trafficStateCandidates d, classify (d.get? n) ≠ .fatal
  · rw [if_neg (not_not.mpr (hfatal.mpr h))]
    cases hb : ((trafficStateCandidates d).filterMap (generationAt d)).foldl keepBest none with
    | some b =>
      constructor
      · intro hok
        exact ⟨h, congrArg some (Except.ok.inj hok)⟩
      · rintro ⟨-, hok⟩
        rw [some.inj hok]
    | none =>
      refine iff_of_false ?_ (fun h' => absurd h'.2 (by simp))
      split_ifs <;> simp
  · rw [if_pos (fun h' => h (hfatal.mp h'))]
    exact iff_of_false (by simp) (fun h' => h h'.1)

theorem read_fatal {d : TrafficDir} (h : ∃ n ∈ trafficStateCandidates d, classify (d.get? n) = .fatal) :
    ∃ names, readTrafficResetState d = .error (.fatal names) := by
  obtain ⟨n, hn, hf⟩ := h
  have hne : ((trafficStateCandidates d).filter
      fun n => decide (classify (d.get? n) = .fatal)) ≠ [] := by
    intro hnil
    exact absurd (List.mem_filter.mpr ⟨hn, decide_eq_true hf⟩) (hnil ▸ List.not_mem_nil)
  exact ⟨_, if_pos hne⟩

theorem mem_candidates {d : TrafficDir} {n : String} : n ∈ trafficStateCandidates d ↔
      (n = mainName ∨ n = bakName ∨ n = tmpName)
      ∨ (isStaged n = true ∧ d.get? n ≠ none ∧ d.get? n ≠ some .directory) := by
  unfold trafficStateCandidates isListed
  rw [List.mem_append, List.mem_filter, Directory.mem_names]
  simp only [List.mem_cons, List.not_mem_nil, or_false, Bool.and_eq_true, decide_eq_true_eq,
    Option.isSome_iff_ne_none]
  tauto

/-! ## The best generation -/

/-- No generation is better than the one that is kept. -/
theorem keepBest_max (l : List Generation) :
    ∀ (acc : Option Generation) (b : Generation), l.foldl keepBest acc = some b →
      (∀ g ∈ l, g.state.revision ≤ b.state.revision)
      ∧ (∀ a, acc = some a → a.state.revision ≤ b.state.revision) := by
  induction l with
  | nil =>
    intro acc b h
    refine ⟨fun g hg => absurd hg List.not_mem_nil, ?_⟩
    rintro a rfl
    obtain rfl := some.inj h
    exact le_rfl
  | cons g l ih =>
    intro acc b h
    rw [List.foldl_cons] at h
    obtain ⟨hl, hacc⟩ := ih (keepBest acc g) b h
    have hstep : g.state.revision ≤ b.state.revision
        ∧ (∀ a, acc = some a → a.state.revision ≤ b.state.revision) := by
      cases acc with
      | none => exact ⟨hacc g rfl, fun a ha => absurd ha (by simp)⟩
      | some a =>
        unfold keepBest at hacc
        simp only at hacc
        by_cases hgt : g.state.revision > a.state.revision
        · rw [if_pos hgt] at hacc
          have hg := hacc g rfl
          refine ⟨hg, fun a' ha' => ?_⟩
          obtain rfl := some.inj ha'
          omega
        · rw [if_neg hgt] at hacc
          have ha := hacc a rfl
          refine ⟨by omega, fun a' ha' => ?_⟩
          obtain rfl := some.inj ha'
          exact ha
    refine ⟨?_, hstep.2⟩
    intro g' hg'
    rcases List.mem_cons.mp hg' with rfl | hg'
    · exact hstep.1
    · exact hl g' hg'

/-- The generation that is kept is one of those offered. -/
theorem keepBest_mem (l : List Generation) :
    ∀ (acc : Option Generation) (b : Generation), l.foldl keepBest acc = some b → acc = some b ∨ b ∈ l := by
  induction l with
  | nil => intro acc b h; exact .inl h
  | cons g l ih =>
    intro acc b h
    rw [List.foldl_cons] at h
    rcases ih (keepBest acc g) b h with hk | hl
    · have hcase : keepBest acc g = some g ∨ keepBest acc g = acc := by
        cases acc with
        | none => exact .inl rfl
        | some a =>
          by_cases hgt : g.state.revision > a.state.revision
          · exact .inl (if_pos hgt)
          · exact .inr (if_neg hgt)
      rcases hcase with hg | ha
      · rw [hg] at hk
        obtain rfl := some.inj hk
        exact .inr List.mem_cons_self
      · exact .inl (ha ▸ hk)
    · exact .inr (List.mem_cons_of_mem g hl)

/-- A generation that is met is not forgotten. -/
theorem keepBest_ne_none (l : List Generation) :
    ∀ acc : Option Generation, acc ≠ none → l.foldl keepBest acc ≠ none := by
  induction l with
  | nil => intro acc h; exact h
  | cons g l ih =>
    intro acc h
    refine ih (keepBest acc g) ?_
    cases acc with
    | none => exact absurd rfl h
    | some a =>
      show (if g.state.revision > a.state.revision then some g else some a) ≠ none
      split_ifs <;> simp

/-- The bytes that recovery returns decode to the record it returns. -/
theorem read_data_valid {d : TrafficDir}
    (h : readTrafficResetState d = .ok g) : classify (some g.data) = .valid g.state := by
  obtain ⟨-, hbest⟩ := read_eq_ok_iff.mp h
  rcases keepBest_mem _ none g hbest with hn | hmem
  · exact absurd hn (by simp)
  · obtain ⟨n, -, hgen⟩ := List.mem_filterMap.mp hmem
    obtain ⟨hval, hget, -⟩ := generationAt_eq_some.mp hgen
    exact hget ▸ hval

/-- A generation that is `s` or of a lower revision. -/
def Below (s : TrafficResetState) (g : Generation) : Prop :=
  g.state = s ∨ g.state.revision < s.revision

/-- Among generations that are `s` or lower, `s` is kept as soon as it occurs. -/
theorem keepBest_of_below {s : TrafficResetState} (l : List Generation) :
    ∀ acc : Option Generation, (∀ a, acc = some a → Below s a) → (∀ g ∈ l, Below s g) →
      ((∃ a, acc = some a ∧ a.state = s) ∨ ∃ g ∈ l, g.state = s) →
      ∃ b, l.foldl keepBest acc = some b ∧ b.state = s := by
  induction l with
  | nil =>
    intro acc _ _ hex
    rcases hex with ⟨a, ha, hs⟩ | ⟨g, hg, -⟩
    · exact ⟨a, ha, hs⟩
    · exact absurd hg List.not_mem_nil
  | cons g l ih =>
    intro acc hacc hl hex
    rw [List.foldl_cons]
    have hg : Below s g := hl g List.mem_cons_self
    have hl' : ∀ g' ∈ l, Below s g' := fun g' h => hl g' (List.mem_cons_of_mem g h)
    -- whichever of the two is kept, it is `s` if one of them is
    have hstep : (∀ a, keepBest acc g = some a → Below s a) ∧
        ((∃ a, acc = some a ∧ a.state = s) ∨ g.state = s → ∃ a, keepBest acc g = some a ∧ a.state = s) := by
      cases hc : acc with
      | none =>
        refine ⟨fun a ha => some.inj ha ▸ hg, ?_⟩
        rintro (⟨a, ha, -⟩ | h)
        · exact absurd ha (by simp)
        · exact ⟨g, rfl, h⟩
      | some a =>
        have ha : Below s a := hacc a hc
        unfold keepBest
        simp only
        by_cases hgt : g.state.revision > a.state.revision
        · rw [if_pos hgt]
          refine ⟨fun a' h => some.inj h ▸ hg, ?_⟩
          rintro (⟨a', ha', hs⟩ | h)
          · obtain rfl := some.inj ha'
            rcases hg with hg | hg
            · exact ⟨g, rfl, hg⟩
            · rw [← hs] at hg
              omega
          · exact ⟨g, rfl, h⟩
        · rw [if_neg hgt]
          refine ⟨fun a' h => some.inj h ▸ ha, ?_⟩
          rintro (⟨a', ha', hs⟩ | h)
          · obtain rfl := some.inj ha'
            exact ⟨a, rfl, hs⟩
          · rcases ha with ha | ha
            · exact ⟨a, rfl, ha⟩
            · rw [← h] at ha
              omega
    refine ih (keepBest acc g) hstep.1 hl' ?_
    rcases hex with hex | ⟨g', hg', hs⟩
    · exact .inl (hstep.2 (.inl hex))
    · rcases List.mem_cons.mp hg' with rfl | hg'
      · exact .inl (hstep.2 (.inr hs))
      · exact .inr ⟨g', hg', hs⟩

/-! ## A generation that wins -/

/-- A candidate that can stand beside the generation `s`: damaged, `s` itself, or lower. -/
def Harmless (s : TrafficResetState) (e : Option Entry) : Prop :=
  classify e ≠ .fatal ∧ ∀ s', classify e = .valid s' → s' = s ∨ s'.revision < s.revision

/-- `n` holds the generation `s` and every other candidate is harmless beside it. -/
structure Wins (s : TrafficResetState) (n : String) (d : TrafficDir) : Prop where
  candidate : n = mainName ∨ isStaged n = true
  holds : classify (d.get? n) = .valid s
  others : ∀ m ∈ trafficStateCandidates d, Harmless s (d.get? m)

variable {s : TrafficResetState} {n : String} {d : TrafficDir}

theorem classify_ne_valid_of_directory {e : Option Entry} (h : classify e = .valid s) :
    e ≠ none ∧ e ≠ some .directory := by
  constructor <;> rintro rfl <;> exact absurd h (by simp [classify])

theorem Wins.mem (h : Wins s n d) : n ∈ trafficStateCandidates d := by
  rw [mem_candidates]
  obtain ⟨h1, h2⟩ := classify_ne_valid_of_directory h.holds
  rcases h.candidate with hm | hs
  · exact .inl (.inl hm)
  · exact .inr ⟨hs, h1, h2⟩

/-- **The winner is what recovery finds.** -/
theorem Wins.recovered (h : Wins s n d) : recovered d = some s := by
  obtain ⟨h1, -⟩ := classify_ne_valid_of_directory h.holds
  obtain ⟨e, he⟩ := Option.ne_none_iff_exists'.mp h1
  have hgen : generationAt d n = some ⟨s, e, n⟩ :=
    generationAt_eq_some.mpr ⟨h.holds, he, rfl⟩
  obtain ⟨b, hb, hbs⟩ := keepBest_of_below (s := s)
    ((trafficStateCandidates d).filterMap (generationAt d)) none
    (fun a ha => absurd ha (by simp))
    (fun g hg => by
      obtain ⟨m, hm, hgm⟩ := List.mem_filterMap.mp hg
      exact (h.others m hm).2 g.state (generationAt_eq_some.mp hgm).1)
    (.inr ⟨⟨s, e, n⟩, List.mem_filterMap.mpr ⟨n, h.mem, hgen⟩, rfl⟩)
  have hread : readTrafficResetState d = .ok b :=
    read_eq_ok_iff.mpr ⟨fun m hm => (h.others m hm).1, hb⟩
  unfold Agent.recovered
  rw [hread]
  exact congrArg some hbs

variable {m : String}

/-- Writing something harmless beside the winner. -/
theorem Wins.put (h : Wins s n d) {e : Entry} (hne : m ≠ n)
    (he : Harmless s (some e)) : Wins s n (d.put m e) where
  candidate := h.candidate
  holds := by
    rw [get?_put, if_neg (Ne.symm hne)]
    exact h.holds
  others := by
    intro k hk
    rw [get?_put]
    by_cases hkm : k = m
    · rw [if_pos hkm]
      exact he
    · rw [if_neg hkm]
      rw [mem_candidates, get?_put, if_neg hkm] at hk
      exact h.others k (mem_candidates.mpr hk)

theorem Wins.remove (h : Wins s n d) (hne : m ≠ n) : Wins s n (d.remove m) where
  candidate := h.candidate
  holds := by
    rw [get?_remove, if_neg (Ne.symm hne)]
    exact h.holds
  others := by
    intro k hk
    rw [get?_remove]
    by_cases hkm : k = m
    · rw [if_pos hkm]
      exact ⟨by simp [classify], fun s' hs' => absurd hs' (by simp [classify])⟩
    · rw [if_neg hkm]
      rw [mem_candidates, get?_remove, if_neg hkm] at hk
      exact h.others k (mem_candidates.mpr hk)

/-- Moving something harmless over another name beside the winner. -/
theorem Wins.rename (h : Wins s n d) {src dst : String} {e : Entry} (hsrc : src ≠ n)
    (hdst : dst ≠ n) (hget : d.get? src = some e) (he : Harmless s (some e)) :
    Wins s n (d.rename src dst) := by
  unfold Directory.rename
  rw [hget]
  exact (h.remove hsrc).put hdst he

theorem Wins.install (h : Wins s n d) : Wins s mainName (d.rename n mainName) := by
  obtain ⟨h1, -⟩ := classify_ne_valid_of_directory h.holds
  obtain ⟨e, he⟩ := Option.ne_none_iff_exists'.mp h1
  have hget := d.get?_rename mainName he
  have hval : classify (some e) = .valid s := he ▸ h.holds
  refine ⟨.inl rfl, by rw [hget, if_pos rfl]; exact hval, ?_⟩
  intro k hk
  by_cases hkm : k = mainName
  · rw [hget, if_pos hkm]
    exact ⟨by rw [hval]; simp, fun s' hs' => .inl (by rw [hval] at hs'; cases hs'; rfl)⟩
  · rw [hget, if_neg hkm]
    by_cases hkn : k = n
    · rw [if_pos hkn]
      exact ⟨by simp [classify], fun s' hs' => absurd hs' (by simp [classify])⟩
    · rw [if_neg hkn]
      rw [mem_candidates, hget, if_neg hkm, if_neg hkn] at hk
      exact h.others k (mem_candidates.mpr hk)

/-! ## A name that recovery does not see -/

/-- `d` is `d₀` but for the name `n`, which `d₀` does not have. -/
structure Untouched (d₀ : TrafficDir) (n : String) (d : TrafficDir) : Prop where
  fresh : d₀.get? n = none
  get : ∀ m, m ≠ n → d.get? m = d₀.get? m
  listing : ∀ f : String → Option Generation, f n = none → d.names.filterMap f = d₀.names.filterMap f

variable {d₀ : TrafficDir}

theorem Untouched.refl (h : d₀.get? n = none) : Untouched d₀ n d₀ :=
  ⟨h, fun _ _ => rfl, fun _ _ => rfl⟩

theorem Untouched.put (h : Untouched d₀ n d) (e : Entry) :
    Untouched d₀ n (d.put n e) where
  fresh := h.fresh
  get := by
    intro m hm
    rw [get?_put, if_neg hm]
    exact h.get m hm
  listing := by
    intro f hf
    rw [Directory.filterMap_names_put d n e hf]
    exact h.listing f hf

theorem Untouched.remove (h : Untouched d₀ n d) :
    Untouched d₀ n (d.remove n) where
  fresh := h.fresh
  get := by
    intro m hm
    rw [get?_remove, if_neg hm]
    exact h.get m hm
  listing := by
    intro f hf
    rw [Directory.filterMap_names_remove d n hf]
    exact h.listing f hf

theorem generations_eq (d : TrafficDir) : (trafficStateCandidates d).filterMap (generationAt d)
      = [mainName, bakName, tmpName].filterMap (generationAt d)
        ++ d.names.filterMap fun m => if isListed d m then generationAt d m else none := by
  unfold trafficStateCandidates
  rw [List.filterMap_append, List.filterMap_filter]

theorem isStaged_ne (h : isStaged n = true) : n ≠ mainName ∧ n ≠ bakName ∧ n ≠ tmpName := by
  refine ⟨?_, ?_, ?_⟩ <;> rintro rfl <;> exact absurd h (by decide)

/-- **A staged name that does not decode is invisible**: recovery is as without it. -/
theorem Untouched.read (h : Untouched d₀ n d)
    (hn : isStaged n = true) (hinv : classify (d.get? n) = .absent ∨ classify (d.get? n) = .corrupt)
    (hread : readTrafficResetState d₀ = .ok g) : readTrafficResetState d = .ok g := by
  obtain ⟨hfatal, hbest⟩ := read_eq_ok_iff.mp hread
  obtain ⟨hmain, hbak, htmp⟩ := isStaged_ne hn
  have hgen : ∀ m, m ≠ n → generationAt d m = generationAt d₀ m := by
    intro m hm
    unfold generationAt
    rw [h.get m hm]
  have hgn : generationAt d n = none := by
    unfold generationAt
    rcases hinv with hv | hv <;> rw [hv]
  have hgn₀ : generationAt d₀ n = none := by
    unfold generationAt
    rw [h.fresh]
    rfl
  -- in one pass over the names, both directories offer the same generations
  have hfun : (fun m => if isListed d m then generationAt d m else none)
      = fun m => if isListed d₀ m then generationAt d₀ m else none := by
    funext m
    by_cases hm : m = n
    · subst hm
      rw [hgn, hgn₀, ite_self, ite_self]
    · unfold isListed
      rw [h.get m hm, hgen m hm]
  refine read_eq_ok_iff.mpr ⟨?_, ?_⟩
  · intro m hm
    by_cases hmn : m = n
    · subst hmn
      rcases hinv with hv | hv <;> rw [hv] <;> simp
    · rw [mem_candidates, h.get m hmn] at hm
      rw [h.get m hmn]
      exact hfatal m (mem_candidates.mpr hm)
  · rw [generations_eq, hfun, h.listing _ (by simp [hgn₀]), ← hbest, generations_eq]
    simp only [List.filterMap_cons, List.filterMap_nil, hgen _ (Ne.symm hmain),
      hgen _ (Ne.symm hbak), hgen _ (Ne.symm htmp)]

/-- No candidate is fatal, and every generation is older than `s`. -/
def Beats (s : TrafficResetState) (d : TrafficDir) : Prop :=
  ∀ m ∈ trafficStateCandidates d, classify (d.get? m) ≠ .fatal
    ∧ ∀ s', classify (d.get? m) = .valid s' → s'.revision < s.revision

theorem mem_generations {s' : TrafficResetState} (hm : m ∈ trafficStateCandidates d)
    (hs' : classify (d.get? m) = .valid s') :
    ∃ g ∈ (trafficStateCandidates d).filterMap (generationAt d), g.state = s' := by
  obtain ⟨h1, -⟩ := classify_ne_valid_of_directory hs'
  obtain ⟨e, he⟩ := Option.ne_none_iff_exists'.mp h1
  exact ⟨⟨s', e, m⟩, List.mem_filterMap.mpr ⟨m, hm, generationAt_eq_some.mpr ⟨hs', he, rfl⟩⟩, rfl⟩

theorem beats_of_read (hread : readTrafficResetState d = .ok g)
    (hrev : g.state.revision < s.revision) : Beats s d := by
  obtain ⟨hfatal, hbest⟩ := read_eq_ok_iff.mp hread
  obtain ⟨hmax, -⟩ := keepBest_max _ none g hbest
  intro m hm
  refine ⟨hfatal m hm, fun s' hs' => ?_⟩
  obtain ⟨g', hg', rfl⟩ := mem_generations hm hs'
  exact lt_of_le_of_lt (hmax g' hg') hrev

theorem Untouched.wins (h : Untouched d₀ n d) (hn : isStaged n = true)
    (hval : classify (d.get? n) = .valid s) (hbeats : Beats s d₀) : Wins s n d := by
  refine ⟨.inr hn, hval, ?_⟩
  intro m hm
  by_cases hmn : m = n
  · subst hmn
    exact ⟨by rw [hval]; simp, fun s' hs' => .inl (by rw [hval] at hs'; cases hs'; rfl)⟩
  · rw [mem_candidates, h.get m hmn] at hm
    obtain ⟨hf, hlt⟩ := hbeats m (mem_candidates.mpr hm)
    rw [h.get m hmn]
    exact ⟨hf, fun s' hs' => .inr (hlt s' hs')⟩

/-! ## The steps of the update -/

/-- The rule of one staged file: `mid` holds from its creation on, whatever the file holds. -/
theorem writeSyncedTrafficTemp_triple {start : String} {data : Entry} {plan : TempPlan}
    {P M crash fail : TrafficDir → Prop} {post : String → TrafficDir → Prop}
    (hpre : ∀ d, P d → fail d)
    (hnew : ∀ d, P d → d.get? (start ++ plan.random) = none → M (d.put (start ++ plan.random) (.torn "")))
    (hput : ∀ d p, M d → M (d.put (start ++ plan.random) (Progress.entry p data)))
    (hdone : ∀ d, M d → post (start ++ plan.random) (d.put (start ++ plan.random) data))
    (hcrash : ∀ d, M d → crash d) (hfail : ∀ d, M d → fail d)
    (hrem : ∀ d, M d → crash (d.remove (start ++ plan.random)) ∧ fail (d.remove (start ++ plan.random))) :
    Triple P (writeSyncedTrafficTemp start data plan) crash post fail := by
  unfold writeSyncedTrafficTemp
  refine Triple.bind Triple.get fun d₀ => ?_
  refine Triple.bind (M := fun _ d => P d ∧ d.get? (start ++ plan.random) = none)
    (Triple.require ?_ ?_) fun _ => ?_
  · rintro d ⟨rfl, hp⟩ hc
    exact ⟨hp, of_decide_eq_true ((Bool.and_eq_true_iff ..).mp hc).2⟩
  · rintro d ⟨rfl, hp⟩
    exact hpre d₀ hp
  refine Triple.bind (M := fun _ => M) (Triple.modify ?_) fun _ => ?_
  · rintro d ⟨hp, hfresh⟩
    have hmid := hnew d hp hfresh
    exact ⟨hcrash _ hmid, hmid⟩
  refine Triple.bind (M := fun _ => M) (Triple.forEach fun p _ => Triple.modify ?_) fun _ => ?_
  · intro d hmid
    have := hput d p hmid
    exact ⟨hcrash _ this, this⟩
  cases plan.completed with
  | true =>
    refine Triple.bind (M := fun _ => post (start ++ plan.random)) (Triple.modify ?_)
      fun _ => Triple.pure fun d hd => hd
    intro d hmid
    exact ⟨hcrash _ (hput d .whole hmid), hdone d hmid⟩
  | false =>
    refine Triple.bind (M := fun _ => fail) (Triple.modify ?_)
      fun _ => Triple.fail_with fun d hd => hd
    intro d hmid
    cases plan.removed with
    | true => exact hrem d hmid
    | false => exact ⟨hcrash d hmid, hfail d hmid⟩

theorem hasPrefix_append (start rest : String) : hasPrefix (start ++ rest) start = true := by
  unfold hasPrefix
  rw [String.toList_append, List.isPrefixOf_iff_prefix]
  exact List.prefix_append _ _

theorem isStaged_staged (random : String) : isStaged (stagedPrefix ++ random) = true := by
  unfold isStaged
  rw [hasPrefix_append]
  rfl

/-- The two outcomes that a crash may show. -/
def Safe (prior next : TrafficResetState) (d : TrafficDir) : Prop :=
  recovered d = some prior ∨ recovered d = some next

theorem recovered_of_read (h : readTrafficResetState d = .ok g) : recovered d = some g.state := by
  unfold recovered
  rw [h]

section Update

variable {d₀ : TrafficDir} {g : Generation} {next : TrafficResetState} {plan : WritePlan}

theorem classify_document (hacc : Accepted next) (layout : String) :
    classify (some (.document layout next)) = .valid next := by
  have h : decodeTrafficState next = .ok next := hacc
  rw [classify, h]

theorem stage_triple (hread : readTrafficResetState d₀ = .ok g) (hacc : Accepted next)
    (hrev : g.state.revision < next.revision) (temp : TempPlan) :
    Triple (fun d => d = d₀) (writeSyncedTrafficTemp stagedPrefix (marshalIndent next) temp)
      (Safe g.state next) (fun n d => Wins next n d ∧ isStaged n = true) (Safe g.state next) := by
  have hn := isStaged_staged temp.random
  generalize hname : stagedPrefix ++ temp.random = name at hn
  -- the file is torn, or already says everything
  let mid : TrafficDir → Prop := fun d => Untouched d₀ name d
    ∧ (classify (d.get? name) = .corrupt ∨ classify (d.get? name) = .valid next)
  have hsafe : ∀ d, mid d → Safe g.state next d := by
    rintro d ⟨hu, hc | hv⟩
    · exact .inl (recovered_of_read (hu.read hn (.inr hc) hread))
    · exact .inr (hu.wins hn hv (beats_of_read hread hrev)).recovered
  refine writeSyncedTrafficTemp_triple (M := mid) ?_ ?_ ?_ ?_ hsafe hsafe ?_
  · rintro d rfl
    exact .inl (recovered_of_read hread)
  · rintro d rfl hfresh
    rw [hname] at hfresh ⊢
    refine ⟨(Untouched.refl hfresh).put _, .inl ?_⟩
    rw [get?_put, if_pos rfl]
    rfl
  · rintro d p ⟨hu, -⟩
    rw [hname]
    refine ⟨hu.put _, ?_⟩
    rw [get?_put, if_pos rfl]
    cases p with
    | torn text => exact .inl rfl
    | trimmed layout => exact .inr (classify_document hacc layout)
    | whole => exact .inr (classify_document hacc "")
  · rintro d ⟨hu, -⟩
    rw [hname]
    refine ⟨(hu.put _).wins hn ?_ (beats_of_read hread hrev), hn⟩
    rw [get?_put, if_pos rfl]
    exact classify_document hacc ""
  · rintro d ⟨hu, -⟩
    rw [hname]
    have habs : classify ((d.remove name).get? name) = .absent := by
      rw [get?_remove, if_pos rfl]
      rfl
    have := recovered_of_read (hu.remove.read hn (.inl habs) hread)
    exact ⟨.inl this, .inl this⟩

theorem backup_harmless (hval : classify (some g.data) = .valid g.state)
    (hrev : g.state.revision < next.revision) (p : Progress) :
    Harmless next (some (p.entry g.data)) := by
  have hdata : Harmless next (some g.data) := by
    refine ⟨by rw [hval]; simp, fun s' hs' => .inr ?_⟩
    rw [hval] at hs'
    cases hs'
    exact hrev
  cases p with
  | torn text => exact ⟨by simp [Progress.entry, classify],
      fun s' hs' => absurd hs' (by simp [Progress.entry, classify])⟩
  | trimmed layout =>
    cases hd : g.data with
    | document layout' st =>
      rw [hd] at hdata
      exact hdata
    | directory => rw [hd] at hdata; exact hdata
    | unreadable => rw [hd] at hdata; exact hdata
    | torn text => rw [hd] at hdata; exact hdata
  | whole => exact hdata

section Place

-- what the caller asks of every directory on the way and after a failure
variable {K : TrafficDir → Prop} (hkeeps : ∀ n d, Wins next n d → K d)

include hkeeps

variable {staged : String}

theorem backupPrior_triple {data : Entry} (hstaged : isStaged staged = true)
    (hharm : ∀ p : Progress, Harmless next (some (p.entry data))) :
    Triple (Wins next staged) (backupPrior data plan) K (fun _ => Wins next staged)
      K := by
  unfold backupPrior
  refine Triple.bind (M := fun b d => (Wins next staged d ∧ b ≠ staged)
    ∧ d.get? b = some data) (writeSyncedTrafficTemp_triple
      (M := fun d => Wins next staged d ∧ backupPrefix ++ plan.backup.random ≠ staged)
      (hkeeps staged) ?_ ?_ ?_ (fun d h => hkeeps staged d h.1) (fun d h => hkeeps staged d h.1)
      ?_) fun b => ?_
  · intro d hw hfresh
    have hne : backupPrefix ++ plan.backup.random ≠ staged := by
      intro heq
      rw [heq] at hfresh
      exact (classify_ne_valid_of_directory hw.holds).1 hfresh
    exact ⟨hw.put hne (hharm (.torn "")), hne⟩
  · rintro d p ⟨hw, hne⟩
    exact ⟨hw.put hne (hharm p), hne⟩
  · rintro d ⟨hw, hne⟩
    exact ⟨⟨hw.put hne (hharm .whole), hne⟩, by rw [get?_put, if_pos rfl]⟩
  · rintro d ⟨hw, hne⟩
    have := hkeeps staged _ (hw.remove hne)
    exact ⟨this, this⟩
  refine Triple.bind (M := fun _ => Wins next staged) ?_ fun _ => Triple.check (hkeeps staged)
  unfold replaceFile
  refine Triple.bind (Triple.check fun d hd => hkeeps staged d hd.1.1) fun _ => Triple.modify ?_
  rintro d ⟨⟨hw, hne⟩, hget⟩
  have := hw.rename hne (Ne.symm (isStaged_ne hstaged).2.1) hget (hharm .whole)
  exact ⟨hkeeps staged _ this, this⟩

theorem cleanup_triple : Triple (Wins next mainName) (cleanup plan) K (fun _ => Wins next mainName) K := by
  unfold cleanup
  refine Triple.bind Triple.get fun d₀ => ?_
  refine Triple.conseq (P := Wins next mainName) (Triple.forEach fun m hm => Triple.modify ?_)
    (fun d hd => hd.2) (fun _ h => h) (fun _ _ h => h) (fun _ h => h)
  intro d hw
  have hne : m ≠ mainName :=
    of_decide_eq_true ((Bool.and_eq_true_iff ..).mp (List.mem_filter.mp hm).2).1
  cases plan.sticks m with
  | true => exact ⟨hkeeps _ _ hw, hw⟩
  | false => exact ⟨hkeeps _ _ (hw.remove hne), hw.remove hne⟩

theorem placeGeneration_triple {prior : Option Entry} (hstaged : isStaged staged = true)
    (hharm : ∀ data, prior = some data → ∀ p : Progress, Harmless next (some (p.entry data))) :
    Triple (Wins next staged) (placeGeneration staged prior plan) K (fun _ => Wins next mainName) K := by
  unfold placeGeneration
  refine Triple.bind (M := fun _ => Wins next staged) ?_ fun _ => ?_
  · cases hp : prior with
    | none => exact Triple.pure fun _ h => h
    | some data => exact backupPrior_triple hkeeps hstaged (hharm data hp)
  refine Triple.bind (M := fun _ => Wins next mainName) ?_ fun _ => ?_
  · unfold replaceFile
    refine Triple.bind (Triple.check (hkeeps staged)) fun _ => Triple.modify fun d hw => ?_
    exact ⟨hkeeps _ _ hw.install, hw.install⟩
  refine Triple.bind (Triple.check (hkeeps mainName)) fun _ => ?_
  refine Triple.bind (Triple.check (hkeeps mainName)) fun _ => ?_
  exact cleanup_triple hkeeps

end Place

/-- **The whole update**, from a directory in which recovery finds `g`. -/
theorem installGeneration_triple (hread : readTrafficResetState d₀ = .ok g)
    (hacc : Accepted next) (hrev : g.state.revision < next.revision) :
    Triple (fun d => d = d₀) (installGeneration next (some g.data) plan) (Safe g.state next)
      (fun _ d => recovered d = some next) (Safe g.state next) := by
  have hval := read_data_valid hread
  unfold installGeneration
  refine Triple.bind (stage_triple hread hacc hrev plan.staged) fun staged => ?_
  by_cases hst : isStaged staged = true
  · refine Triple.conseq (placeGeneration_triple (K := Safe g.state next)
      (fun n d h => .inr h.recovered) hst ?_) (fun d hd => hd.1) (fun _ h => h)
      (fun _ d h => h.recovered) (fun _ h => h)
    rintro data hdata p
    obtain rfl := some.inj hdata
    exact backup_harmless hval hrev p
  · intro d hd
    exact absurd hd.2 hst

theorem markHistory_accepted {b : Bool} (h : Accepted next) : Accepted (markHistory b next) := by
  cases b with
  | false => exact h
  | true =>
    have hd : decodeTrafficState next = .ok next := h
    show decodeTrafficState { next with historyIncomplete := true } = .ok _
    unfold decodeTrafficState badPolicyDay badCounters at hd ⊢
    split_ifs at hd ⊢ <;> rfl

theorem markHistory_revision (b : Bool) : (markHistory b next).revision = next.revision := by
  cases b <;> rfl

theorem writeTrafficResetState_triple (plan : WritePlan) (hread : readTrafficResetState d₀ = .ok g)
    (hacc : Accepted next) (hrev : g.state.revision < next.revision) :
    Triple (fun d => d = d₀) (writeTrafficResetState next plan)
      (Safe g.state (markHistory (inheritsGap g.state next) next))
      (fun _ d => recovered d = some (markHistory (inheritsGap g.state next) next))
      (Safe g.state (markHistory (inheritsGap g.state next) next)) := by
  have hstart : ∀ d, d = d₀ → Safe g.state (markHistory (inheritsGap g.state next) next) d := by
    rintro d rfl
    exact .inl (recovered_of_read hread)
  unfold writeTrafficResetState
  refine Triple.bind (Triple.check hstart) fun _ => ?_
  refine Triple.bind (Triple.check hstart) fun _ => ?_
  refine Triple.bind Triple.get fun d => ?_
  by_cases hd : d = d₀
  · subst hd
    rw [hread]
    exact Triple.conseq (installGeneration_triple hread (markHistory_accepted hacc)
      (by rw [markHistory_revision]; exact hrev)) (fun d' h => h.1.symm) (fun _ h => h)
      (fun _ _ h => h) (fun _ h => h)
  · rintro d' ⟨rfl, h⟩
    exact absurd h hd

end Update

/-! ## Success from any directory -/

section Success

variable {next : TrafficResetState} {plan : WritePlan}

theorem beats_of_none {e : ReadError} (hread : readTrafficResetState d = .error e)
    (he : ∀ names, e ≠ .fatal names) : Beats next d := by
  have hfatal : ∀ m ∈ trafficStateCandidates d, classify (d.get? m) ≠ .fatal := by
    intro m hm hf
    obtain ⟨names, hr⟩ := read_fatal ⟨m, hm, hf⟩
    rw [hread] at hr
    exact he names (Except.error.inj hr)
  intro m hm
  refine ⟨hfatal m hm, fun s' hs' => ?_⟩
  obtain ⟨g, hg, rfl⟩ := mem_generations hm hs'
  exfalso
  cases hbest : ((trafficStateCandidates d).filterMap (generationAt d)).foldl keepBest none with
  | some b =>
    rw [read_eq_ok_iff.mpr ⟨hfatal, hbest⟩] at hread
    exact absurd hread (by simp)
  | none =>
    cases hl : (trafficStateCandidates d).filterMap (generationAt d) with
    | nil => rw [hl] at hg; exact List.not_mem_nil hg
    | cons a l =>
      rw [hl, List.foldl_cons] at hbest
      exact keepBest_ne_none l (some a) (by simp) hbest

theorem Beats.remove (h : Beats next d) (m : String) : Beats next (d.remove m) := by
  intro k hk
  rw [mem_candidates, get?_remove] at hk
  rw [get?_remove]
  by_cases hkm : k = m
  · rw [if_pos hkm]
    exact ⟨by simp [classify], fun s' hs' => absurd hs' (by simp [classify])⟩
  · rw [if_neg hkm] at hk ⊢
    exact h k (mem_candidates.mpr hk)

/-- A name that recovery does not look at. -/
theorem corrupt_hidden (random : String) (d : TrafficDir) :
    corruptPrefix ++ random ∉ trafficStateCandidates d := by
  rw [mem_candidates]
  simp [mainName, bakName, tmpName, corruptPrefix, isStaged, hasPrefix, stagedPrefix,
    backupPrefix, String.ext_iff]

theorem Beats.put_corrupt (h : Beats next d) (random : String) (e : Entry) :
    Beats next (d.put (corruptPrefix ++ random) e) := by
  intro k hk
  have hne : k ≠ corruptPrefix ++ random := by
    rintro rfl
    exact corrupt_hidden random _ hk
  rw [mem_candidates, get?_put, if_neg hne] at hk
  rw [get?_put, if_neg hne]
  exact h k (mem_candidates.mpr hk)

theorem quarantineOne_triple (name : String) (q : QuarantinePlan) :
    Triple (Beats next) (quarantineOne name q) (fun _ => True) (fun _ => Beats next)
      (fun _ => True) := by
  unfold quarantineOne
  refine Triple.bind Triple.get fun d₀ => ?_
  refine Triple.bind (M := fun _ => Beats next) ?_ fun _ => ?_
  · refine Triple.conseq (P := Beats next) (writeSyncedTrafficTemp_triple (M := Beats next)
      (fun _ _ => trivial) (fun d h _ => h.put_corrupt _ _) (fun d p h => h.put_corrupt _ _)
      (fun d h => h.put_corrupt _ _) (fun _ _ => trivial) (fun _ _ => trivial)
      (fun _ _ => ⟨trivial, trivial⟩)) (fun d hd => hd.2) (fun _ h => h) (fun _ _ h => h)
      (fun _ h => h)
  refine Triple.bind (Triple.check fun _ _ => trivial) fun _ => ?_
  refine Triple.bind (Triple.check fun _ _ => trivial) fun _ => ?_
  exact Triple.modify fun d h => ⟨trivial, h.remove name⟩

theorem installGeneration_recovers {prior : Option Entry} (hacc : Accepted next)
    (hharm : ∀ data, prior = some data → ∀ p : Progress, Harmless next (some (p.entry data))) :
    Triple (Beats next) (installGeneration next prior plan) (fun _ => True)
      (fun _ d => recovered d = some next) (fun _ => True) := by
  have hn := isStaged_staged plan.staged.random
  unfold installGeneration
  refine Triple.bind (M := fun n d => Wins next n d ∧ isStaged n = true)
    (writeSyncedTrafficTemp_triple
      (M := fun d => ∃ d₀, Beats next d₀ ∧ Untouched d₀ (stagedPrefix ++ plan.staged.random) d)
      (fun _ _ => trivial) ?_ ?_ ?_ (fun _ _ => trivial) (fun _ _ => trivial)
      (fun _ _ => ⟨trivial, trivial⟩)) fun staged => ?_
  · intro d hb hfresh
    exact ⟨d, hb, (Untouched.refl hfresh).put _⟩
  · rintro d p ⟨d₀, hb, hu⟩
    exact ⟨d₀, hb, hu.put _⟩
  · rintro d ⟨d₀, hb, hu⟩
    refine ⟨(hu.put _).wins hn ?_ hb, hn⟩
    rw [get?_put, if_pos rfl]
    exact classify_document hacc ""
  by_cases hst : isStaged staged = true
  · exact Triple.conseq (placeGeneration_triple (K := fun _ => True)
      (fun _ _ _ => trivial) hst hharm) (fun d hd => hd.1) (fun _ h => h)
      (fun _ d h => h.recovered) (fun _ h => h)
  · intro d hd
    exact absurd hd.2 hst

/-- The history of the new record has a gap: inherited from the generation before, or because
    every generation was damaged. -/
def historyGap (d : TrafficDir) (next : TrafficResetState) : Bool :=
  match readTrafficResetState d with
  | .ok g => inheritsGap g.state next
  | .error (.corruption _) => true
  | .error _ => false

/-- **A save that succeeds is what the next start recovers**, whatever the directory held. -/
theorem write_recovers {d : TrafficDir} (hacc : Accepted next)
    (hrev : ∀ g, readTrafficResetState d = .ok g → g.state.revision < next.revision)
    (hok : (writeTrafficResetState next plan d).result = .ok ()) :
    recovered (writeTrafficResetState next plan d).last = some (markHistory (historyGap d next) next) := by
  have htriple : Triple (fun d' => d' = d) (writeTrafficResetState next plan) (fun _ => True)
      (fun _ d' => recovered d' = some (markHistory (historyGap d next) next))
      (fun _ => True) := by
    have hmark := fun b => markHistory_accepted (b := b) hacc
    unfold writeTrafficResetState
    refine Triple.bind (Triple.check fun _ _ => trivial) fun _ => ?_
    refine Triple.bind (Triple.check fun _ _ => trivial) fun _ => ?_
    refine Triple.bind Triple.get fun d₁ => ?_
    by_cases hd : d₁ = d
    · subst hd
      unfold historyGap
      cases hread : readTrafficResetState d₁ with
      | ok g =>
        have hlt : ∀ b, g.state.revision < (markHistory b next).revision := fun b => by
          rw [markHistory_revision]
          exact hrev g hread
        refine Triple.conseq (installGeneration_recovers (hmark _) ?_)
          (fun d' h => h.1 ▸ beats_of_read hread (hlt _)) (fun _ h => h) (fun _ _ h => h)
          (fun _ h => h)
        rintro data hdata p
        obtain rfl := some.inj hdata
        exact backup_harmless (read_data_valid hread) (hlt _) p
      | error e =>
        have hnone : ∀ data, (none : Option Entry) = some data → ∀ p : Progress,
            Harmless next (some (p.entry data)) := fun data h => absurd h (by simp)
        cases e with
        | fatal names => exact Triple.fail_with fun _ _ => trivial
        | notExist =>
          exact Triple.conseq (installGeneration_recovers hacc hnone)
            (fun d' h => h.1 ▸ beats_of_none hread (by simp)) (fun _ h => h) (fun _ _ h => h)
            (fun _ h => h)
        | corruption names =>
          refine Triple.bind (M := fun _ => Beats (markHistory true next)) ?_ fun _ =>
            installGeneration_recovers (hmark true) fun data h => absurd h (by simp)
          exact Triple.conseq (Triple.forEach fun m _ => quarantineOne_triple m _)
            (fun d' h => h.1 ▸ beats_of_none hread (by simp)) (fun _ h => h) (fun _ _ h => h)
            (fun _ h => h)
    · rintro d' ⟨rfl, h⟩
      exact absurd h hd
  exact (htriple d rfl).2.1 () hok

end Success

/-! ## Crash safety -/

/-- An update that meets a fatal candidate fails and changes nothing, not even on the way. -/
theorem write_refused {next : TrafficResetState} {plan : WritePlan} {names : List String}
    (hread : readTrafficResetState d = .error (.fatal names)) :
    (∃ e, (writeTrafficResetState next plan d).result = .error e)
      ∧ ∀ d' ∈ (writeTrafficResetState next plan d).last
          :: (writeTrafficResetState next plan d).seen, d' = d := by
  have htriple : Triple (fun d' => d' = d) (writeTrafficResetState next plan)
      (fun d' => d' = d) (fun _ _ => False) (fun d' => d' = d) := by
    unfold writeTrafficResetState
    refine Triple.bind (Triple.check fun _ h => h) fun _ => ?_
    refine Triple.bind (Triple.check fun _ h => h) fun _ => ?_
    refine Triple.bind Triple.get fun d₁ => ?_
    by_cases hd : d₁ = d
    · subst hd
      rw [hread]
      exact Triple.fail_with fun d' h => h.1.symm
    · rintro d' ⟨rfl, h⟩
      exact absurd h hd
  obtain ⟨hseen, hok, herr⟩ := htriple d rfl
  cases hr : (writeTrafficResetState next plan d).result with
  | ok a => exact absurd (hok a hr) id
  | error e =>
    refine ⟨⟨e, rfl⟩, ?_⟩
    intro d' hd'
    rcases List.mem_cons.mp hd' with rfl | hd'
    · exact herr e hr
    · exact hseen d' hd'

/-- **Traffic state files are crash safe.**

    From a directory in which recovery finds `g`, and for a new record that decoding accepts and
    whose revision is higher: recovery from every directory that the update leaves behind, at the
    start, between any two file operations and at its end, finds `g` or the new record (marked
    incomplete when the history of its period is), and after a success the new record.

    And when some candidate is unreadable or of a newer format, the update fails and no file has
    changed, not even on the way. -/
theorem write_crash_safe : (∀ (d : TrafficDir) (g : Generation) (next : TrafficResetState) (plan : WritePlan),
      readTrafficResetState d = .ok g → Accepted next → g.state.revision < next.revision →
      (∀ d' ∈ d :: (writeTrafficResetState next plan d).last :: (writeTrafficResetState next plan d).seen,
        recovered d' = some g.state
        ∨ recovered d' = some (markHistory (inheritsGap g.state next) next))
      ∧ ((writeTrafficResetState next plan d).result = .ok () →
        recovered (writeTrafficResetState next plan d).last
          = some (markHistory (inheritsGap g.state next) next)))
    ∧ (∀ (d : TrafficDir) (next : TrafficResetState) (plan : WritePlan),
      (∃ n ∈ trafficStateCandidates d, classify (d.get? n) = .fatal) →
      (∃ e, (writeTrafficResetState next plan d).result = .error e)
      ∧ ∀ d' ∈ (writeTrafficResetState next plan d).last
          :: (writeTrafficResetState next plan d).seen, d' = d) := by
  constructor
  · intro d g next plan hread hacc hrev
    obtain ⟨hseen, hok, herr⟩ :=
      writeTrafficResetState_triple plan hread hacc hrev d rfl
    refine ⟨?_, fun h => hok () h⟩
    intro d' hd'
    rcases List.mem_cons.mp hd' with rfl | hd'
    · exact .inl (recovered_of_read hread)
    rcases List.mem_cons.mp hd' with rfl | hd'
    · cases hr : (writeTrafficResetState next plan d).result with
      | ok a => exact .inr (hok a hr)
      | error e => exact herr e hr
    · exact hseen d' hd'
  · intro d next plan hfatal
    obtain ⟨names, hread⟩ := read_fatal hfatal
    exact write_refused hread

/-- The first generation, in the state file. -/
def firstGeneration : TrafficResetState :=
  { resetDay := 1, period := "2026-09-01", counterVersion := 1, revision := 1 }

/-- A directory that holds only the state file. -/
def firstDirectory : TrafficDir := Directory.empty.put mainName (marshalIndent firstGeneration)

/-- No file operation fails. -/
def smoothPlan : WritePlan := { staged := { random := "1" }, backup := { random := "2" } }

/-- The second generation replaces the first. -/
theorem write_crash_safe_second_generation :
    recovered (writeTrafficResetState { firstGeneration with revision := 2 } smoothPlan
        firstDirectory).last = some { firstGeneration with revision := 2 } :=
  (write_crash_safe.1 firstDirectory ⟨firstGeneration, marshalIndent firstGeneration, mainName⟩
    { firstGeneration with revision := 2 } smoothPlan (by decide +kernel) (by decide +kernel)
    (by decide)).2 (by decide +kernel)

/-- A record with a negative total is written without an error and never read back: recovery
    stays with the generation before. -/
theorem write_loses_undecodable_record : readTrafficResetState firstDirectory
      = .ok ⟨firstGeneration, marshalIndent firstGeneration, mainName⟩
    ∧ (writeTrafficResetState { firstGeneration with revision := 2, periodUp := -1 } smoothPlan
        firstDirectory).result = .ok ()
    ∧ recovered (writeTrafficResetState { firstGeneration with revision := 2, periodUp := -1 }
        smoothPlan firstDirectory).last = some firstGeneration
    ∧ firstGeneration ≠ markHistory (inheritsGap firstGeneration
        { firstGeneration with revision := 2, periodUp := -1 })
        { firstGeneration with revision := 2, periodUp := -1 } := by
  decide +kernel

end CfMonitor.Agent
