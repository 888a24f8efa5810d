/-
  Deterministic labelled machines and their runs.

  A machine takes one label at a time; `none` means that the label is not enabled in the state.
  Nondeterminism of the environment (who is scheduled next, which call fails, what a clock
  reads) lives in the LABEL, so a run is a list of labels and every machine stays executable.

  The rules here are the ones a safety proof needs and no others:

  * `run_append`     — a run splits at any point;
  * `run_inv`        — an invariant of every step is an invariant of every run;
  * `run_inv_of`     — the same, when the labels of the run satisfy a side condition;
  * `run_inv_along`  — the same, when every step of the run satisfies one (`Along`);
  * `along_of_forall` — a condition on the labels of a run is one on its steps;
  * `along_imp`      — under an invariant, one condition on the steps gives another;
  * `along_and_labels` — a condition on the labels joins one on the steps;
  * `along_congr`    — conditions on steps that agree under an invariant agree along a run;
  * `along_iff_kept` — where a condition decides whether a step keeps a property, it decides so
                       along a run;
  * `along_iff_kept_with` — the same, beside facts that hold as long as the property does;
  * `run_rel`        — a reflexive transitive relation between the states of one step relates
                       the two ends of a run (monotone counters).
-/
import Mathlib.Data.List.Basic
import Mathlib.Tactic.Common

namespace CfMonitor.Lib

/-- A machine over states `σ` and labels `ε`; `step s e = none` when `e` is not enabled in `s`. -/
structure Machine (σ ε : Type) where
  /-- One step of the machine. -/
  step : σ → ε → Option σ

namespace Machine

variable {σ ε : Type} (M : Machine σ ε)

/-- Take the labels of a list in order; `none` as soon as one of them is not enabled. -/
def run (s : σ) : List ε → Option σ
  | [] => some s
  | e :: es => match M.step s e with
    | none => none
    | some s' => run s' es

@[simp] theorem run_nil (s : σ) : M.run s [] = some s := rfl

variable {s t : σ} {es : List ε}

theorem run_cons {e : ε} : M.run s (e :: es) = some t ↔ ∃ u, M.step s e = some u ∧ M.run u es = some t := by
  constructor
  · intro h
    rw [run] at h
    cases hs : M.step s e with
    | none => rw [hs] at h; cases h
    | some u => rw [hs] at h; exact ⟨u, rfl, h⟩
  · rintro ⟨u, hs, hr⟩
    rw [run, hs]
    exact hr

theorem run_append {fs : List ε} :
    M.run s (es ++ fs) = some t ↔ ∃ u, M.run s es = some u ∧ M.run u fs = some t := by
  induction es generalizing s with
  | nil => simp
  | cons e es ih =>
    rw [List.cons_append, run_cons]
    constructor
    · rintro ⟨v, hv, hr⟩
      obtain ⟨u, hu, ht⟩ := ih.mp hr
      exact ⟨u, M.run_cons.mpr ⟨v, hv, hu⟩, ht⟩
    · rintro ⟨u, hu, ht⟩
      obtain ⟨v, hv, hr⟩ := M.run_cons.mp hu
      exact ⟨v, hv, ih.mpr ⟨u, hr, ht⟩⟩

theorem run_concat {e : ε} :
    M.run s (es ++ [e]) = some t ↔ ∃ u, M.run s es = some u ∧ M.step u e = some t := by
  rw [run_append]
  constructor
  · rintro ⟨u, hu, ht⟩
    obtain ⟨v, hv, hr⟩ := M.run_cons.mp ht
    obtain rfl : v = t := by simpa using hr
    exact ⟨u, hu, hv⟩
  · rintro ⟨u, hu, ht⟩
    exact ⟨u, hu, M.run_cons.mpr ⟨t, ht, rfl⟩⟩

variable {I : σ → Prop}

/-- **Invariants over conditional runs**: what every step with an admissible label preserves,
    every run of admissible labels preserves. -/
theorem run_inv_of {C : ε → Prop} (hstep : ∀ s e s', I s → C e → M.step s e = some s' → I s') :
    ∀ (es : List ε) (s t : σ), I s → (∀ e ∈ es, C e) → M.run s es = some t → I t := by
  intro es
  induction es with
  | nil =>
    intro s t hI _ hr
    obtain rfl : s = t := by simpa using hr
    exact hI
  | cons e es ih =>
    intro s t hI hC hr
    obtain ⟨u, hu, hr'⟩ := M.run_cons.mp hr
    exact ih u t (hstep s e u hI (hC e List.mem_cons_self) hu)
      (fun e' he' => hC e' (List.mem_cons_of_mem e he')) hr'

/-- **Invariants over runs**: what every step preserves, every run preserves. -/
theorem run_inv (hstep : ∀ s e s', I s → M.step s e = some s' → I s')
    (hI : I s) (hr : M.run s es = some t) : I t :=
  M.run_inv_of (C := fun _ => True) (fun s e s' h _ => hstep s e s' h) es s t hI
    (fun _ _ => trivial) hr

/-- Every step of a run satisfies `P`. -/
def Along (P : σ → ε → σ → Prop) (s : σ) : List ε → Prop
  | [] => True
  | e :: es => match M.step s e with
    | none => True
    | some s' => P s e s' ∧ Along P s' es

instance decidableAlong {P : σ → ε → σ → Prop} [∀ s e s', Decidable (P s e s')] :
    ∀ (s : σ) (es : List ε), Decidable (M.Along P s es)
  | _, [] => isTrue trivial
  | s, e :: es => match h : M.step s e with
    | none => isTrue (by rw [Along, h]; trivial)
    | some s' =>
      have : Decidable (M.Along P s' es) := decidableAlong s' es
      decidable_of_iff (P s e s' ∧ M.Along P s' es) (by rw [Along, h])

variable {P : σ → ε → σ → Prop}

theorem along_of_forall : ∀ (es : List ε) (s : σ), (∀ e ∈ es, ∀ s s', P s e s') → M.Along P s es := by
  intro es
  induction es with
  | nil => exact fun s _ => trivial
  | cons e es ih =>
    intro s h
    rw [Along]
    cases hs : M.step s e with
    | none => trivial
    | some u => exact ⟨h e List.mem_cons_self s u, ih u fun e' he' => h e' (List.mem_cons_of_mem e he')⟩

theorem along_and_labels {C : ε → Prop} :
    ∀ (es : List ε) (s : σ), (∀ e ∈ es, C e) → M.Along P s es → M.Along (fun s e s' => C e ∧ P s e s') s es := by
  intro es
  induction es with
  | nil => exact fun s _ _ => trivial
  | cons e es ih =>
    intro s hC hP
    rw [Along] at hP ⊢
    cases hs : M.step s e with
    | none => trivial
    | some u =>
      rw [hs] at hP
      exact ⟨⟨hC e List.mem_cons_self, hP.1⟩, ih u (fun e' he' => hC e' (List.mem_cons_of_mem e he')) hP.2⟩

/-- **Invariants along runs whose steps satisfy a condition** on both ends and the label. -/
theorem run_inv_along (hstep : ∀ s e s', I s → P s e s' → M.step s e = some s' → I s') :
    ∀ (es : List ε) (s t : σ), I s → M.Along P s es → M.run s es = some t → I t := by
  intro es
  induction es with
  | nil =>
    intro s t hI _ hr
    obtain rfl : s = t := by simpa using hr
    exact hI
  | cons e es ih =>
    intro s t hI hP hr
    obtain ⟨u, hu, hr'⟩ := M.run_cons.mp hr
    rw [Along, hu] at hP
    exact ih u t (hstep s e u hI hP.1 hu) hP.2 hr'

variable {Q : σ → ε → σ → Prop}

/-- A condition on the steps, and an invariant that it keeps, give another condition on them. -/
theorem along_imp (hstep : ∀ s e s', I s → P s e s' → M.step s e = some s' → I s' ∧ Q s e s') :
    ∀ (es : List ε) (s : σ), I s → M.Along P s es → M.Along Q s es := by
  intro es
  induction es with
  | nil => exact fun s _ _ => trivial
  | cons e es ih =>
    intro s hI hP
    rw [Along] at hP ⊢
    cases hs : M.step s e with
    | none => trivial
    | some u =>
      rw [hs] at hP
      obtain ⟨hI', hQ⟩ := hstep s e u hI hP.1 hs
      exact ⟨hQ, ih u hI' hP.2⟩

theorem along_congr
    (hstep : ∀ s e s', I s → M.step s e = some s' → I s') (hiff : ∀ s e s', I s → (P s e s' ↔ Q s e s')) :
    ∀ (es : List ε) (s : σ), I s → (M.Along P s es ↔ M.Along Q s es) := by
  intro es
  induction es with
  | nil => exact fun s _ => Iff.rfl
  | cons e es ih =>
    intro s hI
    rw [Along, Along]
    cases hs : M.step s e with
    | none => exact Iff.rfl
    | some u => exact and_congr (hiff s e u hI) (ih u (hstep s e u hI hs))

variable {C : σ → ε → Prop}

/-- Where a condition on a step decides whether it keeps `I`, for labels of one kind, all states of a
    run with such labels satisfy `I` if and only if its steps meet the condition. -/
theorem along_iff_kept_of_labels {D : ε → Prop}
    (hstep : ∀ s e s', I s → D e → M.step s e = some s' → (I s' ↔ C s e)) :
    ∀ (es : List ε) (s : σ), I s → (∀ e ∈ es, D e) →
      (M.Along (fun _ _ s' => I s') s es ↔ M.Along (fun s e _ => C s e) s es) := by
  intro es
  induction es with
  | nil => exact fun s _ _ => Iff.rfl
  | cons e es ih =>
    intro s hI hD
    rw [Along, Along]
    cases hs : M.step s e with
    | none => exact Iff.rfl
    | some u =>
      have hiff := hstep s e u hI (hD e List.mem_cons_self) hs
      have hrest : ∀ e' ∈ es, D e' := fun e' he' => hD e' (List.mem_cons_of_mem e he')
      exact ⟨fun h => ⟨hiff.mp h.1, (ih u h.1 hrest).mp h.2⟩,
        fun h => ⟨hiff.mpr h.1, (ih u (hiff.mpr h.1) hrest).mpr h.2⟩⟩

/-- Where a condition on a step decides whether it keeps `I`, all states of a run satisfy `I` if and
    only if its steps meet the condition. -/
theorem along_iff_kept
    (hstep : ∀ s e s', I s → M.step s e = some s' → (I s' ↔ C s e)) (es : List ε) (s : σ) (hI : I s) :
    M.Along (fun _ _ s' => I s') s es ↔ M.Along (fun s e _ => C s e) s es :=
  M.along_iff_kept_of_labels (D := fun _ => True) (fun s e s' hI _ hs => hstep s e s' hI hs) es s hI
    fun _ _ => trivial

/-- The same, where the condition decides only under facts `J` that a step keeps as long as it keeps `I`. -/
theorem along_iff_kept_with {J : σ → Prop}
    (hstep : ∀ s e s', J s → I s → M.step s e = some s' → (I s' ↔ C s e) ∧ (I s' → J s'))
    (es : List ε) (s : σ) (hJ : J s) (hI : I s) :
    M.Along (fun _ _ s' => I s') s es ↔ M.Along (fun s e _ => C s e) s es := by
  have hboth : M.Along (fun _ _ s' => J s' ∧ I s') s es ↔ M.Along (fun s e _ => C s e) s es :=
    M.along_iff_kept (fun s e s' hs h =>
      have hspec := hstep s e s' hs.1 hs.2 h
      ⟨fun h' => hspec.1.mp h'.2, fun h' => ⟨hspec.2 (hspec.1.mpr h'), hspec.1.mpr h'⟩⟩) es s ⟨hJ, hI⟩
  rw [← hboth]
  constructor
  · refine M.along_imp (I := fun s => J s ∧ I s) (fun s e s' hs hI' h => ?_) es s ⟨hJ, hI⟩
    have hJ' := (hstep s e s' hs.1 hs.2 h).2 hI'
    exact ⟨⟨hJ', hI'⟩, hJ', hI'⟩
  · exact M.along_imp (I := fun _ => True) (fun _ _ _ _ h' _ => ⟨trivial, h'.2⟩) es s trivial

theorem run_rel {R : σ → σ → Prop} (hrefl : ∀ s, R s s) (htrans : ∀ {s t u}, R s t → R t u → R s u)
    (hstep : ∀ s e s', M.step s e = some s' → R s s')
    (hr : M.run s es = some t) : R s t :=
  M.run_inv (I := fun u => R s u) (fun u e u' h hs => htrans h (hstep u e u' hs)) (hrefl s) hr

end Machine
end CfMonitor.Lib
