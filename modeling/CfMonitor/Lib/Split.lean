/-
  Lists split at separators and joined again.

  * `splitOn_join`   — parts without the separator are found again where they were joined;
  * `splitAtText`    — `split` of a text at a text, from left to right; what stands in front of the
                       first separator comes first (`splitAtText_first`);
  * `doubled_joins`  — between two joins of parts that are not empty, the doubled separator is found.
-/
import Mathlib.Data.List.Basic
import Mathlib.Tactic.Common

namespace CfMonitor.Lib

open List (append_assoc append_nil cons mem_cons mem_cons_self)

-- along the list, also where the type has an instance that goes through all its values
instance (priority := high) decidableForallMem {β : Type*} (P : β → Prop) [DecidablePred P] (l : List β) :
    Decidable (∀ x, x ∈ l → P x) :=
  List.decidableBAll P l

instance (priority := high) decidableExistsMem {β : Type*} (P : β → Prop) [DecidablePred P] (l : List β) :
    Decidable (∃ x, x ∈ l ∧ P x) :=
  List.decidableBEx P l

instance (priority := high) decidableForallSome {β : Type*} (P : β → Prop) [DecidablePred P] (o : Option β) :
    Decidable (∀ x, x ∈ o → P x) :=
  Option.decidableForallMem o

variable {α : Type*} [DecidableEq α]

/-! ## One element -/

/-- The parts with the separator between them. -/
def joinWith (sep : α) (parts : List (List α)) : List α := [sep].intercalate parts

omit [DecidableEq α] in
theorem joinWith_cons (sep : α) (part : List α) {rest : List (List α)} (hne : rest ≠ []) :
    joinWith sep (part :: rest) = part ++ sep :: joinWith sep rest := by
  rw [joinWith, List.intercalate_cons_of_ne_nil hne, append_assoc]
  rfl

omit [DecidableEq α] in
theorem joinWith_singleton (sep : α) (part : List α) : joinWith sep [part] = part := List.intercalate_singleton

variable {sep : α}

/-- **Joined parts** are split again. -/
theorem splitOn_join {parts : List (List α)} (hne : parts ≠ []) (hparts : ∀ part ∈ parts, sep ∉ part) :
    (joinWith sep parts).splitOn sep = parts := List.splitOn_intercalate sep hparts hne

omit [DecidableEq α] in
theorem joinWith_inj {parts parts' : List (List α)} (hne : parts ≠ []) (hne' : parts' ≠ [])
    (hparts : ∀ part ∈ parts, sep ∉ part) (hparts' : ∀ part ∈ parts', sep ∉ part)
    (h : joinWith sep parts = joinWith sep parts') : parts = parts' := by
  classical
  rw [← splitOn_join hne hparts, h, splitOn_join hne' hparts']

omit [DecidableEq α] in
variable {c : α}

theorem mem_joinWith {parts : List (List α)} (h : c ∈ joinWith sep parts) :
    c = sep ∨ ∃ part ∈ parts, c ∈ part := by
  induction parts with
  | nil => simp [joinWith, List.intercalate] at h
  | cons part rest ih =>
    by_cases hrest : rest = []
    · subst hrest
      rw [joinWith_singleton] at h
      exact .inr ⟨part, mem_cons_self, h⟩
    · rw [joinWith_cons sep part hrest] at h
      rcases List.mem_append.mp h with h | h
      · exact .inr ⟨part, mem_cons_self, h⟩
      · rcases mem_cons.mp h with h | h
        · exact .inl h
        · rcases ih h with h | ⟨part', hpart', h⟩
          · exact .inl h
          · exact .inr ⟨part', List.mem_cons_of_mem _ hpart', h⟩

variable {part : List α}

omit [DecidableEq α] in
theorem mem_joinWith_of_part (hc : c ∈ part) : ∀ {parts : List (List α)},
    part ∈ parts → c ∈ joinWith sep parts := by
  intro parts
  induction parts with
  | nil => exact nofun
  | cons first rest ih =>
    intro h
    by_cases hrest : rest = []
    · subst hrest
      rw [joinWith_singleton, ← List.mem_singleton.mp h]
      exact hc
    · rw [joinWith_cons sep first hrest]
      rcases mem_cons.mp h with rfl | h
      · exact List.mem_append_left _ hc
      · exact List.mem_append_right _ (List.mem_cons_of_mem _ (ih h))

/-- What a text is put together from. -/
theorem mem_part_of_mem {text : List α} (hc : c ∈ text) (hsep : c ≠ sep) :
    ∃ part ∈ text.splitOn sep, c ∈ part := by
  rw [← (List.intercalate_splitOn sep : joinWith sep (text.splitOn sep) = text)] at hc
  rcases mem_joinWith hc with h | h
  · exact absurd h hsep
  · exact h

theorem mem_of_mem_part {text : List α} (hpart : part ∈ text.splitOn sep) (hc : c ∈ part) : c ∈ text := by
  rw [← (List.intercalate_splitOn sep : joinWith sep (text.splitOn sep) = text)]
  exact mem_joinWith_of_part hc hpart

omit [DecidableEq α] in
theorem splitOnP_free {p : α → Bool} {text : List α} (h : part ∈ text.splitOnP p) : ∀ c ∈ part, p c = false := by
  induction text generalizing part with
  | nil =>
    rw [List.splitOnP_nil, List.mem_singleton] at h
    subst h
    exact nofun
  | cons d rest ih =>
    rw [List.splitOnP_cons_eq_if_modifyHead] at h
    split_ifs at h with hd
    · rcases mem_cons.mp h with rfl | h
      · exact nofun
      · exact ih h
    · cases hparts : rest.splitOnP p with
      | nil => exact absurd hparts (List.splitOnP_ne_nil p rest)
      | cons first others =>
        rw [hparts, List.modifyHead_cons] at h
        rcases mem_cons.mp h with rfl | h
        · intro c hc
          rcases mem_cons.mp hc with rfl | hc
          · exact Bool.eq_false_iff.mpr hd
          · exact ih (by rw [hparts]; exact mem_cons_self) c hc
        · exact ih (by rw [hparts]; exact List.mem_cons_of_mem _ h)

theorem not_mem_part {text : List α} (h : part ∈ text.splitOn sep) : sep ∉ part := by
  intro hmem
  have hfree := splitOnP_free h sep hmem
  rw [beq_self_eq_true] at hfree
  cases hfree

/-- **Two parts in front** of a text with separators behind them. -/
theorem prefix_iff_splitOn {first second text : List α} (hfirst : sep ∉ first) (hsecond : sep ∉ second) :
    first ++ sep :: (second ++ [sep]) <+: text ↔ ∃ rest, rest ≠ [] ∧ text.splitOn sep = first :: second :: rest := by
  refine ⟨fun ⟨behind, h⟩ => ?_, fun ⟨rest, hne, h⟩ => ?_⟩
  · refine ⟨behind.splitOn sep, List.splitOn_ne_nil sep behind, ?_⟩
    rw [← h, append_assoc, List.cons_append, append_assoc, List.singleton_append,
      List.splitOn_append_cons_self_of_not_mem hfirst, List.splitOn_append_cons_self_of_not_mem hsecond]
  · refine ⟨joinWith sep rest, ?_⟩
    have hjoin : joinWith sep (text.splitOn sep) = text := List.intercalate_splitOn sep
    rw [← hjoin, h, joinWith_cons sep first (List.cons_ne_nil _ _), joinWith_cons sep second hne]
    simp

/-! ## A text -/

/-- `split(separator)`, with what is left to skip of a separator and the part so far, in reverse. -/
def splitAtTextFrom (sep : List α) : Nat → List α → List α → List (List α)
  | _, part, [] => [part.reverse]
  | skip + 1, part, _ :: rest => splitAtTextFrom sep skip part rest
  | 0, part, c :: rest =>
    if sep.isPrefixOf (c :: rest) then part.reverse :: splitAtTextFrom sep (sep.length - 1) [] rest
    else splitAtTextFrom sep 0 (c :: part) rest

/-- `split(separator)`. -/
def splitAtText (sep text : List α) : List (List α) := splitAtTextFrom sep 0 [] text

theorem splitAtTextFrom_append (sep : List α) (after : List α) : ∀ (front part : List α),
    (∀ suffix, suffix ≠ [] → suffix <:+ front → sep.isPrefixOf (suffix ++ after) = false) →
    splitAtTextFrom sep 0 part (front ++ after) = splitAtTextFrom sep 0 (front.reverse ++ part) after := by
  intro front
  induction front with
  | nil => exact fun _ _ => rfl
  | cons c rest ih =>
    intro part h
    have hc := h (c :: rest) (List.cons_ne_nil _ _) List.suffix_rfl
    rw [List.cons_append, splitAtTextFrom]
    rw [List.cons_append] at hc
    rw [hc, if_neg Bool.false_ne_true, ih (c :: part) fun suffix hne hsuffix =>
      h suffix hne (hsuffix.trans (List.suffix_cons c rest))]
    simp

/-- **The first part** of a text, up to its first separator. -/
theorem splitAtText_first {d : α} {sep front : List α} (after : List α)
    (h : ∀ suffix, suffix ≠ [] → suffix <:+ front → (d :: sep).isPrefixOf (suffix ++ (d :: sep) ++ after) = false) :
    splitAtText (d :: sep) (front ++ (d :: sep) ++ after) = front :: splitAtTextFrom (d :: sep) sep.length [] (sep ++ after) := by
  rw [splitAtText, append_assoc, splitAtTextFrom_append _ _ _ _ fun suffix hne hsuffix => by
    rw [← append_assoc]
    exact h suffix hne hsuffix]
  have hprefix : (d :: sep).isPrefixOf (d :: (sep ++ after)) = true :=
    List.isPrefixOf_iff_prefix.mpr ⟨after, rfl⟩
  rw [append_nil, List.cons_append, splitAtTextFrom, if_pos hprefix, List.reverse_reverse]
  rfl

theorem splitAtTextFrom_skip (sep : List α) (part after : List α) : ∀ skipped : List α,
    splitAtTextFrom sep skipped.length part (skipped ++ after) = splitAtTextFrom sep 0 part after := by
  intro skipped
  induction skipped with
  | nil => rfl
  | cons c rest ih => rw [List.cons_append, List.length_cons, splitAtTextFrom, ih]

/-- Without a separator there is one part. -/
theorem splitAtText_single {sep text : List α}
    (h : ∀ suffix, suffix ≠ [] → suffix <:+ text → sep.isPrefixOf suffix = false) : splitAtText sep text = [text] := by
  have hwhole := splitAtTextFrom_append sep [] text [] fun suffix hne hsuffix => by
    rw [append_nil]
    exact h suffix hne hsuffix
  rw [append_nil, append_nil] at hwhole
  rw [splitAtText, hwhole, splitAtTextFrom, List.reverse_reverse]

/-! ## A doubled separator -/

/-- Parts that are not empty and have no separator. -/
def Plain (sep : α) (parts : List (List α)) : Prop := ∀ part ∈ parts, part ≠ [] ∧ sep ∉ part

omit [DecidableEq α] in
theorem Plain.tail {parts : List (List α)} (h : Plain sep (part :: parts)) :
    Plain sep parts := fun part' h' => h part' (List.mem_cons_of_mem _ h')

omit [DecidableEq α] in
theorem Plain.join_begins {parts : List (List α)} (h : Plain sep parts) (hne : parts ≠ []) :
    ∃ d more, joinWith sep parts = d :: more ∧ d ≠ sep := by
  obtain ⟨next, rest, rfl⟩ := List.exists_cons_of_ne_nil hne
  obtain ⟨hnext, hsep⟩ := h next mem_cons_self
  obtain ⟨d, digits, rfl⟩ := List.exists_cons_of_ne_nil hnext
  have hd : d ≠ sep := fun hd => hsep (hd ▸ mem_cons_self)
  by_cases hrest : rest = []
  · subst hrest
    exact ⟨d, digits, joinWith_singleton sep _, hd⟩
  · exact ⟨d, digits ++ sep :: joinWith sep rest, joinWith_cons sep _ hrest, hd⟩

omit [DecidableEq α] in
/-- Behind a separator inside such a join, another part begins. -/
theorem Plain.suffix {parts : List (List α)} (h : Plain sep parts) : ∀ {suffix : List α} {c : α},
    c :: suffix <:+ joinWith sep parts → c = sep → ∃ d more, suffix = d :: more ∧ d ≠ sep := by
  induction parts with
  | nil => exact fun hs => absurd (List.suffix_nil.mp hs) (List.cons_ne_nil _ _)
  | cons part rest ih =>
    intro suffix c hs hc
    obtain ⟨-, hpart⟩ := h part mem_cons_self
    by_cases hrest : rest = []
    · subst hrest
      rw [joinWith_singleton] at hs
      exact absurd (hs.subset mem_cons_self) (hc ▸ hpart)
    · rw [joinWith_cons sep part hrest] at hs
      rcases List.suffix_or_suffix_of_suffix hs (List.suffix_append part _) with hs | ⟨front, heq⟩
      · rcases List.suffix_cons_iff.mp hs with heq | hs
        · rw [(cons.inj heq).2]
          exact h.tail.join_begins hrest
        · exact ih h.tail hs hc
      · cases front with
        | nil =>
          rw [← (cons.inj heq).2]
          exact h.tail.join_begins hrest
        | cons d front =>
          obtain ⟨rfl, -⟩ := cons.inj heq
          have hfront : d :: front <:+ part := by
            rw [← heq] at hs
            exact (List.suffix_append_self_iff).mp hs
          exact absurd (hfront.subset mem_cons_self) (hc ▸ hpart)

theorem Plain.not_doubled {parts : List (List α)} (h : Plain sep parts) (after : List α) {suffix : List α}
    (hne : suffix ≠ []) (hs : suffix <:+ joinWith sep parts) : [sep, sep].isPrefixOf (suffix ++ after) = false := by
  obtain ⟨c, rest, rfl⟩ := List.exists_cons_of_ne_nil hne
  refine Bool.eq_false_iff.mpr fun hprefix => ?_
  obtain ⟨behind, heq⟩ := List.isPrefixOf_iff_prefix.mp hprefix
  obtain ⟨hc, heq⟩ := cons.inj heq
  obtain ⟨d, more, rfl, hd⟩ := h.suffix hs hc.symm
  exact hd (cons.inj heq).1.symm

/-- **Two joins** are found again around the doubled separator. -/
theorem doubled_joins {front back : List (List α)} (hfront : Plain sep front) (hback : Plain sep back) :
    splitAtText [sep, sep] (joinWith sep front ++ [sep, sep] ++ joinWith sep back) =
      [joinWith sep front, joinWith sep back] := by
  rw [splitAtText_first _ fun suffix hne hs => by
    rw [append_assoc]
    exact hfront.not_doubled _ hne hs]
  have hskip := splitAtTextFrom_skip [sep, sep] [] (joinWith sep back) [sep]
  rw [List.length_singleton] at hskip ⊢
  rw [hskip]
  refine congrArg (joinWith sep front :: ·) (splitAtText_single fun suffix hne hs => ?_)
  have hnot := hback.not_doubled [] hne hs
  rwa [append_nil] at hnot

theorem single_join {parts : List (List α)} (h : Plain sep parts) :
    splitAtText [sep, sep] (joinWith sep parts) = [joinWith sep parts] := by
  refine splitAtText_single fun suffix hne hs => ?_
  have hnot := h.not_doubled [] hne hs
  rwa [append_nil] at hnot

/-- `split(sep).filter(Boolean)` gives the parts back, also where there are none. -/
theorem Plain.filter_splitOn {parts : List (List α)} (h : Plain sep parts) :
    ((joinWith sep parts).splitOn sep).filter (fun part => !part.isEmpty) = parts := by
  by_cases hne : parts = []
  · subst hne
    rfl
  · rw [splitOn_join hne fun part hpart => (h part hpart).2]
    refine List.filter_eq_self.mpr fun part hpart => ?_
    rw [List.isEmpty_eq_false_iff.mpr (h part hpart).1]
    rfl

end CfMonitor.Lib
