/-
  Placeholders `\x7b\x7bname\x7d\x7d` in a text.

  A text is rendered in one pass from left to right: what a placeholder gives is not looked at again.

  * `render_marker`    — a placeholder at the front gives way;
  * `render_char`      — any other character stays;
  * `render_untouched` — a text without a placeholder stays;
  * `render_split`     — the parts around a character of no placeholder are rendered apart;
  * `render_flatMap`   — what is written for other characters neither makes nor breaks a placeholder.
-/
import Mathlib.Data.List.Find
import Mathlib.Tactic.Common

namespace CfMonitor.Lib.Template

/-- A placeholder as it is written. -/
def marker (name : String) : List Char := '\x7b' :: '\x7b' :: (name.toList ++ ['\x7d', '\x7d'])

section

variable (names : List String)

/-- The placeholder at the front of a text. -/
def front (text : List Char) : Option String := names.find? fun name => decide (marker name <+: text)

variable (value : String → List Char)

/-- Some characters at the front belong to a placeholder that is done. -/
def renderFrom : Nat → List Char → List Char
  | _, [] => []
  | skip + 1, _ :: rest => renderFrom skip rest
  | 0, c :: rest =>
    match front names (c :: rest) with
    | some name => value name ++ renderFrom ((marker name).length - 1) rest
    | none => c :: renderFrom 0 rest

/-- The text with every placeholder replaced by its value. -/
def render (text : List Char) : List Char := renderFrom names value 0 text

/-- No placeholder stands in a text. -/
def hasNone (text : List Char) : Bool := text.tails.all fun tail => (front names tail).isNone

end

variable {names : List String} {value : String → List Char}

theorem renderFrom_skip (skip : Nat) (text : List Char) : renderFrom names value skip text = render names value (text.drop skip) := by
  induction skip generalizing text with
  | zero => rfl
  | succ skip ih =>
    cases text with
    | nil => rfl
    | cons c rest => exact ih rest

variable {name : String}

theorem marker_prefix {text : List Char} (h : front names text = some name) :
    name ∈ names ∧ ∃ rest, text = marker name ++ rest := by
  refine ⟨List.mem_of_find?_eq_some h, ?_⟩
  have hfound := List.find?_some (p := fun name => decide (marker name <+: text)) h
  obtain ⟨rest, hrest⟩ := of_decide_eq_true hfound
  exact ⟨rest, hrest.symm⟩

variable {rest : List Char}

/-- **A placeholder at the front gives way.** -/
theorem render_marker (h : front names (marker name ++ rest) = some name) :
    render names value (marker name ++ rest) = value name ++ render names value rest := by
  have hmarker : marker name = '\x7b' :: (marker name).drop 1 := rfl
  have hdrop : ((marker name).drop 1 ++ rest).drop ((marker name).length - 1) = rest := by
    rw [List.drop_left' (by rw [List.length_drop])]
  rw [hmarker, List.cons_append] at h ⊢
  rw [render, renderFrom, h]
  simp only
  rw [renderFrom_skip, hdrop]

variable {c : Char}

/-- **Any other character stays.** -/
theorem render_char (h : front names (c :: rest) = none) :
    render names value (c :: rest) = c :: render names value rest := by
  rw [render, renderFrom, h]
  rfl

theorem front_eq_none {text : List Char} (h : ¬ ['\x7b', '\x7b'] <+: text) : front names text = none := by
  rw [front, List.find?_eq_none]
  intro name _ hmarker
  refine h (List.IsPrefix.trans ?_ (of_decide_eq_true hmarker))
  exact ⟨name.toList ++ ['\x7d', '\x7d'], rfl⟩

theorem front_plain (h : c ≠ '\x7b') (rest : List Char) : front names (c :: rest) = none := by
  refine front_eq_none fun hprefix => ?_
  exact h (List.cons_prefix_cons.mp hprefix).1.symm

theorem front_brace (h : c ≠ '\x7b') (rest : List Char) : front names ('\x7b' :: c :: rest) = none := by
  refine front_eq_none fun hprefix => ?_
  exact h (List.cons_prefix_cons.mp (List.cons_prefix_cons.mp hprefix).2).1.symm

/-- Names without a closing brace are told apart by the front of a text. -/
theorem marker_unique {name' : String} (hname : '\x7d' ∉ name.toList) (hname' : '\x7d' ∉ name'.toList)
    {rest' : List Char} (h : marker name ++ rest = marker name' ++ rest') : name = name' := by
  have htail : name.toList ++ ('\x7d' :: '\x7d' :: rest) = name'.toList ++ ('\x7d' :: '\x7d' :: rest') := by
    have := congrArg (List.drop 2) h
    simpa [marker] using this
  have htake : ∀ {text rest : List Char}, '\x7d' ∉ text →
      (text ++ '\x7d' :: rest).takeWhile (· != '\x7d') = text := by
    intro text rest htext
    rw [List.takeWhile_append_of_pos]
    · simp
    · intro c hc
      rw [bne_iff_ne]
      rintro rfl
      exact htext hc
  have hsame := congrArg (List.takeWhile (· != '\x7d')) htail
  rw [htake hname, htake hname'] at hsame
  exact String.toList_inj.mp hsame

theorem front_marker (hnames : ∀ name ∈ names, '\x7d' ∉ name.toList) (h : name ∈ names) (rest : List Char) :
    front names (marker name ++ rest) = some name := by
  have hsome : (front names (marker name ++ rest)).isSome = true := by
    rw [front, List.find?_isSome]
    exact ⟨name, h, decide_eq_true (List.prefix_append _ _)⟩
  obtain ⟨name', hname'⟩ := Option.isSome_iff_exists.mp hsome
  obtain ⟨hmem, rest', hrest⟩ := marker_prefix hname'
  rw [hname', marker_unique (hnames name h) (hnames name' hmem) hrest]

/-- **A text without a placeholder stays.** -/
theorem render_untouched {text : List Char} (h : hasNone names text = true) : render names value text = text := by
  induction text with
  | nil => rfl
  | cons c rest ih =>
    have htails : (front names (c :: rest)).isNone = true ∧ hasNone names rest = true := by
      simpa only [hasNone, List.tails, List.all_cons, Bool.and_eq_true] using h
    rw [render_char (Option.isNone_iff_eq_none.mp htails.1), ih htails.2]

theorem render_plain {word : List Char} (h : '\x7b' ∉ word) (rest : List Char) :
    render names value (word ++ rest) = word ++ render names value rest := by
  induction word with
  | nil => rfl
  | cons c word ih =>
    rw [List.cons_append, render_char (front_plain (fun hc => h (by rw [hc]; exact List.mem_cons_self)) _),
      ih fun hc => h (List.mem_cons_of_mem _ hc)]
    rfl

theorem mem_render {text : List Char} (h : c ∈ render names value text) :
    c ∈ text ∨ ∃ name ∈ names, c ∈ value name := by
  induction hlength : text.length using Nat.strongRecOn generalizing text with
  | ind n ih =>
    subst hlength
    cases hfront : front names text with
    | some name =>
      obtain ⟨hname, rest, rfl⟩ := marker_prefix hfront
      rw [render_marker hfront] at h
      have hshort : rest.length < (marker name ++ rest).length := by
        rw [List.length_append]
        exact Nat.lt_add_of_pos_left (Nat.succ_pos _)
      rcases List.mem_append.mp h with h | h
      · exact .inr ⟨name, hname, h⟩
      · exact (ih _ hshort h rfl).imp_left fun hc => List.mem_append_right _ hc
    | none =>
      cases text with
      | nil => cases h
      | cons d rest =>
        rw [render_char hfront] at h
        rcases List.mem_cons.mp h with rfl | h
        · exact .inl List.mem_cons_self
        · exact (ih _ (by simp) h rfl).imp_left fun hc => List.mem_cons_of_mem _ hc

/-! ## Parts of a text -/

/-- A word without a character stands in front of it or not at all. -/
theorem isPrefix_split {word front behind : List Char} (h : c ∉ word) :
    word <+: front ++ c :: behind ↔ word <+: front := by
  refine ⟨fun hword => ?_, fun hword => hword.trans (List.prefix_append _ _)⟩
  rcases List.prefix_or_prefix_of_prefix hword (List.prefix_append front (c :: behind)) with hshort | hlong
  · exact hshort
  · obtain ⟨more, rfl⟩ := hlong
    cases more with
    | nil => simp
    | cons d more =>
      have hcons := (List.prefix_append_right_inj front).mp hword
      rw [List.cons_prefix_cons] at hcons
      exact absurd (by rw [hcons.1]; simp) h

theorem front_split (h : ∀ name ∈ names, c ∉ marker name) (a behind : List Char) :
    front names (a ++ c :: behind) = front names a := by
  rw [front, front]
  refine List.find?_congr fun name hname => ?_
  rw [decide_eq_decide]
  exact isPrefix_split (h name hname)

/-- **The parts around a character of no placeholder are rendered apart.** -/
theorem render_split (h : ∀ name ∈ names, c ∉ marker name) (a behind : List Char) :
    render names value (a ++ c :: behind) = render names value a ++ c :: render names value behind := by
  induction hlength : a.length using Nat.strongRecOn generalizing a with
  | ind n ih =>
    subst hlength
    cases hfront : front names a with
    | some name =>
      obtain ⟨-, rest, rfl⟩ := marker_prefix hfront
      have hwhole := front_split h (marker name ++ rest) behind
      rw [hfront, List.append_assoc] at hwhole
      have hshort : rest.length < (marker name ++ rest).length := by
        rw [List.length_append]
        exact Nat.lt_add_of_pos_left (Nat.succ_pos _)
      rw [List.append_assoc, render_marker hwhole, render_marker hfront, ih _ hshort rest rfl, List.append_assoc]
    | none =>
      have hwhole := front_split h a behind
      rw [hfront] at hwhole
      cases a with
      | nil =>
        rw [List.nil_append, render_char hwhole]
        rfl
      | cons d rest =>
        rw [List.cons_append] at hwhole ⊢
        rw [render_char hwhole, render_char hfront, ih _ (by simp) rest rfl, List.cons_append]

/-! ## Characters written otherwise -/

section

variable {f : Char → List Char} {kept : Char → Bool}

/-- A way to write characters: those that are kept stand for themselves, others are written without them. -/
structure Writes (f : Char → List Char) (kept : Char → Bool) : Prop where
  same : ∀ c, kept c = true → f c = [c]
  other : ∀ c, kept c = false → f c ≠ [] ∧ ∀ d ∈ f c, kept d = false

theorem isPrefix_flatMap (hf : Writes f kept) {word : List Char} (hword : ∀ c ∈ word, kept c = true) (text : List Char) :
    word <+: text.flatMap f ↔ word <+: text := by
  induction word generalizing text with
  | nil => simp
  | cons c word ih =>
    cases text with
    | nil => simp
    | cons d rest =>
      rw [List.flatMap_cons]
      cases hd : kept d with
      | true =>
        rw [hf.same d hd, List.singleton_append, List.cons_prefix_cons, List.cons_prefix_cons,
          ih (fun e he => hword e (List.mem_cons_of_mem _ he)) rest]
      | false =>
        obtain ⟨hne, hother⟩ := hf.other d hd
        obtain ⟨e, more, he⟩ := List.exists_cons_of_ne_nil hne
        have hc := hword c List.mem_cons_self
        have hleft : c ≠ e := by
          rintro rfl
          rw [hother c (by rw [he]; exact List.mem_cons_self)] at hc
          cases hc
        have hright : c ≠ d := by
          rintro rfl
          rw [hd] at hc
          cases hc
        rw [he, List.cons_append, List.cons_prefix_cons, List.cons_prefix_cons]
        exact ⟨fun hboth => absurd hboth.1 hleft, fun hboth => absurd hboth.1 hright⟩

theorem front_flatMap (hf : Writes f kept) (hkept : ∀ name ∈ names, ∀ c ∈ marker name, kept c = true) (text : List Char) :
    front names (text.flatMap f) = front names text := by
  rw [front, front]
  refine List.find?_congr fun name hname => ?_
  rw [decide_eq_decide]
  exact isPrefix_flatMap hf (hkept name hname) text

theorem flatMap_kept (hf : Writes f kept) {word : List Char} (h : ∀ c ∈ word, kept c = true) : word.flatMap f = word := by
  induction word with
  | nil => rfl
  | cons c word ih =>
    rw [List.flatMap_cons, hf.same c (h c List.mem_cons_self), ih fun d hd => h d (List.mem_cons_of_mem _ hd)]
    rfl

/-- **Writing the other characters otherwise** and rendering can change places. -/
theorem render_flatMap (hf : Writes f kept) (hkept : ∀ name ∈ names, ∀ c ∈ marker name, kept c = true)
    (hbrace : kept '\x7b' = true) (htwice : ∀ c, (f c).flatMap f = f c) (text : List Char) :
    (render names value (text.flatMap f)).flatMap f = (render names value text).flatMap f := by
  induction hlength : text.length using Nat.strongRecOn generalizing text with
  | ind n ih =>
    subst hlength
    have hsame := front_flatMap hf hkept text
    cases hfront : front names text with
    | some name =>
      obtain ⟨hname, rest, rfl⟩ := marker_prefix hfront
      rw [hfront, List.flatMap_append, flatMap_kept hf (hkept name hname)] at hsame
      have hshort : rest.length < (marker name ++ rest).length := by
        rw [List.length_append]
        exact Nat.lt_add_of_pos_left (Nat.succ_pos _)
      rw [List.flatMap_append, flatMap_kept hf (hkept name hname), render_marker hsame, render_marker hfront,
        List.flatMap_append, List.flatMap_append, ih _ hshort rest rfl]
    | none =>
      rw [hfront] at hsame
      cases text with
      | nil => rfl
      | cons c rest =>
        rw [render_char hfront, List.flatMap_cons, List.flatMap_cons] at *
        have hrest := ih _ (by simp) rest rfl
        cases hc : kept c with
        | true =>
          rw [hf.same c hc, List.singleton_append] at hsame ⊢
          rw [render_char hsame, List.flatMap_cons, hf.same c hc, hrest]
        | false =>
          have hplain : '\x7b' ∉ f c := by
            intro hmem
            rw [(hf.other c hc).2 _ hmem] at hbrace
            cases hbrace
          rw [render_plain hplain, List.flatMap_append, htwice, hrest]

theorem render_length (hshort : ∀ name ∈ names, ((value name).flatMap f).length < ((marker name).flatMap f).length)
    (text : List Char) :
    ((render names value text).flatMap f).length ≤ (text.flatMap f).length ∧
      (hasNone names text = false → ((render names value text).flatMap f).length < (text.flatMap f).length) := by
  induction hlength : text.length using Nat.strongRecOn generalizing text with
  | ind n ih =>
    subst hlength
    cases hfront : front names text with
    | some name =>
      obtain ⟨hname, rest, rfl⟩ := marker_prefix hfront
      have hmore : rest.length < (marker name ++ rest).length := by
        rw [List.length_append]
        exact Nat.lt_add_of_pos_left (Nat.succ_pos _)
      have hrest := (ih _ hmore rest rfl).1
      have hname := hshort name hname
      rw [render_marker hfront]
      simp only [List.flatMap_append, List.length_append]
      exact ⟨by omega, fun _ => by omega⟩
    | none =>
      cases text with
      | nil => exact ⟨Nat.le_refl _, fun h => absurd h (by simp [hasNone, front, marker])⟩
      | cons c rest =>
        obtain ⟨hle, hlt⟩ := ih _ (by simp) rest rfl
        rw [render_char hfront]
        simp only [List.flatMap_cons, List.length_append]
        refine ⟨by omega, fun h => ?_⟩
        have hnone : hasNone names rest = false := by
          rw [← h]
          simp only [hasNone, List.tails, List.all_cons, hfront, Option.isNone_none, Bool.true_and]
        have := hlt hnone
        omega

end

end CfMonitor.Lib.Template
