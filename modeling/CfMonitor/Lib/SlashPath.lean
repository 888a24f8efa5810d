/-
  Paths with slashes, as texts.

  1. **Operations** — `clean` drops empty parts and dots and takes a part back at `..`; `dir`, `joinPath`
     and `rel` use it.

  2. **Absolute paths** are cleaned to plain parts with a slash in front of each, and these are read back
     (`cleanParts_clean`); `dir` drops the last (`dir_render`).

  3. **Below** — a path begins with the parts of another (`below_join`, `rel_below`).
-/
import CfMonitor.Lib.Split
import Mathlib.Data.List.Induction
import Mathlib.Data.List.Infix

namespace CfMonitor.Lib.SlashPath

/-! ## Operations -/

def isAbs (path : List Char) : Bool := ['/'].isPrefixOf path

def dotDot : List Char := ['.', '.']

/-- What stands between the slashes, without empty parts and dots. -/
def parts (path : List Char) : List (List Char) := (path.splitOn '/').filter fun part => part ≠ [] ∧ part ≠ ['.']

/-- One more part: `..` takes the last one back, and stays at the start of a path that is not absolute. -/
def takePart (rooted : Bool) (out : List (List Char)) (part : List Char) : List (List Char) :=
  if part = dotDot then
    if out ≠ [] ∧ out.getLast? ≠ some dotDot then out.dropLast else if rooted then out else out ++ [part]
  else out ++ [part]

def cleanParts (path : List Char) : List (List Char) := (parts path).foldl (takePart (isAbs path)) []

def slashed (parts : List (List Char)) : List Char := parts.flatMap fun part => '/' :: part

def render (rooted : Bool) (parts : List (List Char)) : List Char :=
  if rooted then if parts = [] then ['/'] else slashed parts
  else if parts = [] then ['.'] else (slashed parts).tail

def clean (path : List Char) : List Char := render (isAbs path) (cleanParts path)

/-- The directory of a path: up to its last slash. -/
def dir (path : List Char) : List Char := clean (path.reverse.dropWhile (· != '/')).reverse

def joinPath (path more : List Char) : List Char :=
  if path ≠ [] then clean (path ++ '/' :: more) else if more ≠ [] then clean more else []

/-- What is left of two lists behind a common front. -/
def apart : List (List Char) → List (List Char) → List (List Char) × List (List Char)
  | p :: ps, q :: qs => if p = q then apart ps qs else (p :: ps, q :: qs)
  | ps, qs => (ps, qs)

/-- The way from one absolute path to another. -/
def rel (base target : List Char) : Option (List Char) :=
  if isAbs base ≠ isAbs target then none
  else match apart (cleanParts base) (cleanParts target) with
    | ([], []) => some ['.']
    | ([], rest) => some (slashed rest).tail
    | (up :: ups, rest) => if up = dotDot then none else some (slashed (List.replicate (ups.length + 1) dotDot ++ rest)).tail

/-! ## Absolute paths -/

/-- A part of a clean absolute path. -/
def IsPart (part : List Char) : Prop := part ≠ [] ∧ '/' ∉ part ∧ part ≠ ['.'] ∧ part ≠ dotDot

theorem parts_append (path more : List Char) : parts (path ++ '/' :: more) = parts path ++ parts more := by
  rw [parts, List.splitOn_append_cons_self, List.filter_append]
  rfl

theorem IsPart.parts {part : List Char} (h : IsPart part) : parts part = [part] := by
  rw [SlashPath.parts, List.splitOn_eq_singleton h.2.1]
  exact List.filter_eq_self.mpr fun p hp => by
    rw [List.mem_singleton.mp hp]
    exact decide_eq_true ⟨h.1, h.2.2.1⟩

variable {ps qs : List (List Char)}

theorem parts_slashed (h : ∀ part ∈ ps, IsPart part) : parts (slashed ps) = ps := by
  induction ps using List.reverseRecOn with
  | nil => rfl
  | append_singleton ps p ih =>
    obtain ⟨hfront, hlast⟩ := List.forall_mem_append.mp h
    rw [slashed, List.flatMap_append, List.flatMap_singleton, parts_append, (hlast p List.mem_cons_self).parts]
    exact congrArg (· ++ [p]) (ih hfront)

theorem foldl_takePart {rooted : Bool} (h : dotDot ∉ qs) (out : List (List Char)) : qs.foldl (takePart rooted) out = out ++ qs := by
  induction qs generalizing out with
  | nil => exact (List.append_nil out).symm
  | cons q qs ih =>
    rw [List.mem_cons, not_or] at h
    rw [List.foldl_cons, takePart, if_neg (Ne.symm h.1), ih h.2, List.append_assoc]
    rfl

theorem cleanParts_isPart {path : List Char} (habs : isAbs path = true) : ∀ part ∈ cleanParts path, IsPart part := by
  have hparts : ∀ part ∈ parts path, part ≠ [] ∧ '/' ∉ part ∧ part ≠ ['.'] := by
    intro part hpart
    obtain ⟨hmem, hkept⟩ := List.mem_filter.mp hpart
    have hkept := of_decide_eq_true hkept
    exact ⟨hkept.1, not_mem_part hmem, hkept.2⟩
  have hfold : ∀ out : List (List Char), (∀ part ∈ out, IsPart part) →
      ∀ part ∈ (parts path).foldl (takePart true) out, IsPart part := by
    generalize parts path = list at hparts
    induction list with
    | nil => exact fun out hout => hout
    | cons q list ih =>
      obtain ⟨hq, hrest⟩ := List.forall_mem_cons.mp hparts
      intro out hout
      refine ih hrest _ fun part hpart => ?_
      rw [takePart] at hpart
      split_ifs at hpart with hdots hback hrooted
      · exact hout part (List.dropLast_subset out hpart)
      · exact hout part hpart
      · exact absurd rfl hrooted
      · rcases List.mem_append.mp hpart with hpart | hpart
        · exact hout part hpart
        · rw [List.mem_singleton.mp hpart]
          exact ⟨hq.1, hq.2.1, hq.2.2, hdots⟩
  rw [cleanParts, habs]
  exact hfold [] nofun

theorem isAbs_render (h : ∀ part ∈ ps, IsPart part) : isAbs (render true ps) = true := by
  cases ps with
  | nil => rfl
  | cons p ps => rfl

theorem isAbs_append {path : List Char} (h : isAbs path = true) (more : List Char) : isAbs (path ++ more) = true :=
  List.isPrefixOf_iff_prefix.mpr ((List.isPrefixOf_iff_prefix.mp h).trans (List.prefix_append path more))

theorem cleanParts_render (h : ∀ part ∈ ps, IsPart part) : cleanParts (render true ps) = ps := by
  have hparts : parts (render true ps) = ps := by
    by_cases hnil : ps = []
    · subst hnil
      rfl
    · rw [render, if_pos rfl, if_neg hnil, parts_slashed h]
  rw [cleanParts, hparts, foldl_takePart fun hmem => (h _ hmem).2.2.2 rfl]
  rfl

theorem clean_of_isAbs {path : List Char} (habs : isAbs path = true) : clean path = render true (cleanParts path) := by
  rw [clean, habs]

/-- **What is clean stays.** -/
theorem cleanParts_clean {path : List Char} (habs : isAbs path = true) :
    isAbs (clean path) = true ∧ cleanParts (clean path) = cleanParts path := by
  rw [clean_of_isAbs habs]
  exact ⟨isAbs_render (cleanParts_isPart habs), cleanParts_render (cleanParts_isPart habs)⟩

/-- **The directory** of a clean path has all parts but the last. -/
theorem dir_render {p : List Char} (h : ∀ part ∈ ps ++ [p], IsPart part) : dir (render true (ps ++ [p])) = render true ps := by
  obtain ⟨hps, hp⟩ := List.forall_mem_append.mp h
  have hslash : '/' ∉ p := (hp p List.mem_cons_self).2.1
  have hrender : render true (ps ++ [p]) = slashed ps ++ '/' :: p := by
    rw [render, if_pos rfl, if_neg (by simp), slashed, List.flatMap_append, List.flatMap_singleton]
    rfl
  have hcut : ((slashed ps ++ '/' :: p).reverse.dropWhile (· != '/')).reverse = slashed ps ++ ['/'] := by
    have hall : ∀ c ∈ p.reverse, (c != '/') = true := fun c hc =>
      bne_iff_ne.mpr fun heq => hslash (heq ▸ List.mem_reverse.mp hc)
    rw [List.reverse_append, List.reverse_cons, List.append_assoc, List.dropWhile_append_of_pos hall, List.singleton_append,
      List.dropWhile_cons_of_neg (by decide), List.reverse_cons, List.reverse_reverse]
  have habs : isAbs (slashed ps ++ ['/']) = true := by
    cases ps with
    | nil => rfl
    | cons q qs => rfl
  have hparts : parts (slashed ps ++ ['/']) = ps := by
    rw [parts_append, parts_slashed hps]
    exact List.append_nil ps
  rw [dir, hrender, hcut, clean_of_isAbs habs, cleanParts, hparts, foldl_takePart fun hmem => (hps _ hmem).2.2.2 rfl]
  rfl

theorem slashed_splitOn (text : List Char) : slashed (text.splitOn '/') = '/' :: text := by
  have hjoin : ∀ ps : List (List Char), ps ≠ [] → slashed ps = '/' :: joinWith '/' ps := by
    intro ps
    induction ps with
    | nil => exact fun hne => absurd rfl hne
    | cons p ps ih =>
      intro _
      by_cases hnil : ps = []
      · subst hnil
        rw [joinWith_singleton]
        exact List.flatMap_singleton _ p
      · rw [joinWith_cons _ _ hnil, ← ih hnil]
        rfl
  rw [hjoin _ (List.splitOn_ne_nil _ _)]
  exact congrArg ('/' :: ·) (List.intercalate_splitOn '/')

/-! ## Below -/

/-- A path is another one or below it. -/
def Below (root path : List Char) : Prop := cleanParts root <+: cleanParts path

/-- **What is joined** without `..` is below. -/
theorem below_join {root more : List Char} (habs : isAbs root = true) (hmore : dotDot ∉ more.splitOn '/') :
    isAbs (joinPath root more) = true ∧ Below root (joinPath root more) := by
  have hne : root ≠ [] := by
    rintro rfl
    cases habs
  have hjoined := isAbs_append habs ('/' :: more)
  obtain ⟨hclean, hparts⟩ := cleanParts_clean hjoined
  rw [joinPath, if_pos hne]
  refine ⟨hclean, parts more, ?_⟩
  rw [hparts, cleanParts, cleanParts, hjoined, habs, parts_append, List.foldl_append]
  exact (foldl_takePart (fun hmem => hmore (List.mem_filter.mp hmem).1) _).symm

theorem isAbs_joinPath {path : List Char} (habs : isAbs path = true) (more : List Char) : isAbs (joinPath path more) = true := by
  have hne : path ≠ [] := by
    rintro rfl
    cases habs
  rw [joinPath, if_pos hne]
  exact (cleanParts_clean (isAbs_append habs _)).1

theorem apart_spec : ∀ ps qs : List (List Char), ∃ front, ps = front ++ (apart ps qs).1 ∧ qs = front ++ (apart ps qs).2
  | [], _ => ⟨[], rfl, rfl⟩
  | _ :: _, [] => ⟨[], rfl, rfl⟩
  | p :: ps, q :: qs => by
    rw [apart]
    split_ifs with h
    · subst h
      obtain ⟨front, hps, hqs⟩ := apart_spec ps qs
      exact ⟨p :: front, congrArg (p :: ·) hps, congrArg (p :: ·) hqs⟩
    · exact ⟨[], rfl, rfl⟩

theorem apart_append : ∀ ps rest : List (List Char), apart ps (ps ++ rest) = ([], rest)
  | [], _ => rfl
  | p :: ps, rest => by rw [List.cons_append, apart, if_pos rfl, apart_append ps rest]

/-- It leads up. -/
def Upward (way : List Char) : Prop := way = dotDot ∨ dotDot ++ ['/'] <+: way

/-- **The way to a path below** neither leads up nor is absolute. -/
theorem rel_below {root path : List Char} (hroot : isAbs root = true) (hpath : isAbs path = true) (h : Below root path) :
    ∃ way, rel root path = some way ∧ ¬ Upward way ∧ isAbs way = false := by
  obtain ⟨rest, hrest⟩ := h
  have hpart := cleanParts_isPart hpath
  rw [rel, if_neg (by rw [hroot, hpath]; exact fun hne => hne rfl), ← hrest, apart_append]
  rw [← hrest] at hpart
  cases rest with
  | nil => exact ⟨_, rfl, by unfold Upward; decide, rfl⟩
  | cons p rest =>
    obtain ⟨hne, hslash, -, hdots⟩ := hpart p (List.mem_append_right _ List.mem_cons_self)
    refine ⟨p ++ slashed rest, rfl, ?_, ?_⟩
    · rintro (heq | ⟨behind, heq⟩)
      · -- a part without slashes in front of nothing or of a slash
        cases rest with
        | nil => exact hdots ((List.append_nil p).symm.trans heq)
        | cons q qs =>
          have hmem : '/' ∈ dotDot := heq ▸ List.mem_append_right p List.mem_cons_self
          exact absurd hmem (by decide)
      · have hfirst := congrArg (fun text : List Char => (text.takeWhile (· != '/'))) heq
        have hp : ∀ c ∈ p, (c != '/') = true := fun c hc => bne_iff_ne.mpr fun hc' => hslash (hc' ▸ hc)
        have hstop : (slashed rest).takeWhile (· != '/') = [] := by
          cases rest <;> rfl
        rw [List.takeWhile_append_of_pos hp, hstop, List.append_nil] at hfirst
        exact hdots hfirst.symm
    · obtain ⟨c, p, rfl⟩ := List.exists_cons_of_ne_nil hne
      have hc : '/' ≠ c := fun hc => hslash (hc ▸ List.mem_cons_self)
      show (('/' == c) && true) = false
      rw [beq_eq_false_iff_ne.mpr hc]
      rfl

/-- **The way to any other path** leads up. -/
theorem rel_not_below {root path : List Char} (hroot : isAbs root = true) (hpath : isAbs path = true) (h : ¬ Below root path) :
    ∃ way, rel root path = some way ∧ Upward way := by
  obtain ⟨front, hfront, hback⟩ := apart_spec (cleanParts root) (cleanParts path)
  have hpart := cleanParts_isPart hroot
  rw [rel, if_neg (by rw [hroot, hpath]; exact fun hne => hne rfl)]
  generalize hapart : apart (cleanParts root) (cleanParts path) = pair at hfront hback
  obtain ⟨ups, rest⟩ := pair
  cases ups with
  | nil => exact absurd ⟨rest, by rw [hback, hfront, List.append_nil]⟩ h
  | cons up ups =>
    have hup : up ≠ dotDot := (hpart up (hfront ▸ List.mem_append_right _ List.mem_cons_self)).2.2.2
    refine ⟨_, if_neg hup, ?_⟩
    rw [List.replicate_succ, List.cons_append]
    show Upward (dotDot ++ slashed (List.replicate ups.length dotDot ++ rest))
    cases hmore : List.replicate ups.length dotDot ++ rest with
    | nil => exact .inl rfl
    | cons p more => exact .inr ⟨p ++ slashed more, rfl⟩

end CfMonitor.Lib.SlashPath
