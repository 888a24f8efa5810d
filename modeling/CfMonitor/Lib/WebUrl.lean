/-
  The text of an `https` address, as the URL standard reads and writes it.

  1. **Percent encoding** — each part of an address has its own set of characters that are encoded; what
     is encoded is not encoded again (`percentEncode_twice`).

  2. **Reading** — `splitAddress` cuts a text into an authority, the segments of a path, a query and a
     fragment.  The segments are resolved: none of them is a dot segment (`splitAddress_resolved`).

  3. **Writing** — an address in its written form reads back as itself (`splitAddress_text`).
-/
import CfMonitor.Lib.HostPort
import CfMonitor.Lib.Split

namespace CfMonitor.Lib.WebUrl

/-! ## Percent encoding -/

def percentByte (b : UInt8) : List Char :=
  ['%', (Nat.digitChar (b.toNat / 16)).toUpper, (Nat.digitChar (b.toNat % 16)).toUpper]

def encodeChar (set : Char → Bool) (c : Char) : List Char :=
  if set c then (String.utf8EncodeChar c).flatMap percentByte else [c]

def percentEncode (set : Char → Bool) (text : List Char) : List Char := text.flatMap (encodeChar set)

/-- The C0 control percent-encode set. -/
def isControl (c : Char) : Bool := c.toNat < 0x20 || 0x7e < c.toNat

/-- The fragment percent-encode set. -/
def inFragment (c : Char) : Bool := isControl c || [' ', '"', '<', '>', '\x60'].contains c

/-- The special-query percent-encode set. -/
def inQuery (c : Char) : Bool := isControl c || [' ', '"', '#', '<', '>', '\''].contains c

/-- The path percent-encode set. -/
def inPath (c : Char) : Bool :=
  isControl c || [' ', '"', '#', '<', '>', '?', '^', '\x60', '\x7b', '\x7d'].contains c

/-- What encoded bytes are written with. -/
def ENCODED : List Char := "%0123456789ABCDEF".toList

variable {c : Char}

theorem percentByte_encoded {b : UInt8} (h : c ∈ percentByte b) : c ∈ ENCODED := by
  have hall : ∀ n : Fin 256, ∀ c ∈ ['%', (Nat.digitChar (n.val / 16)).toUpper, (Nat.digitChar (n.val % 16)).toUpper],
      c ∈ ENCODED := by decide +kernel
  exact hall ⟨b.toNat, b.toNat_lt⟩ c h

variable {d : Char}

theorem mem_encodeChar {set : Char → Bool} (h : d ∈ encodeChar set c) :
    (d = c ∧ set c = false) ∨ d ∈ ENCODED := by
  rw [encodeChar] at h
  split_ifs at h with hset
  · obtain ⟨b, -, hb⟩ := List.mem_flatMap.mp h
    exact .inr (percentByte_encoded hb)
  · exact .inl ⟨List.mem_singleton.mp h, Bool.eq_false_of_not_eq_true hset⟩

theorem mem_percentEncode {set : Char → Bool} {text : List Char} (h : d ∈ percentEncode set text) :
    (d ∈ text ∧ set d = false) ∨ d ∈ ENCODED := by
  obtain ⟨c, hc, hd⟩ := List.mem_flatMap.mp h
  rcases mem_encodeChar hd with ⟨rfl, hset⟩ | hd
  · exact .inl ⟨hc, hset⟩
  · exact .inr hd

theorem percentEncode_eq_self {set : Char → Bool} {text : List Char} (h : ∀ c ∈ text, set c = false) :
    percentEncode set text = text := by
  induction text with
  | nil => rfl
  | cons c rest ih =>
    have hc : encodeChar set c = [c] := if_neg (by rw [h c List.mem_cons_self]; exact Bool.false_ne_true)
    rw [percentEncode, List.flatMap_cons, hc, ← percentEncode, ih fun d hd => h d (List.mem_cons_of_mem _ hd)]
    rfl

/-- **What is encoded is not encoded again.** -/
theorem percentEncode_twice {set : Char → Bool} (hset : ∀ c ∈ ENCODED, set c = false) (text : List Char) :
    percentEncode set (percentEncode set text) = percentEncode set text := by
  refine percentEncode_eq_self fun c hc => ?_
  rcases mem_percentEncode hc with ⟨-, h⟩ | h
  · exact h
  · exact hset c h

theorem encodeChar_ne_nil (set : Char → Bool) (c : Char) : encodeChar set c ≠ [] := by
  rw [encodeChar]
  split_ifs
  · obtain ⟨b, rest, hb⟩ := List.exists_cons_of_ne_nil (String.utf8EncodeChar_ne_nil (c := c))
    rw [hb, List.flatMap_cons]
    exact List.cons_ne_nil _ _
  · exact List.cons_ne_nil _ _

theorem encodeChar_twice {set : Char → Bool} (hset : ∀ c ∈ ENCODED, set c = false) (c : Char) :
    (encodeChar set c).flatMap (encodeChar set) = encodeChar set c := by
  have htwice := percentEncode_twice hset [c]
  rw [percentEncode, percentEncode, List.flatMap_singleton] at htwice
  exact htwice

/-- A character that an address may be written with. -/
def isVisible (c : Char) : Bool := 0x20 < c.toNat && c.toNat ≤ 0x7e

theorem encoded_visible : ∀ c ∈ ENCODED, isVisible c = true := by decide +kernel

/-- A set that leaves visible characters only. -/
def Hides (set : Char → Bool) : Prop := ∀ c, set c = false → isVisible c = true

theorem hides_of {set : Char → Bool} {rest : List Char} (hspace : ' ' ∈ rest)
    (h : ∀ c, set c = (isControl c || rest.contains c)) : Hides set := by
  intro c hc
  rw [h, Bool.or_eq_false_iff, isControl, Bool.or_eq_false_iff, decide_eq_false_iff_not, decide_eq_false_iff_not] at hc
  have hne : c.toNat ≠ 0x20 := by
    intro heq
    have hc' : c = ' ' := Char.toNat_inj.mp heq
    rw [hc', List.contains_iff_mem.mpr hspace] at hc
    exact absurd hc.2 (by simp)
  rw [isVisible, Bool.and_eq_true, decide_eq_true_eq, decide_eq_true_eq]
  omega

theorem hides_path : Hides inPath := hides_of (by simp) fun _ => rfl

theorem hides_query : Hides inQuery := hides_of (by simp) fun _ => rfl

theorem hides_fragment : Hides inFragment := hides_of (by simp) fun _ => rfl

theorem percentEncode_visible {set : Char → Bool} (hset : Hides set) {text : List Char}
    (h : c ∈ percentEncode set text) : isVisible c = true := by
  rcases mem_percentEncode h with ⟨-, h⟩ | h
  · exact hset c h
  · exact encoded_visible c h

/-! ## Reading -/

/-- The parts of an address, as they stand in its text. -/
structure Address where
  authority : List Char
  segments : List (List Char)
  query : Option (List Char)
  fragment : Option (List Char)
  deriving DecidableEq

/-- Dropped at the ends of a text. -/
def isEdge (c : Char) : Bool := c.toNat ≤ 0x20

/-- Dropped everywhere. -/
def isDropped (c : Char) : Bool := c == '\t' || c == '\n' || c == '\r'

def isSlash (c : Char) : Bool := c == '/' || c == '\\'

/-- A dot may be written `%2e`. -/
def plainDots : List Char → List Char
  | '%' :: '2' :: 'e' :: rest => '.' :: plainDots rest
  | '%' :: '2' :: 'E' :: rest => '.' :: plainDots rest
  | c :: rest => c :: plainDots rest
  | [] => []

/-- A segment that stands for a directory: one dot for the directory itself, two for the one above. -/
def isDots (n : Nat) (segment : List Char) : Bool := decide (plainDots (percentEncode inPath segment) = List.replicate n '.')

def isDotSegment (segment : List Char) : Bool := isDots 1 segment || isDots 2 segment

def resolveStep (done : List (List Char)) (segment : List Char) : List (List Char) :=
  if isDots 2 segment then done.dropLast else if isDots 1 segment then done else done ++ [segment]

/-- The segments of a path; where the last one stands for a directory, an empty one takes its place. -/
def resolve (segments : List (List Char)) : List (List Char) :=
  let done := segments.foldl resolveStep []
  if segments.getLast?.any isDotSegment then done ++ [[]] else done

/-- A text up to a character, and what follows it. -/
def cutAt (c : Char) (text : List Char) : List Char × Option (List Char) :=
  if c ∈ text then (text.takeWhile (· != c), some ((text.dropWhile (· != c)).drop 1)) else (text, none)

/-- What follows a scheme. -/
def withoutScheme (scheme text : List Char) : Option (List Char) :=
  if (text.take scheme.length).map Char.toLower = scheme then some (text.drop scheme.length) else none

def HTTPS : List Char := "https:".toList

/-- The parts of a text whose scheme is `https`. -/
def splitAddress (text : List Char) : Option Address :=
  (withoutScheme HTTPS ((trimWhere isEdge text).filter (!isDropped ·))).map fun rest =>
    let (rest, fragment) := cutAt '#' (rest.dropWhile isSlash)
    let (rest, query) := cutAt '?' rest
    let path := (rest.dropWhile (!isSlash ·)).drop 1
    ⟨rest.takeWhile (!isSlash ·), resolve (path.splitOnP isSlash), query, fragment⟩

/-- Segments of a path that is read. -/
structure Resolved (segments : List (List Char)) : Prop where
  ne_nil : segments ≠ []
  dots : ∀ segment ∈ segments, isDotSegment segment = false
  slash : ∀ segment ∈ segments, ∀ c ∈ segment, isSlash c = false

variable {s : List Char}

variable {done : List (List Char)}

theorem resolveStep_mem {segment : List Char} (h : s ∈ resolveStep done segment) :
    s ∈ done ∨ (s = segment ∧ isDotSegment segment = false) := by
  rw [resolveStep] at h
  split_ifs at h with htwo hone
  · exact .inl (List.dropLast_subset _ h)
  · exact .inl h
  · rcases List.mem_append.mp h with h | h
    · exact .inl h
    · refine .inr ⟨List.mem_singleton.mp h, ?_⟩
      rw [isDotSegment, Bool.eq_false_of_not_eq_true hone, Bool.eq_false_of_not_eq_true htwo]
      rfl

variable {segments : List (List Char)}

theorem foldl_resolveStep_mem (h : s ∈ segments.foldl resolveStep done) :
    s ∈ done ∨ (s ∈ segments ∧ isDotSegment s = false) := by
  induction segments generalizing done with
  | nil => exact .inl h
  | cons segment rest ih =>
    rcases ih h with h | ⟨h, hdots⟩
    · rcases resolveStep_mem h with h | ⟨rfl, hdots⟩
      · exact .inl h
      · exact .inr ⟨List.mem_cons_self, hdots⟩
    · exact .inr ⟨List.mem_cons_of_mem _ h, hdots⟩

theorem mem_resolve (h : s ∈ resolve segments) : s = [] ∨ (s ∈ segments ∧ isDotSegment s = false) := by
  have hdone : ∀ t, t ∈ segments.foldl resolveStep [] → t = [] ∨ (t ∈ segments ∧ isDotSegment t = false) := by
    intro t ht
    exact (foldl_resolveStep_mem ht).elim nofun .inr
  rw [resolve] at h
  split_ifs at h with hlast
  · rcases List.mem_append.mp h with h | h
    · exact hdone s h
    · exact .inl (List.mem_singleton.mp h)
  · exact hdone s h

theorem resolve_ne_nil (hne : segments ≠ []) : resolve segments ≠ [] := by
  rw [resolve]
  split_ifs with hlast
  · simp
  · -- the last segment is none for a directory: it is kept
    rw [← List.dropLast_append_getLast hne, List.foldl_append, List.foldl_cons, List.foldl_nil]
    have hdots : isDotSegment (segments.getLast hne) = false := by
      rw [List.getLast?_eq_getLast_of_ne_nil hne] at hlast
      exact Bool.eq_false_of_not_eq_true hlast
    rw [isDotSegment, Bool.or_eq_false_iff] at hdots
    rw [resolveStep, hdots.1, hdots.2]
    simp

theorem resolve_eq_self (h : ∀ s ∈ segments, isDotSegment s = false) : resolve segments = segments := by
  have hfold : ∀ (rest done : List (List Char)), (∀ s ∈ rest, isDotSegment s = false) →
      rest.foldl resolveStep done = done ++ rest := by
    intro rest
    induction rest with
    | nil => exact fun done _ => (List.append_nil done).symm
    | cons s rest ih =>
      intro done hall
      have hs := hall s List.mem_cons_self
      rw [isDotSegment, Bool.or_eq_false_iff] at hs
      have hstep : resolveStep done s = done ++ [s] := by
        rw [resolveStep, hs.1, hs.2]
        rfl
      rw [List.foldl_cons, hstep, ih _ fun t ht => hall t (List.mem_cons_of_mem _ ht), List.append_assoc]
      rfl
  rw [resolve, hfold segments [] h, List.nil_append, if_neg]
  intro hlast
  cases hs : segments.getLast? with
  | none =>
    rw [hs] at hlast
    exact absurd hlast Bool.false_ne_true
  | some s =>
    rw [hs, Option.any_some, h s (List.mem_of_getLast? hs)] at hlast
    exact absurd hlast Bool.false_ne_true

variable {a : Address}

/-- **The segments of an address are resolved.** -/
theorem splitAddress_resolved {text : List Char} (h : splitAddress text = some a) : Resolved a.segments := by
  obtain ⟨rest, -, rfl⟩ := Option.map_eq_some_iff.mp h
  refine ⟨resolve_ne_nil (List.splitOnP_ne_nil _ _), ?_, ?_⟩
  · intro segment hsegment
    rcases mem_resolve hsegment with rfl | ⟨-, hdots⟩
    · decide
    · exact hdots
  · intro segment hsegment c hc
    rcases mem_resolve hsegment with rfl | ⟨hmem, -⟩
    · cases hc
    · exact splitOnP_free hmem c hc

/-! ## Writing -/

def tailText (mark : Char) : Option (List Char) → List Char
  | none => []
  | some text => mark :: text

/-- The text of an address whose parts are written as they are. -/
def Address.text (a : Address) : List Char :=
  HTTPS ++ "//".toList ++ a.authority ++ a.segments.flatMap ('/' :: ·) ++ tailText '?' a.query ++ tailText '#' a.fragment

/-- An address as it is written: its parts encoded, with the host that its authority stands for. -/
def Address.encoded (a : Address) (host : List Char) : Address :=
  ⟨host, a.segments.map (percentEncode inPath), a.query.map (percentEncode inQuery), a.fragment.map (percentEncode inFragment)⟩

/-- A host as it is written. -/
structure WrittenHost (host : List Char) : Prop where
  ne_nil : host ≠ []
  visible : ∀ c ∈ host, isVisible c = true
  inside : ∀ c ∈ host, isSlash c = false ∧ c ≠ '?' ∧ c ≠ '#'

/-- An address in its written form. -/
structure Address.Written (a : Address) : Prop where
  host : WrittenHost a.authority
  resolved : Resolved a.segments
  path : ∀ segment ∈ a.segments, ∀ c ∈ segment, isVisible c = true ∧ c ≠ '?' ∧ c ≠ '#'
  query : ∀ q ∈ a.query, ∀ c ∈ q, isVisible c = true ∧ c ≠ '#'
  fragment : ∀ f ∈ a.fragment, ∀ c ∈ f, isVisible c = true

theorem cutAt_free {text : List Char} (h : c ∉ text) : cutAt c text = (text, none) := if_neg h

theorem cutAt_found {front : List Char} (h : c ∉ front) (back : List Char) :
    cutAt c (front ++ c :: back) = (front, some back) := by
  have hne : ∀ d ∈ front, (d != c) = true := fun d hd => bne_iff_ne.mpr fun heq => h (heq ▸ hd)
  rw [cutAt, if_pos (by simp), List.takeWhile_append_of_pos hne, List.dropWhile_append_of_pos hne,
    List.takeWhile_cons_of_neg (by simp), List.dropWhile_cons_of_neg (by simp), List.append_nil]
  rfl

theorem cutAt_tail {front : List Char} (h : c ∉ front) (tail : Option (List Char)) :
    cutAt c (front ++ tailText c tail) = (front, tail) := by
  cases tail with
  | none =>
    rw [tailText, List.append_nil]
    exact cutAt_free h
  | some back => exact cutAt_found h back

theorem splitOnP_path (h : Resolved segments) :
    ((segments.flatMap ('/' :: ·)).drop 1).splitOnP isSlash = segments := by
  obtain ⟨hne, -, hslash⟩ := h
  induction segments with
  | nil => exact absurd rfl hne
  | cons s rest ih =>
    have hs := hslash s List.mem_cons_self
    rw [List.flatMap_cons, List.cons_append, List.drop_one, List.tail_cons]
    cases rest with
    | nil =>
      rw [List.flatMap_nil, List.append_nil]
      exact List.splitOnP_eq_singleton hs
    | cons next rest =>
      have hbehind := ih (by simp) fun t ht => hslash t (List.mem_cons_of_mem _ ht)
      rw [List.flatMap_cons, List.cons_append, List.drop_one, List.tail_cons] at hbehind
      rw [List.flatMap_cons, List.cons_append, List.splitOnP_append_cons_of_forall_mem hs '/' rfl, hbehind]

theorem path_slash (h : Resolved segments) : ∃ rest, segments.flatMap ('/' :: ·) = '/' :: rest := by
  obtain ⟨s, rest, rfl⟩ := List.exists_cons_of_ne_nil h.ne_nil
  exact ⟨s ++ rest.flatMap ('/' :: ·), rfl⟩

theorem mem_path (h : c ∈ segments.flatMap ('/' :: ·)) : c = '/' ∨ ∃ segment ∈ segments, c ∈ segment := by
  obtain ⟨segment, hsegment, hc⟩ := List.mem_flatMap.mp h
  exact (List.mem_cons.mp hc).imp_right fun hc => ⟨segment, hsegment, hc⟩

theorem mem_tailText {mark : Char} {tail : Option (List Char)} (h : c ∈ tailText mark tail) : c = mark ∨ ∃ t ∈ tail, c ∈ t := by
  cases tail with
  | none => cases h
  | some t => exact (List.mem_cons.mp h).imp_right fun hc => ⟨t, rfl, hc⟩

theorem Address.Written.visible (h : a.Written) : ∀ c ∈ a.text, isVisible c = true := by
  intro c hc
  rw [Address.text] at hc
  rcases List.mem_append.mp hc with hc | hc
  · rcases List.mem_append.mp hc with hc | hc
    · rcases List.mem_append.mp hc with hc | hc
      · rcases List.mem_append.mp hc with hc | hc
        · have hall : ∀ d ∈ HTTPS ++ "//".toList, isVisible d = true := by decide +kernel
          exact hall c hc
        · exact h.host.visible c hc
      · rcases mem_path hc with rfl | ⟨segment, hsegment, hc⟩
        · decide
        · exact (h.path segment hsegment c hc).1
    · rcases mem_tailText hc with rfl | ⟨q, hq, hc⟩
      · decide
      · exact (h.query q hq c hc).1
  · rcases mem_tailText hc with rfl | ⟨f, hf, hc⟩
    · decide
    · exact h.fragment f hf c hc

theorem visible_kept (h : isVisible c = true) : isEdge c = false ∧ isDropped c = false := by
  rw [isVisible, Bool.and_eq_true, decide_eq_true_eq, decide_eq_true_eq] at h
  refine ⟨decide_eq_false (by omega), ?_⟩
  rw [Bool.eq_false_iff]
  intro hdropped
  rw [isDropped, Bool.or_eq_true, Bool.or_eq_true, beq_iff_eq, beq_iff_eq, beq_iff_eq] at hdropped
  rcases hdropped with (rfl | rfl) | rfl <;> exact absurd h.1 (by decide)

/-- **An address in its written form reads back as itself.** -/
theorem splitAddress_text (h : a.Written) : splitAddress a.text = some a := by
  have htrim : trimWhere isEdge a.text = a.text := trimWhere_eq_self fun c hc => (visible_kept (h.visible c hc)).1
  have hfilter : a.text.filter (!isDropped ·) = a.text := by
    rw [List.filter_eq_self]
    exact fun c hc => by rw [(visible_kept (h.visible c hc)).2]; rfl
  obtain ⟨behind, hbehind⟩ := path_slash h.resolved
  obtain ⟨first, host, hhost⟩ := List.exists_cons_of_ne_nil h.host.ne_nil
  -- the authority and the path, with the query and the fragment cut off
  have hslashes : ("//".toList ++ a.authority ++ a.segments.flatMap ('/' :: ·) ++ tailText '?' a.query
      ++ tailText '#' a.fragment).dropWhile isSlash
      = a.authority ++ a.segments.flatMap ('/' :: ·) ++ tailText '?' a.query ++ tailText '#' a.fragment := by
    have hfirst := (h.host.inside first (by rw [hhost]; exact List.mem_cons_self)).1
    rw [hhost]
    simp only [List.append_assoc, List.cons_append]
    show List.dropWhile isSlash ('/' :: '/' :: first :: _) = _
    rw [List.dropWhile_cons_of_pos (by decide), List.dropWhile_cons_of_pos (by decide),
      List.dropWhile_cons_of_neg (by rw [hfirst]; exact Bool.false_ne_true)]
  have hfragment : '#' ∉ a.authority ++ a.segments.flatMap ('/' :: ·) ++ tailText '?' a.query := by
    intro hc
    rcases List.mem_append.mp hc with hc | hc
    · rcases List.mem_append.mp hc with hc | hc
      · exact (h.host.inside _ hc).2.2 rfl
      · rcases mem_path hc with hc | ⟨segment, hsegment, hc⟩
        · cases hc
        · exact (h.path segment hsegment _ hc).2.2 rfl
    · rcases mem_tailText hc with hc | ⟨q, hq, hc⟩
      · cases hc
      · exact (h.query q hq _ hc).2 rfl
  have hquery : '?' ∉ a.authority ++ a.segments.flatMap ('/' :: ·) := by
    intro hc
    rcases List.mem_append.mp hc with hc | hc
    · exact (h.host.inside _ hc).2.1 rfl
    · rcases mem_path hc with hc | ⟨segment, hsegment, hc⟩
      · cases hc
      · exact (h.path segment hsegment _ hc).2.1 rfl
  have hinside : ∀ c ∈ a.authority, (!isSlash c) = true := fun c hc => by rw [(h.host.inside c hc).1]; rfl
  have hauthority : (a.authority ++ a.segments.flatMap ('/' :: ·)).takeWhile (!isSlash ·) = a.authority := by
    rw [hbehind, List.takeWhile_append_of_pos hinside, List.takeWhile_cons_of_neg (by decide), List.append_nil]
  have hpath : (a.authority ++ a.segments.flatMap ('/' :: ·)).dropWhile (!isSlash ·) = a.segments.flatMap ('/' :: ·) := by
    rw [hbehind, List.dropWhile_append_of_pos hinside, List.dropWhile_cons_of_neg (by decide)]
  have hscheme : withoutScheme HTTPS a.text = some ("//".toList ++ a.authority ++ a.segments.flatMap ('/' :: ·)
      ++ tailText '?' a.query ++ tailText '#' a.fragment) := by
    rw [Address.text, withoutScheme]
    simp only [List.append_assoc]
    rw [List.take_left, if_pos (by decide +kernel), List.drop_left]
  rw [splitAddress, htrim, hfilter, hscheme, Option.map_some, hslashes, cutAt_tail hfragment]
  simp only [cutAt_tail hquery, hauthority, hpath, splitOnP_path h.resolved, resolve_eq_self h.resolved.dots]

theorem isDotSegment_encoded (segment : List Char) : isDotSegment (percentEncode inPath segment) = isDotSegment segment := by
  have htwice : percentEncode inPath (percentEncode inPath segment) = percentEncode inPath segment :=
    percentEncode_twice (by decide) segment
  rw [isDotSegment, isDots, isDots, htwice]
  rfl

theorem percentEncode_slash {set : Char → Bool} {text : List Char} (h : ∀ c ∈ text, isSlash c = false) :
    ∀ c ∈ percentEncode set text, isSlash c = false := by
  intro c hc
  rcases mem_percentEncode hc with ⟨hc, -⟩ | hc
  · exact h c hc
  · have hall : ∀ c ∈ ENCODED, isSlash c = false := by decide
    exact hall c hc

theorem Resolved.encoded (h : Resolved segments) :
    Resolved (segments.map (percentEncode inPath)) where
  ne_nil := by simpa using h.ne_nil
  dots := by
    intro segment hsegment
    obtain ⟨s, hs, rfl⟩ := List.mem_map.mp hsegment
    rw [isDotSegment_encoded]
    exact h.dots s hs
  slash := by
    intro segment hsegment
    obtain ⟨s, hs, rfl⟩ := List.mem_map.mp hsegment
    exact percentEncode_slash (h.slash s hs)

theorem percentEncode_ne {set : Char → Bool} {text : List Char} (hd : set d = true) (hdigit : d ∉ ENCODED)
    (hc : c ∈ percentEncode set text) : c ≠ d := by
  rintro rfl
  rcases mem_percentEncode hc with ⟨-, hset⟩ | hc
  · rw [hd] at hset
    cases hset
  · exact hdigit hc

/-- **What is written is in written form.** -/
theorem encoded_written {host : List Char} (hhost : WrittenHost host) (h : Resolved a.segments) :
    (a.encoded host).Written where
  host := hhost
  resolved := h.encoded
  path := by
    intro segment hsegment c hc
    obtain ⟨s, -, rfl⟩ := List.mem_map.mp hsegment
    exact ⟨percentEncode_visible hides_path hc, percentEncode_ne (by decide) (by decide) hc,
      percentEncode_ne (by decide) (by decide) hc⟩
  query := by
    intro q hq c hc
    obtain ⟨t, -, rfl⟩ := Option.map_eq_some_iff.mp hq
    exact ⟨percentEncode_visible hides_query hc, percentEncode_ne (by decide) (by decide) hc⟩
  fragment := by
    intro f hf c hc
    obtain ⟨t, -, rfl⟩ := Option.map_eq_some_iff.mp hf
    exact percentEncode_visible hides_fragment hc

end CfMonitor.Lib.WebUrl
