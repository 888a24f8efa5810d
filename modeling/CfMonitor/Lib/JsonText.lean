/-
  The text of a JSON value.

  1. **Reader** — `parse`, with the readers of keys, of texts and of numbers as parameters: a caller may
     accept fewer texts than `JSON.parse` does (`jsonReaders`).

  2. **Fuel** — the reader recurses on a bound; twice the length is enough, and more changes nothing
     (`value_fuel`).

  3. **Rewriting** — a text may be rewritten inside of its string literals: where the readers follow
     (`Rewrites`), the value is the same with its texts rewritten (`parse_rewrites`).
-/
import CfMonitor.Lib.IpText
import CfMonitor.Lib.Json

namespace CfMonitor.Lib.JsonText

open Option (bind_eq_some_iff bind_some map_eq_some_iff map_some some)

/-! ## String literals -/

/-- The character of an escape of two characters. -/
def shortEscape (c : Char) : Option Char :=
  if c = '"' ∨ c = '\\' ∨ c = '/' then some c
  else if c = 'b' then some (Char.ofNat 8) else if c = 'f' then some (Char.ofNat 12)
  else if c = 'n' then some (Char.ofNat 10) else if c = 'r' then some (Char.ofNat 13)
  else if c = 't' then some (Char.ofNat 9) else none

/-- The code unit of four hexadecimal digits at the front. -/
def codeUnit (text : List Char) : Option Nat :=
  if (text.take 4).length = 4 ∧ (text.take 4).all isHexDigitChar = true then some (hexValue (text.take 4)) else none

/-- The character of code units behind `\u`, and how many characters of the text are theirs.  Half of
    a pair is no character. -/
def numericEscape (text : List Char) : Option (Char × Nat) :=
  (codeUnit text).bind fun unit =>
    if 0xD800 ≤ unit ∧ unit < 0xDC00 then
      if (text.drop 4).take 2 = ['\\', 'u'] then
        (codeUnit (text.drop 6)).bind fun low =>
          if 0xDC00 ≤ low ∧ low < 0xE000 then
            some (Char.ofNat (0x10000 + (unit - 0xD800) * 0x400 + (low - 0xDC00)), 10)
          else none
      else none
    else if 0xDC00 ≤ unit ∧ unit < 0xE000 then none
    else some (Char.ofNat unit, 4)

/-- What stands behind a backslash: a character, and how long its escape is. -/
def shortOnly : List Char → Option (Char × Nat)
  | [] => none
  | c :: _ => (shortEscape c).map fun d => (d, 1)

def anyEscape : List Char → Option (Char × Nat)
  | 'u' :: rest => (numericEscape rest).map fun (d, length) => (d, length + 1)
  | text => shortOnly text

section

variable (escape : List Char → Option (Char × Nat))

/-- The text in front of the closing quote, and what is behind it; some characters at the front are
    already read. -/
def literal : Nat → List Char → Option (List Char × List Char)
  | _, [] => none
  | skip + 1, _ :: rest => literal skip rest
  | 0, c :: rest =>
    if c = '"' then some ([], rest)
    else if c = '\\' then
      (escape rest).bind fun (d, length) => (literal length rest).map fun (text, rest) => (d :: text, rest)
    else if c.toNat < 0x20 then none
    else (literal 0 rest).map fun (text, rest) => (c :: text, rest)

end

/-! ## Numbers -/

def isExponent : List Char → Bool
  | [] => true
  | c :: rest =>
    let digits := match rest with
      | '+' :: digits => digits
      | '-' :: digits => digits
      | digits => digits
    (c == 'e' || c == 'E') && !digits.isEmpty && digits.all Char.isDigit

def isFraction : List Char → Bool
  | '.' :: rest => !(rest.takeWhile Char.isDigit).isEmpty && isExponent (rest.dropWhile Char.isDigit)
  | text => isExponent text

/-- The grammar of numbers. -/
def isNumber (text : List Char) : Bool :=
  let unsigned := match text with
    | '-' :: rest => rest
    | text => text
  let whole := unsigned.takeWhile Char.isDigit
  !whole.isEmpty && (whole == ['0'] || whole.head? != some '0') && isFraction (unsigned.dropWhile Char.isDigit)

/-! ## Values -/

def isSpace (c : Char) : Bool := c == ' ' || c == '\t' || c == '\n' || c == '\r'

/-- The first character that is no space, and what is behind it. -/
def token (text : List Char) : Option (Char × List Char) :=
  match text.dropWhile isSpace with
  | [] => none
  | c :: rest => some (c, rest)

/-- A number ends in front of one of these. -/
def isDelimiter (c : Char) : Bool := isSpace c || c == ',' || c == ']' || c == '}'

/-- The readers of what stands between quotes, and of numbers. -/
structure Readers where
  key : List Char → Option (List Char × List Char)
  text : List Char → Option (List Char × List Char)
  number : List Char → Number

/-- The value of an object from its members: the last one of a name counts. -/
def objectOf (members : List (String × Json)) : Json := .obj (Assoc.merge [] members)

def keyword (word : List Char) (v : Json) (text : List Char) : Option (Json × List Char) :=
  if word <+: text then some (v, text.drop word.length) else none

section

variable (readers : Readers)

def numeral (text : List Char) : Option (Json × List Char) :=
  let digits := text.takeWhile fun c => !isDelimiter c
  if isNumber digits = true then some (.num (readers.number digits), text.dropWhile fun c => !isDelimiter c)
  else none

/-- A value that is neither text nor made of others. -/
def scalar (c : Char) (rest : List Char) : Option (Json × List Char) :=
  if c = 't' then keyword "true".toList (.bool true) (c :: rest)
  else if c = 'f' then keyword "false".toList (.bool false) (c :: rest)
  else if c = 'n' then keyword "null".toList .null (c :: rest)
  else numeral readers (c :: rest)

mutual

/-- The value at the front of a text, and what is behind it. -/
def value : Nat → List Char → Option (Json × List Char)
  | 0, _ => none
  | n + 1, text => (token text).bind fun (c, rest) =>
    if c = '"' then (readers.text rest).map fun (s, rest) => (.str (String.ofList s), rest)
    else if c = '[' then
      (token rest).bind fun (d, behind) =>
        if d = ']' then some (.arr [], behind) else (items n rest).map fun (vs, rest) => (.arr vs, rest)
    else if c = '\x7b' then
      (token rest).bind fun (d, behind) =>
        if d = '\x7d' then some (objectOf [], behind) else (members n rest).map fun (ms, rest) => (objectOf ms, rest)
    else scalar readers c rest

/-- The items of an array up to its end; there is one. -/
def items : Nat → List Char → Option (List Json × List Char)
  | 0, _ => none
  | n + 1, text => (value n text).bind fun (v, rest) => (token rest).bind fun (c, rest) =>
    if c = ',' then (items n rest).map fun (vs, rest) => (v :: vs, rest)
    else if c = ']' then some ([v], rest)
    else none

/-- The members of an object up to its end; there is one. -/
def members : Nat → List Char → Option (List (String × Json) × List Char)
  | 0, _ => none
  | n + 1, text => (token text).bind fun (quote, rest) =>
    if quote = '"' then
      (readers.key rest).bind fun (k, rest) => (token rest).bind fun (colon, rest) =>
        if colon = ':' then
          (value n rest).bind fun (v, rest) => (token rest).bind fun (c, rest) =>
            if c = ',' then (members n rest).map fun (ms, rest) => ((String.ofList k, v) :: ms, rest)
            else if c = '\x7d' then some ([(String.ofList k, v)], rest)
            else none
        else none
    else none

end

/-- The value of a text; only spaces may stand behind it. -/
def parse (text : List Char) : Option Json :=
  (value readers (2 * text.length) text).bind fun (v, rest) => if token rest = none then some v else none

end

/-- The readers of `JSON.parse`; `number` rounds a literal to a number. -/
def jsonReaders (number : List Char → Number) : Readers := ⟨literal anyEscape 0, literal anyEscape 0, number⟩

/-! ## The bound of the recursion -/

theorem token_length {text : List Char} {c : Char} {rest : List Char} (h : token text = some (c, rest)) :
    rest.length < text.length := by
  rw [token] at h
  split at h
  · cases h
  · rename_i d rest' hdrop
    cases h
    have hle := (List.dropWhile_suffix isSpace (l := text)).length_le
    rw [hdrop, List.length_cons] at hle
    omega

theorem keyword_length {word : List Char} {v : Json} {text : List Char} {r : Json × List Char} (hword : word ≠ [])
    (h : keyword word v text = some r) : r.2.length < text.length := by
  rw [keyword] at h
  split_ifs at h with hprefix
  cases h
  have hlength := List.length_pos_iff.mpr hword
  have hle := hprefix.length_le
  rw [List.length_drop]
  omega

theorem numeral_length {readers : Readers} {text : List Char} {r : Json × List Char} (h : numeral readers text = some r) :
    r.2.length < text.length := by
  simp only [numeral] at h
  split_ifs at h with hnumber
  cases h
  have hne : text.takeWhile (fun c => !isDelimiter c) ≠ [] := by
    intro hempty
    rw [hempty] at hnumber
    cases hnumber
  have hlength := congrArg List.length (List.takeWhile_append_dropWhile (p := fun c => !isDelimiter c) (l := text))
  have hpos := List.length_pos_iff.mpr hne
  rw [List.length_append] at hlength
  show (text.dropWhile fun c => !isDelimiter c).length < text.length
  omega

theorem scalar_length {readers : Readers} {c : Char} {rest : List Char} {r : Json × List Char}
    (h : scalar readers c rest = some r) : r.2.length < (c :: rest).length := by
  rw [scalar] at h
  split_ifs at h
  · exact keyword_length (by decide) h
  · exact keyword_length (by decide) h
  · exact keyword_length (by decide) h
  · exact numeral_length h

/-- What stands between quotes is read from the front. -/
structure Readers.Forward (readers : Readers) : Prop where
  key : ∀ text k rest, readers.key text = some (k, rest) → rest.length < text.length
  text : ∀ text s rest, readers.text text = some (s, rest) → rest.length < text.length

/-- A reader that succeeds goes forward, and succeeds alike with every bound from `k` on. -/
def Bounded {α : Type} (read : Nat → List Char → Option (α × List Char)) (k : Nat) (n : Nat) : Prop :=
  ∀ text r, read n text = some r → r.2.length < text.length ∧ ∀ m, 2 * text.length + k ≤ m → read m text = some r

section

variable {readers : Readers} (hforward : readers.Forward)

include hforward

theorem value_bounded {n : Nat} (hitems : Bounded (items readers) 1 n) (hmembers : Bounded (members readers) 1 n) :
    Bounded (value readers) 0 (n + 1) := by
  intro text r h
  rw [value] at h
  obtain ⟨⟨c, rest⟩, htoken, h⟩ := bind_eq_some_iff.mp h
  have hshort := token_length htoken
  simp only at h
  -- a bound for the whole is one for what stands behind the first character
  have hbound : ∀ m, 2 * text.length + 0 ≤ m → ∃ k, m = k + 1 ∧ 2 * rest.length + 1 ≤ k := fun m hm => ⟨m - 1, by omega, by omega⟩
  split_ifs at h with hquote harr hobj
  · obtain ⟨⟨s, behind⟩, htext, rfl⟩ := map_eq_some_iff.mp h
    refine ⟨Nat.lt_trans (hforward.text _ _ _ htext) hshort, fun m hm => ?_⟩
    obtain ⟨k, rfl, -⟩ := hbound m hm
    rw [value, htoken, bind_some]
    simp only [if_pos hquote, htext, map_some]
  · obtain ⟨⟨d, behind⟩, hinner, h⟩ := bind_eq_some_iff.mp h
    simp only at h
    have hinnerShort := token_length hinner
    split_ifs at h with hclose
    · cases h
      refine ⟨by show behind.length < _; omega, fun m hm => ?_⟩
      obtain ⟨k, rfl, -⟩ := hbound m hm
      rw [value, htoken, bind_some]
      simp only [if_neg hquote, if_pos harr, hinner, bind_some, if_pos hclose]
    · obtain ⟨⟨vs, behind'⟩, hread, rfl⟩ := map_eq_some_iff.mp h
      obtain ⟨hless, hmore⟩ := hitems _ _ hread
      refine ⟨Nat.lt_trans hless hshort, fun m hm => ?_⟩
      obtain ⟨k, rfl, hk⟩ := hbound m hm
      rw [value, htoken, bind_some]
      simp only [if_neg hquote, if_pos harr, hinner, bind_some, if_neg hclose, hmore k hk, map_some]
  · obtain ⟨⟨d, behind⟩, hinner, h⟩ := bind_eq_some_iff.mp h
    simp only at h
    have hinnerShort := token_length hinner
    split_ifs at h with hclose
    · cases h
      refine ⟨by show behind.length < _; omega, fun m hm => ?_⟩
      obtain ⟨k, rfl, -⟩ := hbound m hm
      rw [value, htoken, bind_some]
      simp only [if_neg hquote, if_neg harr, if_pos hobj, hinner, bind_some, if_pos hclose]
    · obtain ⟨⟨ms, behind'⟩, hread, rfl⟩ := map_eq_some_iff.mp h
      obtain ⟨hless, hmore⟩ := hmembers _ _ hread
      refine ⟨Nat.lt_trans hless hshort, fun m hm => ?_⟩
      obtain ⟨k, rfl, hk⟩ := hbound m hm
      rw [value, htoken, bind_some]
      simp only [if_neg hquote, if_neg harr, if_pos hobj, hinner, bind_some, if_neg hclose, hmore k hk,
        map_some]
  · have hscalar := scalar_length h
    rw [List.length_cons] at hscalar
    refine ⟨by omega, fun m hm => ?_⟩
    obtain ⟨k, rfl, -⟩ := hbound m hm
    rw [value, htoken, bind_some]
    simp only [if_neg hquote, if_neg harr, if_neg hobj, h]

omit hforward in
theorem items_bounded {n : Nat} (hvalue : Bounded (value readers) 0 n) (hitems : Bounded (items readers) 1 n) :
    Bounded (items readers) 1 (n + 1) := by
  intro text r h
  rw [items] at h
  obtain ⟨⟨v, rest⟩, hv, h⟩ := bind_eq_some_iff.mp h
  simp only at h
  obtain ⟨⟨c, behind⟩, htoken, h⟩ := bind_eq_some_iff.mp h
  simp only at h
  obtain ⟨hless, hmore⟩ := hvalue _ _ hv
  have hshort := token_length htoken
  simp only at hless
  split_ifs at h with hcomma hclose
  · obtain ⟨⟨vs, behind'⟩, hread, rfl⟩ := map_eq_some_iff.mp h
    obtain ⟨hrest, hrestMore⟩ := hitems _ _ hread
    refine ⟨by show behind'.length < _; simp only at hrest; omega, fun m hm => ?_⟩
    obtain ⟨k, rfl⟩ : ∃ k, m = k + 1 := ⟨m - 1, by omega⟩
    rw [items, hmore k (by omega), bind_some]
    simp only [htoken, bind_some, if_pos hcomma, hrestMore k (by omega), map_some]
  · cases h
    refine ⟨by show behind.length < _; omega, fun m hm => ?_⟩
    obtain ⟨k, rfl⟩ : ∃ k, m = k + 1 := ⟨m - 1, by omega⟩
    rw [items, hmore k (by omega), bind_some]
    simp only [htoken, bind_some, if_neg hcomma, if_pos hclose]

theorem members_bounded {n : Nat} (hvalue : Bounded (value readers) 0 n) (hmembers : Bounded (members readers) 1 n) :
    Bounded (members readers) 1 (n + 1) := by
  intro text r h
  rw [members] at h
  obtain ⟨⟨quote, rest⟩, hopen, h⟩ := bind_eq_some_iff.mp h
  have h1 := token_length hopen
  simp only at h
  split_ifs at h with hquote
  obtain ⟨⟨k, rest1⟩, hkey, h⟩ := bind_eq_some_iff.mp h
  have h2 := hforward.key _ _ _ hkey
  simp only at h
  obtain ⟨⟨colon, rest2⟩, hcolonToken, h⟩ := bind_eq_some_iff.mp h
  have h3 := token_length hcolonToken
  simp only at h
  split_ifs at h with hcolon
  obtain ⟨⟨v, rest3⟩, hv, h⟩ := bind_eq_some_iff.mp h
  obtain ⟨h4, hvMore⟩ := hvalue _ _ hv
  simp only at h h4
  obtain ⟨⟨c, rest4⟩, htoken, h⟩ := bind_eq_some_iff.mp h
  have h5 := token_length htoken
  simp only at h
  split_ifs at h with hcomma hclose
  · obtain ⟨⟨ms, behind⟩, hread, rfl⟩ := map_eq_some_iff.mp h
    obtain ⟨h6, hmore⟩ := hmembers _ _ hread
    refine ⟨by show behind.length < _; simp only at h6; omega, fun m hm => ?_⟩
    obtain ⟨j, rfl⟩ : ∃ j, m = j + 1 := ⟨m - 1, by omega⟩
    rw [members, hopen, bind_some]
    simp only [if_pos hquote, hkey, bind_some, hcolonToken, if_pos hcolon, hvMore j (by omega), htoken,
      if_pos hcomma, hmore j (by omega), map_some]
  · cases h
    refine ⟨by show rest4.length < _; omega, fun m hm => ?_⟩
    obtain ⟨j, rfl⟩ : ∃ j, m = j + 1 := ⟨m - 1, by omega⟩
    rw [members, hopen, bind_some]
    simp only [if_pos hquote, hkey, bind_some, hcolonToken, if_pos hcolon, hvMore j (by omega), htoken,
      if_neg hcomma, if_pos hclose]

theorem all_bounded (n : Nat) :
    Bounded (value readers) 0 n ∧ Bounded (items readers) 1 n ∧ Bounded (members readers) 1 n := by
  induction n with
  | zero => exact ⟨nofun, nofun,
      nofun⟩
  | succ n ih =>
    obtain ⟨hvalue, hitems, hmembers⟩ := ih
    exact ⟨value_bounded hforward hitems hmembers, items_bounded hvalue hitems,
      members_bounded hforward hvalue hmembers⟩

/-- **Twice the length is bound enough.** -/
theorem parse_of_value {n : Nat} {text rest : List Char} {v : Json} (h : value readers n text = some (v, rest))
    (hend : token rest = none) : parse readers text = some v := by
  have hbound := ((all_bounded hforward n).1 _ _ h).2 (2 * text.length) (by omega)
  rw [parse, hbound, bind_some]
  exact if_pos hend

end

/-! ## Rewriting inside of string literals -/

mutual

/-- The value with its texts rewritten; the names of members stay. -/
def mapTexts (g : List Char → List Char) : Json → Json
  | .str s => .str (String.ofList (g s.toList))
  | .arr vs => .arr (mapItems g vs)
  | .obj fields => .obj (mapFields g fields)
  | v => v

def mapItems (g : List Char → List Char) : List Json → List Json
  | [] => []
  | v :: rest => mapTexts g v :: mapItems g rest

def mapFields (g : List Char → List Char) : List (String × Json) → List (String × Json)
  | [] => []
  | (k, v) :: rest => (k, mapTexts g v) :: mapFields g rest

end

mutual

theorem mapTexts_id : (v : Json) → mapTexts id v = v
  | .str s => by rw [mapTexts, id, String.ofList_toList]
  | .arr vs => by rw [mapTexts, mapItems_id vs]
  | .obj fields => by rw [mapTexts, mapFields_id fields]
  | .null => rfl
  | .bool _ => rfl
  | .num _ => rfl

theorem mapItems_id : (vs : List Json) → mapItems id vs = vs
  | [] => rfl
  | v :: rest => by rw [mapItems, mapTexts_id v, mapItems_id rest]

theorem mapFields_id : (fields : List (String × Json)) → mapFields id fields = fields
  | [] => rfl
  | (k, v) :: rest => by rw [mapFields, mapTexts_id v, mapFields_id rest]

end

theorem mapFields_set (g : List Char → List Char) (fields : List (String × Json)) (k : String) (v : Json) :
    mapFields g (Assoc.set fields k v) = Assoc.set (mapFields g fields) k (mapTexts g v) := by
  induction fields with
  | nil => rfl
  | cons p rest ih =>
    obtain ⟨m, w⟩ := p
    rw [Assoc.set]
    by_cases h : k = m
    · rw [if_pos h, mapFields, mapFields, Assoc.set, if_pos h]
    · rw [if_neg h, mapFields, mapFields, Assoc.set, if_neg h, ih]

theorem mapFields_merge (g : List Char → List Char) (members fields : List (String × Json)) :
    mapFields g (Assoc.merge fields members) = Assoc.merge (mapFields g fields) (mapFields g members) := by
  induction members generalizing fields with
  | nil => rfl
  | cons p rest ih =>
    obtain ⟨k, v⟩ := p
    show mapFields g (Assoc.merge (Assoc.set fields k v) rest) = _
    rw [ih, mapFields_set]
    rfl

theorem mapTexts_objectOf (g : List Char → List Char) (members : List (String × Json)) :
    mapTexts g (objectOf members) = objectOf (mapFields g members) := by
  rw [objectOf, objectOf, mapTexts, mapFields_merge]
  rfl

/-- The text `f text` is read by the readers `b` as `text` by the readers `a`, but for what `g` does to
    the texts. -/
structure Rewrites (a b : Readers) (f g : List Char → List Char) : Prop where
  nil : f [] = []
  /-- Every character stays but an opening brace in front of another. -/
  plain : ∀ c rest, c ≠ '\x7b' → f (c :: rest) = c :: f rest
  brace : ∀ c rest, c ≠ '\x7b' → f ('\x7b' :: c :: rest) = '\x7b' :: f (c :: rest)
  key : ∀ text k rest, a.key text = some (k, rest) → b.key (f text) = some (k, f rest)
  text : ∀ text s rest, a.text text = some (s, rest) → b.text (f text) = some (g s, f rest)
  number : a.number = b.number

theorem digits_no_brace {text : List Char} (h : text.all Char.isDigit = true) : '\x7b' ∉ text :=
  fun hmem => absurd (List.all_eq_true.mp h _ hmem) (by decide)

theorem takeWhile_digits_no_brace (text : List Char) : '\x7b' ∉ text.takeWhile Char.isDigit :=
  fun hmem => absurd (List.mem_takeWhile_imp hmem) (by decide)

theorem exponent_no_brace {text : List Char} (h : isExponent text = true) : '\x7b' ∉ text := by
  cases text with
  | nil => exact List.not_mem_nil
  | cons c rest =>
    simp only [isExponent, Bool.and_eq_true] at h
    obtain ⟨⟨hmark, -⟩, hdigits⟩ := h
    have hc : '\x7b' ≠ c := by
      rintro rfl
      cases hmark
    rw [List.mem_cons, not_or]
    refine ⟨hc, ?_⟩
    split at hdigits
    · rw [List.mem_cons, not_or]
      exact ⟨by decide, digits_no_brace hdigits⟩
    · rw [List.mem_cons, not_or]
      exact ⟨by decide, digits_no_brace hdigits⟩
    · exact digits_no_brace hdigits

theorem fraction_no_brace {text : List Char} (h : isFraction text = true) : '\x7b' ∉ text := by
  unfold isFraction at h
  split at h
  · rename_i rest
    rw [Bool.and_eq_true] at h
    rw [List.mem_cons, not_or, ← List.takeWhile_append_dropWhile (p := Char.isDigit) (l := rest), List.mem_append, not_or]
    exact ⟨by decide, takeWhile_digits_no_brace rest, exponent_no_brace h.2⟩
  · exact exponent_no_brace h

theorem number_no_brace {text : List Char} (h : isNumber text = true) : '\x7b' ∉ text := by
  have hunsigned : ∀ rest : List Char, isFraction (rest.dropWhile Char.isDigit) = true → '\x7b' ∉ rest := by
    intro rest hrest
    rw [← List.takeWhile_append_dropWhile (p := Char.isDigit) (l := rest), List.mem_append, not_or]
    exact ⟨takeWhile_digits_no_brace rest, fraction_no_brace hrest⟩
  simp only [isNumber, Bool.and_eq_true] at h
  have hfraction := h.2
  split at hfraction
  · rw [List.mem_cons, not_or]
    exact ⟨by decide, hunsigned _ hfraction⟩
  · exact hunsigned _ hfraction

theorem token_space {c : Char} (h : isSpace c = true) (text : List Char) : token (c :: text) = token text := by
  rw [token, token, List.dropWhile_cons_of_pos h]

theorem token_char {c : Char} (h : isSpace c = false) (text : List Char) : token (c :: text) = some (c, text) := by
  rw [token, List.dropWhile_cons_of_neg (by rw [h]; decide)]

section

variable {a b : Readers} {f g : List Char → List Char} (hrw : Rewrites a b f g)

include hrw

theorem rewrite_append {word : List Char} (h : '\x7b' ∉ word) (rest : List Char) : f (word ++ rest) = word ++ f rest := by
  induction word with
  | nil => rfl
  | cons c word ih =>
    rw [List.mem_cons, not_or] at h
    rw [List.cons_append, hrw.plain c _ (Ne.symm h.1), ih h.2, List.cons_append]

theorem token_rewrite {text : List Char} {c : Char} {rest : List Char} (h : token text = some (c, rest))
    (hc : c ≠ '\x7b') : token (f text) = some (c, f rest) := by
  induction text with
  | nil => simp [token] at h
  | cons d text ih =>
    by_cases hspace : isSpace d = true
    · have hd : d ≠ '\x7b' := by
        rintro rfl
        cases hspace
      rw [token_space hspace] at h
      rw [hrw.plain d text hd, token_space hspace]
      exact ih h
    · have hspace := Bool.eq_false_of_not_eq_true hspace
      rw [token_char hspace] at h
      obtain ⟨rfl, rfl⟩ := Prod.mk.inj (some.inj h)
      rw [hrw.plain d text hc, token_char hspace]

theorem token_rewrite_brace {text : List Char} {d : Char} {rest : List Char}
    (h : token text = some ('\x7b', d :: rest)) (hd : d ≠ '\x7b') :
    token (f text) = some ('\x7b', f (d :: rest)) := by
  induction text with
  | nil => simp [token] at h
  | cons c text ih =>
    by_cases hspace : isSpace c = true
    · have hc : c ≠ '\x7b' := by
        rintro rfl
        cases hspace
      rw [token_space hspace] at h
      rw [hrw.plain c text hc, token_space hspace]
      exact ih h
    · have hspace := Bool.eq_false_of_not_eq_true hspace
      rw [token_char hspace] at h
      cases h
      rw [hrw.brace d rest hd, token_char hspace]

theorem token_rewrite_end {text : List Char} (h : token text = none) : token (f text) = none := by
  induction text with
  | nil => rw [hrw.nil, h]
  | cons c text ih =>
    by_cases hspace : isSpace c = true
    · have hc : c ≠ '\x7b' := by
        rintro rfl
        cases hspace
      rw [token_space hspace] at h
      rw [hrw.plain c text hc, token_space hspace]
      exact ih h
    · rw [token_char (Bool.eq_false_of_not_eq_true hspace)] at h
      cases h

theorem keyword_rewrite {word : List Char} (hword : '\x7b' ∉ word) {v : Json} {text : List Char} {r : Json × List Char}
    (h : keyword word v text = some r) : r = (v, text.drop word.length) ∧
      keyword word v (f text) = some (v, f (text.drop word.length)) := by
  rw [keyword] at h
  split_ifs at h with hprefix
  obtain ⟨rest, rfl⟩ := hprefix
  refine ⟨(some.inj h).symm, ?_⟩
  rw [rewrite_append hrw hword, keyword, if_pos (List.prefix_append _ _), List.drop_left, List.drop_left]

theorem numeral_rewrite {text : List Char} {v : Json} {rest : List Char} (h : numeral a text = some (v, rest)) :
    mapTexts g v = v ∧ numeral b (f text) = some (v, f rest) := by
  simp only [numeral] at h
  split_ifs at h with hnumber
  cases h
  refine ⟨rfl, ?_⟩
  generalize hdigits : text.takeWhile (fun c => !isDelimiter c) = digits at *
  generalize hrest : text.dropWhile (fun c => !isDelimiter c) = rest at *
  have htext : text = digits ++ rest := by rw [← hdigits, ← hrest, List.takeWhile_append_dropWhile]
  have hpos : ∀ c ∈ digits, (!isDelimiter c) = true := by
    intro c hc
    rw [← hdigits] at hc
    exact List.mem_takeWhile_imp (p := fun c => !isDelimiter c) hc
  -- what stands behind the number begins with a delimiter, which is no opening brace
  have hfront : (f rest).takeWhile (fun c => !isDelimiter c) = [] ∧ (f rest).dropWhile (fun c => !isDelimiter c) = f rest := by
    cases rest with
    | nil =>
      rw [hrw.nil]
      exact ⟨rfl, rfl⟩
    | cons c rest =>
      have hdelimiter : isDelimiter c = true := by
        have := List.head?_dropWhile_not (fun c => !isDelimiter c) text
        rw [hrest, List.head?_cons] at this
        simpa using this
      have hc : c ≠ '\x7b' := by
        rintro rfl
        cases hdelimiter
      rw [hrw.plain c rest hc]
      exact ⟨List.takeWhile_cons_of_neg (by simp [hdelimiter]), List.dropWhile_cons_of_neg (by simp [hdelimiter])⟩
  have htake : (f text).takeWhile (fun c => !isDelimiter c) = digits := by
    rw [htext, rewrite_append hrw (number_no_brace hnumber), List.takeWhile_append_of_pos hpos, hfront.1, List.append_nil]
  have hdrop : (f text).dropWhile (fun c => !isDelimiter c) = f rest := by
    rw [htext, rewrite_append hrw (number_no_brace hnumber), List.dropWhile_append_of_pos hpos, hfront.2]
  simp only [numeral, htake, hdrop, hrw.number]
  exact if_pos hnumber

theorem scalar_rewrite {c : Char} {rest behind : List Char} {v : Json} (hc : c ≠ '\x7b')
    (h : scalar a c rest = some (v, behind)) : scalar b c (f rest) = some (mapTexts g v, f behind) := by
  have hcons : c :: f rest = f (c :: rest) := (hrw.plain c rest hc).symm
  rw [scalar] at h
  rw [scalar, hcons]
  split_ifs at h ⊢
  · obtain ⟨hr, hread⟩ := keyword_rewrite hrw (by decide) h
    cases hr
    exact hread
  · obtain ⟨hr, hread⟩ := keyword_rewrite hrw (by decide) h
    cases hr
    exact hread
  · obtain ⟨hr, hread⟩ := keyword_rewrite hrw (by decide) h
    cases hr
    exact hread
  · obtain ⟨hsame, hread⟩ := numeral_rewrite hrw h
    rw [hsame]
    exact hread

/-- A reader whose result is rewritten with its text. -/
def Follows {α : Type} (f : List Char → List Char) (out : α → α) (read read' : List Char → Option (α × List Char)) : Prop :=
  ∀ text v rest, read text = some (v, rest) → read' (f text) = some (out v, f rest)

omit hrw in
theorem items_front {n : Nat} {text : List Char} {r : List Json × List Char} (h : items b n text = some r) :
    ∃ d inner, token text = some (d, inner) ∧ d ≠ ']' := by
  cases n with
  | zero => simp [items] at h
  | succ n =>
    rw [items] at h
    obtain ⟨⟨v, rest⟩, hv, -⟩ := bind_eq_some_iff.mp h
    cases n with
    | zero => simp [value] at hv
    | succ n =>
      rw [value] at hv
      obtain ⟨⟨d, inner⟩, htoken, hv⟩ := bind_eq_some_iff.mp hv
      refine ⟨d, inner, htoken, ?_⟩
      rintro rfl
      simp only at hv
      rw [if_neg (by decide), if_neg (by decide), if_neg (by decide), scalar, if_neg (by decide), if_neg (by decide),
        if_neg (by decide), numeral] at hv
      rw [List.takeWhile_cons_of_neg (by decide), if_neg (by decide)] at hv
      cases hv

omit hrw in
theorem members_front {n : Nat} {text : List Char} {r : List (String × Json) × List Char} (h : members b n text = some r) :
    ∃ inner, token text = some ('"', inner) := by
  cases n with
  | zero => simp [members] at h
  | succ n =>
    rw [members] at h
    obtain ⟨⟨quote, inner⟩, htoken, h⟩ := bind_eq_some_iff.mp h
    simp only at h
    split_ifs at h with hquote
    exact ⟨inner, hquote ▸ htoken⟩

theorem value_rewrite {n : Nat} (hitems : Follows f (mapItems g) (items a n) (items b n))
    (hmembers : Follows f (mapFields g) (members a n) (members b n)) :
    Follows f (mapTexts g) (value a (n + 1)) (value b (n + 1)) := by
  intro text v rest h
  rw [value] at h
  obtain ⟨⟨c, behind⟩, htoken, h⟩ := bind_eq_some_iff.mp h
  simp only at h
  split_ifs at h with hquote harr hobj
  · obtain ⟨⟨s, behind'⟩, hread, hr⟩ := map_eq_some_iff.mp h
    cases hr
    rw [value, token_rewrite hrw htoken (by rw [hquote]; decide), bind_some]
    simp only [if_pos hquote, hrw.text _ _ _ hread, map_some, mapTexts, String.toList_ofList]
  · obtain ⟨⟨d, inner⟩, hinner, h⟩ := bind_eq_some_iff.mp h
    simp only at h
    rw [value, token_rewrite hrw htoken (by rw [harr]; decide), bind_some]
    simp only [if_neg hquote, if_pos harr]
    split_ifs at h with hclose
    · cases h
      rw [token_rewrite hrw hinner (by rw [hclose]; decide), bind_some]
      exact if_pos hclose
    · obtain ⟨⟨vs, behind'⟩, hread, hr⟩ := map_eq_some_iff.mp h
      cases hr
      have hread' := hitems _ _ _ hread
      obtain ⟨d', inner', hfront, hne⟩ := items_front hread'
      rw [hfront, bind_some, if_neg hne, hread']
      rfl
  · obtain ⟨⟨d, inner⟩, hinner, h⟩ := bind_eq_some_iff.mp h
    simp only at h
    -- what stands behind the brace is no second one
    have hd : d ≠ '\x7b' := by
      rintro rfl
      rw [if_neg (by decide)] at h
      obtain ⟨⟨ms, behind'⟩, hread, -⟩ := map_eq_some_iff.mp h
      obtain ⟨inner', hfront⟩ := members_front hread
      rw [hinner] at hfront
      exact absurd (Prod.mk.inj (some.inj hfront)).1 (by decide)
    obtain ⟨e, behind', rfl, he⟩ : ∃ e behind', behind = e :: behind' ∧ e ≠ '\x7b' := by
      cases behind with
      | nil => simp [token] at hinner
      | cons e behind' =>
        refine ⟨e, behind', rfl, ?_⟩
        rintro rfl
        rw [token_char (by decide)] at hinner
        exact hd (Prod.mk.inj (some.inj hinner)).1.symm
    subst hobj
    rw [value, token_rewrite_brace hrw htoken he, bind_some]
    simp only [if_neg hquote, if_neg harr, if_true]
    rw [token_rewrite hrw hinner hd, bind_some]
    split_ifs at h ⊢ with hclose
    · cases h
      rw [mapTexts_objectOf]
      rfl
    · obtain ⟨⟨ms, behind''⟩, hread, hr⟩ := map_eq_some_iff.mp h
      cases hr
      rw [hmembers _ _ _ hread, map_some, mapTexts_objectOf]
  · have hc : c ≠ '\x7b' := hobj
    rw [value, token_rewrite hrw htoken hc, bind_some]
    simp only [if_neg hquote, if_neg harr, if_neg hobj]
    exact scalar_rewrite hrw hc h

theorem items_rewrite {n : Nat} (hvalue : Follows f (mapTexts g) (value a n) (value b n))
    (hitems : Follows f (mapItems g) (items a n) (items b n)) :
    Follows f (mapItems g) (items a (n + 1)) (items b (n + 1)) := by
  intro text vs rest h
  rw [items] at h
  obtain ⟨⟨v, behind⟩, hv, h⟩ := bind_eq_some_iff.mp h
  simp only at h
  obtain ⟨⟨c, behind'⟩, htoken, h⟩ := bind_eq_some_iff.mp h
  simp only at h
  have hc : c ≠ '\x7b' := by
    rintro rfl
    rw [if_neg (by decide), if_neg (by decide)] at h
    cases h
  rw [items, hvalue _ _ _ hv, bind_some]
  simp only [token_rewrite hrw htoken hc, bind_some]
  split_ifs at h ⊢ with hcomma hclose
  · obtain ⟨⟨vs', behind''⟩, hread, hr⟩ := map_eq_some_iff.mp h
    cases hr
    rw [hitems _ _ _ hread, map_some, mapItems]
  · cases h
    rfl

theorem members_rewrite {n : Nat} (hvalue : Follows f (mapTexts g) (value a n) (value b n))
    (hmembers : Follows f (mapFields g) (members a n) (members b n)) :
    Follows f (mapFields g) (members a (n + 1)) (members b (n + 1)) := by
  intro text ms rest h
  rw [members] at h
  obtain ⟨⟨quote, rest1⟩, hopen, h⟩ := bind_eq_some_iff.mp h
  simp only at h
  split_ifs at h with hquote
  obtain ⟨⟨k, rest2⟩, hkey, h⟩ := bind_eq_some_iff.mp h
  simp only at h
  obtain ⟨⟨colon, rest3⟩, hcolonToken, h⟩ := bind_eq_some_iff.mp h
  simp only at h
  split_ifs at h with hcolon
  obtain ⟨⟨v, rest4⟩, hv, h⟩ := bind_eq_some_iff.mp h
  simp only at h
  obtain ⟨⟨c, rest5⟩, htoken, h⟩ := bind_eq_some_iff.mp h
  simp only at h
  have hc : c ≠ '\x7b' := by
    rintro rfl
    rw [if_neg (by decide), if_neg (by decide)] at h
    cases h
  rw [members, token_rewrite hrw hopen (by rw [hquote]; decide), bind_some]
  simp only [if_pos hquote, hrw.key _ _ _ hkey, bind_some,
    token_rewrite hrw hcolonToken (by rw [hcolon]; decide), if_pos hcolon, hvalue _ _ _ hv, token_rewrite hrw htoken hc]
  split_ifs at h ⊢ with hcomma hclose
  · obtain ⟨⟨ms', behind⟩, hread, hr⟩ := map_eq_some_iff.mp h
    cases hr
    rw [hmembers _ _ _ hread, map_some, mapFields]
  · cases h
    rfl

theorem all_rewrite (n : Nat) : Follows f (mapTexts g) (value a n) (value b n) ∧
    Follows f (mapItems g) (items a n) (items b n) ∧ Follows f (mapFields g) (members a n) (members b n) := by
  induction n with
  | zero => exact ⟨nofun, nofun,
      nofun⟩
  | succ n ih =>
    obtain ⟨hvalue, hitems, hmembers⟩ := ih
    exact ⟨value_rewrite hrw hitems hmembers, items_rewrite hrw hvalue hitems, members_rewrite hrw hvalue hmembers⟩

/-- **A text that is rewritten inside of its literals** has its value with the texts rewritten. -/
theorem parse_rewrites (hforward : b.Forward) {text : List Char} {v : Json} (h : parse a text = some v) :
    parse b (f text) = some (mapTexts g v) := by
  rw [parse] at h
  obtain ⟨⟨v', rest⟩, hread, h⟩ := bind_eq_some_iff.mp h
  simp only at h
  split_ifs at h with hend
  cases h
  exact parse_of_value hforward ((all_rewrite hrw _).1 _ _ _ hread) (token_rewrite_end hrw hend)

end

end CfMonitor.Lib.JsonText
