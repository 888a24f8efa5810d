/-
  Reading a mail, as its receiver does (RFC 5322, RFC 2045, RFC 2047).

  1. **Encoded words** — a word `=?utf-8?B?…?=` stands for a text; between two of them white space counts
     for nothing (`decodeText_words`).

  2. **Fields** — a field is folded over lines, each but the first with white space in front.

  3. **Mail** — the fields stand in front of the first empty line, the body behind it (`readMail_fields`).
-/
import CfMonitor.Lib.Base64
import CfMonitor.Lib.CrlfLines
import CfMonitor.Lib.Split

namespace CfMonitor.Lib.Mail

open CfMonitor.Lib.Crlf

/-! ## Encoded words -/

def utf8 (text : List Char) : List UInt8 := text.flatMap String.utf8EncodeChar

/-- The text of some bytes, if they are whole characters. -/
def ofUtf8 (bytes : List UInt8) : Option (List Char) := (ByteArray.mk bytes.toArray).utf8Decode?.map Array.toList

/-- The text behind its Base64 form, white space left out. -/
def base64Text (text : List Char) : Option (List Char) := (atob text).bind ofUtf8

def encodedWord (token : List Char) : Option (List Char) :=
  match token.splitOn '?' with
  | [['='], charset, encoding, text, ['=']] =>
    if charset.map Char.toLower = "utf-8".toList ∧ encoding.map Char.toLower = ['b'] then base64Text text else none
  | _ => none

def isWhite (c : Char) : Bool := c == ' ' || c == '\t'

def tokens (text : List Char) : List (List Char) := (text.splitOnP isWhite).filter (· ≠ [])

/-- A token and whether it is an encoded word. -/
def readToken (token : List Char) : Bool × List Char :=
  match encodedWord token with
  | some text => (true, text)
  | none => (false, token)

/-- White space stays but between encoded words. -/
def joinTokens : List (Bool × List Char) → List Char
  | [] => []
  | [(_, text)] => text
  | (encoded, text) :: (encoded', text') :: rest =>
    text ++ (if encoded && encoded' then [] else [' ']) ++ joinTokens ((encoded', text') :: rest)

def decodeText (words : List (List Char)) : List Char := joinTokens (words.map readToken)

theorem ofUtf8_utf8 (text : List Char) : ofUtf8 (utf8 text) = some text := by
  have hbytes : ByteArray.mk (utf8 text).toArray = text.utf8Encode := by
    rw [List.utf8Encode, utf8]
    exact ByteArray.ext List.data_toByteArray.symm
  rw [ofUtf8, hbytes, List.utf8Decode?_utf8Encode]
  rfl

theorem base64Text_btoa (text : List Char) : base64Text (btoa (utf8 text)) = some text := by
  rw [base64Text, btoa, atob_padded, Option.bind_some, ofUtf8_utf8]

/-- **Encoded words** are put together without what stands between them. -/
theorem decodeText_words {words chunks : List (List Char)}
    (h : List.Forall₂ (fun word chunk => encodedWord word = some chunk) words chunks) : decodeText words = chunks.flatten := by
  have hread : words.map readToken = chunks.map (true, ·) := by
    induction h with
    | nil => rfl
    | cons hword _ ih => rw [List.map_cons, List.map_cons, ih, readToken, hword]
  rw [decodeText, hread]
  clear h hread words
  induction chunks with
  | nil => rfl
  | cons chunk rest ih =>
    cases rest with
    | nil => simp [joinTokens]
    | cons next more =>
      rw [List.map_cons] at ih
      rw [List.map_cons, List.map_cons, joinTokens, ih]
      simp

theorem tokens_white {c : Char} (hc : isWhite c = true) (text : List Char) : tokens (c :: text) = tokens text := by
  rw [tokens, List.splitOnP_cons_eq_if_modifyHead, if_pos hc]
  rfl

theorem tokens_append_white {word : List Char} (hne : word ≠ []) (hword : ∀ c ∈ word, isWhite c = false) {c : Char}
    (hc : isWhite c = true) (text : List Char) : tokens (word ++ c :: text) = word :: tokens text := by
  rw [tokens, List.splitOnP_append_cons_of_forall_mem hword c hc, List.filter_cons_of_pos (by simpa using hne)]
  rfl

theorem tokens_single {word : List Char} (hne : word ≠ []) (hword : ∀ c ∈ word, isWhite c = false) : tokens word = [word] := by
  rw [tokens, List.splitOnP_eq_singleton hword, List.filter_cons_of_pos (by simpa using hne)]
  rfl

/-- **Words** with a blank in front of each are found again. -/
theorem tokens_words {words : List (List Char)} (h : ∀ word ∈ words, word ≠ [] ∧ ∀ c ∈ word, isWhite c = false) :
    tokens (words.flatMap (' ' :: ·)) = words := by
  induction words with
  | nil => rfl
  | cons word rest ih =>
    have hword := h word List.mem_cons_self
    have hrest := ih fun w hw => h w (List.mem_cons_of_mem _ hw)
    rw [List.flatMap_cons, List.cons_append, tokens_white rfl]
    cases rest with
    | nil => rw [List.flatMap_nil, List.append_nil, tokens_single hword.1 hword.2]
    | cons next more =>
      rw [List.flatMap_cons, List.cons_append] at hrest ⊢
      rw [tokens_append_white hword.1 hword.2 rfl, ← hrest, tokens_white rfl]

/-! ## Fields -/

/-- A line that goes on with the field in front of it. -/
def isFolded (line : List Char) : Bool := line.head?.any isWhite

/-- From the last line on: what goes on with a field, and the fields. -/
def unfoldStep (line : List Char) (done : List Char × List (List Char)) : List Char × List (List Char) :=
  if isFolded line then (line ++ done.1, done.2) else ([], (line ++ done.1) :: done.2)

def unfoldLines (ls : List (List Char)) : List (List Char) := (ls.foldr unfoldStep ([], [])).2

/-- A text over one or more lines is a field. -/
def IsField (text field : List Char) : Prop :=
  ∃ first more, lines text = first :: more ∧ first ≠ [] ∧ isFolded first = false ∧ (∀ line ∈ more, isFolded line = true) ∧
    field = first ++ more.flatten

theorem foldr_unfoldStep_folded {more : List (List Char)} (hmore : ∀ line ∈ more, isFolded line = true)
    (done : List Char × List (List Char)) : more.foldr unfoldStep done = (more.flatten ++ done.1, done.2) := by
  induction more with
  | nil => rfl
  | cons line rest ih =>
    rw [List.foldr_cons, ih fun l hl => hmore l (List.mem_cons_of_mem _ hl), unfoldStep, if_pos (hmore line List.mem_cons_self),
      List.flatten_cons, List.append_assoc]

variable {texts : List (List Char)}

/-- **Folded fields** are found again. -/
theorem unfoldLines_fields {fields : List (List Char)} (h : List.Forall₂ IsField texts fields) :
    (texts.flatMap lines).foldr unfoldStep ([], []) = ([], fields) := by
  induction h with
  | nil => rfl
  | cons hfield _ ih =>
    obtain ⟨first, more, hlines, -, hfirst, hmore, rfl⟩ := hfield
    rw [List.flatMap_cons, List.foldr_append, ih, hlines, List.foldr_cons, foldr_unfoldStep_folded hmore, unfoldStep,
      if_neg (by rw [hfirst]; exact Bool.false_ne_true), List.append_nil]

theorem isField_folded {first : List Char} {parts : List (List Char)} (hne : first ≠ []) (hfirst : isFolded first = false)
    (hcr : '\r' ∉ first) (hparts : ∀ part ∈ parts, '\r' ∉ part) :
    IsField (first ++ parts.flatMap (CRLF ++ ' ' :: ·)) (first ++ parts.flatMap (' ' :: ·)) := by
  refine ⟨first, parts.map (' ' :: ·), ?_, hne, hfirst, ?_, by rw [List.flatMap_def]⟩
  · have hall : ∀ (front : List Char), '\r' ∉ front → ∀ parts : List (List Char), (∀ part ∈ parts, '\r' ∉ part) →
        lines (front ++ parts.flatMap (CRLF ++ ' ' :: ·)) = front :: parts.map (' ' :: ·) := by
      intro front hfront parts
      induction parts generalizing front with
      | nil =>
        intro _
        rw [List.flatMap_nil, List.append_nil]
        exact lines_single hfront
      | cons part rest ih =>
        intro hparts
        have hpart : '\r' ∉ ' ' :: part := by
          simpa using hparts part List.mem_cons_self
        rw [List.flatMap_cons, List.append_assoc, ← List.append_assoc, lines_append_crlf, lines_single hfront,
          ih _ hpart fun p hp => hparts p (List.mem_cons_of_mem _ hp)]
        rfl
    exact hall first hcr parts hparts
  · intro line hline
    obtain ⟨part, -, rfl⟩ := List.mem_map.mp hline
    rfl

/-! ## Mail -/

structure Message where
  fields : List (List Char)
  body : List Char

def readMail (text : List Char) : Message :=
  let ls := lines text
  ⟨unfoldLines (ls.takeWhile (· != [])), joinLines ((ls.dropWhile (· != [])).drop 1)⟩

/-- What stands behind the name of a field and its colon. -/
def Message.field (mail : Message) (name : List Char) : Option (List Char) :=
  (mail.fields.find? fun field => (name ++ [':']).isPrefixOf (field.map Char.toLower)).map fun field =>
    field.drop (name.length + 1)

/-- The words of a field. -/
def Message.words (mail : Message) (name : List Char) : List (List Char) := ((mail.field name).map tokens).getD []

/-- The text of a field. -/
def Message.unstructured (mail : Message) (name : List Char) : List Char := decodeText (mail.words name)

/-- The words in front of an address in angle brackets. -/
def Message.phrase (mail : Message) (name : List Char) : List (List Char) :=
  if (mail.words name).getLast?.any (fun word => word.head? == some '<') then (mail.words name).dropLast else []

/-- The name of the mailbox in a field. -/
def Message.displayName (mail : Message) (name : List Char) : List Char := decodeText (mail.phrase name)

/-- The text of the body. -/
def Message.text (mail : Message) : Option (List Char) :=
  if mail.words "content-transfer-encoding".toList = ["base64".toList] then base64Text mail.body else none

theorem lines_joinLines_flatMap (hne : texts ≠ []) : lines (joinLines texts) = texts.flatMap lines := by
  induction texts with
  | nil => exact absurd rfl hne
  | cons text rest ih =>
    cases rest with
    | nil => simp [joinLines]
    | cons next more =>
      rw [joinLines_cons text (List.cons_ne_nil _ _), lines_append_crlf, ih (List.cons_ne_nil _ _)]
      rfl

/-- **A mail** is read as the fields and the body that it is made of. -/
theorem readMail_fields {fields : List (List Char)} (hne : texts ≠ []) (h : List.Forall₂ IsField texts fields)
    (body : List Char) : readMail (joinLines texts ++ CRLF ++ CRLF ++ body) = ⟨fields, body⟩ := by
  have hlines : lines (joinLines texts ++ CRLF ++ CRLF ++ body) = texts.flatMap lines ++ [] :: lines body := by
    rw [List.append_assoc, lines_append_crlf, lines_joinLines_flatMap hne]
    rfl
  have hfull : ∀ line ∈ texts.flatMap lines, (line != []) = true := by
    clear hlines hne
    induction h with
    | nil => exact nofun
    | cons hfield _ ih =>
      obtain ⟨first, more, hlines, hfirst, -, hmore, -⟩ := hfield
      intro line hline
      rw [bne_iff_ne]
      rw [List.flatMap_cons, hlines] at hline
      rcases List.mem_append.mp hline with hline | hline
      · rcases List.mem_cons.mp hline with rfl | hline
        · exact hfirst
        · rintro rfl
          exact absurd (hmore [] hline) (by simp [isFolded])
      · exact bne_iff_ne.mp (ih line hline)
  have htake : (texts.flatMap lines ++ [] :: lines body).takeWhile (· != []) = texts.flatMap lines := by
    rw [List.takeWhile_append_of_pos hfull, List.takeWhile_cons_of_neg (by simp), List.append_nil]
  have hdrop : (texts.flatMap lines ++ [] :: lines body).dropWhile (· != []) = [] :: lines body := by
    rw [List.dropWhile_append_of_pos hfull, List.dropWhile_cons_of_neg (by simp)]
  rw [readMail, hlines]
  simp only [htake, hdrop, List.drop_one, List.tail_cons]
  rw [unfoldLines, unfoldLines_fields h, joinLines_lines]

/-! ## Looking up a field -/

theorem isPrefixOf_other {name label : List Char} (hlong : ¬ name <+: label) (hshort : ¬ label <+: name) (value : List Char) :
    name.isPrefixOf (label ++ value) = false := by
  rw [Bool.eq_false_iff, ne_eq, List.isPrefixOf_iff_prefix]
  intro h
  rcases List.prefix_or_prefix_of_prefix h (List.prefix_append label value) with h | h
  · exact hlong h
  · exact hshort h

/-- A field as it is written. -/
def labelled (label value : List Char) : List Char := label ++ [':', ' '] ++ value

/-- **The first field** with a name is found. -/
theorem field_found {mail : Message} {label value : List Char} {front rest : List (List Char)}
    (hfields : mail.fields = front ++ labelled label value :: rest)
    (hfront : ∀ field ∈ front, ∃ label' value', field = labelled label' value' ∧
      ¬ label.map Char.toLower ++ [':'] <+: label'.map Char.toLower ++ [':', ' '] ∧
      ¬ label'.map Char.toLower ++ [':', ' '] <+: label.map Char.toLower ++ [':']) :
    mail.field (label.map Char.toLower) = some (' ' :: value) := by
  have hskip : ∀ field ∈ front, ¬ (label.map Char.toLower ++ [':']).isPrefixOf (field.map Char.toLower) = true := by
    intro field hfield
    obtain ⟨label', value', rfl, hlong, hshort⟩ := hfront field hfield
    have hlabel : (labelled label' value').map Char.toLower
        = label'.map Char.toLower ++ [':', ' '] ++ value'.map Char.toLower := by simp [labelled]
    rw [hlabel, isPrefixOf_other hlong hshort]
    exact Bool.false_ne_true
  have hfound : (label.map Char.toLower ++ [':']).isPrefixOf ((labelled label value).map Char.toLower) = true := by
    rw [List.isPrefixOf_iff_prefix]
    exact ⟨' ' :: value.map Char.toLower, by simp [labelled]⟩
  have hdrop : (labelled label value).drop ((label.map Char.toLower).length + 1) = ' ' :: value := by
    have hsplit : labelled label value = (label ++ [':']) ++ ' ' :: value := by simp [labelled]
    rw [hsplit, List.drop_left' (by simp)]
  have hfind : (labelled label value :: rest).find? (fun field =>
      (label.map Char.toLower ++ [':']).isPrefixOf (field.map Char.toLower)) = some (labelled label value) := by
    rw [List.find?_cons, hfound]
  rw [Message.field, hfields, List.find?_append, List.find?_eq_none.mpr hskip, Option.none_or, hfind, Option.map_some, hdrop]

end CfMonitor.Lib.Mail
