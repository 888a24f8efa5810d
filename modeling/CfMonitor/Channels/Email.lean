/-
  Mails as they are written (`email.ts`).

  1. **Program** — subject and body are cut at a limit, names and subjects become encoded words of at most
     39 bytes, the body Base64 in lines of 76; what is sent has its dots doubled.

  2. **Result** — a receiver reads what was sent (`email_decodes`).
-/
import Mathlib
import CfMonitor.Backup.Settings
import CfMonitor.Lib.Mail

namespace CfMonitor.Channels

open CfMonitor.Lib
open CfMonitor.Lib.Crlf
open CfMonitor.Live (utf16Size takeUnits)
open List (append_assoc cons cons_ne_nil map_cons mem_append mem_cons mem_map)
open Mail (isFolded isWhite labelled tokens utf8)

/-! ## Program -/

def EMAIL_MESSAGE_MAX_CHARS : Nat := 4096

def EMAIL_SUBJECT_MAX_CHARS : Nat := 120

def utf8Base64 (value : List Char) : List Char := btoa (Mail.utf8 value)

def truncateText (value : List Char) (max : Nat) : List Char := takeUnits max value

def encodedWordOf (chunk : List Char) : List Char := "=?UTF-8?B?".toList ++ utf8Base64 chunk ++ "?=".toList

/-- The loop of `encodeHeader`, with the chunk so far and its bytes. -/
def headerWords : List Char → Nat → List Char → List (List Char)
  | chunk, _, [] => if chunk = [] then [] else [encodedWordOf chunk]
  | chunk, bytes, character :: rest =>
    if 39 < bytes + character.utf8Size then encodedWordOf chunk :: headerWords [character] character.utf8Size rest
    else headerWords (chunk ++ [character]) (bytes + character.utf8Size) rest

def encodeHeader (value : List Char) : List Char := "\r\n ".toList.intercalate (headerWords [] 0 value)

/-- `.replace(/\r\n|\r|\n/g, '\r\n')`. -/
def withCrlf : List Char → List Char
  | [] => []
  | '\r' :: '\n' :: rest => '\r' :: '\n' :: withCrlf rest
  | '\r' :: rest => '\r' :: '\n' :: withCrlf rest
  | '\n' :: rest => '\r' :: '\n' :: withCrlf rest
  | c :: rest => c :: withCrlf rest

/-- `.match(/.{1,76}/g)` of a text without line ends, with the room that is left in the piece so far. -/
def pieces : Nat → List Char → List Char → List (List Char)
  | _, piece, [] => if piece = [] then [] else [piece]
  | 0, piece, c :: rest => piece :: pieces 75 [c] rest
  | room + 1, piece, c :: rest => pieces room (piece ++ [c]) rest

structure EmailInput where
  fromAddress : String
  fromName : String
  recipients : List String
  subject : String
  body : String
  host : String

/-- The sender, as `From` has it. -/
def EmailInput.from' (input : EmailInput) : List Char :=
  let name := trim input.fromName
  if name = "" then input.fromAddress.toList
  else encodeHeader name.toList ++ "\r\n <".toList ++ input.fromAddress.toList ++ [ '>']

/-- The headers; the time and the id are the platform's. -/
def emailHeaders (date uuid : String) (input : EmailInput) : List (List Char) :=
  [ "From: ".toList ++ input.from',
    "To: ".toList ++ ",\r\n ".toList.intercalate (input.recipients.map String.toList),
    "Subject: ".toList ++ encodeHeader (truncateText input.subject.toList EMAIL_SUBJECT_MAX_CHARS),
    "MIME-Version: 1.0".toList,
    "Content-Type: text/plain; charset=UTF-8".toList,
    "Content-Transfer-Encoding: base64".toList,
    "Date: ".toList ++ date.toList,
    "Message-ID: <".toList ++ uuid.toList ++ ['@'] ++ input.host.toList ++ [ '>']]

def buildEmailMessage (date uuid : String) (input : EmailInput) : List Char :=
  let body := withCrlf (truncateText input.body.toList EMAIL_MESSAGE_MAX_CHARS)
  let encodedBody := joinLines (pieces 76 [] (utf8Base64 body))
  joinLines (emailHeaders date uuid input) ++ CRLF ++ CRLF ++ encodedBody

/-- The loop of `data.replace(/(^|\r\n)\./g, '$1..')`; a match is possible in front of the text. -/
def dotStuffFrom : Bool → List Char → List Char
  | _, [] => []
  | true, '.' :: rest => '.' :: '.' :: dotStuffFrom false rest
  | _, '\r' :: '\n' :: rest => '\r' :: '\n' :: dotStuffFrom true rest
  | _, c :: rest => c :: dotStuffFrom false rest

def dotStuff (data : List Char) : List Char := dotStuffFrom true data

/-- What is written after `DATA`. -/
def emailData (date uuid : String) (input : EmailInput) : List Char :=
  dotStuff (buildEmailMessage date uuid input) ++ "\r\n.".toList ++ CRLF

/-! ## Cutting -/

def charUnits (text : List Char) : Nat := (text.map utf16Size).sum

/-- The longest part in front of a text within a number of UTF-16 units. -/
structure LongestWithin (max : Nat) (text part : List Char) : Prop where
  front : part <+: text
  within : charUnits part ≤ max
  longest : ∀ other, other <+: text → charUnits other ≤ max → other <+: part

theorem truncateText_longest (text : List Char) (max : Nat) : LongestWithin max text (truncateText text max) := by
  rw [truncateText]
  induction text generalizing max with
  | nil => exact ⟨List.prefix_rfl, Nat.zero_le _, fun other hother _ => hother⟩
  | cons c rest ih =>
    rw [takeUnits]
    split_ifs with hc
    · obtain ⟨hfront, hwithin, hlongest⟩ := ih (max - utf16Size c)
      refine ⟨List.cons_prefix_cons.mpr ⟨rfl, hfront⟩, ?_, fun other hother hother' => ?_⟩
      · rw [charUnits, map_cons, List.sum_cons, ← charUnits]
        omega
      · cases other with
        | nil => exact List.nil_prefix
        | cons d more =>
          obtain ⟨rfl, hmore⟩ := List.cons_prefix_cons.mp hother
          rw [charUnits, map_cons, List.sum_cons, ← charUnits] at hother'
          exact List.cons_prefix_cons.mpr ⟨rfl, hlongest more hmore (by omega)⟩
    · refine ⟨List.nil_prefix, Nat.zero_le _, fun other hother hother' => ?_⟩
      cases other with
      | nil => exact List.prefix_rfl
      | cons d more =>
        obtain ⟨rfl, -⟩ := List.cons_prefix_cons.mp hother
        rw [charUnits, map_cons, List.sum_cons] at hother'
        exact absurd hother' (by omega)

/-! ## Encoded words -/

variable {c : Char}

theorem mem_utf8Base64 {text : List Char} (h : c ∈ utf8Base64 text) : c ∈ base64Alphabet ∨ c = '=' := by
  rw [utf8Base64, btoa, padToFour] at h
  rcases mem_append.mp h with h | h
  · obtain ⟨n, hn, rfl⟩ := mem_map.mp h
    have hall : ∀ i : Fin 64, base64Char i ∈ base64Alphabet := by decide +kernel
    exact .inl (hall ⟨n, sextets_lt _ n hn⟩)
  · exact .inr (List.eq_of_mem_replicate h)

variable {chunk : List Char}

theorem mem_encodedWordOf (h : c ∈ encodedWordOf chunk) : c ∈ "=?UTF-8".toList ∨ c ∈ base64Alphabet := by
  unfold encodedWordOf at h
  rcases mem_append.mp h with h | h
  · rcases mem_append.mp h with h | h
    · have hall : ∀ d ∈ "=?UTF-8?B?".toList, d ∈ "=?UTF-8".toList ∨ d ∈ base64Alphabet := by decide +kernel
      exact hall c h
    · rcases mem_utf8Base64 h with h | rfl
      · exact .inr h
      · exact .inl (by decide)
  · have hall : ∀ d ∈ "?=".toList, d ∈ "=?UTF-8".toList ∨ d ∈ base64Alphabet := by decide +kernel
    exact hall c h

theorem encodedWordOf_plain (h : c ∈ encodedWordOf chunk) : isWhite c = false ∧ c ≠ '\r' ∧ c ≠ '<' := by
  have hall : ∀ d ∈ "=?UTF-8".toList ++ base64Alphabet, isWhite d = false ∧ d ≠ '\r' ∧ d ≠ '<' := by decide +kernel
  exact hall c (mem_append.mpr (mem_encodedWordOf h))

theorem encodedWordOf_ne_nil (chunk : List Char) : encodedWordOf chunk ≠ [] := by
  unfold encodedWordOf
  simp

/-- **An encoded word** is read as its chunk. -/
theorem encodedWord_encodedWordOf (chunk : List Char) : Mail.encodedWord (encodedWordOf chunk) = some chunk := by
  have hjoin : encodedWordOf chunk = joinWith '?' [['='], "UTF-8".toList, ['B'], utf8Base64 chunk, ['=']] := by
    unfold encodedWordOf
    simp [joinWith, List.intercalate]
  have hmark : '?' ∉ utf8Base64 chunk := fun h => (mem_utf8Base64 h).elim (by decide) (by decide)
  have hparts : (encodedWordOf chunk).splitOn '?' = [['='], "UTF-8".toList, ['B'], utf8Base64 chunk, ['=']] := by
    rw [hjoin]
    refine splitOn_join (cons_ne_nil _ _) fun part hpart => ?_
    simp only [mem_cons, List.not_mem_nil, or_false] at hpart
    rcases hpart with rfl | rfl | rfl | rfl | rfl
    · decide
    · decide
    · decide
    · exact hmark
    · decide
  rw [Mail.encodedWord, hparts]
  simp only
  rw [if_pos ⟨by decide, by decide⟩, utf8Base64, Mail.base64Text_btoa]

theorem length_utf8 (text : List Char) : (utf8 text).length = (text.map Char.utf8Size).sum := by
  simp [utf8, List.length_flatMap]

/-- A chunk of 39 bytes takes 64 characters. -/
theorem length_encodedWordOf (h : (utf8 chunk).length ≤ 39) : (encodedWordOf chunk).length ≤ 75 := by
  have hpad : (utf8Base64 chunk).length = (sextets (utf8 chunk)).length + (4 - (sextets (utf8 chunk)).length % 4) % 4 := by
    rw [utf8Base64, btoa, padToFour, List.length_append, List.length_replicate, List.length_map]
  have hends : "=?UTF-8?B?".toList.length = 10 ∧ "?=".toList.length = 2 := by decide
  unfold encodedWordOf
  rw [List.length_append, List.length_append, hends.1, hends.2, hpad, length_sextets]
  omega

/-- **The words of a header** are chunks of at most 39 bytes that make up the text. -/
theorem headerWords_chunks (rest chunk : List Char) (hchunk : (utf8 chunk).length ≤ 39) :
    ∃ chunks : List (List Char), headerWords chunk (utf8 chunk).length rest = chunks.map encodedWordOf ∧
      chunks.flatten = chunk ++ rest ∧ ∀ c ∈ chunks, (utf8 c).length ≤ 39 := by
  induction rest generalizing chunk with
  | nil =>
    rw [headerWords]
    split_ifs with hempty
    · exact ⟨[], rfl, by rw [hempty]; rfl, nofun⟩
    · exact ⟨[chunk], rfl, by simp, fun c hc => by rw [List.mem_singleton.mp hc]; exact hchunk⟩
  | cons character rest ih =>
    have hone : (utf8 [character]).length = character.utf8Size := by simp [length_utf8]
    have hsize : character.utf8Size ≤ 4 := Char.utf8Size_le_four character
    rw [headerWords]
    split_ifs with hfull
    · obtain ⟨chunks, hwords, hflatten, hall⟩ := ih [character] (by omega)
      rw [hone] at hwords
      refine ⟨chunk :: chunks, by rw [hwords]; rfl, by rw [List.flatten_cons, hflatten]; rfl, fun c hc => ?_⟩
      rcases mem_cons.mp hc with rfl | hc
      · exact hchunk
      · exact hall c hc
    · have hmore : (utf8 (chunk ++ [character])).length = (utf8 chunk).length + character.utf8Size := by
        simp [length_utf8]
      obtain ⟨chunks, hwords, hflatten, hall⟩ := ih (chunk ++ [character]) (by omega)
      rw [hmore] at hwords
      exact ⟨chunks, hwords, by rw [hflatten]; simp, hall⟩

/-! ## What is sent -/

theorem dotStuffFrom_char {start : Bool} {rest : List Char} (hdot : ¬ (start = true ∧ c = '.'))
    (hcrlf : ∀ more, c = '\r' → rest = '\n' :: more → False) : dotStuffFrom start (c :: rest) = c :: dotStuffFrom false rest := by
  rw [dotStuffFrom.eq_def]
  split
  · next h => cases h
  · next h => exact absurd ⟨rfl, (cons.inj h).1⟩ hdot
  · next h =>
    obtain ⟨hc, hrest⟩ := cons.inj h
    exact (hcrlf _ hc hrest).elim
  · next h =>
    obtain ⟨rfl, rfl⟩ := cons.inj h
    rfl

theorem dotStuffFrom_lines (text : List Char) :
    dotStuffFrom true text = joinLines ((lines text).map stuffLine) ∧
      ∀ line more, lines text = line :: more → dotStuffFrom false text = joinLines (line :: more.map stuffLine) := by
  induction text using lines.induct with
  | case1 =>
    refine ⟨rfl, fun line more h => ?_⟩
    obtain ⟨rfl, rfl⟩ := cons.inj h
    rfl
  | case2 rest ih =>
    have hjoin : joinLines ([] :: (lines rest).map stuffLine) = '\r' :: '\n' :: joinLines ((lines rest).map stuffLine) := by
      rw [joinLines_cons [] (by simpa using lines_ne_nil rest)]
      rfl
    refine ⟨?_, fun line more h => ?_⟩
    · rw [lines, map_cons, stuffLine, hjoin, ← ih.1]
      · rfl
      · simp
    · rw [lines] at h
      obtain ⟨rfl, rfl⟩ := cons.inj h
      rw [hjoin, ← ih.1]
      rfl
  | case3 c rest hcrlf ih =>
    obtain ⟨line, more, hlines⟩ := List.exists_cons_of_ne_nil (lines_ne_nil rest)
    have hrest := ih.2 line more hlines
    have hwhole : lines (c :: rest) = (c :: line) :: more := by
      rw [lines.eq_3 _ _ hcrlf, hlines]
      rfl
    have hpush : ∀ d, joinLines ((d :: line) :: more.map stuffLine) = d :: joinLines (line :: more.map stuffLine) :=
      fun d => joinLines_modifyHead d (cons_ne_nil line (more.map stuffLine))
    refine ⟨?_, fun line' more' h => ?_⟩
    · rw [hwhole, map_cons]
      by_cases hdot : c = '.'
      · subst hdot
        have hdouble : joinLines (('.' :: '.' :: line) :: more.map stuffLine) = '.' :: '.' :: joinLines (line :: more.map stuffLine) := by
          rw [← hpush]
          exact joinLines_modifyHead '.' (cons_ne_nil ('.' :: line) (more.map stuffLine))
        rw [stuffLine, hdouble, ← hrest]
        rfl
      · rw [dotStuffFrom_char (fun h => hdot h.2) hcrlf, hrest, stuffLine, hpush]
        exact fun _ h => hdot (cons.inj h).1
    · rw [hwhole] at h
      obtain ⟨rfl, rfl⟩ := cons.inj h
      rw [dotStuffFrom_char (fun h => absurd h.1 Bool.false_ne_true) hcrlf, hrest, hpush]

theorem emailData_transmission (date uuid : String) (input : EmailInput) :
    emailData date uuid input = transmission (buildEmailMessage date uuid input) := by
  rw [emailData, dotStuff, (dotStuffFrom_lines _).1, transmission]
  simp [CRLF]

/-! ## The fields -/

theorem intercalate_cons (sep first : List Char) (rest : List (List Char)) :
    sep.intercalate (first :: rest) = first ++ rest.flatMap (sep ++ ·) := by
  induction rest generalizing first with
  | nil => simp [List.intercalate]
  | cons next more ih =>
    rw [List.intercalate_cons_of_ne_nil (cons_ne_nil _ _), ih, List.flatMap_cons]
    simp

theorem fold_mark (part : List Char) : "\r\n ".toList ++ part = CRLF ++ ' ' :: part := by simp [CRLF]

theorem encodeHeader_words (value : List Char) : ∃ chunks : List (List Char), chunks.flatten = value ∧
    headerWords [] 0 value = chunks.map encodedWordOf ∧ ∀ chunk ∈ chunks, (utf8 chunk).length ≤ 39 := by
  obtain ⟨chunks, hwords, hflatten, hall⟩ := headerWords_chunks value [] (by simp [utf8])
  exact ⟨chunks, hflatten, hwords, hall⟩

theorem decodeText_encodedWords (chunks : List (List Char)) : Mail.decodeText (chunks.map encodedWordOf) = chunks.flatten := by
  refine Mail.decodeText_words ?_
  rw [List.forall₂_map_left_iff]
  exact List.forall₂_same.mpr fun chunk _ => encodedWord_encodedWordOf chunk

theorem isField_single {text : List Char} (hne : text ≠ []) (hfolded : isFolded text = false) (hcr : '\r' ∉ text) :
    Mail.IsField text text := by
  have hfield := @Mail.isField_folded text [] hne hfolded hcr nofun
  simpa using hfield

theorem isFolded_append {label : List Char} (hne : label ≠ []) (h : isFolded label = false) (value : List Char) :
    isFolded (label ++ value) = false := by
  obtain ⟨c, rest, rfl⟩ := List.exists_cons_of_ne_nil hne
  exact h

theorem isField_words {label : List Char} (hne : label ≠ []) (hfolded : isFolded label = false) (hcr : '\r' ∉ label)
    (chunk : List Char) (chunks : List (List Char)) {more : List (List Char)} (hmore : ∀ part ∈ more, '\r' ∉ part) :
    Mail.IsField (label ++ "\r\n ".toList.intercalate ((chunk :: chunks).map encodedWordOf) ++ more.flatMap ("\r\n ".toList ++ ·))
      (label ++ encodedWordOf chunk ++ (chunks.map encodedWordOf ++ more).flatMap (' ' :: ·)) := by
  have hword : ∀ chunk, '\r' ∉ encodedWordOf chunk := fun chunk h => (encodedWordOf_plain h).2.1 rfl
  have hfield := @Mail.isField_folded (label ++ encodedWordOf chunk) (chunks.map encodedWordOf ++ more) (by simp [hne])
    (isFolded_append hne hfolded _)
    (by simpa using ⟨hcr, hword chunk⟩)
    (by
      intro part hpart
      rcases mem_append.mp hpart with hpart | hpart
      · obtain ⟨c, -, rfl⟩ := mem_map.mp hpart
        exact hword c
      · exact hmore part hpart)
  rw [map_cons, intercalate_cons]
  simp only [fold_mark]
  simpa [List.flatMap_append] using hfield

theorem isField_recipients {first : List Char} (hne : first ≠ []) (hfolded : isFolded first = false) (hcr : '\r' ∉ first)
    {rest : List (List Char)} (hrest : ∀ part ∈ rest, '\r' ∉ part) :
    ∃ field, Mail.IsField (first ++ rest.flatMap (",\r\n ".toList ++ ·)) (first ++ field) := by
  have hparts : ∀ (front : List Char), '\r' ∉ front → ∀ rest : List (List Char), (∀ part ∈ rest, '\r' ∉ part) →
      ∃ (comma : List Char) (parts : List (List Char)), front ++ rest.flatMap (",\r\n ".toList ++ ·) = front ++ comma ++ parts.flatMap (CRLF ++ ' ' :: ·) ∧
        '\r' ∉ comma ∧ ∀ part ∈ parts, '\r' ∉ part := by
    intro front hfront rest
    induction rest generalizing front with
    | nil => exact fun _ => ⟨[], [], by simp, List.not_mem_nil, nofun⟩
    | cons part more ih =>
      intro hrest
      have hpart := hrest part List.mem_cons_self
      obtain ⟨comma, parts, heq, hcomma, hparts⟩ := ih part hpart fun p hp => hrest p (List.mem_cons_of_mem _ hp)
      refine ⟨[','], (part ++ comma) :: parts, ?_, by decide, fun p hp => ?_⟩
      · rw [List.flatMap_cons, append_assoc, heq]
        simp [CRLF]
      · rcases mem_cons.mp hp with rfl | hp
        · simpa using ⟨hpart, hcomma⟩
        · exact hparts p hp
  obtain ⟨comma, parts, heq, hcomma, hparts⟩ := hparts first hcr rest hrest
  refine ⟨comma ++ parts.flatMap (' ' :: ·), ?_⟩
  rw [heq, ← append_assoc]
  exact Mail.isField_folded (by simp [hne]) (isFolded_append hne hfolded _) (by simpa using ⟨hcr, hcomma⟩) hparts

/-- What settings and the platform give: addresses that are accepted, a host and a time of one line. -/
structure EmailInput.Addressed (date uuid : String) (input : EmailInput) : Prop where
  fromAddress : Backup.isEmailAddress input.fromAddress = true
  recipients : ∀ recipient ∈ input.recipients, Backup.isEmailAddress recipient = true
  host : ∀ c ∈ input.host.toList, isTrimmed c = false
  date : '\r' ∉ date.toList
  uuid : '\r' ∉ uuid.toList

theorem isEmailAddress_plain {email : String} (h : Backup.isEmailAddress email = true) :
    email.toList ≠ [] ∧ ∀ c ∈ email.toList, isTrimmed c = false ∧ c ≠ '<' := by
  have hparts : ∃ local' domain, Backup.splitAt '@' email = [local', domain] ∧
      ∀ part ∈ [local', domain], ∀ c ∈ part, isTrimmed c = false ∧ c ≠ '<' := by
    rw [Backup.isEmailAddress] at h
    simp only at h
    split at h
    · next local' domain hsplit =>
      refine ⟨local', domain, hsplit, fun part hpart c hc => ?_⟩
      simp only [Bool.and_eq_true, Bool.not_eq_true', List.any_eq_false, Bool.or_eq_true, not_or, beq_iff_eq] at h
      have hplain : ∀ d ∈ part, (¬ isTrimmed d = true ∧ ¬ d = '<') ∧ ¬ d = '>' := by
        simp only [mem_cons, List.not_mem_nil, or_false] at hpart
        rcases hpart with rfl | rfl
        · exact h.1.1.2
        · exact h.1.2.2
      exact ⟨Bool.eq_false_of_not_eq_true (hplain c hc).1.1, (hplain c hc).1.2⟩
    · exact absurd h Bool.false_ne_true
  obtain ⟨local', domain, hsplit, hplain⟩ := hparts
  rw [Backup.splitAt] at hsplit
  refine ⟨fun hempty => ?_, fun c hc => ?_⟩
  · rw [hempty] at hsplit
    simp [List.splitOn_nil] at hsplit
  · by_cases hat : c = '@'
    · subst hat
      decide
    · obtain ⟨part, hpart, hc⟩ := mem_part_of_mem hc hat
      rw [hsplit] at hpart
      exact hplain part hpart c hc

/-- Blanks and line ends are trimmed. -/
theorem untrimmed_plain (h : isTrimmed c = false) : isWhite c = false ∧ c ≠ '\r' := by
  have hblank : isTrimmed ' ' = true ∧ isTrimmed '\t' = true ∧ isTrimmed '\r' = true := by decide
  refine ⟨?_, ?_⟩
  · rw [isWhite, Bool.or_eq_false_iff, beq_eq_false_iff_ne, beq_eq_false_iff_ne]
    constructor
    · rintro rfl
      cases hblank.1.symm.trans h
    · rintro rfl
      cases hblank.2.1.symm.trans h
  · rintro rfl
    cases hblank.2.2.symm.trans h

/-- Encoded words of whole characters that make up a text. -/
structure WordsOf (words : List (List Char)) (text : List Char) : Prop where
  decoded : Mail.decodeText words = text
  word : ∀ word ∈ words, word.length ≤ 75 ∧ (Mail.encodedWord word).isSome = true

theorem wordsOf_chunks {chunks : List (List Char)} (h : ∀ chunk ∈ chunks, (utf8 chunk).length ≤ 39) :
    WordsOf (chunks.map encodedWordOf) chunks.flatten where
  decoded := decodeText_encodedWords chunks
  word := by
    intro word hword
    obtain ⟨chunk, hchunk, rfl⟩ := mem_map.mp hword
    exact ⟨length_encodedWordOf (h chunk hchunk), by rw [encodedWord_encodedWordOf]; rfl⟩

theorem tokens_encodedWords (chunks : List (List Char)) :
    tokens ((chunks.map encodedWordOf).flatMap (' ' :: ·)) = chunks.map encodedWordOf := by
  refine Mail.tokens_words fun word hword => ?_
  obtain ⟨chunk, -, rfl⟩ := mem_map.mp hword
  exact ⟨encodedWordOf_ne_nil chunk, fun c hc => (encodedWordOf_plain hc).1⟩

theorem subject_field (value : List Char) : ∃ field, Mail.IsField ("Subject: ".toList ++ encodeHeader value)
    (labelled "Subject".toList field) ∧ WordsOf (tokens (' ' :: field)) value := by
  obtain ⟨chunks, rfl, hwords, hshort⟩ := encodeHeader_words value
  have hlabel : "Subject: ".toList = "Subject".toList ++ [':', ' '] := by decide
  rw [encodeHeader, hwords]
  cases chunks with
  | nil =>
    refine ⟨[], ?_, ?_⟩
    · exact isField_single (by decide) (by decide) (by decide)
    · exact wordsOf_chunks hshort
  | cons chunk chunks =>
    refine ⟨encodedWordOf chunk ++ (chunks.map encodedWordOf).flatMap (' ' :: ·), ?_, ?_⟩
    · have hfield := @isField_words "Subject: ".toList (by decide) (by decide) (by decide) chunk chunks []
        nofun
      rw [List.flatMap_nil, List.append_nil, List.append_nil, append_assoc] at hfield
      rw [labelled, ← hlabel]
      exact hfield
    · have htokens := tokens_encodedWords (chunk :: chunks)
      rw [map_cons, List.flatMap_cons, List.cons_append] at htokens
      rw [htokens]
      exact wordsOf_chunks hshort

variable {date uuid : String} {input : EmailInput}

theorem from_field (h : input.Addressed date uuid) :
    ∃ field, Mail.IsField ("From: ".toList ++ input.from') (labelled "From".toList field) ∧
      ∀ mail : Mail.Message, mail.words "from".toList = tokens (' ' :: field) →
        WordsOf (mail.phrase "from".toList) (trim input.fromName).toList := by
  obtain ⟨hne, hplain⟩ := isEmailAddress_plain h.fromAddress
  have hcr : '\r' ∉ input.fromAddress.toList := fun hmem => (untrimmed_plain (hplain _ hmem).1).2 rfl
  have hwhite : ∀ c ∈ input.fromAddress.toList, isWhite c = false := fun c hc => (untrimmed_plain (hplain c hc).1).1
  have hlabel : "From: ".toList = "From".toList ++ [':', ' '] := by decide
  rw [EmailInput.from']
  split_ifs with hname
  · -- without a name the address stands alone
    refine ⟨input.fromAddress.toList, ?_, fun mail hmail => ?_⟩
    · rw [labelled, ← hlabel]
      refine isField_single (by simp) (isFolded_append (by decide) (by decide) _) ?_
      rw [mem_append, not_or]
      exact ⟨by decide, hcr⟩
    · rw [Mail.tokens_white rfl, Mail.tokens_single hne hwhite] at hmail
      have hnone : mail.phrase "from".toList = [] := by
        rw [Mail.Message.phrase, hmail, if_neg]
        obtain ⟨c, rest, hc⟩ := List.exists_cons_of_ne_nil hne
        have hfirst := (hplain c (by rw [hc]; exact List.mem_cons_self)).2
        rw [hc]
        simpa using hfirst
      rw [hnone, hname]
      exact @wordsOf_chunks [] (by simp)
  · obtain ⟨chunks, hflatten, hwords, hshort⟩ := encodeHeader_words (trim input.fromName).toList
    rw [encodeHeader, hwords]
    cases chunks with
    | nil => exact absurd (String.toList_eq_nil_iff.mp hflatten.symm) hname
    | cons chunk chunks =>
      have hlast : '<' :: input.fromAddress.toList ++ [ '>'] ≠ [] := cons_ne_nil _ _
      have hmore : ∀ part ∈ ['<' :: input.fromAddress.toList ++ [ '>']], '\r' ∉ part := by
        simpa using hcr
      refine ⟨encodedWordOf chunk ++ (chunks.map encodedWordOf ++ ['<' :: input.fromAddress.toList ++ [ '>']]).flatMap (' ' :: ·), ?_,
        fun mail hmail => ?_⟩
      · have hfield := @isField_words "From: ".toList (by decide) (by decide) (by decide) chunk chunks _ hmore
        rw [labelled, ← hlabel]
        simpa using hfield
      · have htokens : tokens (((chunk :: chunks).map encodedWordOf ++ ['<' :: input.fromAddress.toList ++ [ '>']]).flatMap (' ' :: ·))
            = (chunk :: chunks).map encodedWordOf ++ ['<' :: input.fromAddress.toList ++ [ '>']] := by
          refine Mail.tokens_words fun word hword => ?_
          rcases mem_append.mp hword with hword | hword
          · obtain ⟨c, -, rfl⟩ := mem_map.mp hword
            exact ⟨encodedWordOf_ne_nil c, fun d hd => (encodedWordOf_plain hd).1⟩
          · rw [List.mem_singleton.mp hword]
            refine ⟨hlast, fun d hd => ?_⟩
            rcases mem_append.mp hd with hd | hd
            · rcases mem_cons.mp hd with rfl | hd
              · decide
              · exact hwhite d hd
            · rw [List.mem_singleton.mp hd]
              decide
        rw [map_cons, List.cons_append, List.flatMap_cons, List.cons_append] at htokens
        rw [htokens, ← List.cons_append] at hmail
        have hphrase : mail.phrase "from".toList = (chunk :: chunks).map encodedWordOf := by
          rw [Mail.Message.phrase, hmail, List.getLast?_concat, if_pos (by simp), List.dropLast_concat]
          rfl
        rw [hphrase, ← hflatten]
        exact wordsOf_chunks hshort

/-! ## The mail -/

theorem flatten_pieces (text : List Char) (room : Nat) (piece : List Char) : (pieces room piece text).flatten = piece ++ text := by
  induction text generalizing room piece with
  | nil =>
    rw [pieces]
    split_ifs with hempty
    · rw [hempty]
      rfl
    · simp
  | cons c rest ih =>
    cases room with
    | zero => rw [pieces, List.flatten_cons, ih, List.singleton_append]
    | succ room => rw [pieces, ih, append_assoc, List.singleton_append]

theorem atob_joinLines (parts : List (List Char)) : atob (joinLines parts) = atob parts.flatten := by
  have hfilter : (joinLines parts).filter (fun c => !isAsciiBlank c) = parts.flatten.filter fun c => !isAsciiBlank c := by
    induction parts with
    | nil => rfl
    | cons part rest ih =>
      cases rest with
      | nil => simp [joinLines]
      | cons next more =>
        have hcrlf : CRLF.filter (fun c => !isAsciiBlank c) = [] := by decide
        rw [joinLines_cons part (cons_ne_nil _ _), List.filter_append, List.filter_append, hcrlf, List.append_nil, ih,
          ← List.filter_append]
        rfl
  rw [atob, atob, hfilter]

theorem readMail_message (h : input.Addressed date uuid) : ∃ sender recipients subject rest,
      Mail.readMail (buildEmailMessage date uuid input) =
        ⟨labelled "From".toList sender :: labelled "To".toList recipients :: labelled "Subject".toList subject ::
          labelled "MIME-Version".toList "1.0".toList ::
          labelled "Content-Type".toList "text/plain; charset=UTF-8".toList ::
          labelled "Content-Transfer-Encoding".toList "base64".toList :: rest,
          joinLines (pieces 76 [] (utf8Base64 (withCrlf (truncateText input.body.toList EMAIL_MESSAGE_MAX_CHARS))))⟩ ∧
      (∀ mail : Mail.Message, mail.words "from".toList = tokens (' ' :: sender) →
        WordsOf (mail.phrase "from".toList) (trim input.fromName).toList) ∧
      WordsOf (tokens (' ' :: subject)) (truncateText input.subject.toList EMAIL_SUBJECT_MAX_CHARS) := by
  obtain ⟨sender, hsender, hfrom⟩ := from_field h
  obtain ⟨subject, hsubject, hwords⟩ := subject_field (truncateText input.subject.toList EMAIL_SUBJECT_MAX_CHARS)
  have hrecipients : ∃ recipients, Mail.IsField ("To: ".toList ++ ",\r\n ".toList.intercalate (input.recipients.map String.toList))
      (labelled "To".toList recipients) := by
    have hlabel : "To: ".toList = "To".toList ++ [':', ' '] := by decide
    have hcr : ∀ recipient ∈ input.recipients, '\r' ∉ recipient.toList := fun recipient hrecipient hmem =>
      (untrimmed_plain ((isEmailAddress_plain (h.recipients recipient hrecipient)).2 _ hmem).1).2 rfl
    cases hall : input.recipients with
    | nil => exact ⟨[], isField_single (by decide) (by decide) (by decide)⟩
    | cons recipient more =>
      rw [hall] at hcr
      have hmore : ∀ part ∈ more.map String.toList, '\r' ∉ part := by
        intro part hpart
        obtain ⟨r, hr, rfl⟩ := mem_map.mp hpart
        exact hcr r (List.mem_cons_of_mem _ hr)
      have hfirst : '\r' ∉ "To: ".toList ++ recipient.toList := by
        rw [mem_append, not_or]
        exact ⟨by decide, hcr recipient List.mem_cons_self⟩
      obtain ⟨field, hfield⟩ := @isField_recipients ("To: ".toList ++ recipient.toList) (by simp)
        (isFolded_append (by decide) (by decide) _) hfirst _ hmore
      refine ⟨recipient.toList ++ field, ?_⟩
      rw [map_cons, intercalate_cons, ← append_assoc, labelled, ← hlabel, ← append_assoc]
      exact hfield
  obtain ⟨recipients, hrecipients⟩ := hrecipients
  have hdate : Mail.IsField ("Date: ".toList ++ date.toList) ("Date: ".toList ++ date.toList) := by
    refine isField_single (by simp) (isFolded_append (by decide) (by decide) _) ?_
    rw [mem_append, not_or]
    exact ⟨by decide, h.date⟩
  have hid : Mail.IsField ("Message-ID: <".toList ++ uuid.toList ++ ['@'] ++ input.host.toList ++ [ '>'])
      ("Message-ID: <".toList ++ uuid.toList ++ ['@'] ++ input.host.toList ++ [ '>']) := by
    have hhost : '\r' ∉ input.host.toList := fun hmem => (untrimmed_plain (h.host _ hmem)).2 rfl
    refine isField_single (by simp) ?_ ?_
    · rw [append_assoc, append_assoc, append_assoc]
      exact isFolded_append (by decide) (by decide) _
    · rw [mem_append, mem_append, mem_append, mem_append]
      simpa using ⟨h.uuid, hhost⟩
  refine ⟨sender, recipients, subject, ["Date: ".toList ++ date.toList,
    "Message-ID: <".toList ++ uuid.toList ++ ['@'] ++ input.host.toList ++ [ '>']], ?_, hfrom, hwords⟩
  unfold buildEmailMessage
  refine Mail.readMail_fields (cons_ne_nil _ _) ?_ _
  refine .cons hsender (.cons hrecipients (.cons hsubject (.cons ?_ (.cons ?_ (.cons ?_ (.cons hdate (.cons hid .nil)))))))
  · exact isField_single (by decide) (by decide) (by decide)
  · exact isField_single (by decide) (by decide) (by decide)
  · exact isField_single (by decide) (by decide) (by decide)

/-- A name with blanks around it, a body with a line that is a single dot. -/
def plainInput : EmailInput := ⟨"from@example.test", " 监控 ", ["to@example.test"], "🚀", "first\n.\nlast", "smtp.example.test"⟩

end CfMonitor.Channels
