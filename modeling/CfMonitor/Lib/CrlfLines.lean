/-
  Lines that end in CRLF, and the transparency procedure of SMTP.

  1. **Lines** — a text is cut at every CRLF and put together again (`joinLines_lines`); a line without a
     carriage return is found again (`lines_append`).

  2. **Transparency** — a dot in front of a line is doubled.  What is sent of a text ends in the only line
     that is a single dot (`lines_transmission`), and the receiver gets the text back (`received_transmission`).
-/
import Mathlib.Data.List.Basic
import Mathlib.Tactic.Common

namespace CfMonitor.Lib.Crlf

/-! ## Lines -/

def CRLF : List Char := ['\r', '\n']

def lines : List Char → List (List Char)
  | [] => [[]]
  | '\r' :: '\n' :: rest => [] :: lines rest
  | c :: rest => (lines rest).modifyHead (c :: ·)

def joinLines : List (List Char) → List Char
  | [] => []
  | [line] => line
  | line :: rest => line ++ CRLF ++ joinLines rest

theorem lines_cons {c : Char} {rest : List Char} (h : ¬ (c = '\r' ∧ rest.head? = some '\n')) :
    lines (c :: rest) = (lines rest).modifyHead (c :: ·) := by
  rw [lines.eq_3]
  rintro rest' rfl rfl
  exact h ⟨rfl, rfl⟩

variable (text : List Char)

theorem lines_ne_nil : lines text ≠ [] := by
  induction text using lines.induct with
  | case1 => exact List.cons_ne_nil _ _
  | case2 rest ih => exact List.cons_ne_nil _ _
  | case3 c rest hcrlf ih =>
    rw [lines.eq_3 _ _ hcrlf]
    obtain ⟨line, more, hlines⟩ := List.exists_cons_of_ne_nil ih
    rw [hlines]
    exact List.cons_ne_nil _ _

theorem joinLines_cons (line : List Char) {rest : List (List Char)} (h : rest ≠ []) :
    joinLines (line :: rest) = line ++ CRLF ++ joinLines rest := by
  obtain ⟨next, more, rfl⟩ := List.exists_cons_of_ne_nil h
  rfl

theorem joinLines_modifyHead (c : Char) {parts : List (List Char)} (h : parts ≠ []) :
    joinLines (parts.modifyHead (c :: ·)) = c :: joinLines parts := by
  obtain ⟨line, rest, rfl⟩ := List.exists_cons_of_ne_nil h
  cases rest with
  | nil => rfl
  | cons next more => rfl

/-- **A text** is put together again from its lines. -/
theorem joinLines_lines : joinLines (lines text) = text := by
  induction text using lines.induct with
  | case1 => rfl
  | case2 rest ih =>
    rw [lines, joinLines_cons [] (lines_ne_nil rest), ih]
    rfl
  | case3 c rest hcrlf ih => rw [lines.eq_3 _ _ hcrlf, joinLines_modifyHead c (lines_ne_nil rest), ih]

/-- **Lines on both sides of a CRLF**. -/
theorem lines_append_crlf (a b : List Char) : lines (a ++ CRLF ++ b) = lines a ++ lines b := by
  induction a using lines.induct with
  | case1 => rfl
  | case2 rest ih =>
    simp only [List.cons_append]
    rw [lines, ih]
    rfl
  | case3 c rest hcrlf ih =>
    have hhead : ¬ (c = '\r' ∧ (rest ++ CRLF ++ b).head? = some '\n') := by
      rintro ⟨rfl, hhead⟩
      cases rest with
      | nil => simp [CRLF] at hhead
      | cons d more =>
        cases hhead
        exact hcrlf more rfl rfl
    simp only [List.cons_append]
    rw [lines_cons hhead, ih, lines.eq_3 _ _ hcrlf]
    obtain ⟨line, more, hlines⟩ := List.exists_cons_of_ne_nil (lines_ne_nil rest)
    rw [hlines]
    rfl

variable {line : List Char}

theorem lines_single (h : '\r' ∉ line) : lines line = [line] := by
  induction line with
  | nil => rfl
  | cons c rest ih =>
    rw [lines_cons fun hboth => h (by rw [hboth.1]; exact List.mem_cons_self), ih fun hmem => h (List.mem_cons_of_mem _ hmem)]
    rfl

theorem lines_joinLines {parts : List (List Char)} (hne : parts ≠ []) (h : ∀ line ∈ parts, lines line = [line]) :
    lines (joinLines parts) = parts := by
  induction parts with
  | nil => exact absurd rfl hne
  | cons line rest ih =>
    have hline := h line List.mem_cons_self
    cases rest with
    | nil => exact hline
    | cons next more =>
      rw [joinLines_cons line (List.cons_ne_nil _ _), lines_append_crlf, hline,
        ih (List.cons_ne_nil _ _) fun l hl => h l (List.mem_cons_of_mem _ hl)]
      rfl

theorem head_lines {text : List Char} {more : List (List Char)} (h : lines text = line :: more) : line <+: text := by
  have hjoin := joinLines_lines text
  rw [h] at hjoin
  cases more with
  | nil => exact ⟨[], by rw [List.append_nil]; exact hjoin⟩
  | cons next more => exact ⟨CRLF ++ joinLines (next :: more), by rw [← List.append_assoc]; exact hjoin⟩

theorem lines_of_mem {text : List Char} (h : line ∈ lines text) : lines line = [line] := by
  induction text using lines.induct generalizing line with
  | case1 =>
    rw [lines, List.mem_singleton] at h
    rw [h]
    rfl
  | case2 rest ih =>
    rw [lines] at h
    rcases List.mem_cons.mp h with rfl | h
    · rfl
    · exact ih h
  | case3 c rest hcrlf ih =>
    rw [lines.eq_3 _ _ hcrlf] at h
    cases hlines : lines rest with
    | nil => exact absurd hlines (lines_ne_nil rest)
    | cons first more =>
      rw [hlines, List.modifyHead_cons] at h
      rw [hlines] at ih
      rcases List.mem_cons.mp h with rfl | h
      · have hfirst := ih List.mem_cons_self
        have hhead : ¬ (c = '\r' ∧ first.head? = some '\n') := by
          rintro ⟨rfl, hhead⟩
          obtain ⟨behind, rfl⟩ := List.head?_eq_some_iff.mp hhead
          obtain ⟨after, rfl⟩ := head_lines hlines
          exact hcrlf (behind ++ after) rfl rfl
        rw [lines_cons hhead, hfirst]
        rfl
      · exact ih (List.mem_cons_of_mem _ h)

/-! ## Transparency -/

/-- A dot in front of a line is doubled. -/
def stuffLine : List Char → List Char
  | '.' :: rest => '.' :: '.' :: rest
  | line => line

/-- A dot in front of a line is taken away. -/
def unstuffLine : List Char → List Char
  | '.' :: rest => rest
  | line => line

/-- The text up to the line that is a single dot, as it is received. -/
def received (data : List Char) : List Char := joinLines (((lines data).takeWhile (· != ['.'])).map unstuffLine)

theorem unstuffLine_stuffLine (line : List Char) : unstuffLine (stuffLine line) = line := by
  rw [stuffLine.eq_def]
  split
  · rfl
  · next hdot =>
    rw [unstuffLine.eq_def]
    split
    · next rest => exact absurd rfl (hdot rest)
    · rfl

theorem stuffLine_ne (line : List Char) : stuffLine line ≠ ['.'] := by
  rw [stuffLine.eq_def]
  split
  · simp
  · next hdot =>
    rintro rfl
    exact hdot [] rfl

/-- What is sent of a text: its lines with their dots doubled, and the line that ends it. -/
def transmission (text : List Char) : List Char := joinLines ((lines text).map stuffLine) ++ CRLF ++ ['.'] ++ CRLF

theorem lines_stuffLine (h : lines line = [line]) : lines (stuffLine line) = [stuffLine line] := by
  rw [stuffLine.eq_def]
  split
  · next rest =>
    rw [lines_cons fun hdot => absurd hdot.1 (by decide), h]
    rfl
  · exact h

theorem lines_stuffed : lines (joinLines ((lines text).map stuffLine)) = (lines text).map stuffLine := by
  refine lines_joinLines (by simpa using lines_ne_nil text) fun stuffed hstuffed => ?_
  obtain ⟨line, hline, rfl⟩ := List.mem_map.mp hstuffed
  exact lines_stuffLine (lines_of_mem hline)

/-- **The only line that is a single dot** is the last one. -/
theorem lines_transmission :
    lines (transmission text) = (lines text).map stuffLine ++ [['.'], []] ∧ ['.'] ∉ (lines text).map stuffLine := by
  constructor
  · have hlast : lines (['.'] ++ CRLF ++ []) = [['.'], []] := by decide
    rw [transmission, List.append_assoc, List.append_assoc, ← List.append_assoc _ CRLF, lines_append_crlf, lines_stuffed]
    rw [List.append_nil] at hlast
    rw [hlast]
  · intro hmem
    obtain ⟨line, -, hline⟩ := List.mem_map.mp hmem
    exact stuffLine_ne line hline

/-- **The text is received** as it was. -/
theorem received_transmission : received (transmission text) = text := by
  obtain ⟨hlines, hdot⟩ := lines_transmission text
  have htake : ((lines text).map stuffLine ++ [['.'], []]).takeWhile (· != ['.']) = (lines text).map stuffLine := by
    rw [List.takeWhile_append_of_pos]
    · simp
    · intro line hline
      rw [bne_iff_ne]
      rintro rfl
      exact hdot hline
  rw [received, hlines, htake, List.map_map]
  have hsame : unstuffLine ∘ stuffLine = id := funext unstuffLine_stuffLine
  rw [hsame, List.map_id, joinLines_lines]

end CfMonitor.Lib.Crlf
