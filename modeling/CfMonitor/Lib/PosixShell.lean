/-
  Words and commands of the POSIX shell.

  1. **Lexer** — a machine over characters: quotes, escapes and expansions nest, blanks and operators
     end a word.  Here-documents, redirections, comments and backquotes are not read: the machine stops.

  2. **Commands** — operators cut the words into simple commands.

  3. **Result** — a quoted text is one word as it is (`run_singleQuoted`, `run_arguments`).
-/
import Mathlib.Data.List.Basic
import Mathlib.Tactic.Common

namespace CfMonitor.Lib.PosixShell

/-! ## Words -/

/-- A character of a word: as it is, or of an expansion that the shell carries out. -/
inductive Part where
  | lit (c : Char)
  | raw (c : Char)
  deriving DecidableEq

inductive Token where
  | word (parts : List Part)
  | op (c : Char)
  deriving DecidableEq

/-- A word without expansions. -/
def literal (text : List Char) : List Part := text.map .lit

def expansion (text : List Char) : List Part := text.map .raw

/-- Where the machine is. -/
inductive Mode where
  | single
  | double
  | escape
  | doubleEscape
  | dollar
  | name
  | brace
  | subst
  deriving DecidableEq

structure State where
  tokens : List Token
  /-- The word so far. -/
  word : Option (List Part)
  /-- What is open, the innermost first. -/
  modes : List Mode
  deriving DecidableEq

def isNameStart (c : Char) : Bool := c.isAlpha || c == '_'

def isNameChar (c : Char) : Bool := c.isAlphanum || c == '_'

/-- `$@`, `$1` and the like. -/
def isSpecialParameter (c : Char) : Bool := c.isDigit || ['@', '*', '#', '?', '-', '$', '!'].contains c

/-- Characters that begin a pattern or a home directory where they are not quoted. -/
def isPattern (c : Char) : Bool := ['*', '?', '[', '~'].contains c

def isOperator (c : Char) : Bool := ['(', ')', ';', '&', '|', '\n'].contains c

/-- Not read: redirections, comments and backquotes. -/
def isUnread (c : Char) : Bool := ['<', '>', '#', '\x60'].contains c

/-- Inside an expansion. -/
def inExpansion (modes : List Mode) : Bool := modes.contains .brace || modes.contains .subst

def State.append (s : State) (parts : List Part) : State := { s with word := some (s.word.getD [] ++ parts) }

/-- A character that stands for itself, or goes with the expansion around it. -/
def State.add (s : State) (modes : List Mode) (c : Char) : State :=
  { s.append [if inExpansion modes then .raw c else .lit c] with modes := modes }

/-- A quote: part of the text only inside an expansion. -/
def State.quote (s : State) (modes modes' : List Mode) (c : Char) : State :=
  { s.append (if inExpansion modes then [.raw c] else []) with modes := modes' }

def State.addRaw (s : State) (modes : List Mode) (text : List Char) : State :=
  { s.append (expansion text) with modes := modes }

/-- The end of a word. -/
def State.finish (s : State) : State :=
  match s.word with
  | some parts => { s with tokens := s.tokens ++ [.word parts], word := none }
  | none => s

/-- Outside of quotes. -/
def stepPlain (s : State) (c : Char) : Option State :=
  if c = ' ' ∨ c = '\t' then some s.finish
  else if isOperator c then some { s.finish with tokens := s.finish.tokens ++ [.op c] }
  else if isUnread c then none
  else if c = '\'' then some (s.quote [] [.single] c)
  else if c = '"' then some (s.quote [] [.double] c)
  else if c = '\\' then some { s with modes := [.escape] }
  else if c = '$' then some { s with modes := [.dollar] }
  else if isPattern c then some (s.addRaw [] [c])
  else some (s.add [] c)

/-- Inside `${…}` or `$(…)`, up to its end. -/
def stepExpansion (close : Char) (s : State) (mode : Mode) (modes : List Mode) (c : Char) : Option State :=
  if c = close then some (s.addRaw modes [c])
  else if c = '"' then some (s.quote (mode :: modes) (.double :: mode :: modes) c)
  else if c = '$' then some { s with modes := .dollar :: mode :: modes }
  else if mode = .subst ∧ c = '(' then some (s.addRaw (mode :: mode :: modes) [c])
  else if mode = .subst ∧ c = '\'' then some (s.quote (mode :: modes) (.single :: mode :: modes) c)
  else if c = '\'' ∨ c = '\\' ∨ c = '\x60' then none
  else some (s.addRaw (mode :: modes) [c])

/-- One character. -/
def step (s : State) : List Mode → Char → Option State
  | [], c => stepPlain { s with modes := [] } c
  | .single :: modes, c =>
    if c = '\'' then some (s.quote modes modes c) else some (s.add (.single :: modes) c)
  | .double :: modes, c =>
    if c = '"' then some (s.quote modes modes c)
    else if c = '$' then some { s with modes := .dollar :: .double :: modes }
    else if c = '\\' then some { s with modes := .doubleEscape :: .double :: modes }
    else if c = '\x60' then none
    else some (s.add (.double :: modes) c)
  | .escape :: modes, c => if c = '\n' then some { s with modes := modes } else some (s.add modes c)
  | .doubleEscape :: modes, c =>
    if c = '\n' then some { s with modes := modes }
    else if ['$', '\x60', '"', '\\'].contains c then some (s.add modes c) else some ((s.add modes '\\').add modes c)
  | .dollar :: modes, c =>
    if c = '(' then some (s.addRaw (.subst :: modes) ['$', '('])
    else if c = '\x7b' then some (s.addRaw (.brace :: modes) ['$', '\x7b'])
    else if isNameStart c then some (s.addRaw (.name :: modes) ['$', c])
    else if isSpecialParameter c then some (s.addRaw modes ['$', c])
    else if c = '\'' then none
    else step (s.add modes '$') modes c
  | .name :: modes, c => if isNameChar c then some (s.addRaw (.name :: modes) [c]) else step s modes c
  | .brace :: modes, c => stepExpansion '\x7d' s .brace modes c
  | .subst :: modes, c => stepExpansion ')' s .subst modes c

def run (s : State) (text : List Char) : Option State := text.foldlM (fun s c => step s s.modes c) s

/-- The tokens of a text whose quotes and expansions are closed. -/
def tokens (text : List Char) : Option (List Token) :=
  (run ⟨[], none, []⟩ text).bind fun s => if s.modes = [] then some s.finish.tokens else none

/-! ## Commands -/

def Token.isOp : Token → Bool
  | .op _ => true
  | .word _ => false

def Token.parts : Token → List Part
  | .op _ => []
  | .word parts => parts

/-- The simple commands of a text, each a list of words. -/
def commands (text : List Char) : Option (List (List (List Part))) :=
  (tokens text).map fun ts => ((ts.splitOnP Token.isOp).filter (· ≠ [])).map fun command => command.map Token.parts

/-! ## Runs -/

theorem run_append (s : State) (a b : List Char) : run s (a ++ b) = (run s a).bind fun s' => run s' b := by
  rw [run, List.foldlM_append]
  rfl

theorem run_cons (s : State) (c : Char) (rest : List Char) : run s (c :: rest) = (step s s.modes c).bind fun s' => run s' rest := rfl

/-- A state behind some more tokens. -/
def State.after (ts : List Token) (s : State) : State := { s with tokens := ts ++ s.tokens }

variable (ts : List Token)

theorem finish_after (s : State) : (s.after ts).finish = s.finish.after ts := by
  obtain ⟨tokens, word, modes⟩ := s
  cases word with
  | none => rfl
  | some parts => simp [State.after, State.finish]

theorem stepPlain_after (s : State) (c : Char) : stepPlain (s.after ts) c = (stepPlain s c).map (·.after ts) := by
  rw [stepPlain, stepPlain, finish_after]
  split_ifs
  · rfl
  · simp [State.after]
  all_goals rfl

theorem stepExpansion_after (close : Char) (s : State) (mode : Mode) (modes : List Mode) (c : Char) :
    stepExpansion close (s.after ts) mode modes c = (stepExpansion close s mode modes c).map (·.after ts) := by
  rw [stepExpansion, stepExpansion]
  split_ifs <;> rfl

theorem step_after (modes : List Mode) (s : State) (c : Char) :
    step (s.after ts) modes c = (step s modes c).map (·.after ts) := by
  induction modes generalizing s with
  | nil => exact stepPlain_after ts { s with modes := [] } c
  | cons mode modes ih =>
    cases mode with
    | single =>
      rw [step, step]
      split_ifs <;> rfl
    | double =>
      rw [step, step]
      split_ifs <;> rfl
    | escape =>
      rw [step, step]
      split_ifs <;> rfl
    | doubleEscape =>
      rw [step, step]
      split_ifs <;> rfl
    | dollar =>
      rw [step, step]
      split_ifs
      · rfl
      · rfl
      · rfl
      · rfl
      · rfl
      · exact ih (s.add modes '$')
    | name =>
      rw [step, step]
      split_ifs
      · rfl
      · exact ih s
    | brace => exact stepExpansion_after ts '\x7d' s .brace modes c
    | subst => exact stepExpansion_after ts ')' s .subst modes c

/-- **The tokens so far** do not matter for what follows. -/
theorem run_after (s : State) (text : List Char) : run (s.after ts) text = (run s text).map (·.after ts) := by
  induction text generalizing s with
  | nil => rfl
  | cons c rest ih =>
    have hmodes : (s.after ts).modes = s.modes := rfl
    rw [run_cons, run_cons, hmodes, step_after]
    cases step s s.modes c with
    | none => rfl
    | some s' =>
      rw [Option.map_some, Option.bind_some, Option.bind_some]
      exact ih s'

theorem run_text {text : List Char} {read : List Token} (h : run ⟨[], none, []⟩ text = some ⟨read, none, []⟩) (ts : List Token)
    (rest : List Char) : run ⟨ts, none, []⟩ (text ++ rest) = run ⟨ts ++ read, none, []⟩ rest := by
  have hafter := run_after ts ⟨[], none, []⟩ text
  rw [h, State.after, List.append_nil] at hafter
  rw [run_append, hafter, Option.map_some, Option.bind_some, State.after]

/-! ## Single quotes -/

/-- A text in single quotes. -/
def singleQuoted (text : List Char) : List Char :=
  '\'' :: text.flatMap (fun c => if c = '\'' then ['\'', '\\', '\'', '\''] else [c]) ++ ['\'']

theorem run_quotedText (parts : List Part) (text rest : List Char) :
    run ⟨ts, some parts, [.single]⟩ (text.flatMap (fun c => if c = '\'' then ['\'', '\\', '\'', '\''] else [c]) ++ rest)
      = run ⟨ts, some (parts ++ literal text), [.single]⟩ rest := by
  induction text generalizing parts with
  | nil => simp [literal]
  | cons c text ih =>
    have hliteral : parts ++ literal (c :: text) = parts ++ [.lit c] ++ literal text := by simp [literal]
    rw [List.flatMap_cons, List.append_assoc, hliteral]
    by_cases hc : c = '\''
    · -- the quote is closed, written escaped and opened again
      subst hc
      rw [if_pos rfl, ← ih]
      simp [run, step, stepPlain, State.quote, State.append, State.add, inExpansion, isOperator, isUnread]
    · rw [if_neg hc, List.singleton_append, run_cons, ← ih]
      simp [step, hc, State.append, State.add, inExpansion]

/-- **A text in single quotes** is a word with its characters. -/
theorem run_singleQuoted (text rest : List Char) :
    run ⟨ts, none, []⟩ (singleQuoted text ++ rest) = run ⟨ts, some (literal text), []⟩ rest := by
  have hopen : singleQuoted text ++ rest = '\'' :: (text.flatMap (fun c => if c = '\'' then ['\'', '\\', '\'', '\''] else [c])
      ++ '\'' :: rest) := by simp [singleQuoted]
  have hstart : step ⟨ts, none, []⟩ [] '\'' = some ⟨ts, some [], [.single]⟩ := by
    simp [step, stepPlain, State.quote, State.append, inExpansion, isOperator, isUnread]
  rw [hopen, run_cons, hstart, Option.bind_some, run_quotedText, List.nil_append, run_cons]
  have hend : step ⟨ts, some (literal text), [.single]⟩ [.single] '\'' = some ⟨ts, some (literal text), []⟩ := by
    simp [step, State.quote, State.append, inExpansion]
  rw [hend, Option.bind_some]

theorem step_blank (parts : List Part) :
    step ⟨ts, some parts, []⟩ [] ' ' = some ⟨ts ++ [.word parts], none, []⟩ := rfl

theorem step_operator (parts : List Part) {c : Char} (hc : isOperator c = true) (hblank : c ≠ ' ' ∧ c ≠ '\t') :
    step ⟨ts, some parts, []⟩ [] c = some ⟨ts ++ [.word parts, .op c], none, []⟩ := by
  simp [step, stepPlain, hc, hblank.1, hblank.2, State.finish]

/-- **Arguments** in single quotes with blanks between them, up to a parenthesis. -/
theorem run_arguments {args : List (List Char)} (hne : args ≠ []) (rest : List Char) :
    run ⟨ts, none, []⟩ ([' '].intercalate (args.map singleQuoted) ++ ')' :: rest)
      = run ⟨ts ++ args.map (fun arg => .word (literal arg)) ++ [.op ')'], none, []⟩ rest := by
  induction args generalizing ts with
  | nil => exact absurd rfl hne
  | cons arg more ih =>
    cases more with
    | nil =>
      rw [List.map_singleton, List.intercalate_singleton, run_singleQuoted, run_cons]
      have hend := step_operator ts (literal arg) (show isOperator ')' = true by decide) (by decide)
      rw [hend, Option.bind_some]
      simp
    | cons next more =>
      rw [List.map_cons, List.intercalate_cons_of_ne_nil (by simp), List.append_assoc, List.append_assoc, run_singleQuoted,
        List.singleton_append, run_cons, step_blank, Option.bind_some, ih _ (List.cons_ne_nil _ _)]
      simp

/-! ## Subshells -/

/-- The tokens of commands in parentheses. -/
def subshell (before : List (List (List Part))) (last : List (List Part)) : List Token :=
  .op '(' :: before.flatMap (fun command => command.map .word ++ [.op ';']) ++ (last.map .word ++ [.op ')'])

theorem splitOnP_command (command : List (List Part)) (c : Char) (rest : List Token) :
    (command.map Token.word ++ .op c :: rest).splitOnP Token.isOp = command.map .word :: rest.splitOnP Token.isOp := by
  have hwords : ∀ t ∈ command.map Token.word, Token.isOp t = false := by
    intro t ht
    obtain ⟨parts, -, rfl⟩ := List.mem_map.mp ht
    rfl
  have hop : Token.isOp (.op c) = true := rfl
  exact List.splitOnP_append_cons_of_forall_mem hwords (.op c) hop rest

theorem map_parts (command : List (List Part)) : (command.map Token.word).map Token.parts = command := by
  rw [List.map_map]
  exact List.map_id _

/-- **Commands in parentheses** are read one by one. -/
theorem commands_subshell {text : List Char} {before : List (List (List Part))} {last : List (List Part)}
    (h : tokens text = some (subshell before last)) (hbefore : ∀ command ∈ before, command ≠ []) (hlast : last ≠ []) :
    commands text = some (before ++ [last]) := by
  have hsplit : (((before.flatMap (fun command : List (List Part) => command.map Token.word ++ [Token.op ';']) ++
      (last.map Token.word ++ [Token.op ')'])).splitOnP Token.isOp).filter (· ≠ [])).map
        (fun command : List Token => command.map Token.parts) = before ++ [last] := by
    clear h
    induction before with
    | nil =>
      rw [List.flatMap_nil, List.nil_append, splitOnP_command, List.filter_cons_of_pos (by simpa using hlast),
        List.map_cons, map_parts]
      rfl
    | cons command before ih =>
      have hcommand : command ≠ [] := hbefore command List.mem_cons_self
      rw [List.flatMap_cons, List.append_assoc, List.append_assoc, List.singleton_append, splitOnP_command,
        List.filter_cons_of_pos (by simpa using hcommand), List.map_cons, map_parts,
        ih fun c hc => hbefore c (List.mem_cons_of_mem _ hc), List.cons_append]
  have hopen : (Token.op '(').isOp = true := rfl
  rw [commands, h, Option.map_some, subshell, ← hsplit, List.cons_append, List.splitOnP_cons_eq_if_modifyHead, if_pos hopen]
  rfl

end CfMonitor.Lib.PosixShell
