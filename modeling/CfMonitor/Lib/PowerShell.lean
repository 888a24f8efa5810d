/-
  String literals of PowerShell.

  1. **Lexer** — five characters delimit a literal string; inside it two of them in a row stand for one.
     Double quotes, backquotes, comments and `@` are not read.

  2. **Lengths** — the length of a text is told by its tokens (`lex_length`).

  3. **Result** — when the values of a script stay literals (`tokens_weave_iff`).
-/
import Mathlib
import CfMonitor.Lib.Split

namespace CfMonitor.Lib.PowerShell

open List (length_append length_cons map_cons sum_cons)

/-- The quotes of Unicode count as quotes. -/
def isCurlyQuote (c : Char) : Bool := 0x2018 ≤ c.toNat && c.toNat ≤ 0x201B

def isQuote (c : Char) : Bool := c == '\'' || isCurlyQuote c

/-- Not read: strings with expansions, escapes, comments, here-strings and splatting. -/
def isUnread (c : Char) : Bool := c == '"' || (0x201C ≤ c.toNat && c.toNat ≤ 0x201E) || c == '\x60' || c == '#' || c == '@'

inductive Token where
  | char (c : Char)
  | literal (text : List Char)
  deriving DecidableEq

/-- The tokens of a text, with the literal that is open. -/
def lex : Option (List Char) → List Char → Option (List Token)
  | none, [] => some []
  | none, c :: rest =>
    if isQuote c then lex (some []) rest
    else if isUnread c then none
    else (lex none rest).map (.char c :: ·)
  | some _, [] => none
  | some text, [c] => if isQuote c then some [.literal text] else none
  | some text, c :: d :: rest =>
    if isQuote c then
      if isQuote d then lex (some (text ++ [d])) rest else (lex none (d :: rest)).map (.literal text :: ·)
    else lex (some (text ++ [c])) (d :: rest)

def tokens (text : List Char) : Option (List Token) := lex none text

/-- A text in quotes, its ASCII quotes doubled. -/
def quoted (text : List Char) : List Char := '\'' :: text.flatMap (fun c => if c = '\'' then ['\'', '\''] else [c]) ++ ['\'']

def hasNoCurlyQuote (text : List Char) : Bool := text.all fun c => !isCurlyQuote c

/-! ## Literals -/

theorem lex_quotedText (start text : List Char) (h : hasNoCurlyQuote text = true) {c : Char} (rest : List Char) :
    lex (some start) (text.flatMap (fun c => if c = '\'' then ['\'', '\''] else [c]) ++ c :: rest)
      = lex (some (start ++ text)) (c :: rest) := by
  induction text generalizing start with
  | nil => simp
  | cons d text ih =>
    rw [hasNoCurlyQuote, List.all_cons, Bool.and_eq_true, Bool.not_eq_true'] at h
    have hmore := ih (start ++ [d]) h.2
    rw [List.append_assoc, List.singleton_append] at hmore
    rw [List.flatMap_cons, List.append_assoc, ← hmore]
    by_cases hd : d = '\''
    · subst hd
      rfl
    · have hquote : isQuote d = false := by
        rw [isQuote, h.1, Bool.or_false, beq_eq_false_iff_ne]
        exact hd
      rw [if_neg hd, List.singleton_append]
      obtain ⟨e, more, he⟩ : ∃ e more, text.flatMap (fun c => if c = '\'' then ['\'', '\''] else [c]) ++ c :: rest = e :: more :=
        List.exists_cons_of_ne_nil (by simp)
      rw [he, lex, hquote]
      rfl

variable {rest : List Char}

/-- **A text without curly quotes** is one literal. -/
theorem lex_quoted {text : List Char} (h : hasNoCurlyQuote text = true)
    (hrest : ∀ c ∈ rest.head?, isQuote c = false) : lex none (quoted text ++ rest) = (lex none rest).map (.literal text :: ·) := by
  have hopen : quoted text ++ rest = '\'' :: (text.flatMap (fun c => if c = '\'' then ['\'', '\''] else [c]) ++ '\'' :: rest) := by
    simp [quoted]
  have hquote : isQuote '\'' = true := by decide
  rw [hopen, lex, if_pos hquote, lex_quotedText [] text h, List.nil_append]
  cases rest with
  | nil => rfl
  | cons d rest =>
    have hd : isQuote d = false := hrest d rfl
    conv_lhs => rw [lex, if_pos hquote, if_neg (by rw [hd]; exact Bool.false_ne_true)]

/-- **Tokens of a text** that does not end in a quote come in front of those of what follows. -/
theorem lex_append {text : List Char} (hlast : ∀ c ∈ text.getLast?, isQuote c = false) :
    ∀ {start : Option (List Char)} {ts : List Token}, lex start text = some ts →
      lex start (text ++ rest) = (lex none rest).map (ts ++ ·) := by
  induction hlength : text.length using Nat.strongRecOn generalizing text with
  | ind n ih =>
    subst hlength
    intro start ts h
    have hid : ((fun us => [] ++ us) : List Token → List Token) = id := rfl
    cases start with
    | none =>
      cases text with
      | nil =>
        rw [lex] at h
        cases h
        rw [hid, Option.map_id_fun, id]
        rfl
      | cons c more =>
        have hmore : ∀ d ∈ more.getLast?, isQuote d = false := by
          intro d hd
          refine hlast d ?_
          rw [List.getLast?_cons, hd]
          rfl
        rw [lex] at h
        rw [List.cons_append, lex]
        split_ifs at h ⊢ with hquote hunread
        · exact ih _ (by simp) hmore rfl h
        · obtain ⟨us, hus, rfl⟩ := Option.map_eq_some_iff.mp h
          rw [ih _ (by simp) hmore rfl hus, Option.map_map]
          rfl
    | some open' =>
      cases text with
      | nil => simp [lex] at h
      | cons c more =>
        cases more with
        | nil =>
          rw [lex, hlast c rfl] at h
          cases h
        | cons d more =>
          have hmore : ∀ e ∈ more.getLast?, isQuote e = false := by
            intro e he
            refine hlast e ?_
            rw [List.getLast?_cons, List.getLast?_cons, he]
            rfl
          have hmore' : ∀ e ∈ (d :: more).getLast?, isQuote e = false := by
            intro e he
            refine hlast e ?_
            rw [List.getLast?_cons, he]
            rfl
          rw [lex] at h
          rw [List.cons_append, List.cons_append, lex]
          split_ifs at h ⊢ with hquote hquote'
          · exact ih _ (by simp only [length_cons]; omega) hmore rfl h
          · obtain ⟨us, hus, rfl⟩ := Option.map_eq_some_iff.mp h
            rw [← List.cons_append, ih _ (by simp) hmore' rfl hus, Option.map_map]
            rfl
          · rw [← List.cons_append]
            exact ih _ (by simp) hmore' rfl h

/-! ## Lengths -/

/-- What a token takes of a text: a literal its quotes, and each quote inside it two characters. -/
def Token.length : Token → Nat
  | .char _ => 1
  | .literal text => 2 + text.length + text.countP isQuote

/-- **The length of a text** is told by its tokens. -/
theorem lex_length {text : List Char} : (∀ {ts : List Token}, lex none text = some ts → text.length = (ts.map Token.length).sum) ∧
    ∀ {start : List Char} {ts : List Token}, lex (some start) text = some ts →
      text.length + 1 + start.length + start.countP isQuote = (ts.map Token.length).sum := by
  induction hlength : text.length using Nat.strongRecOn generalizing text with
  | ind n ih =>
    subst hlength
    refine ⟨fun {ts} h => ?_, fun {start ts} h => ?_⟩
    · cases text with
      | nil =>
        rw [lex] at h
        cases h
        rfl
      | cons c more =>
        rw [lex] at h
        split_ifs at h
        · have hrest := (ih _ (by simp) rfl).2 h
          simpa using hrest
        · obtain ⟨us, hus, rfl⟩ := Option.map_eq_some_iff.mp h
          have hrest := (ih _ (by simp) rfl).1 hus
          rw [map_cons, sum_cons, ← hrest, length_cons, Token.length, Nat.add_comm]
    · cases text with
      | nil => simp [lex] at h
      | cons c more =>
        cases more with
        | nil =>
          rw [lex] at h
          split_ifs at h
          cases h
          simp [Token.length]
        | cons d more =>
          rw [lex] at h
          split_ifs at h with hquote hquote'
          · have hrest := (ih _ (by simp only [length_cons]; omega) rfl).2 h
            rw [length_append, List.countP_append] at hrest
            simp only [length_cons, List.length_nil, List.countP_singleton, hquote', if_true] at hrest ⊢
            omega
          · obtain ⟨us, hus, rfl⟩ := Option.map_eq_some_iff.mp h
            have hrest := (ih _ (by simp) rfl).1 hus
            rw [map_cons, sum_cons, ← hrest, Token.length]
            simp only [length_cons]
            omega
          · have hrest := (ih _ (by simp) rfl).2 h
            rw [length_append, List.countP_append] at hrest
            simp only [length_cons, List.length_nil, List.countP_singleton, hquote, Bool.false_eq_true, if_false] at hrest ⊢
            omega

theorem length_quoted (text : List Char) : (quoted text).length = 2 + text.length + text.countP (· == '\'') := by
  have hbody : (text.flatMap (fun c => if c = '\'' then ['\'', '\''] else [c])).length = text.length + text.countP (· == '\'') := by
    induction text with
    | nil => rfl
    | cons c text ih =>
      rw [List.flatMap_cons, length_append, ih, List.countP_cons]
      by_cases hc : c = '\''
      · rw [if_pos hc, hc]
        simp only [length_cons, List.length_nil, BEq.rfl, if_true]
        omega
      · rw [if_neg hc, if_neg (by simpa using hc)]
        simp only [length_cons, List.length_nil]
        omega
  rw [quoted, length_append, length_cons, hbody]
  simp only [length_cons, List.length_nil]
  omega

theorem countP_quote (text : List Char) : text.countP (· == '\'') ≤ text.countP isQuote ∧
    (text.countP isQuote = text.countP (· == '\'') ↔ hasNoCurlyQuote text = true) := by
  induction text with
  | nil => exact ⟨Nat.le_refl _, by simp [hasNoCurlyQuote]⟩
  | cons c text ih =>
    obtain ⟨hle, hiff⟩ := ih
    rw [List.countP_cons, List.countP_cons]
    have hcurly : ∀ b, isCurlyQuote c = b → (hasNoCurlyQuote (c :: text) = (!b && hasNoCurlyQuote text)) := by
      rintro b rfl
      rfl
    by_cases hascii : c = '\''
    · have hquote : isQuote c = true := by
        rw [isQuote, hascii]
        decide
      have hnot : isCurlyQuote c = false := by
        rw [hascii]
        decide
      rw [hquote, hcurly _ hnot, if_pos rfl, if_pos (beq_iff_eq.mpr hascii)]
      exact ⟨by omega, by rw [Nat.add_right_cancel_iff, hiff]; simp⟩
    · have hneg : ¬ (c == '\'') = true := by simpa using hascii
      rw [if_neg hneg]
      cases hc : isCurlyQuote c with
      | true =>
        have hquote : isQuote c = true := by
          rw [isQuote, hc, Bool.or_true]
        rw [hquote, hcurly _ hc, if_pos rfl]
        refine ⟨by omega, fun h => by omega, nofun⟩
      | false =>
        have hquote : isQuote c = false := by
          rw [isQuote, hc, Bool.or_false]
          exact Bool.eq_false_iff.mpr hneg
        rw [hquote, hcurly _ hc, if_neg Bool.false_ne_true]
        exact ⟨hle, by rw [Nat.add_zero, Nat.add_zero, hiff]; simp⟩

/-! ## Scripts with values -/

/-- A script: each value behind its piece of fixed text, and the text at the end. -/
def weave (parts : List (List Char × List Char)) (last : List Char) : List Char :=
  parts.flatMap (fun part => part.1 ++ quoted part.2) ++ last

/-- The tokens it is to have. -/
def weaveTokens (parts : List (List Char × List Char)) (last : List Char) : List Token :=
  parts.flatMap (fun part => (tokens part.1).getD [] ++ [.literal part.2]) ++ (tokens last).getD []

/-- Text that does not run into a literal beside it. -/
structure Apart (text : List Char) : Prop where
  some : (tokens text).isSome = true
  nonempty : text ≠ []
  first : ∀ c ∈ text.head?, isQuote c = false
  last : ∀ c ∈ text.getLast?, isQuote c = false

instance (text : List Char) : Decidable (Apart text) :=
  decidable_of_iff ((tokens text).isSome = true ∧ text ≠ [] ∧ (∀ c ∈ text.head?, isQuote c = false) ∧
    ∀ c ∈ text.getLast?, isQuote c = false) ⟨fun h => ⟨h.1, h.2.1, h.2.2.1, h.2.2.2⟩, fun h => ⟨h.1, h.2, h.3, h.4⟩⟩

theorem Apart.append {a b : List Char} (ha : Apart a) (hb : Apart b) : Apart (a ++ b) := by
  obtain ⟨ts, hts⟩ := Option.isSome_iff_exists.mp ha.some
  obtain ⟨us, hus⟩ := Option.isSome_iff_exists.mp hb.some
  rw [tokens] at hts hus
  have htokens : tokens (a ++ b) = Option.some (ts ++ us) := by
    rw [tokens, lex_append ha.last hts, hus, Option.map_some]
  refine ⟨by rw [htokens]; rfl, List.append_ne_nil_of_left_ne_nil ha.nonempty b, fun c hc => ?_, fun c hc => ?_⟩
  · rw [List.head?_append_of_ne_nil a ha.nonempty] at hc
    exact ha.first c hc
  · rw [List.getLast?_append_of_ne_nil a hb.nonempty] at hc
    exact hb.last c hc

/-- Text before a value may begin the script, or stand behind a value. -/
theorem weave_head {parts : List (List Char × List Char)} {last : List Char} (hparts : ∀ part ∈ parts, Apart part.1)
    (hlast : Apart last) : ∀ c ∈ (weave parts last).head?, isQuote c = false := by
  cases parts with
  | nil => exact hlast.first
  | cons part parts =>
    have hpart := hparts part List.mem_cons_self
    obtain ⟨c, text, hc⟩ := List.exists_cons_of_ne_nil hpart.nonempty
    intro d hd
    rw [weave, List.flatMap_cons, hc] at hd
    have hfirst := hpart.first
    rw [hc] at hfirst
    exact hfirst d hd

theorem hasNoCurlyQuote_ascii {text : List Char} (h : ∀ c ∈ text, c.toNat < 128) : hasNoCurlyQuote text = true := by
  rw [hasNoCurlyQuote, List.all_eq_true]
  intro c hc
  have hlt := h c hc
  rw [isCurlyQuote, Bool.not_eq_true', Bool.and_eq_false_iff, decide_eq_false_iff_not, decide_eq_false_iff_not]
  omega

theorem tokens_weave {parts : List (List Char × List Char)} {last : List Char} (hparts : ∀ part ∈ parts, Apart part.1)
    (hlast : Apart last) (hvalues : ∀ part ∈ parts, hasNoCurlyQuote part.2 = true) :
    tokens (weave parts last) = some (weaveTokens parts last) := by
  induction parts with
  | nil =>
    obtain ⟨ts, hts⟩ := Option.isSome_iff_exists.mp hlast.some
    rw [weave, weaveTokens, List.flatMap_nil, List.flatMap_nil, List.nil_append, List.nil_append, hts, Option.getD_some]
  | cons part parts ih =>
    have hrest : ∀ p ∈ parts, Apart p.1 := fun p hp => hparts p (List.mem_cons_of_mem _ hp)
    have hpart := hparts part List.mem_cons_self
    have hmore := ih hrest fun p hp => hvalues p (List.mem_cons_of_mem _ hp)
    obtain ⟨ts, hts⟩ := Option.isSome_iff_exists.mp hpart.some
    have hscript : weave (part :: parts) last = part.1 ++ (quoted part.2 ++ weave parts last) := by
      simp [weave]
    have htokens : weaveTokens (part :: parts) last = ts ++ .literal part.2 :: weaveTokens parts last := by
      simp [weaveTokens, hts]
    rw [hscript, htokens, tokens, lex_append hpart.last hts, lex_quoted (hvalues part List.mem_cons_self) (weave_head hrest hlast)]
    rw [tokens] at hmore
    rw [hmore]
    rfl

theorem length_weave {parts : List (List Char × List Char)} {last : List Char} (hparts : ∀ part ∈ parts, Apart part.1)
    (hlast : Apart last) : (weave parts last).length + (parts.map fun part => part.2.countP isQuote).sum
      = ((weaveTokens parts last).map Token.length).sum + (parts.map fun part => part.2.countP (· == '\'')).sum := by
  induction parts with
  | nil =>
    obtain ⟨ts, hts⟩ := Option.isSome_iff_exists.mp hlast.some
    simp only [weave, weaveTokens, hts, lex_length.1 hts, List.flatMap_nil, List.nil_append, Option.getD_some, List.map_nil]
  | cons part parts ih =>
    have hmore := ih fun p hp => hparts p (List.mem_cons_of_mem _ hp)
    obtain ⟨ts, hts⟩ := Option.isSome_iff_exists.mp (hparts part List.mem_cons_self).some
    have hscript : weave (part :: parts) last = part.1 ++ (quoted part.2 ++ weave parts last) := by
      simp [weave]
    have htokens : weaveTokens (part :: parts) last = ts ++ .literal part.2 :: weaveTokens parts last := by
      simp [weaveTokens, hts]
    have hfront := lex_length.1 hts
    have hvalue := length_quoted part.2
    rw [hscript, htokens, length_append, length_append, List.map_append, List.sum_append, map_cons, sum_cons,
      map_cons, map_cons, sum_cons, sum_cons, Token.length]
    omega

/-- **Each value is one literal** exactly if none of them has a curly quote. -/
theorem tokens_weave_iff {parts : List (List Char × List Char)} {last : List Char} (hparts : ∀ part ∈ parts, Apart part.1)
    (hlast : Apart last) :
    tokens (weave parts last) = some (weaveTokens parts last) ↔ ∀ part ∈ parts, hasNoCurlyQuote part.2 = true := by
  refine ⟨fun h => ?_, tokens_weave hparts hlast⟩
  have hlength := length_weave hparts hlast
  rw [lex_length.1 h] at hlength
  have hsum : (parts.map fun part => part.2.countP isQuote).sum = (parts.map fun part => part.2.countP (· == '\'')).sum := by omega
  clear h hlength hparts
  induction parts with
  | nil => exact nofun
  | cons first parts ih =>
    rw [map_cons, map_cons, sum_cons, sum_cons] at hsum
    -- no sum on the right is larger than its sum on the left
    have hfirst := countP_quote first.2
    have hrest : (parts.map fun part => part.2.countP (· == '\'')).sum ≤ (parts.map fun part => part.2.countP isQuote).sum := by
      clear ih hsum
      induction parts with
      | nil => exact Nat.le_refl _
      | cons part parts ih =>
        rw [map_cons, map_cons, sum_cons, sum_cons]
        exact Nat.add_le_add (countP_quote part.2).1 ih
    intro part hpart
    rcases List.mem_cons.mp hpart with rfl | hpart
    · exact hfirst.2.mp (by omega)
    · exact ih (by omega) part hpart

end CfMonitor.Lib.PowerShell
