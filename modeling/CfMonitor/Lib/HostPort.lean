/-
  Hosts and ports in texts, as URLs and as dialers read them.

  1. **URL** — behind a scheme without rules of its own stand credentials, host, port, path, query and
     fragment.  `SchemeUrl` says what the host and the port of such a URL are: a name is kept with its
     letters and only percent-encoded, an IPv6 address is canonical.

  2. **Dialer** — `splitHostPort` splits a text at its last colon; brackets hold an IPv6 address.

  3. **Both** — a text of a host, a colon and digits is read alike (`splitHostPort_name`,
     `splitHostPort_ipv6`).
-/
import CfMonitor.Lib.IpCanonical

namespace CfMonitor.Lib

open List (mem_append mem_cons mem_reverse)

/-! ## The parts of a URL -/

/-- Controls and blanks at the end are dropped. -/
def withoutControls (text : List Char) : List Char := (text.reverse.dropWhile (fun c => c.toNat ≤ 0x20)).reverse

/-- Path, query and fragment begin with one of these. -/
def endsAuthority (c : Char) : Bool := c == '/' || c == '?' || c == '#'

def authority (text : List Char) : List Char := text.takeWhile fun c => !endsAuthority c

/-- What stands behind the last `@`. -/
def afterCredentials (text : List Char) : List Char := (text.reverse.takeWhile (· != '@')).reverse

/-- The host up to the first colon outside of brackets, and what stands behind this colon. -/
def splitPort : Bool → List Char → List Char × Option (List Char)
  | _, [] => ([], none)
  | inside, c :: rest =>
    if (c == ':' && !inside) = true then ([], some rest)
    else
      let inside := if c = '[' then true else if c = ']' then false else inside
      (c :: (splitPort inside rest).1, (splitPort inside rest).2)

/-- The number of some digits. -/
def portNumber (digits : List Char) : Option Nat :=
  if digits ≠ [] ∧ digits.all Char.isDigit = true then some (Nat.ofDigitChars 10 digits 0) else none

/-- The port that is written of digits; there may be none. -/
def portText (digits : List Char) : Option (List Char) :=
  if digits = [] then some []
  else (portNumber digits).bind fun port => if port ≤ 65535 then some (decimalText port) else none

/-- No name has one of these characters. -/
def isForbidden (c : Char) : Bool := [0, 9, 10, 13, 32].contains c.toNat || "#/:<>?@[\\]^|".toList.contains c

def isPrintable (c : Char) : Bool := 0x20 < c.toNat && c.toNat ≤ 0x7e

/-- A character that is not printable ASCII is written by its UTF-8 bytes. -/
def encodeHostChar (c : Char) : List Char :=
  if isPrintable c then [c]
  else (String.utf8EncodeChar c).flatMap fun b =>
    ['%', (Nat.digitChar (b.toNat / 16)).toUpper, (Nat.digitChar (b.toNat % 16)).toUpper]

/-- A host and its text in the URL. -/
inductive HostText : List Char → List Char → Prop where
  | ipv6 (t : Ipv6Text) (h : t.Valid) : HostText ('[' :: t.text ++ [']']) ('[' :: (t.address h).text ++ [']'])
  | name (host : List Char) (h : host.any isForbidden = false) : HostText host (host.flatMap encodeHostChar)

/-- The host and the port of a URL, from what stands behind the scheme. -/
structure SchemeUrl (text hostname port : List Char) : Prop where
  host : HostText (splitPort false (afterCredentials (authority (withoutControls text)))).1 hostname
  port : (splitPort false (afterCredentials (authority (withoutControls text)))).2.elim (some []) portText = some port

/-! ## Splitting at the last colon -/

/-- `strings.TrimSpace`. -/
def isGoSpace (c : Char) : Bool :=
  (9 ≤ c.toNat && c.toNat ≤ 13) || [0x20, 0x85, 0xa0, 0x1680, 0x2028, 0x2029, 0x202f, 0x205f, 0x3000].contains c.toNat ||
    (0x2000 ≤ c.toNat && c.toNat ≤ 0x200a)

/-- A text without what is at its ends. -/
def trimWhere (p : Char → Bool) (text : List Char) : List Char := ((text.dropWhile p).reverse.dropWhile p).reverse

def isBracket (c : Char) : Bool := c == '[' || c == ']'

/-- What stands in front of the last occurrence and behind it. -/
def splitLast (c : Char) (text : List Char) : Option (List Char × List Char) :=
  if c ∈ text then
    some (((text.reverse.dropWhile (· != c)).drop 1).reverse, (text.reverse.takeWhile (· != c)).reverse)
  else none

/-- `net.SplitHostPort`. -/
def splitHostPort (text : List Char) : Option (List Char × List Char) :=
  (splitLast ':' text).bind fun (front, port) =>
    if text.head? = some '[' then
      -- The first closing bracket stands in front of the last colon.
      let inner := (text.drop 1).takeWhile (· != ']')
      if front = '[' :: inner ++ [']'] ∧ '[' ∉ text.drop 1 ∧ ']' ∉ port then some (inner, port) else none
    else if ':' ∉ front ∧ '[' ∉ text ∧ ']' ∉ text then some (front, port)
    else none

/-- `net.JoinHostPort`. -/
def joinHostPort (host port : List Char) : List Char :=
  if ':' ∈ host then '[' :: host ++ "]:".toList ++ port else host ++ ':' :: port

/-! ## Ports -/

/-- The digits behind the last colon. -/
def portDigits (text : List Char) : List Char := (text.reverse.takeWhile (· != ':')).reverse

theorem portNumber_decimal (n : Nat) : portNumber (decimalText n) = some n := by
  rw [portNumber, if_pos ⟨decimalText_ne_nil n, List.all_eq_true.mpr fun c hc => isDigit_of_mem_decimalText hc⟩,
    decimalText, Nat.ofDigitChars_ten_toDigits]

variable {digits : List Char}

theorem digits_of_portNumber {n : Nat} (h : portNumber digits = some n) :
    (digits ≠ [] ∧ ∀ c ∈ digits, c.isDigit = true) ∧ Nat.ofDigitChars 10 digits 0 = n := by
  rw [portNumber] at h
  split_ifs at h with hdigits
  exact ⟨⟨hdigits.1, List.all_eq_true.mp hdigits.2⟩, Option.some.inj h⟩

theorem portDigits_append (front : List Char) (h : ∀ c ∈ digits, c.isDigit = true) :
    portDigits (front ++ ':' :: digits) = digits := by
  have hdigits : ∀ c ∈ digits.reverse, (c != ':') = true := by
    intro c hc
    rw [bne_iff_ne]
    rintro rfl
    exact absurd (h _ (mem_reverse.mp hc)) (by decide)
  rw [portDigits, List.reverse_append, List.reverse_cons, List.append_assoc, List.takeWhile_append_of_pos hdigits]
  simp

variable {port : List Char}

variable {hostname : List Char}

theorem SchemeUrl.port_text {text : List Char} (h : SchemeUrl text hostname port) :
    port = [] ∨ ∃ n, n ≤ 65535 ∧ port = decimalText n := by
  have hport := h.port
  cases hbehind : (splitPort false (afterCredentials (authority (withoutControls text)))).2 with
  | none =>
    rw [hbehind] at hport
    exact .inl (Option.some.inj hport).symm
  | some digits =>
    rw [hbehind, Option.elim_some, portText] at hport
    split_ifs at hport with hempty
    · exact .inl (Option.some.inj hport).symm
    · obtain ⟨n, -, hport⟩ := Option.bind_eq_some_iff.mp hport
      split_ifs at hport with hn
      exact .inr ⟨n, hn, (Option.some.inj hport).symm⟩

/-- **Digits without a leading zero** are the decimal text of their number. -/
theorem decimalText_ofDigitChars (digits : List Char) (hne : digits ≠ []) (hdigit : ∀ c ∈ digits, c.isDigit = true)
    (hzero : digits.head? ≠ some '0') :
    0 < Nat.ofDigitChars 10 digits 0 ∧ decimalText (Nat.ofDigitChars 10 digits 0) = digits := by
  induction digits using List.reverseRecOn with
  | nil => exact absurd rfl hne
  | append_singleton front c ih =>
    have hlast : ∀ n : Fin 128, (Char.ofNat n).isDigit = true → (Char.ofNat n).toNat - 48 < 10 ∧
        Nat.digitChar ((Char.ofNat n).toNat - 48) = Char.ofNat n ∧ (Char.ofNat n ≠ '0' → 0 < (Char.ofNat n).toNat - 48) := by
      decide +kernel
    have hc := hdigit c (List.mem_append_right front List.mem_cons_self)
    have hrange : c.toNat < 128 := Nat.lt_trans (toNat_lt_of_hex (by rw [isHexDigitChar, hc, Bool.true_or, Bool.true_or])) (by decide)
    have hcases := hlast ⟨c.toNat, hrange⟩
    rw [Char.ofNat_toNat] at hcases
    obtain ⟨hten, hchar, hpos⟩ := hcases hc
    have hvalue : Nat.ofDigitChars 10 (front ++ [c]) 0 = 10 * Nat.ofDigitChars 10 front 0 + (c.toNat - 48) := by
      rw [Nat.ofDigitChars_append, Nat.ofDigitChars_cons, Nat.ofDigitChars_nil]
      rfl
    rw [hvalue]
    by_cases hfront : front = []
    · subst hfront
      have hpos := hpos fun h => hzero (by rw [h]; rfl)
      rw [Nat.ofDigitChars_nil, Nat.mul_zero, Nat.zero_add, decimalText, Nat.toDigits_of_lt_base hten, hchar]
      exact ⟨hpos, rfl⟩
    · have hhead : front.head? ≠ some '0' := by
        rw [List.head?_append_of_ne_nil front hfront] at hzero
        exact hzero
      obtain ⟨hfrontPos, htext⟩ := ih hfront (fun d hd => hdigit d (List.mem_append_left _ hd)) hhead
      refine ⟨by omega, ?_⟩
      rw [decimalText, Nat.toDigits_of_base_le (by decide) (by omega)]
      have hdiv : (10 * Nat.ofDigitChars 10 front 0 + (c.toNat - 48)) / 10 = Nat.ofDigitChars 10 front 0 := by omega
      have hmod : (10 * Nat.ofDigitChars 10 front 0 + (c.toNat - 48)) % 10 = c.toNat - 48 := by omega
      rw [hdiv, hmod, hchar, ← decimalText, htext]

/-- A positive number has no leading zero. -/
theorem head_decimalText {n : Nat} (h : 0 < n) : (decimalText n).head? ≠ some '0' := by
  induction n using Nat.strong_induction_on with
  | _ n ih =>
    by_cases hsmall : n < 10
    · rw [decimalText, Nat.toDigits_of_lt_base hsmall]
      have hall : ∀ n : Fin 10, 0 < n.val → [Nat.digitChar n].head? ≠ some '0' := by decide
      exact hall ⟨n, hsmall⟩ h
    · rw [decimalText, Nat.toDigits_of_base_le (by decide) (by omega),
        List.head?_append_of_ne_nil _ Nat.toDigits_ne_nil]
      exact ih (n / 10) (by omega) (by omega)

/-! ## Facts about the parts -/

theorem afterCredentials_eq {text : List Char} (h : ∀ c ∈ text, (c != '@') = true) : afterCredentials text = text := by
  have hkept : text.reverse.takeWhile (· != '@') = text.reverse := by
    rw [List.takeWhile_eq_self_iff]
    exact fun c hc => h c (mem_reverse.mp hc)
  rw [afterCredentials, hkept, List.reverse_reverse]

variable {host : List Char}

theorem splitPort_eq {inside : Bool} {text : List Char} (h : splitPort inside text = (host, some port)) :
    text = host ++ ':' :: port := by
  induction text generalizing inside host with
  | nil => simp [splitPort] at h
  | cons c rest ih =>
    rw [splitPort] at h
    split_ifs at h with hcolon
    · obtain ⟨rfl, hport⟩ := Prod.mk.inj h
      cases hport
      rw [Bool.and_eq_true, beq_iff_eq] at hcolon
      rw [hcolon.1]
      rfl
    all_goals
      obtain ⟨rfl, hport⟩ := Prod.mk.inj h
      rw [List.cons_append, ← ih (Prod.ext rfl hport)]

variable {c : Char}

theorem splitLast_eq {text front after : List Char} (h : splitLast c text = some (front, after)) :
    text = front ++ c :: after := by
  rw [splitLast] at h
  split_ifs at h with hmem
  cases h
  have hsplit := List.takeWhile_append_dropWhile (p := (· != c)) (l := text.reverse)
  cases hdrop : text.reverse.dropWhile (· != c) with
  | nil =>
    rw [List.dropWhile_eq_nil_iff] at hdrop
    exact absurd (hdrop c (mem_reverse.mpr hmem)) (by simp)
  | cons d rest =>
    have hd : d = c := by
      have hhead := List.head_dropWhile_not (p := (· != c)) (l := text.reverse) (by rw [hdrop]; exact List.cons_ne_nil _ _)
      simpa [hdrop] using hhead
    rw [hdrop, hd] at hsplit
    have hreverse := congrArg List.reverse hsplit
    rw [List.reverse_reverse, List.reverse_append, List.reverse_cons] at hreverse
    simpa using hreverse.symm

theorem splitLast_append (front : List Char) {after : List Char} (h : c ∉ after) :
    splitLast c (front ++ c :: after) = some (front, after) := by
  have hafter : ∀ d ∈ after.reverse, (d != c) = true := by
    intro d hd
    rw [bne_iff_ne]
    rintro rfl
    exact h (mem_reverse.mp hd)
  rw [splitLast, if_pos (by simp)]
  simp only [List.reverse_append, List.reverse_cons, List.append_assoc, List.singleton_append]
  rw [List.dropWhile_append_of_pos hafter, List.takeWhile_append_of_pos hafter]
  simp

variable {p : Char → Bool}

/-- Characters that are kept at both ends keep a text. -/
theorem trimWhere_eq_self {text : List Char} (h : ∀ c ∈ text, p c = false) : trimWhere p text = text := by
  have hkept : ∀ l : List Char, (∀ c ∈ l, p c = false) → l.dropWhile p = l := by
    intro l hl
    cases l with
    | nil => rfl
    | cons c rest => rw [List.dropWhile_cons, if_neg (by rw [hl c List.mem_cons_self]; exact Bool.false_ne_true)]
  rw [trimWhere, hkept text h, hkept _ fun c hc => h c (mem_reverse.mp hc), List.reverse_reverse]

theorem mem_trimWhere {text : List Char} (h : c ∈ text) : c ∈ trimWhere p text ∨ p c = true := by
  have hdrop : ∀ l : List Char, c ∈ l → c ∈ l.dropWhile p ∨ p c = true := by
    intro l hl
    rw [← List.takeWhile_append_dropWhile (p := p) (l := l)] at hl
    rcases mem_append.mp hl with hl | hl
    · exact .inr (List.mem_takeWhile_imp hl)
    · exact .inl hl
  rcases hdrop text h with h | h
  · rcases hdrop _ (mem_reverse.mpr h) with h | h
    · exact .inl (mem_reverse.mpr h)
    · exact .inr h
  · exact .inr h

theorem mem_of_mem_trimWhere {text : List Char} (h : c ∈ trimWhere p text) : c ∈ text := by
  have hback := (List.dropWhile_suffix p).subset (mem_reverse.mp h)
  exact (List.dropWhile_suffix p).subset (mem_reverse.mp hback)

theorem trimWhere_front (front : List Char) {back : List Char} (hne : back ≠ [])
    (h : ∀ c ∈ back, p c = false) : trimWhere p (front ++ back) = front.dropWhile p ++ back := by
  have hback : back.dropWhile p = back := by
    rw [List.dropWhile_eq_self_iff]
    exact fun hpos => by rw [h _ (List.getElem_mem hpos)]; exact Bool.false_ne_true
  have hfront : (front ++ back).dropWhile p = front.dropWhile p ++ back := by
    rw [List.dropWhile_append]
    split_ifs with hempty
    · rw [hback, List.isEmpty_iff.mp hempty, List.nil_append]
    · rfl
  have hend : (front.dropWhile p ++ back).reverse.dropWhile p = (front.dropWhile p ++ back).reverse := by
    rw [List.dropWhile_eq_self_iff]
    intro hpos
    have hlast : (front.dropWhile p ++ back).reverse[0] = back.getLast hne := by
      rw [List.getElem_zero, List.head_reverse, List.getLast_append_of_ne_nil _ hne]
    rw [hlast, h _ (List.getLast_mem hne)]
    exact Bool.false_ne_true
  rw [trimWhere, hfront, hend, List.reverse_reverse]

theorem trimWhere_brackets {text : List Char} (hne : text ≠ []) (h : ∀ c ∈ text, isBracket c = false) :
    trimWhere isBracket ('[' :: text ++ [']']) = text := by
  have hfront : ('[' :: text ++ [']']).dropWhile isBracket = text ++ [']'] := by
    cases text with
    | nil => exact absurd rfl hne
    | cons c rest =>
      rw [List.cons_append, List.dropWhile_cons, if_pos (by decide), List.cons_append, List.dropWhile_cons,
        if_neg (by rw [h c List.mem_cons_self]; exact Bool.false_ne_true)]
  have hback : text.reverse.dropWhile isBracket = text.reverse := by
    rw [List.dropWhile_eq_self_iff]
    exact fun hpos => by rw [h _ (mem_reverse.mp (List.getElem_mem hpos))]; exact Bool.false_ne_true
  rw [trimWhere, hfront, List.reverse_append, List.reverse_singleton, List.singleton_append, List.dropWhile_cons,
    if_pos (by decide), hback, List.reverse_reverse]

/-! ## A host and a port -/

theorem digit_ne (h : c.isDigit = true) : c ≠ ':' ∧ c ≠ '[' ∧ c ≠ ']' := by
  refine ⟨?_, ?_, ?_⟩
  all_goals
    rintro rfl
    cases h

/-- **A name and a port**. -/
theorem splitHostPort_name (hhost : ∀ c ∈ host, c ≠ ':' ∧ c ≠ '[' ∧ c ≠ ']')
    (hdigits : ∀ c ∈ digits, c.isDigit = true) : splitHostPort (host ++ ':' :: digits) = some (host, digits) := by
  have hcolon : ':' ∉ digits := fun h => (digit_ne (hdigits _ h)).1 rfl
  have hbracket : ∀ c, c = '[' ∨ c = ']' → c ∉ host ++ ':' :: digits := by
    intro c hc hmem
    rcases mem_append.mp hmem with h | h
    · rcases hc with rfl | rfl
      · exact (hhost _ h).2.1 rfl
      · exact (hhost _ h).2.2 rfl
    · rcases mem_cons.mp h with rfl | h
      · exact absurd hc (by decide)
      · rcases hc with rfl | rfl
        · exact (digit_ne (hdigits _ h)).2.1 rfl
        · exact (digit_ne (hdigits _ h)).2.2 rfl
  have hhead : (host ++ ':' :: digits).head? ≠ some '[' := fun h =>
    hbracket '[' (.inl rfl) (List.mem_of_mem_head? (by rw [h]; rfl))
  rw [splitHostPort, splitLast_append host hcolon]
  simp only [Option.bind_some]
  rw [if_neg hhead, if_pos ⟨fun h => (hhost _ h).1 rfl, hbracket '[' (.inl rfl), hbracket ']' (.inr rfl)⟩]

theorem takeWhile_brackets (t : Ipv6Text) (behind : List Char) :
    (('[' :: t.text ++ [']'] ++ behind).drop 1).takeWhile (· != ']') = t.text := by
  have hopen : ∀ c ∈ t.text, (c != ']') = true := fun c hc => bne_iff_ne.mpr (addressChar_of_text hc).closing
  simp only [List.cons_append, List.drop_succ_cons, List.drop_zero, List.append_assoc]
  rw [List.takeWhile_append_of_pos hopen]
  simp

/-- **An IPv6 address and a port**. -/
theorem splitHostPort_ipv6 (t : Ipv6Text) (hdigits : ∀ c ∈ digits, c.isDigit = true) :
    splitHostPort ('[' :: t.text ++ [']'] ++ ':' :: digits) = some (t.text, digits) := by
  have hcolon : ':' ∉ digits := fun h => (digit_ne (hdigits _ h)).1 rfl
  have hbracket : '[' ∉ ('[' :: t.text ++ [']'] ++ ':' :: digits).drop 1 := by
    simp only [List.cons_append, List.drop_succ_cons, List.drop_zero, mem_append, mem_cons, List.not_mem_nil,
      or_false, not_or]
    exact ⟨⟨fun h => (addressChar_of_text h).opening rfl, by decide⟩, by decide, fun h => (digit_ne (hdigits _ h)).2.1 rfl⟩
  have hhead : ('[' :: t.text ++ [']'] ++ ':' :: digits).head? = some '[' := rfl
  rw [splitHostPort, splitLast_append _ hcolon]
  simp only [Option.bind_some, takeWhile_brackets]
  rw [if_pos hhead, if_pos ⟨trivial, hbracket, fun h => (digit_ne (hdigits _ h)).2.2 rfl⟩]

/-- Nothing of a text is lost but brackets and colons. -/
theorem mem_splitHostPort {text : List Char} (h : splitHostPort text = some (host, port))
    (hc : c ∈ text) : c ∈ host ∨ c ∈ port ∨ isBracket c = true ∨ c = ':' := by
  rw [splitHostPort] at h
  obtain ⟨⟨front, after⟩, hlast, h⟩ := Option.bind_eq_some_iff.mp h
  rw [splitLast_eq hlast] at hc
  have hparts : c ∈ front ∨ c ∈ after ∨ isBracket c = true ∨ c = ':' := by
    rcases mem_append.mp hc with hc | hc
    · exact .inl hc
    · rcases mem_cons.mp hc with hc | hc
      · exact .inr (.inr (.inr hc))
      · exact .inr (.inl hc)
  simp only at h
  split_ifs at h with hhead hinner hname
  · cases h
    rcases hparts with hfront | hrest
    · rw [hinner.1] at hfront
      rcases mem_append.mp hfront with hfront | hfront
      · rcases mem_cons.mp hfront with rfl | hfront
        · exact .inr (.inr (.inl rfl))
        · exact .inl hfront
      · rw [List.mem_singleton.mp hfront]
        exact .inr (.inr (.inl rfl))
    · exact .inr hrest
  · cases h
    exact hparts

/-! ## Printable hosts -/

/-- What hosts and ports are written with: printable, and no character that ends or splits the authority. -/
def isPlain (c : Char) : Bool := isPrintable c && !(['@', '/', '?', '#'].contains c)

theorem isPlain_of_hex (h : isHexDigitChar c = true) : isPlain c = true := by
  have hall : ∀ n : Fin 103, isHexDigitChar (Char.ofNat n) = true → isPlain (Char.ofNat n) = true := by decide +kernel
  have hc := hall ⟨c.toNat, toNat_lt_of_hex h⟩
  rw [Char.ofNat_toNat] at hc
  exact hc h

theorem lt_of_isPlain (h : isPlain c = true) : c.toNat < 128 := by
  simp only [isPlain, isPrintable, Bool.and_eq_true, decide_eq_true_eq] at h
  omega

theorem isPlain_of_toLower {d : Char} (h : c.toLower = d.toLower) (hd : isPlain d = true) : isPlain c = true := by
  have hall : ∀ n : Fin 128, (isPlain (Char.ofNat n) = isPlain (Char.ofNat n).toLower) ∧
      (Char.ofNat n).toLower.toNat < 128 := by decide +kernel
  have hdlower := hall ⟨d.toNat, lt_of_isPlain hd⟩
  rw [Char.ofNat_toNat] at hdlower
  have hc : c.toNat < 128 := by
    by_contra hlarge
    have hsame : c.toLower = c := by
      have hrange : ¬(65 ≤ c.toNat ∧ c.toNat ≤ 90) := by omega
      exact dif_neg hrange
    rw [hsame] at h
    rw [h] at hlarge
    exact hlarge hdlower.2
  have hclower := hall ⟨c.toNat, hc⟩
  rw [Char.ofNat_toNat] at hclower
  rw [hclower.1, h, ← hdlower.1, hd]

theorem encodeHostChar_length (c : Char) :
    1 ≤ (encodeHostChar c).length ∧ ((encodeHostChar c).length ≤ 1 → isPrintable c = true) := by
  rw [encodeHostChar]
  split_ifs with h
  · exact ⟨le_refl 1, fun _ => h⟩
  · cases hlist : String.utf8EncodeChar c with
    | nil => exact absurd hlist String.utf8EncodeChar_ne_nil
    | cons b rest =>
      simp only [List.flatMap_cons, List.length_append, List.length_cons]
      exact ⟨by omega, fun h => by omega⟩

/-- **A host** is as long as its text only where all of it is printable. -/
theorem length_encode (host : List Char) : host.length ≤ (host.flatMap encodeHostChar).length ∧
    ((host.flatMap encodeHostChar).length ≤ host.length → ∀ c ∈ host, isPrintable c = true) := by
  induction host with
  | nil => exact ⟨le_refl 0, nofun⟩
  | cons c rest ih =>
    obtain ⟨hpos, hone⟩ := encodeHostChar_length c
    rw [List.flatMap_cons, List.length_append, List.length_cons]
    refine ⟨by omega, fun h d hd => ?_⟩
    rcases mem_cons.mp hd with rfl | hd
    · exact hone (by omega)
    · exact ih.2 (by omega) d hd

theorem encode_printable (h : ∀ c ∈ host, isPrintable c = true) : host.flatMap encodeHostChar = host := by
  induction host with
  | nil => rfl
  | cons c rest ih =>
    rw [List.flatMap_cons, ih fun d hd => h d (List.mem_cons_of_mem c hd), encodeHostChar, if_pos (h c List.mem_cons_self)]
    rfl

theorem isPlain_of_printable (h : isPrintable c = true) (hforbidden : ¬isForbidden c = true) :
    isPlain c = true ∧ isBracket c = false := by
  constructor
  · rw [isPlain, h, Bool.true_and, Bool.not_eq_true', List.contains_eq_mem, decide_eq_false_iff_not]
    intro hmem
    refine hforbidden ?_
    simp only [mem_cons, List.not_mem_nil, or_false] at hmem
    rcases hmem with rfl | rfl | rfl | rfl <;> decide
  · refine Bool.eq_false_of_not_eq_true fun hbracket => hforbidden ?_
    rw [isBracket, Bool.or_eq_true, beq_iff_eq, beq_iff_eq] at hbracket
    rcases hbracket with rfl | rfl <;> decide

/-- **A name in a URL** is plain and without brackets. -/
theorem plain_of_encode (h : host.any isForbidden = false) :
    ∀ c ∈ host.flatMap encodeHostChar, isPlain c = true ∧ isBracket c = false := by
  intro c hc
  obtain ⟨d, hd, hc⟩ := List.mem_flatMap.mp hc
  rw [encodeHostChar] at hc
  split_ifs at hc with hprintable
  · rw [List.mem_singleton.mp hc]
    exact isPlain_of_printable hprintable (List.any_eq_false.mp h d hd)
  · obtain ⟨b, -, hc⟩ := List.mem_flatMap.mp hc
    have hdigit : ∀ n : Fin 16, isPlain (Nat.digitChar n).toUpper = true ∧ isBracket (Nat.digitChar n).toUpper = false := by
      decide
    simp only [mem_cons, List.not_mem_nil, or_false] at hc
    rcases hc with rfl | rfl | rfl
    · decide
    · exact hdigit ⟨b.toNat / 16, by have := b.toNat_lt; omega⟩
    · exact hdigit ⟨b.toNat % 16, Nat.mod_lt _ (by decide)⟩

/-- **The host of a URL** is plain. -/
theorem HostText.plain (h : HostText host hostname) : ∀ c ∈ hostname, isPlain c = true := by
  intro c hc
  cases h with
  | ipv6 t h =>
    rcases mem_append.mp hc with hc | hc
    · rcases mem_cons.mp hc with rfl | hc
      · decide
      · rcases (mem_canonicalText hc).1 with hhex | rfl
        · exact isPlain_of_hex hhex
        · decide
    · rw [List.mem_singleton.mp hc]
      decide
  | name _ h => exact (plain_of_encode h c hc).1

end CfMonitor.Lib
