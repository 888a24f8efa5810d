/-
  TCP targets of the agent (`normalizeTCPTargetAddress` in `main.go`), against the URL of the target.

  1. **Agent** — a target is a host and a port, an address alone or a name alone; the last two have
     port 80.

  2. **URL** — `tcp://` in front of the target makes it a URL, with a host and a port.

  3. **Both** — host and port are the same exactly where the target is written plainly
     (`dials_iff`): everything else that the URL allows is part of the agent's host or port.
-/
import CfMonitor.Lib.HostPort

namespace CfMonitor.Agent

open CfMonitor.Lib

/-- An address to dial, its host and its port. -/
structure TcpAddress where
  address : List Char
  host : List Char
  port : List Char

/-- `normalizeTCPTargetAddress`, with what `net.ParseIP` accepts; `none` is an error. -/
def normalizeTCPTargetAddress (parseIP : List Char → Bool) (target : List Char) : Option TcpAddress :=
  let target := trimWhere isGoSpace target
  if target = [] then none
  else match splitHostPort target with
    | some (host, port) => some ⟨joinHostPort host port, trimWhere isBracket host, port⟩
    | none =>
      let trimmed := trimWhere isBracket target
      if parseIP trimmed then some ⟨joinHostPort trimmed "80".toList, trimmed, "80".toList⟩
      else if ':' ∉ target then some ⟨joinHostPort target "80".toList, target, "80".toList⟩
      else none

/-- The same host, up to brackets and the case of letters. -/
def SameHost (host hostname : List Char) : Prop :=
  (trimWhere isBracket host).map Char.toLower = (trimWhere isBracket hostname).map Char.toLower

/-- The agent dials this host at this port. -/
def Dials (parseIP : List Char → Bool) (target hostname port : List Char) : Prop :=
  ∃ a, normalizeTCPTargetAddress parseIP target = some a ∧ SameHost a.host hostname ∧
    (portNumber a.port).isSome = true ∧ portNumber a.port = portNumber port

/-- A target is written plainly: printable, without credentials, path, query and fragment, and an IPv6 address in canonical
    form up to the case of letters. -/
structure Written (target : List Char) : Prop where
  plain : ∀ c ∈ target, isPlain c = true
  canonical : target.head? = some '[' →
    ∃ x : Ipv6, ((target.drop 1).takeWhile (· != ']')).map Char.toLower = x.text

/-! ## Plain targets -/

variable {c : Char}

theorem isPlain_ne (h : isPlain c = true) :
    0x20 < c.toNat ∧ endsAuthority c = false ∧ (c != '@') = true ∧ isGoSpace c = false := by
  have hall : ∀ n : Fin 128, isPlain (Char.ofNat n) = true → 0x20 < (Char.ofNat n).toNat ∧
      endsAuthority (Char.ofNat n) = false ∧ (Char.ofNat n != '@') = true ∧ isGoSpace (Char.ofNat n) = false := by
    decide +kernel
  have hc := hall ⟨c.toNat, lt_of_isPlain h⟩
  rw [Char.ofNat_toNat] at hc
  exact hc h

theorem isPlain_digit (h : c.isDigit = true) : isPlain c = true :=
  isPlain_of_hex (by rw [isHexDigitChar, h, Bool.true_or, Bool.true_or])

/-- A character that the server does not take for a blank and the agent does. -/
theorem nextLine_of_goSpace (h : isGoSpace c = true) (hkept : isTrimmed c = false) : c.toNat = 0x85 := by
  simp only [isGoSpace, Bool.or_eq_true, Bool.and_eq_true, decide_eq_true_eq, List.contains_eq_mem, List.mem_cons,
    List.not_mem_nil, or_false] at h
  have hval : c.val.toNat = c.toNat := rfl
  simp only [isTrimmed, Bool.or_eq_false_iff, Bool.and_eq_false_iff, decide_eq_false_iff_not, beq_eq_false_iff_ne, ne_eq,
    UInt32.le_iff_toNat_le, ← UInt32.toNat_inj, hval, UInt32.reduceToNat] at hkept
  omega

variable {target : List Char}

/-- **A target of kept characters** is all host and port. -/
theorem hostport_eq (h : ∀ c ∈ target, 0x20 < c.toNat ∧ endsAuthority c = false ∧ (c != '@') = true) :
    afterCredentials (authority (withoutControls target)) = target := by
  have hcontrols : withoutControls target = target := by
    have hkept : target.reverse.dropWhile (fun c => c.toNat ≤ 0x20) = target.reverse := by
      rw [List.dropWhile_eq_self_iff]
      intro hpos
      have hc := h _ (List.mem_reverse.mp (List.getElem_mem hpos))
      simp only [decide_eq_true_eq, not_le]
      exact hc.1
    rw [withoutControls, hkept, List.reverse_reverse]
  have hauthority : authority target = target := by
    rw [authority, List.takeWhile_eq_self_iff]
    intro c hc
    rw [(h c hc).2.1]
    rfl
  rw [hcontrols, hauthority, afterCredentials_eq fun c hc => (h c hc).2.2]

variable {hostname port : List Char}

theorem url_parts (hurl : SchemeUrl target hostname port) (hport : port ≠ [])
    (h : ∀ c ∈ target, 0x20 < c.toNat ∧ endsAuthority c = false ∧ (c != '@') = true) :
    ∃ host digits n, target = host ++ ':' :: digits ∧ HostText host hostname ∧ portNumber digits = some n ∧
      port = decimalText n := by
  obtain ⟨hhost, hdigits⟩ := hurl
  rw [hostport_eq h] at hhost hdigits
  cases hsplit : splitPort false target with
  | mk host behind =>
    rw [hsplit] at hhost hdigits
    cases behind with
    | none => exact absurd (Option.some.inj hdigits) hport.symm
    | some digits =>
      simp only [Option.elim_some, portText] at hdigits
      split_ifs at hdigits with hempty
      · exact absurd (Option.some.inj hdigits) hport.symm
      · obtain ⟨n, hn, hdigits⟩ := Option.bind_eq_some_iff.mp hdigits
        split_ifs at hdigits
        exact ⟨host, digits, n, splitPort_eq hsplit, hhost, hn, (Option.some.inj hdigits).symm⟩

theorem forbidden_ne (h : ¬isForbidden c = true) : c ≠ ':' ∧ c ≠ '[' ∧ c ≠ ']' := by
  refine ⟨?_, ?_, ?_⟩
  all_goals
    rintro rfl
    exact h (by decide)

variable {digits : List Char}

theorem isGoSpace_digit (h : ∀ c ∈ digits, c.isDigit = true) : ∀ c ∈ ':' :: digits, isGoSpace c = false := by
  intro c hc
  rcases List.mem_cons.mp hc with rfl | hc
  · decide
  · exact (isPlain_ne (isPlain_digit (h c hc))).2.2.2

variable {host : List Char} {n : Nat}

/-- **A name and a port**, as the agent reads them. -/
theorem normalize_name (parseIP : List Char → Bool)
    (hhost : host.any isForbidden = false) (hdigits : portNumber digits = some n) :
    ∃ address, normalizeTCPTargetAddress parseIP (host ++ ':' :: digits) =
      some ⟨address, host.dropWhile isGoSpace, digits⟩ ∧ trimWhere isBracket (host.dropWhile isGoSpace) = host.dropWhile isGoSpace := by
  have hdigit := (digits_of_portNumber hdigits).1.2
  have hname : ∀ c ∈ host.dropWhile isGoSpace, c ≠ ':' ∧ c ≠ '[' ∧ c ≠ ']' := fun c hc =>
    forbidden_ne (List.any_eq_false.mp hhost c ((List.dropWhile_suffix isGoSpace).subset hc))
  have hbrackets : trimWhere isBracket (host.dropWhile isGoSpace) = host.dropWhile isGoSpace := by
    refine trimWhere_eq_self fun c hc => ?_
    obtain ⟨-, hopening, hclosing⟩ := hname c hc
    rw [isBracket, beq_false_of_ne hopening, beq_false_of_ne hclosing]
    rfl
  refine ⟨joinHostPort (host.dropWhile isGoSpace) digits, ?_, hbrackets⟩
  simp only [normalizeTCPTargetAddress, trimWhere_front host (List.cons_ne_nil ':' digits) (isGoSpace_digit hdigit),
    splitHostPort_name hname hdigit, hbrackets]
  exact if_neg (by simp)

/-- **An IPv6 address and a port**, as the agent reads them. -/
theorem normalize_ipv6 (parseIP : List Char → Bool) (t : Ipv6Text) (hdigits : portNumber digits = some n) :
    ∃ address, normalizeTCPTargetAddress parseIP ('[' :: t.text ++ [']'] ++ ':' :: digits) =
      some ⟨address, t.text, digits⟩ ∧ trimWhere isBracket t.text = t.text := by
  have hdigit := (digits_of_portNumber hdigits).1.2
  have hbrackets : trimWhere isBracket t.text = t.text := by
    refine trimWhere_eq_self fun c hc => ?_
    have haddress := addressChar_of_text hc
    rw [isBracket, beq_false_of_ne haddress.opening, beq_false_of_ne haddress.closing]
    rfl
  have hfront : ('[' :: t.text ++ [']']).dropWhile isGoSpace = '[' :: t.text ++ [']'] := by
    rw [List.cons_append, List.dropWhile_cons, if_neg (by decide)]
  refine ⟨joinHostPort t.text digits, ?_, hbrackets⟩
  simp only [normalizeTCPTargetAddress, trimWhere_front _ (List.cons_ne_nil ':' digits) (isGoSpace_digit hdigit), hfront,
    splitHostPort_ipv6 t hdigit, hbrackets]
  exact if_neg (by simp)

/-! ## What the agent dials -/

variable {parseIP : List Char → Bool}

variable {a : TcpAddress}

theorem mem_target
    (h : normalizeTCPTargetAddress parseIP target = some a) (hc : c ∈ trimWhere isGoSpace target) :
    c ∈ trimWhere isBracket a.host ∨ c ∈ a.port ∨ isBracket c = true ∨ c = ':' := by
  simp only [normalizeTCPTargetAddress] at h
  by_cases hempty : trimWhere isGoSpace target = []
  · rw [hempty] at hc
    cases hc
  rw [if_neg hempty] at h
  cases hsplit : splitHostPort (trimWhere isGoSpace target) with
  | some parts =>
    simp only [hsplit] at h
    cases h
    rcases mem_splitHostPort hsplit hc with hhost | hrest
    · rcases mem_trimWhere (p := isBracket) hhost with hhost | hbracket
      · rcases mem_trimWhere (p := isBracket) hhost with hhost | hbracket
        · exact .inl hhost
        · exact .inr (.inr (.inl hbracket))
      · exact .inr (.inr (.inl hbracket))
    · exact .inr hrest
  | none =>
    simp only [hsplit] at h
    rcases mem_trimWhere (p := isBracket) hc with hhost | hbracket
    · split_ifs at h
      · cases h
        rcases mem_trimWhere (p := isBracket) hhost with hhost | hbracket
        · exact .inl hhost
        · exact .inr (.inr (.inl hbracket))
      · cases h
        exact .inl hhost
    · exact .inr (.inr (.inl hbracket))

/-- **Plain hosts** are the same up to case where all of their characters are plain. -/
theorem plain_of_sameHost (h : SameHost host hostname) (hplain : ∀ c ∈ hostname, isPlain c = true) :
    ∀ c ∈ trimWhere isBracket host, isPlain c = true := by
  intro c hc
  have hmem : c.toLower ∈ (trimWhere isBracket hostname).map Char.toLower := by
    rw [← h]
    exact List.mem_map_of_mem hc
  obtain ⟨d, hd, hlower⟩ := List.mem_map.mp hmem
  exact isPlain_of_toLower hlower.symm (hplain d (mem_of_mem_trimWhere hd))

/-- **What is dialed** at the host and the port of the URL has no parts besides these. -/
theorem kept_of_dials (hurl : SchemeUrl target hostname port)
    (hblank : ∀ c ∈ target, isTrimmed c = false) (h : Dials parseIP target hostname port) :
    ∀ c ∈ target, 0x20 < c.toNat ∧ endsAuthority c = false ∧ (c != '@') = true := by
  obtain ⟨a, ha, hhost, hsome, -⟩ := h
  obtain ⟨n, hn⟩ := Option.isSome_iff_exists.mp hsome
  have hplain : ∀ c ∈ trimWhere isGoSpace target, isPlain c = true := by
    intro c hc
    rcases mem_target ha hc with h | h | h | rfl
    · exact plain_of_sameHost hhost hurl.host.plain c h
    · exact isPlain_digit ((digits_of_portNumber hn).1.2 c h)
    · rw [isBracket, Bool.or_eq_true, beq_iff_eq, beq_iff_eq] at h
      rcases h with rfl | rfl <;> decide
    · decide
  intro c hc
  rcases mem_trimWhere hc with h | h
  · obtain ⟨hcontrol, hends, hat, -⟩ := isPlain_ne (hplain c h)
    exact ⟨hcontrol, hends, hat⟩
  · have hline := nextLine_of_goSpace h (hblank c hc)
    have hne : ∀ d : Char, d.toNat < 0x80 → c ≠ d := by
      rintro d hd rfl
      omega
    refine ⟨by omega, ?_, bne_iff_ne.mpr (hne '@' (by decide))⟩
    rw [endsAuthority, beq_false_of_ne (hne '/' (by decide)), beq_false_of_ne (hne '?' (by decide)),
      beq_false_of_ne (hne '#' (by decide))]
    rfl

/-- **A name and a port** are dialed where all of the name is printable. -/
theorem dials_name (hhost : host.any isForbidden = false) (hdigits : portNumber digits = some n) :
    Dials parseIP (host ++ ':' :: digits) (host.flatMap encodeHostChar) (decimalText n) ↔
      ∀ c ∈ host, isPrintable c = true := by
  obtain ⟨address, hnormalize, hbrackets⟩ := normalize_name parseIP hhost hdigits
  obtain ⟨hlong, hprintable⟩ := length_encode host
  have hname : trimWhere isBracket (host.flatMap encodeHostChar) = host.flatMap encodeHostChar :=
    trimWhere_eq_self fun c hc => (plain_of_encode hhost c hc).2
  constructor
  · rintro ⟨a, ha, hsame, -⟩
    obtain rfl := Option.some.inj (hnormalize.symm.trans ha)
    have hlength := congrArg List.length hsame
    simp only [List.length_map, hbrackets, hname] at hlength
    have hshort : (host.dropWhile isGoSpace).length ≤ host.length := (List.dropWhile_suffix isGoSpace).length_le
    exact hprintable (by omega)
  · intro hall
    have hkept : host.dropWhile isGoSpace = host := by
      rw [List.dropWhile_eq_self_iff]
      intro hpos
      have hmem := List.getElem_mem hpos
      have hplain := (isPlain_of_printable (hall _ hmem) (List.any_eq_false.mp hhost _ hmem)).1
      rw [(isPlain_ne hplain).2.2.2]
      exact Bool.false_ne_true
    refine ⟨_, hnormalize, ?_, by rw [hdigits]; rfl, by rw [hdigits, portNumber_decimal]⟩
    rw [SameHost, encode_printable hall, hkept]

/-- **An IPv6 address and a port** are dialed where the address is in canonical form. -/
theorem dials_ipv6 {t : Ipv6Text} (h : t.Valid) (hdigits : portNumber digits = some n) :
    Dials parseIP ('[' :: t.text ++ [']'] ++ ':' :: digits) ('[' :: (t.address h).text ++ [']']) (decimalText n) ↔
      ∃ x : Ipv6, t.text.map Char.toLower = x.text := by
  obtain ⟨address, hnormalize, hbrackets⟩ := normalize_ipv6 parseIP t hdigits
  have hlower : (t.address h).text.map Char.toLower = (t.address h).text :=
    (List.map_congr_left fun c hc => (mem_canonicalText hc).2).trans (List.map_id _)
  have hinner : trimWhere isBracket ('[' :: (t.address h).text ++ [']']) = (t.address h).text := by
    have hcolon : ':' ∈ (t.address h).text := colon_mem_canonicalText (by rw [(t.address h).length]; decide)
    refine trimWhere_brackets (List.ne_nil_of_mem hcolon) fun c hc => ?_
    rcases (mem_canonicalText hc).1 with hhex | rfl
    · rw [isBracket, beq_false_of_ne (addressChar_of_hex hhex).opening, beq_false_of_ne (addressChar_of_hex hhex).closing]
      rfl
    · decide
  have hsame : SameHost t.text ('[' :: (t.address h).text ++ [']']) ↔ t.text.map Char.toLower = (t.address h).text := by
    rw [SameHost, hbrackets, hinner, hlower]
  constructor
  · rintro ⟨a, ha, hhost, -⟩
    obtain rfl := Option.some.inj (hnormalize.symm.trans ha)
    exact ⟨_, hsame.mp hhost⟩
  · rintro ⟨x, hx⟩
    -- A canonical text spells one address only.
    obtain ⟨t', h', rfl, htext⟩ := x.spelling
    have hgroups : t.groups = t'.groups := by
      rw [← Ipv6Text.groups_lower t, ← readIpv6_text t.lower, Ipv6Text.text_lower, hx, ← htext, readIpv6_text]
    have haddress : t.address h = t'.address h' := Ipv6.ext' hgroups
    exact ⟨_, hnormalize, hsame.mpr (by rw [hx, haddress]), by rw [hdigits]; rfl, by rw [hdigits, portNumber_decimal]⟩

theorem kept_of_written (h : Written target) :
    ∀ c ∈ target, 0x20 < c.toNat ∧ endsAuthority c = false ∧ (c != '@') = true := by
  intro c hc
  obtain ⟨hcontrol, hends, hat, -⟩ := isPlain_ne (h.plain c hc)
  exact ⟨hcontrol, hends, hat⟩

theorem port_of_normalize (hhost : HostText host hostname) (hdigits : portNumber digits = some n)
    (ha : normalizeTCPTargetAddress parseIP (host ++ ':' :: digits) = some a) : a.port = digits := by
  cases hhost with
  | name _ hforbidden =>
    obtain ⟨address, hnormalize, -⟩ := normalize_name parseIP hforbidden hdigits
    rw [Option.some.inj (ha.symm.trans hnormalize)]
  | ipv6 t h =>
    obtain ⟨address, hnormalize, -⟩ := normalize_ipv6 parseIP t hdigits
    rw [Option.some.inj (ha.symm.trans hnormalize)]

/-- **The agent dials what the URL says** exactly where the target is written plainly. -/
theorem dials_iff (hurl : SchemeUrl target hostname port)
    (hblank : ∀ c ∈ target, isTrimmed c = false) (hport : port ≠ []) :
    Dials parseIP target hostname port ↔ Written target := by
  have hparts : (∀ c ∈ target, 0x20 < c.toNat ∧ endsAuthority c = false ∧ (c != '@') = true) →
      (Dials parseIP target hostname port ↔ Written target) := by
    intro hkept
    obtain ⟨host, digits, n, rfl, hhost, hdigits, rfl⟩ := url_parts hurl hport hkept
    have hdigit := (digits_of_portNumber hdigits).1.2
    cases hhost with
    | name _ hforbidden =>
      rw [dials_name hforbidden hdigits]
      have hname : ∀ c ∈ host, ¬isForbidden c = true := List.any_eq_false.mp hforbidden
      refine ⟨fun h => ⟨fun c hc => ?_, fun hhead => ?_⟩, fun h c hc => ?_⟩
      · rcases List.mem_append.mp hc with hc | hc
        · exact (isPlain_of_printable (h c hc) (hname c hc)).1
        · rcases List.mem_cons.mp hc with rfl | hc
          · decide
          · exact isPlain_digit (hdigit c hc)
      · cases host with
        | nil => cases hhead
        | cons d rest => exact absurd (Option.some.inj hhead) (forbidden_ne (hname d List.mem_cons_self)).2.1
      · have hplain := h.plain c (List.mem_append_left _ hc)
        rw [isPlain, Bool.and_eq_true] at hplain
        exact hplain.1
    | ipv6 t h =>
      rw [dials_ipv6 h hdigits]
      refine ⟨fun hcanonical => ⟨fun c hc => ?_, fun _ => ?_⟩, fun h => ?_⟩
      · rcases List.mem_append.mp hc with hc | hc
        · rcases List.mem_append.mp hc with hc | hc
          · rcases List.mem_cons.mp hc with rfl | hc
            · decide
            · rcases hex_or_sign hc with hhex | rfl | rfl
              · exact isPlain_of_hex hhex
              · decide
              · decide
          · rw [List.mem_singleton.mp hc]
            decide
        · rcases List.mem_cons.mp hc with rfl | hc
          · decide
          · exact isPlain_digit (hdigit c hc)
      · rwa [takeWhile_brackets]
      · have hcanonical := h.canonical rfl
        rwa [takeWhile_brackets] at hcanonical
  constructor
  · intro h
    exact (hparts (kept_of_dials hurl hblank h)).mp h
  · intro h
    exact (hparts (kept_of_written h)).mpr h

/-- **The port is written alike** where it has no leading zero. -/
theorem dials_text_iff (hurl : SchemeUrl target hostname port) (hblank : ∀ c ∈ target, isTrimmed c = false)
    (hn : portNumber port = some n) (hpos : 0 < n) :
    (∃ a, normalizeTCPTargetAddress parseIP target = some a ∧ SameHost a.host hostname ∧ a.port = port) ↔
      Written target ∧ (portDigits target).head? ≠ some '0' := by
  have hport : port ≠ [] := (digits_of_portNumber hn).1.1
  have hdials : (∃ a, normalizeTCPTargetAddress parseIP target = some a ∧ SameHost a.host hostname ∧ a.port = port) →
      Dials parseIP target hostname port := by
    rintro ⟨a, ha, hhost, rfl⟩
    exact ⟨a, ha, hhost, by rw [hn]; rfl, rfl⟩
  -- The port of the agent are the digits behind the last colon.
  have hdigits : Written target → ∃ a, normalizeTCPTargetAddress parseIP target = some a ∧ SameHost a.host hostname ∧
      a.port = portDigits target ∧ portNumber (portDigits target) = some n ∧ port = decimalText n := by
    intro hwritten
    have hdials : Dials parseIP target hostname port := (dials_iff hurl hblank hport).mpr hwritten
    obtain ⟨a, ha, hhost, -⟩ := hdials
    obtain ⟨host, digits, m, rfl, htext, hm, rfl⟩ := url_parts hurl hport (kept_of_written hwritten)
    obtain rfl : m = n := Option.some.inj ((portNumber_decimal m).symm.trans hn)
    rw [portDigits_append host (digits_of_portNumber hm).1.2]
    exact ⟨a, ha, hhost, port_of_normalize htext hm ha, hm, rfl⟩
  constructor
  · intro h
    have hwritten := (dials_iff hurl hblank hport).mp (hdials h)
    refine ⟨hwritten, ?_⟩
    obtain ⟨a', ha', -, hport'⟩ := h
    obtain ⟨a, ha, -, hbehind, -, htext⟩ := hdigits hwritten
    obtain rfl := Option.some.inj (ha.symm.trans ha')
    rw [← hbehind, hport', htext]
    exact head_decimalText hpos
  · rintro ⟨hwritten, hzero⟩
    obtain ⟨a, ha, hhost, hbehind, hnumber, htext⟩ := hdigits hwritten
    obtain ⟨⟨hne, hdigit⟩, rfl⟩ := digits_of_portNumber hnumber
    refine ⟨a, ha, hhost, ?_⟩
    rw [hbehind, htext, (decimalText_ofDigitChars _ hne hdigit hzero).2]

end CfMonitor.Agent
