/-
  IP addresses that configuration accepts as targets, and those that the agent refuses to probe.

  1. **Addresses** — a host is an address in some spelling (`IsHost`); a URL serialises it in canonical
     form.  That is all that is assumed of the platform (`HostRules`).

  2. **Ping targets** — the check reads every spelling as its canonical text (`boundary_ipv6`).  Eight
     networks of the agent are missing in it (`Missing`): accepted addresses are refused by the agent
     exactly in these.

  3. **Websites** — the check has all networks of the agent.
-/
import Mathlib
import CfMonitor.Agent.BlockedTargets
import CfMonitor.Backup.RuleInputs
import CfMonitor.Lib.IpCanonical

namespace CfMonitor.Backup

open CfMonitor.Lib CfMonitor.Live CfMonitor.Website CfMonitor.Agent
open String (ofList toList_ofList)

/-! ## Addresses -/

/-- What is documented of `toLowerCase` and of hosts in `new URL`: an IPv6 host is serialised in canonical form. -/
structure HostRules (rules : BackupRules) : Prop where
  lower : LowersAscii rules.lower
  canonical : ∀ (t : Ipv6Text) (h : t.Valid), ∃ u, rules.parseUrl ("http://[" ++ String.ofList t.text ++ "]/") = some u ∧
    u.hostname = "[" ++ String.ofList (t.address h).text ++ "]"

inductive ProbeAddress where
  | ipv4 (x : Ipv4)
  | ipv6 (x : Ipv6)

/-- The bytes of `net.IP`. -/
def ProbeAddress.bytes : ProbeAddress → List Nat
  | .ipv4 x => ipv4Bytes x
  | .ipv6 x => groupBytes x.groups

/-- The address as the host of a URL. -/
def ProbeAddress.hostname : ProbeAddress → String
  | .ipv4 x => String.ofList x.text
  | .ipv6 x => "[" ++ String.ofList x.text ++ "]"

/-- A host is an address: an IPv4 address as it is, an IPv6 address in any spelling, with or without brackets. -/
def IsHost (host : String) : ProbeAddress → Prop
  | .ipv4 x => host.toList = x.text
  | .ipv6 x => ∃ (t : Ipv6Text) (h : t.Valid), t.address h = x ∧
      (host.toList = t.text ∨ host.toList = '[' :: t.text ++ [']'])

/-- The networks of the agent that the check of ping targets does not have. -/
def Missing : ProbeAddress → Prop
  | .ipv4 x => (x.a = 192 ∧ x.b = 0 ∧ (x.c = 0 ∨ x.c = 2)) ∨ (x.a = 198 ∧ (x.b = 18 ∨ x.b = 19)) ∨
      (x.a = 198 ∧ x.b = 51 ∧ x.c = 100) ∨ (x.a = 203 ∧ x.b = 0 ∧ x.c = 113)
  | .ipv6 x => (x.groups.take 4 = [0x100, 0, 0, 0]) ∨ (x.groups.take 2 = [0x2001, 0xdb8]) ∨ 0xff00 ≤ x.groups.getD 0 0

/-- The host that a ping target is checked by. -/
def targetHost (rules : BackupRules) (type : PingTaskType) (target : String) : Option String :=
  match type with
  | .icmp => some target
  | .tcp => (rules.parseUrl ("tcp://" ++ target)).map Url.hostname
  | .http => (rules.parseUrl target).map Url.hostname

/-! ## Texts and strings -/

theorem withoutBrackets_eq (host : String) : withoutBrackets host = ofList (stripBrackets host.toList) := by
  have hhead : startsWith "[" host = true ↔ host.toList.head? = some '[' := by
    have hbracket : "[".toList = ['['] := rfl
    rw [startsWith, hbracket, List.isPrefixOf_iff_prefix]
    cases host.toList with
    | nil => simp
    | cons c rest => simp [eq_comm]
  rw [withoutBrackets, stripBrackets]
  simp only [hhead, List.drop_one]

variable {host : String}

theorem contains_colon (h : ':' ∈ host.toList) : contains ":" host = true := by
  obtain ⟨front, back, heq⟩ := List.append_of_mem h
  rw [contains, List.any_eq_true]
  refine ⟨':' :: back, ?_, rfl⟩
  rw [List.mem_tails, heq]
  exact List.suffix_append front _

theorem contains_false {part : String} {c : Char} (hc : c ∈ part.toList) (h : c ∉ host.toList) :
    contains part host = false := by
  rw [contains, List.any_eq_false]
  intro suffix hsuffix hpart
  rw [List.mem_tails] at hsuffix
  rw [List.isPrefixOf_iff_prefix] at hpart
  exact h (hsuffix.subset (hpart.subset hc))

theorem ofList_beq (text : List Char) (p : String) : (ofList text == p) = (text == p.toList) := by
  rw [Bool.eq_iff_iff, beq_iff_eq, beq_iff_eq]
  exact ⟨fun h => by rw [← h, toList_ofList], fun h => by rw [h, String.ofList_toList]⟩

theorem isDigit_of_octetText {part : List Char} (h : isOctetText part = true) : ∀ c ∈ part, c.isDigit = true := by
  cases part with
  | nil => exact nofun
  | cons d rest =>
    simp only [isOctetText, Bool.or_eq_true, Bool.and_eq_true, beq_iff_eq, List.isEmpty_iff, List.all_eq_true] at h
    intro c hc
    rcases h with ⟨rfl, rfl⟩ | ⟨⟨⟨-, hd⟩, hrest⟩, -⟩
    · rw [List.mem_singleton.mp hc]
      decide
    · rcases List.mem_cons.mp hc with rfl | hc
      · exact hd
      · exact hrest c hc

theorem parseIpv4_colon (h : ':' ∈ host.toList) : parseIpv4 host = none := by
  simp only [parseIpv4]
  refine if_neg fun ⟨_, hall⟩ => ?_
  obtain ⟨part, hpart, hcolon⟩ := mem_part_of_mem h (by decide : ':' ≠ '.')
  have hdigit := isDigit_of_octetText (List.all_eq_true.mp hall part hpart) ':' hcolon
  cases hdigit

theorem octetText_decimal {n : Nat} (h : n < 256) :
    isOctetText (decimalText n) = true ∧ digitsValue (decimalText n) = n ∧ isNumericText (decimalText n) = true ∧
      (isHexText (decimalText n) || (1 < (decimalText n).length && (decimalText n).head? == some '0')) = false := by
  have hall : ∀ n : Fin 256, isOctetText (decimalText n) = true ∧ digitsValue (decimalText n) = n ∧
      isNumericText (decimalText n) = true ∧
      (isHexText (decimalText n) || (1 < (decimalText n).length && (decimalText n).head? == some '0')) = false := by
    decide +kernel
  exact hall ⟨n, h⟩

theorem parseIpv4_text (x : Ipv4) : parseIpv4 (ofList x.text) = some [x.a, x.b, x.c, x.d] := by
  obtain ⟨ha, hb, hc, hd⟩ := x.bounds
  obtain ⟨ha1, ha2, -⟩ := octetText_decimal ha
  obtain ⟨hb1, hb2, -⟩ := octetText_decimal hb
  obtain ⟨hc1, hc2, -⟩ := octetText_decimal hc
  obtain ⟨hd1, hd2, -⟩ := octetText_decimal hd
  simp only [parseIpv4, splitAt, toList_ofList, x.splitOn_text]
  rw [if_pos (by simp [ha1, hb1, hc1, hd1])]
  simp only [List.map_cons, List.map_nil, ha2, hb2, hc2, hd2]
  rw [if_pos (by simp; omega)]

theorem isAmbiguous_text (x : Ipv4) : isAmbiguousNumericHost (ofList x.text) = false := by
  obtain ⟨ha, hb, hc, hd⟩ := x.bounds
  obtain ⟨-, -, ha3, ha4⟩ := octetText_decimal ha
  obtain ⟨-, -, hb3, hb4⟩ := octetText_decimal hb
  obtain ⟨-, -, hc3, hc4⟩ := octetText_decimal hc
  obtain ⟨-, -, hd3, hd4⟩ := octetText_decimal hd
  simp only [isAmbiguousNumericHost, parseIpv4_text, splitAt, toList_ofList, x.splitOn_text]
  simp [ha3, hb3, hc3, hd3, ha4, hb4, hc4, hd4]

/-! ## Ping targets -/

/-- What `isBlockedIpv6` asks of a canonical text. -/
def isBlockedText (text : List Char) : Bool :=
  text == "::".toList || text == "::1".toList ||
    ["::ffff:", "0:0:0:0:0:ffff:", "fc", "fd"].any (fun p => p.toList.isPrefixOf text) ||
    (match text with
      | 'f' :: 'e' :: c :: d :: ':' :: _ => "89ab".toList.contains c && isLowerHexDigit d
      | _ => false)

theorem bracketed_toList (text : List Char) : ("[" ++ ofList text ++ "]").toList = '[' :: (text ++ [']']) := by
  simp only [String.toList_append, toList_ofList]
  rfl

theorem trim_host (h : ∀ c ∈ host.toList, AddressChar c ∨ c = '[' ∨ c = ']') : trim host = host := by
  refine trim_eq_self fun c hc => ?_
  rcases h c hc with h | rfl | rfl
  · exact h.kept
  · decide
  · decide

variable {rules : BackupRules}

/-- **The host that is checked**: the text of the address in lower case. -/
theorem checked_host (hrules : HostRules rules) {text : List Char} (hne : text ≠ [])
    (hchars : ∀ c ∈ text, AddressChar c) (h : host.toList = text ∨ host.toList = '[' :: text ++ [']']) :
    trim host = host ∧ withoutBrackets (rules.lower host) = ofList (text.map Char.toLower) := by
  have hhost : ∀ c ∈ host.toList, AddressChar c ∨ c = '[' ∨ c = ']' := by
    intro c hc
    rcases h with h | h
    · exact .inl (hchars c (h ▸ hc))
    · rw [h] at hc
      rcases List.mem_append.mp hc with hc | hc
      · rcases List.mem_cons.mp hc with hc | hc
        · exact .inr (.inl hc)
        · exact .inl (hchars c hc)
      · exact .inr (.inr (List.mem_singleton.mp hc))
  have hascii : ∀ c ∈ host.toList, c.val < 128 := by
    intro c hc
    rcases hhost c hc with h | rfl | rfl
    · exact h.ascii
    · decide
    · decide
  refine ⟨trim_host hhost, ?_⟩
  obtain ⟨rest, hlower, hnil⟩ := hrules.lower host.toList [] hascii
  rw [hnil rfl, List.append_nil, List.append_nil, String.ofList_toList] at hlower
  have hbrackets : ∀ c ∈ text.map Char.toLower, c ≠ '[' ∧ c ≠ ']' := by
    intro c hc
    obtain ⟨d, hd, rfl⟩ := List.mem_map.mp hc
    exact (hchars d hd).lower
  have hne' : text.map Char.toLower ≠ [] := by simpa using hne
  rw [hlower, withoutBrackets_eq, toList_ofList]
  rcases h with h | h
  · have haround := stripBrackets_around hne' hbrackets (.inl rfl) (.inl rfl)
    rw [h]
    simpa using congrArg ofList haround
  · rw [h]
    have hmap : ('[' :: text ++ [']']).map Char.toLower = ['['] ++ text.map Char.toLower ++ [']'] := by
      simp only [List.map_append, List.map_cons, List.map_nil]
      rfl
    rw [hmap]
    exact congrArg ofList (stripBrackets_around hne' hbrackets (.inr rfl) (.inr rfl))

theorem no_local_name {text : List Char} (h : ∀ c ∈ text, isHexDigitChar c = true ∨ c = ':' ∨ c = '.') :
    ¬(ofList text = "localhost" ∨ endsWith ".localhost" (ofList text) = true) ∧
      ofList text ≠ "metadata.google.internal" := by
  have hletter : 'l' ∉ text := by
    intro hl
    rcases h 'l' hl with h | h | h
    · cases h
    · cases h
    · cases h
  have hlist : ∀ name : String, 'l' ∈ name.toList → ofList text ≠ name := by
    intro name hname heq
    rw [← heq, toList_ofList] at hname
    exact hletter hname
  refine ⟨not_or.mpr ⟨hlist _ (by decide), fun hends => ?_⟩, hlist _ (by decide)⟩
  rw [endsWith, List.isSuffixOf_iff_suffix] at hends
  have hmem : 'l' ∈ (ofList text).toList := hends.subset (by decide : 'l' ∈ ".localhost".toList)
  rw [toList_ofList] at hmem
  exact hletter hmem

/-- **An IPv4 host** is checked by its octets. -/
theorem boundary_ipv4 (hrules : HostRules rules) {x : Ipv4}
    (h : host.toList = x.text) : validateNetworkBoundary rules host = none ↔
      (isPrivateIpv4 x.a x.b || 224 ≤ x.a) = false := by
  obtain ⟨htrim, hchecked⟩ := checked_host hrules x.text_ne_nil (fun c hc => addressChar_of_ipv4 hc) (.inl h)
  have hchars : ∀ c ∈ x.text, isHexDigitChar c = true ∨ c = ':' ∨ c = '.' := by
    intro c hc
    rcases digit_or_dot hc with hdigit | hdot
    · exact .inl (by rw [isHexDigitChar, hdigit, Bool.true_or, Bool.true_or])
    · exact .inr (.inr hdot)
  obtain ⟨hlocal, hmetadata⟩ := no_local_name hchars
  have hne : ofList x.text ≠ "" := fun hempty => x.text_ne_nil (by
    rw [← toList_ofList (l := x.text), hempty]
    rfl)
  rw [x.text_lower] at hchecked
  have hagain := (checked_host hrules x.text_ne_nil (fun c hc => addressChar_of_ipv4 hc)
    (.inl toList_ofList : (ofList x.text).toList = x.text ∨ _)).2
  rw [x.text_lower] at hagain
  have hipv6 : isBlockedIpv6 rules (ofList x.text) = false := by
    simp only [isBlockedIpv6, hagain]
    rw [contains_false (List.mem_singleton.mpr rfl) (by rw [toList_ofList]; exact x.colon_notMem_text)]
    rfl
  simp only [validateNetworkBoundary, htrim, hchecked]
  rw [if_neg hne, if_neg hlocal, if_neg hmetadata, isAmbiguous_text, hipv6, isBlockedIpv4, parseIpv4_text]
  simp

variable {x : Ipv6}

/-- **An IPv6 host** in any spelling is checked by its canonical text. -/
theorem boundary_ipv6 (hrules : HostRules rules)
    (h : IsHost host (.ipv6 x)) : validateNetworkBoundary rules host = none ↔ isBlockedText x.text = false := by
  obtain ⟨t, hvalid, rfl, hhost⟩ := h
  obtain ⟨htrim, hchecked⟩ := checked_host hrules (Ipv6Text.text_ne_nil hvalid) (fun c hc => addressChar_of_text hc) hhost
  have hvalid' := Ipv6Text.valid_lower hvalid
  have hvalid'' := Ipv6Text.valid_lower hvalid'
  rw [← Ipv6Text.text_lower] at hchecked
  obtain ⟨hlocal, hmetadata⟩ := no_local_name fun c (hc : c ∈ t.lower.text) => hex_or_sign hc
  have hcolon := Ipv6Text.colon_mem_text hvalid'
  have hcontains : contains ":" (ofList t.lower.text) = true := contains_colon (by rwa [toList_ofList])
  have hcontains' : contains ":" (ofList t.lower.lower.text) = true :=
    contains_colon (by rw [toList_ofList]; exact Ipv6Text.colon_mem_text hvalid'')
  have hne : ofList t.lower.text ≠ "" := fun hempty => Ipv6Text.text_ne_nil hvalid' (by
    rw [← toList_ofList (l := t.lower.text), hempty]
    rfl)
  have hambiguous : isAmbiguousNumericHost (ofList t.lower.text) = false := by
    simp only [isAmbiguousNumericHost, hcontains, Bool.true_or, if_true]
  have hipv4 : isBlockedIpv4 (ofList t.lower.text) = false := by
    rw [isBlockedIpv4, parseIpv4_colon (by rwa [toList_ofList])]
  have hagain := (checked_host hrules (Ipv6Text.text_ne_nil hvalid') (fun c hc => addressChar_of_text hc)
    (.inl toList_ofList : (ofList t.lower.text).toList = t.lower.text ∨ _)).2
  rw [← Ipv6Text.text_lower] at hagain
  obtain ⟨u, hparse, hhostname⟩ := hrules.canonical t.lower.lower hvalid''
  have hsame : t.lower.lower.address hvalid'' = t.address hvalid := Ipv6.ext' (by
    show t.lower.lower.groups = t.groups
    rw [Ipv6Text.groups_lower, Ipv6Text.groups_lower])
  rw [hsame] at hhostname
  -- What is left of the host of the URL without its brackets is the canonical text.
  have hinner : ofList (u.hostname.toList.drop 1).dropLast = ofList (t.address hvalid).text := by
    rw [hhostname, bracketed_toList, List.drop_one, List.tail_cons, List.dropLast_concat]
  have hipv6 : isBlockedIpv6 rules (ofList t.lower.text) = isBlockedText (t.address hvalid).text := by
    simp only [isBlockedIpv6, hagain, hcontains', Bool.not_true, Bool.false_eq_true, if_false, hparse, hinner, ofList_beq,
      startsWith, toList_ofList, isBlockedText] <;> rfl
  simp only [validateNetworkBoundary, htrim, hchecked]
  rw [if_neg hne, if_neg hlocal, if_neg hmetadata, hambiguous, hipv4, hipv6, Bool.false_or, Bool.false_or]
  cases isBlockedText (t.address hvalid).text with
  | true => simp
  | false => simp

/-! ## Canonical texts -/

variable {g : Nat}

theorem hexText_unique (hlow : 0xfc00 ≤ g) (hhigh : g ≤ 0xfdff) :
    ("fc".toList.isPrefixOf (hexText g) || "fd".toList.isPrefixOf (hexText g)) = true := by
  have hall : ∀ i : Fin 0x200, ("fc".toList.isPrefixOf (hexText (0xfc00 + i)) ||
      "fd".toList.isPrefixOf (hexText (0xfc00 + i))) = true := by decide +kernel
  have hg := hall ⟨g - 0xfc00, by omega⟩
  rwa [Nat.add_sub_cancel' hlow] at hg

theorem hexText_link (hlow : 0xfe80 ≤ g) (hhigh : g ≤ 0xfebf) :
    ∃ c d, hexText g = ['f', 'e', c, d] ∧ ("89ab".toList.contains c && isLowerHexDigit d) = true := by
  have hall : ∀ i : Fin 0x40, ∃ c ∈ hexText (0xfe80 + i), ∃ d ∈ hexText (0xfe80 + i),
      hexText (0xfe80 + i) = ['f', 'e', c, d] ∧ ("89ab".toList.contains c && isLowerHexDigit d) = true := by decide +kernel
  obtain ⟨c, -, d, -, h⟩ := hall ⟨g - 0xfe80, by omega⟩
  rw [Nat.add_sub_cancel' hlow] at h
  exact ⟨c, d, h⟩

theorem hexText_multicast (hlow : 0xff00 ≤ g) (hhigh : g < 0x10000) : ∃ c d, hexText g = ['f', 'f', c, d] := by
  have hall : ∀ i : Fin 0x100, ∃ c ∈ hexText (0xff00 + i), ∃ d ∈ hexText (0xff00 + i),
      hexText (0xff00 + i) = ['f', 'f', c, d] := by decide +kernel
  obtain ⟨c, -, d, -, h⟩ := hall ⟨g - 0xff00, by omega⟩
  rw [Nat.add_sub_cancel' hlow] at h
  exact ⟨c, d, h⟩

/-- What the canonical text of a refused address begins with. -/
inductive RefusedText (x : Ipv6) : Prop where
  | unspecified (h : x.text = "::".toList)
  | loopback (h : x.text = "::1".toList)
  | mapped (more : List Char) (h : x.text = "::ffff:".toList ++ more)
  | unique (more : List Char) (h : x.text = 'f' :: 'c' :: more ∨ x.text = 'f' :: 'd' :: more)
  | link (c d : Char) (more : List Char) (h : x.text = 'f' :: 'e' :: c :: d :: ':' :: more)
      (hc : ("89ab".toList.contains c && isLowerHexDigit d) = true)
  | discard (more : List Char) (h : x.text = '1' :: '0' :: '0' :: ':' :: more) (hmissing : Missing (.ipv6 x))
  | documentation (more : List Char) (h : x.text = "2001:db8:".toList ++ more) (hmissing : Missing (.ipv6 x))
  | multicast (c d : Char) (more : List Char) (h : x.text = 'f' :: 'f' :: c :: d :: ':' :: more)
      (hmissing : Missing (.ipv6 x))

/-- **The canonical text** of an address that the agent refuses. -/
theorem refusedText_of_blocked (h : BlockedIpv6 x.groups) : RefusedText x := by
  obtain ⟨g0, g1, g2, g3, g4, g5, g6, g7, hgroups, h0, -⟩ := groups_eight x
  have htext : x.text = canonicalText [g0, g1, g2, g3, g4, g5, g6, g7] := by rw [Ipv6.text, hgroups]
  rw [BlockedIpv6, hgroups] at h
  have hstarts : g0 ≠ 0 → ∃ more, x.text = hexText g0 ++ ':' :: more := by
    intro hg
    rw [htext]
    exact text_starts hg (List.cons_ne_nil _ _)
  split_ifs at h with hmapped
  · obtain ⟨rfl, rfl, rfl, rfl, rfl, rfl⟩ : g0 = 0 ∧ g1 = 0 ∧ g2 = 0 ∧ g3 = 0 ∧ g4 = 0 ∧ g5 = 0xffff := by simpa using hmapped
    obtain ⟨more, hmore⟩ := text_mapped g6 g7
    exact .mapped more (htext.trans hmore)
  · rcases h with h | h | h | h | h | h | h
    · obtain ⟨rfl, rfl, rfl, rfl, rfl, rfl, rfl, rfl⟩ := h
      exact .unspecified (htext.trans (by decide))
    · obtain ⟨rfl, rfl, rfl, rfl, rfl, rfl, rfl, rfl⟩ := h
      exact .loopback (htext.trans (by decide))
    · obtain ⟨more, hmore⟩ := hstarts (by omega)
      obtain ⟨rfl, rfl, rfl, rfl⟩ := h
      exact .discard more hmore (.inl (by rw [hgroups]; rfl))
    · obtain ⟨rfl, rfl⟩ := h
      obtain ⟨more, hmore⟩ := text_starts_two (by decide : (0x2001 : Nat) ≠ 0) (by decide : (0xdb8 : Nat) ≠ 0)
        (List.cons_ne_nil g2 [g3, g4, g5, g6, g7])
      exact .documentation more (htext.trans (hmore.trans rfl)) (.inr (.inl (by rw [hgroups]; rfl)))
    · obtain ⟨more, hmore⟩ := hstarts (by omega)
      have hunique := hexText_unique h.1 h.2
      rw [Bool.or_eq_true, List.isPrefixOf_iff_prefix, List.isPrefixOf_iff_prefix] at hunique
      rcases hunique with ⟨rest, hrest⟩ | ⟨rest, hrest⟩
      · exact .unique (rest ++ ':' :: more) (.inl (by rw [hmore, ← hrest]; rfl))
      · exact .unique (rest ++ ':' :: more) (.inr (by rw [hmore, ← hrest]; rfl))
    · obtain ⟨more, hmore⟩ := hstarts (by omega)
      obtain ⟨c, d, hg, hc⟩ := hexText_link h.1 h.2
      exact .link c d more (by rw [hmore, hg]; rfl) hc
    · obtain ⟨more, hmore⟩ := hstarts (by omega)
      obtain ⟨c, d, hg⟩ := hexText_multicast h h0
      exact .multicast c d more (by rw [hmore, hg]; rfl) (.inr (.inr (by rw [hgroups]; exact h)))

/-- **What the check of ping targets does not see** is in one of the missing networks. -/
theorem RefusedText.blocked_or_missing (h : RefusedText x) :
    isBlockedText x.text = true ∨ Missing (.ipv6 x) := by
  cases h with
  | unspecified h =>
    rw [h]
    exact .inl rfl
  | loopback h =>
    rw [h]
    exact .inl rfl
  | mapped more h =>
    rw [h]
    exact .inl rfl
  | unique more h =>
    rcases h with h | h
    · rw [h]
      exact .inl rfl
    · rw [h]
      exact .inl rfl
  | link c d more h hc =>
    left
    rw [h, isBlockedText]
    simp only [hc, Bool.or_true]
  | discard _ _ hmissing => exact .inr hmissing
  | documentation _ _ hmissing => exact .inr hmissing
  | multicast _ _ _ _ hmissing => exact .inr hmissing

theorem missing_ipv6 (h : Missing (.ipv6 x)) : BlockedIpv6 x.groups ∧ isBlockedText x.text = false := by
  obtain ⟨g0, g1, g2, g3, g4, g5, g6, g7, hgroups, h0, -⟩ := groups_eight x
  have htext : x.text = canonicalText [g0, g1, g2, g3, g4, g5, g6, g7] := by rw [Ipv6.text, hgroups]
  have hstarts : g0 ≠ 0 → ∃ more, x.text = hexText g0 ++ ':' :: more := by
    intro hg
    rw [htext]
    exact text_starts hg (List.cons_ne_nil _ _)
  have hunmapped : g0 ≠ 0 → ¬[g0, g1, g2, g3, g4, g5, g6, g7].take 6 = [0, 0, 0, 0, 0, 0xffff] :=
    fun hg heq => hg (List.cons.inj heq).1
  rw [Missing, hgroups] at h
  rw [BlockedIpv6, hgroups]
  rcases h with h | h | h
  · obtain ⟨rfl, rfl, rfl, rfl⟩ : g0 = 0x100 ∧ g1 = 0 ∧ g2 = 0 ∧ g3 = 0 := by simpa using h
    obtain ⟨more, hmore⟩ := hstarts (by decide)
    rw [if_neg (hunmapped (by decide)), hmore]
    exact ⟨.inr (.inr (.inl ⟨rfl, rfl, rfl, rfl⟩)), rfl⟩
  · obtain ⟨rfl, rfl⟩ : g0 = 0x2001 ∧ g1 = 0xdb8 := by simpa using h
    obtain ⟨more, hmore⟩ := hstarts (by decide)
    rw [if_neg (hunmapped (by decide)), hmore]
    exact ⟨.inr (.inr (.inr (.inl ⟨rfl, rfl⟩))), rfl⟩
  · have h : 0xff00 ≤ g0 := h
    obtain ⟨more, hmore⟩ := hstarts (by omega)
    obtain ⟨c, d, hg⟩ := hexText_multicast h h0
    rw [if_neg (hunmapped (by omega)), hmore, hg]
    exact ⟨.inr (.inr (.inr (.inr (.inr (.inr h))))), rfl⟩

theorem missing_ipv4 (x : Ipv4) : Missing (.ipv4 x) ↔
    BlockedOctets x.a x.b x.c ∧ (isPrivateIpv4 x.a x.b || 224 ≤ x.a) = false := by
  rw [Missing]
  generalize x.a = a
  generalize x.b = b
  generalize x.c = c
  constructor
  · rintro (⟨rfl, rfl, rfl | rfl⟩ | ⟨rfl, rfl | rfl⟩ | ⟨rfl, rfl, rfl⟩ | ⟨rfl, rfl, rfl⟩)
    all_goals exact ⟨by simp [BlockedOctets], rfl⟩
  · rintro ⟨h, hprivate⟩
    rcases h with rfl | rfl | ⟨rfl, h⟩ | rfl | ⟨rfl, rfl⟩ | ⟨rfl, h⟩ | ⟨rfl, rfl, rfl⟩ | ⟨rfl, rfl, rfl⟩ | ⟨rfl, rfl⟩ |
      ⟨rfl, h⟩ | ⟨rfl, rfl, rfl⟩ | ⟨rfl, rfl, rfl⟩ | h | h
    · exact Bool.noConfusion hprivate
    · exact Bool.noConfusion hprivate
    · simp [isPrivateIpv4, h] at hprivate
    · exact Bool.noConfusion hprivate
    · exact Bool.noConfusion hprivate
    · simp [isPrivateIpv4, h] at hprivate
    · exact .inl ⟨rfl, rfl, .inl rfl⟩
    · exact .inl ⟨rfl, rfl, .inr rfl⟩
    · exact Bool.noConfusion hprivate
    · exact .inr (.inl ⟨rfl, h⟩)
    · exact .inr (.inr (.inl ⟨rfl, rfl, rfl⟩))
    · exact .inr (.inr (.inr ⟨rfl, rfl, rfl⟩))
    · simp [h] at hprivate
    · have hclass : 224 ≤ a := by omega
      simp [hclass] at hprivate

/-- `isBlockedTargetIP` of an address. -/
def ProbeAddress.refused (a : ProbeAddress) : Bool := isBlockedTargetIP (some a.bytes)

variable {a : ProbeAddress}

/-- **A host that passes the check** is refused exactly in the missing networks. -/
theorem boundary_refused (hrules : HostRules rules)
    (hhost : IsHost host a) (h : validateNetworkBoundary rules host = none) : a.refused = true ↔ Missing a := by
  cases a with
  | ipv4 x =>
    rw [boundary_ipv4 hrules hhost] at h
    rw [missing_ipv4, h]
    exact (isBlocked_ipv4 x).trans ⟨fun h => ⟨h, rfl⟩, And.left⟩
  | ipv6 x =>
    rw [boundary_ipv6 hrules hhost] at h
    refine (isBlocked_ipv6 x).trans ⟨fun hblocked => ?_, fun hmissing => (missing_ipv6 hmissing).1⟩
    rcases (refusedText_of_blocked hblocked).blocked_or_missing with htext | hmissing
    · rw [h] at htext
      exact Bool.noConfusion htext
    · exact hmissing

theorem boundary_missing (hrules : HostRules rules)
    (hhost : IsHost host a) (h : Missing a) : validateNetworkBoundary rules host = none := by
  cases a with
  | ipv4 x => exact (boundary_ipv4 hrules hhost).mpr ((missing_ipv4 x).mp h).2
  | ipv6 x => exact (boundary_ipv6 hrules hhost).mpr (missing_ipv6 h).2

theorem boundary_of_target {type : PingTaskType} {target : String}
    (h : validateTarget rules type target = none) :
    ∃ host, targetHost rules type target = some host ∧ validateNetworkBoundary rules host = none := by
  unfold validateTarget at h
  split_ifs at h
  cases type with
  | icmp =>
    simp only [validateIcmpTarget] at h
    split_ifs at h
    exact ⟨target, rfl, h⟩
  | tcp =>
    simp only [validateTcpTarget] at h
    split_ifs at h
    cases hparse : rules.parseUrl ("tcp://" ++ target) with
    | none => simp [hparse] at h
    | some u =>
      simp only [hparse] at h
      split_ifs at h
      exact ⟨u.hostname, by simp only [targetHost, hparse, Option.map_some], h⟩
  | http =>
    simp only [validateHttpTarget] at h
    cases hparse : rules.parseUrl target with
    | none => simp [hparse] at h
    | some u =>
      simp only [hparse] at h
      split_ifs at h
      exact ⟨u.hostname, by simp only [targetHost, hparse, Option.map_some], h⟩

/-- Two colons at least: there are six groups in front of an IPv4 address, or `::`. -/
theorem two_colons {t : Ipv6Text} (h : t.Valid) : 2 ≤ t.text.count ':' := by
  rw [Ipv6Text.Valid] at h
  rw [Ipv6Text.text]
  cases hback : t.back with
  | none =>
    simp only [hback] at h ⊢
    have htail := t.length_tailGroups
    rcases hfront : t.front with _ | ⟨g, _ | ⟨g', _ | ⟨g'', rest⟩⟩⟩
    · simp only [hfront, List.length_nil] at h; omega
    · simp only [hfront, List.length_singleton] at h; omega
    · simp only [hfront, List.length_cons, List.length_nil] at h; omega
    · rw [Ipv6Text.parts, List.map_cons, List.map_cons, List.map_cons, List.cons_append, List.cons_append,
        List.cons_append, joinWith_cons ':' _ (by simp), joinWith_cons ':' _ (by simp)]
      simp only [List.count_append, List.count_cons_self]
      omega
  | some back =>
    simp only [List.count_append]
    have hdouble : [':', ':'].count ':' = 2 := rfl
    omega

theorem host_chars (h : IsHost host a) :
    ∀ c ∈ host.toList, isHexDigitChar c = true ∨ c ∈ [':', '.', '[', ']'] := by
  cases a with
  | ipv4 x =>
    intro c hc
    rw [h] at hc
    rcases digit_or_dot hc with hdigit | rfl
    · exact .inl (by rw [isHexDigitChar, hdigit, Bool.true_or, Bool.true_or])
    · exact .inr (by decide)
  | ipv6 x =>
    obtain ⟨t, -, -, hhost⟩ := h
    have hchars : ∀ c ∈ t.text, isHexDigitChar c = true ∨ c ∈ [':', '.', '[', ']'] := by
      intro c hc
      rcases hex_or_sign hc with hhex | rfl | rfl
      · exact .inl hhex
      · exact .inr (by decide)
      · exact .inr (by decide)
    intro c hc
    rcases hhost with hhost | hhost
    · exact hchars c (hhost ▸ hc)
    · rw [hhost] at hc
      rcases List.mem_append.mp hc with hc | hc
      · rcases List.mem_cons.mp hc with rfl | hc
        · exact .inr (by decide)
        · exact hchars c hc
      · rw [List.mem_singleton.mp hc]
        exact .inr (by decide)

theorem host_ne_empty (h : IsHost host a) : host ≠ "" := by
  rintro rfl
  cases a with
  | ipv4 x => exact x.text_ne_nil h.symm
  | ipv6 x =>
    obtain ⟨t, hvalid, -, hhost | hhost⟩ := h
    · exact Ipv6Text.text_ne_nil hvalid hhost.symm
    · exact absurd hhost (List.cons_ne_nil _ _).symm

theorem host_no_blank (h : IsHost host a) : hasBlank host = false := by
  rw [hasBlank, List.any_eq_false]
  intro c hc
  have hsigns : [':', '.', '[', ']'].all (fun c => !isTrimmed c) = true := by decide
  rcases host_chars h c hc with hhex | hsign
  · simp [(addressChar_of_hex hhex).kept]
  · simpa using List.all_eq_true.mp hsigns c hsign

theorem host_no_port (h : IsHost host a) :
    (isBracketedWithPort host || host.toList.count ':' == 1) = false := by
  have hplain : ∀ text : List Char, (∀ c ∈ text, AddressChar c) → host.toList = text → isBracketedWithPort host = false := by
    intro text hchars heq
    cases htext : text with
    | nil => simp only [isBracketedWithPort, heq, htext]
    | cons c rest =>
      have hc : c ≠ '[' := (hchars c (htext ▸ List.mem_cons_self)).opening
      simp only [isBracketedWithPort, heq, htext]
      split
      · rename_i heq'
        exact absurd (List.cons.inj heq').1 hc
      · rfl
  cases a with
  | ipv4 x =>
    rw [hplain x.text (fun c hc => addressChar_of_ipv4 hc) h, Bool.false_or, show host.toList = x.text from h,
      List.count_eq_zero.mpr x.colon_notMem_text]
    rfl
  | ipv6 x =>
    obtain ⟨t, hvalid, -, hhost⟩ := h
    have htwo := two_colons hvalid
    have hcount : host.toList.count ':' = t.text.count ':' := by
      rcases hhost with hhost | hhost
      · rw [hhost]
      · rw [hhost]
        simp
    rw [hcount, Bool.or_eq_false_iff, beq_eq_false_iff_ne]
    refine ⟨?_, by omega⟩
    rcases hhost with hhost | hhost
    · exact hplain t.text (fun c hc => addressChar_of_text hc) hhost
    · have hopen : ∀ c ∈ t.text, (c != ']') = true := fun c hc => bne_iff_ne.mpr (addressChar_of_text hc).closing
      have hspan : (t.text ++ [']']).span (· != ']') = (t.text, [']']) := by
        rw [List.span_eq_takeWhile_dropWhile, List.takeWhile_append_of_pos hopen, List.dropWhile_append_of_pos hopen]
        simp
      simp only [isBracketedWithPort, hhost, List.cons_append, hspan]

/-- **ICMP targets** in the missing networks pass the check in every spelling. -/
theorem icmp_missing (hrules : HostRules rules)
    (hhost : IsHost host a) (h : Missing a) : validateIcmpTarget rules host = none := by
  have hslash : contains "://" host = false := by
    refine contains_false (by decide : '/' ∈ "://".toList) fun hmem => ?_
    rcases host_chars hhost '/' hmem with hhex | hsign
    · exact absurd hhex (by decide)
    · exact absurd hsign (by decide)
  simp only [validateIcmpTarget, host_no_blank hhost, hslash, host_no_port hhost, Bool.false_eq_true, if_false]
  exact boundary_missing hrules hhost h

/-! ## Every spelling is short -/

theorem length_joinWith {sep : Char} {parts : List (List Char)} (h : ∀ part ∈ parts, part.length ≤ 15) :
    (joinWith sep parts).length ≤ 16 * parts.length := by
  induction parts with
  | nil => exact Nat.zero_le _
  | cons part rest ih =>
    have hpart := h part List.mem_cons_self
    have hrest := ih fun p hp => h p (List.mem_cons_of_mem _ hp)
    by_cases hne : rest = []
    · rw [hne, joinWith_singleton, List.length_singleton]
      omega
    · rw [joinWith_cons sep part hne, List.length_append, List.length_cons, List.length_cons]
      omega

/-- Dotted decimal has at most 15 characters. -/
theorem length_ipv4 (x : Ipv4) : x.text.length ≤ 15 := by
  have hoctet : ∀ n, n < 256 → (decimalText n).length ≤ 3 := fun n h =>
    (Nat.length_toDigits_le_iff (by decide) (by decide)).mpr (by omega)
  obtain ⟨ha, hb, hc, hd⟩ := x.bounds
  have ha := hoctet _ ha
  have hb := hoctet _ hb
  have hc := hoctet _ hc
  have hd := hoctet _ hd
  rw [Ipv4.text, joinWith_cons '.' _ (List.cons_ne_nil _ _), joinWith_cons '.' _ (List.cons_ne_nil _ _),
    joinWith_cons '.' _ (List.cons_ne_nil _ _), joinWith_singleton]
  simp only [List.length_append, List.length_cons]
  omega

theorem length_parts (groups : List Hextet) (tail : Option Ipv4) :
    (joinWith ':' (Ipv6Text.parts groups tail)).length ≤ 16 * (groups.length + 1) := by
  have hparts : ∀ part ∈ Ipv6Text.parts groups tail, part.length ≤ 15 := by
    intro part hpart
    rcases List.mem_append.mp hpart with hpart | hpart
    · obtain ⟨g, -, rfl⟩ := List.mem_map.mp hpart
      have := g.length
      omega
    · obtain ⟨x, -, rfl⟩ := Option.map_eq_some_iff.mp (Option.mem_toList.mp hpart)
      exact length_ipv4 x
  refine (length_joinWith hparts).trans (Nat.mul_le_mul_left 16 ?_)
  rw [Ipv6Text.parts, List.length_append, List.length_map]
  cases tail with
  | none => exact Nat.le_succ _
  | some x => exact Nat.le_refl _

theorem length_ipv6 {t : Ipv6Text} (h : t.Valid) : t.text.length ≤ 500 := by
  rw [Ipv6Text.Valid] at h
  rw [Ipv6Text.text]
  cases hback : t.back with
  | none =>
    simp only [hback] at h ⊢
    have hparts := length_parts t.front t.tail
    omega
  | some back =>
    simp only [hback, List.length_append] at h ⊢
    have hfront := length_parts t.front none
    rw [Ipv6Text.parts_none] at hfront
    have hrest := length_parts back t.tail
    have htwo : [':', ':'].length = 2 := rfl
    omega

/-- **Every spelling** is short enough for a target. -/
theorem host_units (h : IsHost host a) : units host ≤ 512 := by
  have hsize : units host = host.toList.length := by
    rw [units]
    have hone : ∀ c ∈ host.toList, utf16Size c = 1 := by
      intro c hc
      have hsigns : [':', '.', '[', ']'].all (fun c => utf16Size c == 1) = true := by decide
      rcases host_chars h c hc with hhex | hsign
      · have hascii := (addressChar_of_hex hhex).ascii
        exact if_pos (UInt32.lt_trans hascii (by decide))
      · simpa using List.all_eq_true.mp hsigns c hsign
    rw [List.map_congr_left hone]
    simp
  have hlength : host.toList.length ≤ 502 := by
    cases a with
    | ipv4 x =>
      rw [show host.toList = x.text from h]
      exact (length_ipv4 x).trans (by decide)
    | ipv6 x =>
      obtain ⟨t, hvalid, -, hhost⟩ := h
      have htext := length_ipv6 hvalid
      rcases hhost with hhost | hhost
      · rw [hhost]
        omega
      · rw [hhost]
        simp only [List.length_append, List.length_cons, List.length_nil]
        omega
  omega

theorem missing_valid (hrules : HostRules rules)
    (hhost : IsHost host a) (h : Missing a) : validateTarget rules .icmp host = none := by
  simp only [validateTarget, if_neg (host_ne_empty hhost), if_neg (not_lt.mpr (host_units hhost))]
  exact icmp_missing hrules hhost h

/-! ## Websites -/

theorem canonical_chars (x : Ipv6) : (∀ c ∈ x.text, AddressChar c) ∧ x.text.map Char.toLower = x.text ∧ '.' ∉ x.text := by
  refine ⟨fun c hc => ?_, ?_, fun hdot => ?_⟩
  · rcases (mem_canonicalText hc).1 with hhex | rfl
    · exact addressChar_of_hex hhex
    · exact ⟨by decide, by decide, by decide, by decide, by decide⟩
  · refine (List.map_congr_left fun c hc => ?_).trans (List.map_id _)
    exact (mem_canonicalText hc).2
  · rcases (mem_canonicalText hdot).1 with hhex | hcolon
    · cases hhex
    · cases hcolon

/-- Dotted decimal ends in a digit. -/
theorem getLast_text (x : Ipv4) : x.text.getLast? ≠ some '.' := by
  rw [Ipv4.text, joinWith_cons '.' _ (List.cons_ne_nil _ _), joinWith_cons '.' _ (List.cons_ne_nil _ _),
    joinWith_cons '.' _ (List.cons_ne_nil _ _), joinWith_singleton]
  intro h
  have hdot : '.' ∈ decimalText x.d := by
    have hlast := List.getLast?_eq_getLast_of_ne_nil (decimalText_ne_nil x.d)
    have hc : (decimalText x.d).getLast (decimalText_ne_nil x.d) = '.' := by
      simpa [List.getLast?_append, List.getLast?_cons, hlast] using h
    exact hc ▸ List.getLast_mem _
  cases isDigit_of_mem_decimalText hdot

/-- **What the website check asks of a canonical text** holds of every address that the agent refuses. -/
theorem RefusedText.website (h : RefusedText x) : (isIpv4MappedIpv6 (ofList x.text) ||
    ofList x.text == "::" || ofList x.text == "::1" ||
    ["fc", "fd", "fe8", "fe9", "fea", "feb", "ff"].any (fun p => startsWith p (ofList x.text)) ||
    isGroup "100" (ofList x.text) || isGroup "2001:db8" (ofList x.text)) = true := by
  simp only [isIpv4MappedIpv6, isGroup, startsWith, ofList_beq, toList_ofList]
  cases h with
  | unspecified h =>
    rw [h]
    rfl
  | loopback h =>
    rw [h]
    rfl
  | mapped more h =>
    rw [h]
    rfl
  | unique more h =>
    rcases h with h | h
    · rw [h]
      rfl
    · rw [h]
      rfl
  | link c d more h hc =>
    have hrange : c ∈ "89ab".toList := List.contains_iff_mem.mp ((Bool.and_eq_true_iff.mp hc).1)
    have hletters : "89ab".toList = ['8', '9', 'a', 'b'] := rfl
    rw [hletters] at hrange
    simp only [List.mem_cons, List.not_mem_nil, or_false] at hrange
    rcases hrange with rfl | rfl | rfl | rfl <;> rw [h] <;> rfl
  | discard more h _ =>
    rw [h]
    rfl
  | documentation more h _ =>
    rw [h]
    rfl
  | multicast c d more h _ =>
    rw [h]
    rfl

theorem website_octets {a b c d : Nat} (h : BlockedOctets a b c) : isBlockedWebsiteIpv4 [a, b, c, d] = true := by
  rcases h with rfl | rfl | ⟨rfl, h⟩ | rfl | ⟨rfl, rfl⟩ | ⟨rfl, h⟩ | ⟨rfl, rfl, rfl⟩ | ⟨rfl, rfl, rfl⟩ | ⟨rfl, rfl⟩ |
    ⟨rfl, h⟩ | ⟨rfl, rfl, rfl⟩ | ⟨rfl, rfl, rfl⟩ | h | h
  · rfl
  · rfl
  · simp [isBlockedWebsiteIpv4, isPrivateIpv4, h]
  · rfl
  · rfl
  · simp [isBlockedWebsiteIpv4, isPrivateIpv4, h]
  · rfl
  · rfl
  · rfl
  · rcases h with rfl | rfl <;> rfl
  · rfl
  · rfl
  · simp [isBlockedWebsiteIpv4, h]
  · have hclass : 224 ≤ a := by omega
    simp [isBlockedWebsiteIpv4, hclass]

/-- **A website host** that the agent refuses is unsafe. -/
theorem unsafe_of_refused (hrules : HostRules rules) (h : a.refused = true) :
    isUnsafeHostname rules a.hostname = true := by
  cases a with
  | ipv4 x =>
    have hhost := (checked_host hrules x.text_ne_nil (fun c hc => addressChar_of_ipv4 hc)
      (.inl toList_ofList : (ProbeAddress.ipv4 x).hostname.toList = x.text ∨ _)).2
    rw [x.text_lower] at hhost
    have hdot : withoutDot (ofList x.text) = ofList x.text := by
      rw [withoutDot, toList_ofList, if_neg (getLast_text x)]
    simp only [isUnsafeHostname, hhost, hdot, parseIpv4_text]
    split_ifs
    · rfl
    · exact website_octets ((isBlocked_ipv4 x).mp h)
  | ipv6 x =>
    obtain ⟨hchars, hlower, hdots⟩ := canonical_chars x
    have hcolon : ':' ∈ x.text := colon_mem_canonicalText (by rw [x.length]; decide)
    have hhost := (checked_host hrules (List.ne_nil_of_mem hcolon) hchars
      (.inr (bracketed_toList x.text) : (ProbeAddress.ipv6 x).hostname.toList = x.text ∨ _)).2
    rw [hlower] at hhost
    have hdot : withoutDot (ofList x.text) = ofList x.text := by
      rw [withoutDot, toList_ofList, if_neg fun hlast => hdots (List.mem_of_getLast? hlast)]
    have hwebsite := (refusedText_of_blocked ((isBlocked_ipv6 x).mp h)).website
    have hcontains : contains ":" (ofList x.text) = true := contains_colon (by rwa [toList_ofList])
    have hipv4 : parseIpv4 (ofList x.text) = none := parseIpv4_colon (by rwa [toList_ofList])
    simp only [isUnsafeHostname, hhost, hdot, hipv4, hcontains, hwebsite, Bool.true_and, Bool.or_true]
    split_ifs
    · rfl
    · rfl

/-- **Websites**: what is accepted is not refused. -/
theorem website_not_refused (hrules : HostRules rules) {input : Fields} {w : WebsiteMonitorInput}
    (h : validateWebsiteMonitorInput rules input = .ok w) {u : Url}
    (hparse : rules.parseUrl (trim (truthyText rules (Assoc.get? input "url"))) = some u)
    (hhost : u.hostname = a.hostname) : a.refused = false := by
  by_contra hrefused
  have hblocked := unsafe_of_refused hrules (Bool.eq_true_of_not_eq_false hrefused)
  rw [← hhost] at hblocked
  have haddress : ∀ method, addressError rules method u ≠ none := by
    intro method herror
    simp only [addressError, validateTcpUrl, validateWebsiteUrl, hblocked, if_true] at herror
    split_ifs at herror
  simp only [validateWebsiteMonitorInput] at h
  split_ifs at h
  cases hmethod : websiteMethod (Assoc.get? input "method") with
  | none => simp [hparse, hmethod] at h
  | some method =>
    simp only [hparse, hmethod] at h
    obtain ⟨error, herror⟩ := Option.ne_none_iff_exists'.mp (haddress method)
    rw [addressError] at herror
    simp only [herror, reduceCtorEq] at h

/-! ## Targets and the agent -/

/-- An ICMP task for all clients. -/
def icmpTask (host : String) : Json :=
  .obj [("name", .str "n"), ("type", .str "icmp"), ("target", .str host), ("all_clients", .bool true)]

theorem icmpTask_accepted (hrules : HostRules rules)
    (hhost : IsHost host a) (htarget : validateTarget rules .icmp host = none) :
    ∃ task, validatePingTaskInput rules (icmpTask host) none = .ok task ∧ task.type = .icmp ∧ task.target = host := by
  have hlower : rules.lower "icmp" = "icmp" := by
    obtain ⟨rest, hlower, hnil⟩ := hrules.lower "icmp".toList [] (by decide)
    rw [hnil rfl, List.append_nil, List.append_nil, String.ofList_toList] at hlower
    exact hlower
  have htrim : trim host = host := by
    refine trim_eq_self fun c hc => ?_
    exact Bool.eq_false_of_not_eq_true (List.any_eq_false.mp (host_no_blank hhost) c hc)
  -- What is read of the fields.
  have hname : trim (textOr rules (Assoc.get? ((Json.obj? (icmpTask host)).getD []) "name") "") = "n" :=
    (by decide : trim "n" = "n")
  have htype : PingTaskType.ofText? (rules.lower (trim (textOr rules
      (Assoc.get? ((Json.obj? (icmpTask host)).getD []) "type") "icmp"))) = some .icmp := by
    have hread : textOr rules (Assoc.get? ((Json.obj? (icmpTask host)).getD []) "type") "icmp" = "icmp" := rfl
    have htrim' : trim "icmp" = "icmp" := by decide
    rw [hread, htrim', hlower]
    rfl
  have hread : trim (textOr rules (Assoc.get? ((Json.obj? (icmpTask host)).getD []) "target") "") = host := htrim
  have hinterval : integerBetween (rules.toFinite (orElse (Assoc.get? ((Json.obj? (icmpTask host)).getD []) "interval_sec")
      (orElse (Assoc.get? ((Json.obj? (icmpTask host)).getD []) "interval") (some (.int 60))))) 60 86400 = some 60 := by
    show integerBetween (some ((60 : Int) : ℚ)) 60 86400 = some 60
    decide +kernel
  have hall : readBoolean rules (Assoc.get? ((Json.obj? (icmpTask host)).getD []) "all_clients") false = true := rfl
  refine ⟨_, accepted_ok.mpr ⟨?_, rfl⟩, ?_, ?_⟩
  · simp only [checkPingTask, Checked.passes_bind, passes_report, Checked.passes_faultIf, Checked.passes_pure, and_true,
      hname, htype, hread, hinterval, hall]
    exact ⟨by decide, rfl, htarget, rfl, rfl, rfl⟩
  · simp only [checkPingTask, Checked.value_bind, Checked.value_pure, htype]
    rfl
  · simp only [checkPingTask, Checked.value_bind, Checked.value_pure, hread]

/-- **Accepted targets** are refused by the agent exactly in the missing networks, and each address of these is accepted in
    every spelling; no address of an accepted website is refused. -/
theorem accepted_targets_refused {rules : BackupRules} (hrules : HostRules rules) :
    (∀ (input : Json) (allowed : Option (List String)) (task : PingTaskInput) (host : String) (a : ProbeAddress),
      validatePingTaskInput rules input allowed = .ok task → targetHost rules task.type task.target = some host →
      IsHost host a → (a.refused = false ↔ ¬Missing a)) ∧
    (∀ (host : String) (a : ProbeAddress), IsHost host a → Missing a → ∃ task,
      validatePingTaskInput rules (icmpTask host) none = .ok task ∧ task.type = .icmp ∧ task.target = host) ∧
    (∀ (input : Fields) (w : WebsiteMonitorInput) (u : Url) (a : ProbeAddress),
      validateWebsiteMonitorInput rules input = .ok w →
      rules.parseUrl (trim (truthyText rules (Assoc.get? input "url"))) = some u → u.hostname = a.hostname →
      a.refused = false) := by
  refine ⟨fun input allowed task host a htask hhost ha => ?_, fun host a ha h => icmpTask_accepted hrules ha (missing_valid hrules ha h),
    fun input w u a hw hparse hhost => website_not_refused hrules hw hparse hhost⟩
  obtain ⟨host', hhost', hboundary⟩ := boundary_of_target (validatePingTaskInput_valid htask).1.target.2
  obtain rfl : host' = host := Option.some.inj (hhost'.symm.trans hhost)
  rw [← not_iff_not, not_not, Bool.not_eq_false]
  exact boundary_refused hrules ha hboundary

/-! ## Fixed inputs -/

/-- `new URL` of an address in brackets. -/
def bracketUrl (text : String) : Option Url :=
  match text.toList with
  | 'h' :: 't' :: 't' :: 'p' :: ':' :: '/' :: '/' :: '[' :: rest =>
    let inner := rest.takeWhile (· != ']')
    if rest.dropWhile (· != ']') = [']', '/'] then
      let host := "[" ++ String.ofList (canonicalText (readIpv6 inner)) ++ "]"
      some ⟨"http:", "", "", host, "", "/", "", "", "http://" ++ host ++ "/", "http://" ++ host⟩
    else none
  | _ => none

/-- Rules for fixed inputs: addresses in brackets are parsed. -/
def bracketRules : BackupRules :=
  { outboxRules with
    numberOf := fun _ => none
    compactLiveReport := fun report => report
    parseUrl := bracketUrl
    parseJson := fun _ => none
    lower := fun text => String.ofList (text.toList.map Char.toLower)
    hashAgentToken := fun _ => "" }

theorem bracketRules_hosts : HostRules bracketRules where
  lower := by
    intro front rest _
    refine ⟨rest.map Char.toLower, ?_, fun h => by rw [h]; rfl⟩
    have hlower : ∀ text, bracketRules.lower text = ofList (text.toList.map Char.toLower) := fun _ => rfl
    rw [hlower, toList_ofList, List.map_append]
  canonical := by
    intro t h
    have hopen : ∀ c ∈ t.text, (c != ']') = true := fun c hc => bne_iff_ne.mpr (addressChar_of_text hc).closing
    have htext : ("http://[" ++ ofList t.text ++ "]/").toList =
        'h' :: 't' :: 't' :: 'p' :: ':' :: '/' :: '/' :: '[' :: (t.text ++ [']', '/']) := by
      simp only [String.toList_append, toList_ofList]
      rfl
    have hinner : (t.text ++ [']', '/']).takeWhile (· != ']') = t.text := by
      rw [List.takeWhile_append_of_pos hopen]
      simp
    have hrest : (t.text ++ [']', '/']).dropWhile (· != ']') = [']', '/'] := by
      rw [List.dropWhile_append_of_pos hopen]
      simp
    have hparse : bracketRules.parseUrl ("http://[" ++ ofList t.text ++ "]/") =
        bracketUrl ("http://[" ++ ofList t.text ++ "]/") := rfl
    simp only [hparse, bracketUrl, htext, hinner, hrest, if_true, readIpv6_text]
    exact ⟨_, rfl, rfl⟩

/-- `203.0.113.7`. -/
def documented : Ipv4 := ⟨203, 0, 113, 7, by decide⟩

/-- `2606:4700::1111`. -/
def resolverText : Ipv6Text := ⟨[hextetOf "2606" (by decide), hextetOf "4700" (by decide)], some [hextetOf "1111" (by decide)], none⟩

/-- Its address. -/
def resolverAddress : ProbeAddress := .ipv6 (resolverText.address (by decide))

/-- A website at this address. -/
def resolverWebsite : Fields := [("name", .str "n"), ("url", .str "http://[2606:4700::1111]/")]

theorem documented_host : IsHost "203.0.113.7" (.ipv4 documented) := (by decide : "203.0.113.7".toList = documented.text)

theorem documented_missing : Missing (.ipv4 documented) := .inr (.inr (.inr ⟨rfl, rfl, rfl⟩))

theorem resolver_host : IsHost "2606:4700::1111" resolverAddress := ⟨resolverText, by decide, rfl, .inl (by decide)⟩

/-- The hypotheses are satisfiable, and the parts are not empty. -/
theorem accepted_targets_refused_fixed :
    (∃ task, validatePingTaskInput bracketRules (icmpTask "2606:4700::1111") none = .ok task ∧
      (resolverAddress.refused = false ↔ ¬Missing resolverAddress)) ∧
    (∃ task, validatePingTaskInput bracketRules (icmpTask "203.0.113.7") none = .ok task ∧ task.type = .icmp ∧
      task.target = "203.0.113.7") ∧
    (∃ w u, validateWebsiteMonitorInput bracketRules resolverWebsite = .ok w ∧
      bracketRules.parseUrl (trim (truthyText bracketRules (Assoc.get? resolverWebsite "url"))) = some u ∧
      u.hostname = resolverAddress.hostname ∧ resolverAddress.refused = false) := by
  obtain ⟨hping, hmissing, hwebsite⟩ := accepted_targets_refused bracketRules_hosts
  refine ⟨?_, hmissing "203.0.113.7" (.ipv4 documented) documented_host documented_missing, ?_⟩
  · obtain ⟨task, htask, htype, htarget⟩ := icmpTask_accepted bracketRules_hosts resolver_host (by decide +kernel)
    exact ⟨task, htask, hping _ none task "2606:4700::1111" resolverAddress htask (by rw [htype, htarget]; rfl) resolver_host⟩
  · have hparse : ∃ u, bracketUrl "http://[2606:4700::1111]/" = some u ∧ u.hostname = resolverAddress.hostname :=
      ⟨_, rfl, by decide +kernel⟩
    obtain ⟨u, hparse, hhost⟩ := hparse
    have hurl : trim (truthyText bracketRules (Assoc.get? resolverWebsite "url")) = "http://[2606:4700::1111]/" := by
      decide +kernel
    have hok : (validateWebsiteMonitorInput bracketRules resolverWebsite).toBool = true := by decide +kernel
    cases hw : validateWebsiteMonitorInput bracketRules resolverWebsite with
    | error error => simp [hw, Except.toBool] at hok
    | ok w =>
      rw [hurl]
      exact ⟨w, u, rfl, hparse, hhost, hwebsite _ w u _ hw (by rw [hurl]; exact hparse) hhost⟩

/-- An address of documentation is accepted, and refused on every node. -/
theorem documented_is_refused : HostRules bracketRules ∧ ∃ task,
    validatePingTaskInput bracketRules (icmpTask "203.0.113.7") none = .ok task ∧
    targetHost bracketRules task.type task.target = some "203.0.113.7" ∧ IsHost "203.0.113.7" (.ipv4 documented) ∧
    (ProbeAddress.ipv4 documented).refused = true := by
  obtain ⟨task, htask, htype, htarget⟩ := icmpTask_accepted bracketRules_hosts documented_host
    (missing_valid bracketRules_hosts documented_host documented_missing)
  exact ⟨bracketRules_hosts, task, htask, by rw [htype, htarget]; rfl, documented_host, by decide +kernel⟩

end CfMonitor.Backup
