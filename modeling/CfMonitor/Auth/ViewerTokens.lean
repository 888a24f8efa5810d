/-
  Viewer tokens and the networks they are bound to (`viewer-token.ts`).

  1. **Platform** — `toLowerCase`, HMAC-SHA-256, `JSON.stringify` and `JSON.parse` are parameters, with
     what is documented of them (`Lawful`).  The routes refuse a secret of fewer than 32 bytes.

  2. **Networks** — the text that `normalizeIpForBinding` makes of an address in any spelling is the text
     of its network (`normalizeIpForBinding_text`): 64 bits of an IPv6 address, 24 of an IPv4 address.

  3. **Tokens** — a token that was created for one address verifies for another until it expires, if both
     lie in one network (`verify_created`).
-/
import CfMonitor.Lib.Base64
import CfMonitor.Lib.IpText
import CfMonitor.Lib.Json

namespace CfMonitor.Auth

open CfMonitor.Lib
open String (ofList toList_ofList)
open List (append_nil map_map mem_append mem_map)
open Hextet (digits plain)

/-! ## Platform -/

structure ViewerTokenPayload where
  exp : ℚ
  ip : String
  nonce : String

/-- The payload as `JSON.parse` returns it. -/
def ViewerTokenPayload.json (payload : ViewerTokenPayload) : Json :=
  .obj [("exp", .num (.finite payload.exp)), ("ip", .str payload.ip), ("nonce", .str payload.nonce)]

/-- What tokens use from elsewhere: `toLowerCase`, `crypto.subtle.sign`, `JSON.stringify` behind `TextEncoder` and
    `JSON.parse` behind `TextDecoder`. -/
structure TokenRules where
  lower : String → String
  hmac : String → List Char → List UInt8
  stringify : ViewerTokenPayload → List UInt8
  parse : List UInt8 → Option Json

/-- What is documented of them. -/
structure TokenRules.Lawful (rules : TokenRules) : Prop where
  lower : LowersAscii rules.lower
  hmac : ∀ secret text, (rules.hmac secret text).length = 32
  stringify : ∀ payload, rules.stringify payload ≠ []
  parse : ∀ payload, rules.parse (rules.stringify payload) = some payload.json

/-! ## Networks -/

/-- `value.toString(16)`. -/
def hexTextOf (value : Int) : List Char := if value < 0 then '-' :: hexText value.natAbs else hexText value.natAbs

/-- A group of the prefix; what is no number counts as zero. -/
def prefixGroup (group : Option (List Char)) : List Char :=
  match parseHex (group.getD ['0']) with
  | some hextet => hexTextOf hextet
  | none => ['0']

/-- `text.split(':').filter(Boolean)`. -/
def colonParts (text : List Char) : List (List Char) := (text.splitOn ':').filter fun part => !part.isEmpty

/-- What an address with a colon is bound to. -/
def ipv6Binding (value : List Char) : List Char :=
  let addr := stripBrackets ((value.splitOn '%').headD [])
  let compressed := addr.tails.any [':', ':'].isPrefixOf
  let halves := splitAtText [':', ':'] addr
  let head := colonParts (halves.headD [])
  let tail := if compressed then colonParts (halves[1]?.getD []) else []
  let groups := if compressed then head ++ List.replicate (8 - head.length - tail.length) ['0'] ++ tail else head
  joinWith ':' ((List.range 4).map fun i => prefixGroup groups[i]?) ++ "::/64".toList

/-- What an address without a colon is bound to. -/
def ipv4Binding (value : List Char) : List Char :=
  match value.splitOn '.' with
  | [a, b, c, _] => joinWith '.' [a, b, c] ++ ".0/24".toList
  | _ => value

section

variable (rules : TokenRules)

def normalizeIpForBinding (ip : String) : String :=
  let value := rules.lower (trim ip)
  if value = "" then ""
  else if ':' ∈ value.toList then String.ofList (ipv6Binding value.toList)
  else String.ofList (ipv4Binding value.toList)

/-! ## Tokens -/

/-- `bytesToBase64Url`. -/
def bytesToBase64Url (bytes : List UInt8) : List Char :=
  (((btoa bytes).map fun c => if c = '+' then '-' else c).map fun c => if c = '/' then '_' else c).rdropWhile (· == '=')

/-- `base64UrlToBytes`. -/
def base64UrlToBytes (value : List Char) : Option (List UInt8) :=
  atob (padToFour ((value.map fun c => if c = '-' then '+' else c).map fun c => if c = '_' then '/' else c))

/-- The bytes that `TextEncoder` writes. -/
def encodeText (text : List Char) : List UInt8 := (String.ofList text).toByteArray.data.toList

/-- `constantTimeEqual`. -/
def constantTimeEqual (a b : List Char) : Bool :=
  let left := encodeText a
  let right := encodeText b
  let diff := (List.range (max left.length right.length)).foldl
    (fun diff i => diff ||| ((left[i]?.getD 0).toNat ^^^ (right[i]?.getD 0).toNat)) (left.length ^^^ right.length)
  diff == 0

def signPayload (secret : String) (payload : List Char) : List Char := bytesToBase64Url (rules.hmac secret payload)

/-- What the route sends. -/
structure ViewerToken where
  token : String
  expires_at : ℚ

/-- `TOKEN_TTL_MS`. -/
def tokenTtlMs : ℚ := 60000

/-- `createViewerToken`; a time to live that is not finite is none, and `random` is what `getRandomValues` gave. -/
def createViewerToken (ip secret : String) (ttlMs : Option ℚ) (now : ℚ) (random : Vector UInt8 16) : ViewerToken :=
  let boundedTtlMs := match ttlMs with
    | some ttlMs => if 0 < ttlMs then ttlMs else tokenTtlMs
    | none => tokenTtlMs
  let payload : ViewerTokenPayload :=
    ⟨now + boundedTtlMs, normalizeIpForBinding rules ip, String.ofList (bytesToBase64Url random.toList)⟩
  let payloadText := bytesToBase64Url (rules.stringify payload)
  ⟨String.ofList (payloadText ++ '.' :: signPayload rules secret payloadText), payload.exp⟩

/-- The number in front of which a payload is valid; without one it is not valid at all. -/
def unexpired (now : ℚ) : Option Json → Bool
  | some (.num (.finite exp)) => decide (¬exp < now)
  | some (.num (.infinite negative)) => !negative
  | _ => false

/-- The checks of a payload. -/
def acceptsPayload (fields : Fields) (ip : String) (now : ℚ) : Bool :=
  unexpired now (Assoc.get? fields "exp") &&
    Json.str? (Assoc.get? fields "ip") == some (normalizeIpForBinding rules ip) &&
    match Json.str? (Assoc.get? fields "nonce") with
    | some nonce => 16 ≤ (nonce.toList.map fun c => if c.val < 0x10000 then 1 else 2).sum
    | none => false

/-- `verifyViewerToken`; `none` where it throws, on the payload `null`. -/
def verifyViewerToken (token ip secret : String) (now : ℚ) : Option Bool :=
  match token.toList.splitOn '.' with
  | [payloadText, signature] =>
    if payloadText.isEmpty || signature.isEmpty then some false
    else if !constantTimeEqual signature (signPayload rules secret payloadText) then some false
    else match (base64UrlToBytes payloadText).bind rules.parse with
      | none => some false
      | some .null => none
      | some (.obj fields) => some (acceptsPayload rules fields ip now)
      | some _ => some false
  | _ => some false

end

/-! ## Addresses as they are written -/

/-- Where the brackets stand: nowhere, around the address, around address and zone. -/
inductive Brackets where
  | without
  | address
  | zone
  deriving DecidableEq

/-- An IPv6 address in hexadecimal notation. -/
structure Ipv6Host where
  text : Ipv6Text
  valid : text.Valid
  hexadecimal : text.tail = none
  brackets : Brackets
  zone : Option (List Char)

def Ipv6Host.chars (x : Ipv6Host) : List Char :=
  let zone := match x.zone with
    | some name => '%' :: name
    | none => []
  match x.brackets with
  | .without => x.text.text ++ zone
  | .address => '[' :: x.text.text ++ ']' :: zone
  | .zone => '[' :: x.text.text ++ zone ++ [']']

/-- The first 64 bits, in groups of 16. -/
def Ipv6Host.network (x : Ipv6Host) : List Nat := (x.text.address x.valid).groups.take 4

/-- The first 24 bits, in octets. -/
def octetsOf (x : Ipv4) : List Nat := [x.a, x.b, x.c]

/-- An address in some spelling. -/
inductive Address where
  | ipv4 (x : Ipv4)
  | ipv6 (x : Ipv6Host)

def Address.text : Address → String
  | .ipv4 x => String.ofList x.text
  | .ipv6 x => String.ofList x.chars

/-- The network of an address. -/
inductive Network where
  | ipv4 (octets : List Nat)
  | ipv6 (groups : List Nat)
  deriving DecidableEq

def Address.network : Address → Network
  | .ipv4 x => .ipv4 (octetsOf x)
  | .ipv6 x => .ipv6 x.network

/-- How a network is written. -/
def Network.text : Network → List Char
  | .ipv4 octets => joinWith '.' (octets.map decimalText) ++ ".0/24".toList
  | .ipv6 groups => joinWith ':' (groups.map hexText) ++ "::/64".toList

/-! ## The text that is bound -/

variable {rules : TokenRules}

/-- The value that an address is read from. -/
theorem lower_trim_front (hlaw : rules.Lawful) {front : List Char} (rest : List Char)
    (hne : front ≠ []) (hascii : ∀ c ∈ front, c.val < 128) (hkept : ∀ c ∈ front, isTrimmed c = false) :
    ∃ rest', rules.lower (trim (ofList (front ++ rest))) = ofList (front.map Char.toLower ++ rest') ∧
      (rest = [] → rest' = []) := by
  obtain ⟨trimmed, htrim, hnil⟩ := trim_front rest hne hkept
  obtain ⟨rest', hlower, hnil'⟩ := hlaw.lower front trimmed hascii
  exact ⟨rest', by rw [htrim, hlower], fun hrest => hnil' (hnil hrest)⟩

theorem prefixGroup_hextet (g : Hextet) : prefixGroup (some g.digits) = hexText (hexValue g.digits) := by
  rw [prefixGroup, Option.getD_some, parseHex_hextet]
  simp only [hexTextOf]
  rw [if_neg (by omega), Int.natAbs_natCast]

theorem four_groups {groups : List (List Char)} {values : List Nat} (hlength : 4 ≤ groups.length)
    (h : groups.map (fun group => prefixGroup (some group)) = values.map hexText) :
    (List.range 4).map (fun i => prefixGroup groups[i]?) = (values.take 4).map hexText := by
  rw [List.map_take, ← h]
  match groups, hlength with
  | a :: b :: c :: d :: rest, _ => rfl

/-! ## Networks of addresses -/

theorem front_of_zone {front rest : List Char} (hfront : '%' ∉ front) (hrest : rest = [] ∨ ∃ name, rest = '%' :: name) :
    ((front ++ rest).splitOn '%').headD [] = front := by
  have hplain : ∀ c ∈ front, (c == '%') = false := fun c hc => beq_false_of_ne fun h => hfront (h ▸ hc)
  rcases hrest with rfl | ⟨name, rfl⟩
  · rw [append_nil, List.splitOn, List.splitOnP_eq_singleton hplain]
    rfl
  · rw [List.splitOn, List.splitOnP_append_cons_of_forall_mem hplain '%' (by simp)]
    rfl

variable {addr : List Char}

/-- Without `::` all groups are written. -/
theorem ipv6Binding_full {front : List Hextet} (hlength : front.length = 8)
    (haddr : addr = joinWith ':' (front.map digits)) {value : List Char}
    (hvalue : stripBrackets ((value.splitOn '%').headD []) = addr) :
    ipv6Binding value = Network.text (.ipv6 ((Ipv6Text.values front).take 4)) := by
  have hplain := plain front
  have hcompressed : addr.tails.any [':', ':'].isPrefixOf = false := by
    rw [List.any_eq_false]
    intro suffix hsuffix
    rw [List.mem_tails, haddr] at hsuffix
    by_cases hne : suffix = []
    · rw [hne]
      decide
    · have hnot := hplain.not_doubled [] hne hsuffix
      rw [append_nil] at hnot
      rw [hnot]
      exact Bool.false_ne_true
  have hhalves : splitAtText [':', ':'] addr = [addr] := by
    rw [haddr]
    exact single_join hplain
  have hhead : colonParts addr = front.map digits := by
    rw [haddr]
    exact hplain.filter_splitOn
  simp only [ipv6Binding, hvalue, hcompressed, hhalves, List.headD_cons, hhead, Bool.false_eq_true, if_false]
  rw [Network.text, four_groups]
  · rw [List.length_map]
    omega
  · rw [map_map, Ipv6Text.values, map_map]
    exact List.map_congr_left fun g _ => prefixGroup_hextet g

/-- `::` stands for the groups that are missing. -/
theorem ipv6Binding_compressed {front back : List Hextet}
    (haddr : addr = joinWith ':' (front.map digits) ++ [':', ':'] ++ joinWith ':' (back.map digits))
    (hlength : front.length + back.length ≤ 7) {value : List Char}
    (hvalue : stripBrackets ((value.splitOn '%').headD []) = addr) :
    ipv6Binding value = Network.text (.ipv6 ((Ipv6Text.values front ++
      List.replicate (8 - front.length - back.length) 0 ++ Ipv6Text.values back).take 4)) := by
  have hfront := plain front
  have hback := plain back
  have hcompressed : addr.tails.any [':', ':'].isPrefixOf = true := by
    rw [List.any_eq_true]
    refine ⟨[':', ':'] ++ joinWith ':' (back.map digits), ?_, rfl⟩
    rw [List.mem_tails, haddr, List.append_assoc]
    exact List.suffix_append _ _
  have hhalves : splitAtText [':', ':'] addr =
      [joinWith ':' (front.map digits), joinWith ':' (back.map digits)] := by
    rw [haddr]
    exact doubled_joins hfront hback
  have hhead : colonParts (joinWith ':' (front.map digits)) = front.map digits := hfront.filter_splitOn
  have htail : colonParts (joinWith ':' (back.map digits)) = back.map digits := hback.filter_splitOn
  have hsecond : [joinWith ':' (front.map digits), joinWith ':' (back.map digits)][1]?.getD [] =
      joinWith ':' (back.map digits) := rfl
  simp only [ipv6Binding, hvalue, hcompressed, hhalves, List.headD_cons, hsecond, hhead, htail, if_true]
  rw [Network.text, four_groups]
  · simp only [List.length_append, List.length_map, List.length_replicate]
    omega
  · have hzero : prefixGroup (some ['0']) = hexText 0 := by decide
    simp only [List.map_append, map_map, List.map_replicate, List.length_map, hzero, Ipv6Text.values]
    congr 1
    · congr 1
      exact List.map_congr_left fun g _ => prefixGroup_hextet g
    · exact List.map_congr_left fun g _ => prefixGroup_hextet g

/-- **Any spelling** of an address in lower case is bound to its network. -/
theorem ipv6Binding_spelling {t : Ipv6Text} (hvalid : t.Valid) (htail : t.tail = none) {value : List Char}
    (hvalue : stripBrackets ((value.splitOn '%').headD []) = t.text) :
    ipv6Binding value = Network.text (.ipv6 (t.groups.take 4)) := by
  have htext := hvalue
  rw [Ipv6Text.Valid, Ipv6Text.tailGroups, htail] at hvalid
  rw [Ipv6Text.text, htail] at htext
  rw [Ipv6Text.groups, Ipv6Text.tailGroups, htail]
  cases hback : t.back with
  | none =>
    simp only [hback, Ipv6Text.parts_none] at hvalid htext
    rw [ipv6Binding_full hvalid rfl htext]
    simp
  | some back =>
    simp only [hback, Ipv6Text.parts_none] at hvalid htext
    rw [ipv6Binding_compressed rfl hvalid htext]
    simp

/-- The parts of a written address. -/
theorem Ipv6Host.chars_eq (x : Ipv6Host) : ∃ opening closing rest,
    x.chars = opening ++ x.text.text ++ closing ++ rest ∧ (opening = [] ∨ opening = ['[']) ∧
      (closing = [] ∨ closing = [']']) ∧ (rest = [] ∨ ∃ name, rest = '%' :: name) := by
  rw [Ipv6Host.chars]
  cases x.brackets with
  | without =>
    cases x.zone with
    | none => exact ⟨[], [], [], by simp, .inl rfl, .inl rfl, .inl rfl⟩
    | some name => exact ⟨[], [], '%' :: name, by simp, .inl rfl, .inl rfl, .inr ⟨name, rfl⟩⟩
  | address =>
    cases x.zone with
    | none => exact ⟨['['], [']'], [], by simp, .inr rfl, .inr rfl, .inl rfl⟩
    | some name => exact ⟨['['], [']'], '%' :: name, by simp, .inr rfl, .inr rfl, .inr ⟨name, rfl⟩⟩
  | zone =>
    cases x.zone with
    | none => exact ⟨['['], [']'], [], by simp, .inr rfl, .inr rfl, .inl rfl⟩
    | some name => exact ⟨['['], [], '%' :: name ++ [']'], by simp, .inr rfl, .inl rfl, .inr ⟨name ++ [']'], by simp⟩⟩

theorem Ipv6Host.lowered (hlaw : rules.Lawful) (x : Ipv6Host) : ∃ opening closing rest,
    rules.lower (trim (ofList x.chars)) = ofList (opening ++ x.text.lower.text ++ closing ++ rest) ∧
      (opening = [] ∨ opening = ['[']) ∧ (closing = [] ∨ closing = [']']) ∧
      (rest = [] ∨ ∃ name, rest = '%' :: name) := by
  obtain ⟨opening, closing, rest, hchars, hopening, hclosing, hrest⟩ := x.chars_eq
  have hlowerOpening : opening.map Char.toLower = opening := by
    rcases hopening with rfl | rfl
    · rfl
    · decide
  have hlowerClosing : closing.map Char.toLower = closing := by
    rcases hclosing with rfl | rfl
    · rfl
    · decide
  have hplain : ∀ c ∈ opening ++ x.text.text ++ closing, c.val < 128 ∧ isTrimmed c = false := by
    intro c hc
    rcases mem_append.mp hc with hc | hc
    · rcases mem_append.mp hc with hc | hc
      · rcases hopening with rfl | rfl
        · cases hc
        · rw [List.mem_singleton.mp hc]
          decide
      · have haddress := addressChar_of_text hc
        exact ⟨haddress.ascii, haddress.kept⟩
    · rcases hclosing with rfl | rfl
      · cases hc
      · rw [List.mem_singleton.mp hc]
        decide
  have hne : opening ++ x.text.text ++ closing ≠ [] := by
    have htext := Ipv6Text.text_ne_nil x.valid
    simp [htext]
  rcases hrest with rfl | ⟨name, rfl⟩
  · obtain ⟨rest', hlower, hnil⟩ := lower_trim_front hlaw [] hne (fun c hc => (hplain c hc).1) fun c hc => (hplain c hc).2
    refine ⟨opening, closing, [], ?_, hopening, hclosing, .inl rfl⟩
    rw [hchars, hlower, hnil rfl, Ipv6Text.text_lower]
    simp only [List.map_append, hlowerOpening, hlowerClosing]
  · have hsign : ∀ c ∈ opening ++ x.text.text ++ closing ++ ['%'], c.val < 128 ∧ isTrimmed c = false := by
      intro c hc
      rcases mem_append.mp hc with hc | hc
      · exact hplain c hc
      · rw [List.mem_singleton.mp hc]
        decide
    obtain ⟨rest', hlower, -⟩ := lower_trim_front hlaw name (List.concat_ne_nil _ _ : _ ++ ['%'] ≠ [])
      (fun c hc => (hsign c hc).1) fun c hc => (hsign c hc).2
    refine ⟨opening, closing, '%' :: rest', ?_, hopening, hclosing, .inr ⟨rest', rfl⟩⟩
    rw [hchars, List.append_cons, hlower, Ipv6Text.text_lower]
    have hpercent : '%'.toLower = '%' := by decide
    simp only [List.map_append, List.map_cons, List.map_nil, hlowerOpening, hlowerClosing, hpercent,
      List.append_assoc, List.cons_append, List.nil_append]

theorem normalizeIpForBinding_ipv6 (hlaw : rules.Lawful) (x : Ipv6Host) :
    normalizeIpForBinding rules (ofList x.chars) = ofList (Network.text (.ipv6 x.network)) := by
  obtain ⟨opening, closing, rest, hlower, hopening, hclosing, hrest⟩ := x.lowered hlaw
  have hvalid := Ipv6Text.valid_lower x.valid
  have htail : x.text.lower.tail = none := x.hexadecimal
  have hcolon : ':' ∈ opening ++ x.text.lower.text ++ closing ++ rest := by
    have hmem := Ipv6Text.colon_mem_text hvalid
    simp [hmem]
  have hne : rules.lower (trim (ofList x.chars)) ≠ "" := by
    intro hempty
    have hlist := congrArg String.toList (hlower.symm.trans hempty)
    rw [toList_ofList] at hlist
    rw [hlist] at hcolon
    cases hcolon
  have hpercent : '%' ∉ opening ++ x.text.lower.text ++ closing := by
    intro hmem
    rcases mem_append.mp hmem with hmem | hmem
    · rcases mem_append.mp hmem with hmem | hmem
      · rcases hopening with rfl | rfl
        · exact absurd hmem List.not_mem_nil
        · exact absurd hmem (by decide)
      · exact (addressChar_of_text hmem).zone rfl
    · rcases hclosing with rfl | rfl
      · exact absurd hmem List.not_mem_nil
      · exact absurd hmem (by decide)
  have hvalue : stripBrackets (((opening ++ x.text.lower.text ++ closing ++ rest).splitOn '%').headD []) =
      x.text.lower.text := by
    rw [front_of_zone hpercent hrest]
    exact stripBrackets_around (Ipv6Text.text_ne_nil hvalid)
      (fun c hc => ⟨(addressChar_of_text hc).opening, (addressChar_of_text hc).closing⟩) hopening hclosing
  simp only [normalizeIpForBinding]
  rw [if_neg hne, hlower, toList_ofList, if_pos hcolon, ipv6Binding_spelling hvalid htail hvalue,
    Ipv6Text.groups_lower]
  rfl

theorem normalizeIpForBinding_ipv4 (hlaw : rules.Lawful) (x : Ipv4) :
    normalizeIpForBinding rules (ofList x.text) = ofList (Network.text (.ipv4 (octetsOf x))) := by
  have hne := x.text_ne_nil
  obtain ⟨rest', hlower, hnil⟩ :=
    lower_trim_front hlaw [] hne (fun c hc => (addressChar_of_ipv4 hc).ascii) fun c hc => (addressChar_of_ipv4 hc).kept
  rw [hnil rfl, append_nil, append_nil, x.text_lower] at hlower
  have hsome : ofList x.text ≠ "" := fun h => hne (by rw [← toList_ofList (l := x.text), h]; rfl)
  have hcolon := x.colon_notMem_text
  simp only [normalizeIpForBinding]
  rw [hlower, if_neg hsome, toList_ofList, if_neg hcolon, ipv4Binding, x.splitOn_text]
  rfl

theorem normalizeIpForBinding_text (hlaw : rules.Lawful) (a : Address) :
    normalizeIpForBinding rules a.text = ofList a.network.text :=
  match a with
  | .ipv4 x => normalizeIpForBinding_ipv4 hlaw x
  | .ipv6 x => normalizeIpForBinding_ipv6 hlaw x

theorem colon_mem_network (a : Address) : ':' ∈ a.network.text ↔ ∃ x, a = .ipv6 x := by
  cases a with
  | ipv4 x =>
    refine ⟨fun h => ?_, fun ⟨_, h⟩ => Address.noConfusion h⟩
    rcases mem_append.mp h with h | h
    · rcases mem_joinWith h with h | ⟨part, hpart, h⟩
      · exact absurd h (by decide)
      · obtain ⟨octet, -, rfl⟩ := mem_map.mp hpart
        cases isDigit_of_mem_decimalText h
    · exact absurd h (by decide)
  | ipv6 x => exact ⟨fun _ => ⟨x, rfl⟩, fun _ => List.mem_append_right _ (by decide)⟩

theorem Ipv6Host.length_network (x : Ipv6Host) : x.network.length = 4 := by
  rw [Ipv6Host.network, List.length_take, (x.text.address x.valid).length]
  rfl

/-- **The text of a network** determines it. -/
theorem network_text_inj {a b : Address} (h : a.network.text = b.network.text) : a.network = b.network := by
  have hcolon : (∃ x, a = .ipv6 x) ↔ ∃ x, b = .ipv6 x := by rw [← colon_mem_network, h, colon_mem_network]
  cases a with
  | ipv4 x =>
    cases b with
    | ipv6 y => exact absurd (hcolon.mpr ⟨y, rfl⟩) fun ⟨_, h⟩ => Address.noConfusion h
    | ipv4 y =>
      have hjoin := List.append_cancel_right h
      have hdigits : ∀ octets : List Nat, ∀ part ∈ octets.map decimalText, '.' ∉ part := by
        intro octets part hpart hdot
        obtain ⟨octet, -, rfl⟩ := mem_map.mp hpart
        cases isDigit_of_mem_decimalText hdot
      have hparts := joinWith_inj (by simp [octetsOf]) (by simp [octetsOf]) (hdigits _) (hdigits _) hjoin
      exact congrArg Network.ipv4 (List.map_injective_iff.mpr (fun _ _ => decimalText_inj) hparts)
  | ipv6 x =>
    cases b with
    | ipv4 y => exact absurd (hcolon.mp ⟨x, rfl⟩) fun ⟨_, h⟩ => Address.noConfusion h
    | ipv6 y =>
      have hjoin := List.append_cancel_right h
      have hne : ∀ z : Ipv6Host, z.network.map hexText ≠ [] := by
        intro z hz
        have hlength := congrArg List.length hz
        rw [List.length_map, z.length_network] at hlength
        cases hlength
      have hdigits : ∀ groups : List Nat, ∀ part ∈ groups.map hexText, ':' ∉ part := by
        intro groups part hpart hcolon
        obtain ⟨group, -, rfl⟩ := mem_map.mp hpart
        cases isHexDigitChar_of_mem_hexText hcolon
      have hparts := joinWith_inj (hne x) (hne y) (hdigits _) (hdigits _) hjoin
      exact congrArg Network.ipv6 (List.map_injective_iff.mpr (fun _ _ => hexText_inj) hparts)

/-- **Addresses are bound alike** exactly when they lie in one network. -/
theorem bound_alike (hlaw : rules.Lawful) (a b : Address) :
    normalizeIpForBinding rules a.text = normalizeIpForBinding rules b.text ↔ a.network = b.network := by
  rw [normalizeIpForBinding_text hlaw, normalizeIpForBinding_text hlaw]
  refine ⟨fun h => network_text_inj ?_, fun h => by rw [h]⟩
  have hlist := congrArg String.toList h
  rwa [toList_ofList, toList_ofList] at hlist

/-! ## Signed texts -/

/-- A character of the alphabet for addresses. -/
def urlChar (n : Nat) : Char :=
  let c := if base64Char n = '+' then '-' else base64Char n
  if c = '/' then '_' else c

theorem urlChar_plain {n : Nat} (h : n < 64) : urlChar n ≠ '.' ∧ urlChar n ≠ '=' ∧
    (let c := if urlChar n = '-' then '+' else urlChar n; if c = '_' then '/' else c) = base64Char n := by
  have hall : ∀ i : Fin 64, urlChar i ≠ '.' ∧ urlChar i ≠ '=' ∧
      (let c := if urlChar i = '-' then '+' else urlChar i; if c = '_' then '/' else c) = base64Char i := by
    decide +kernel
  exact hall ⟨n, h⟩

theorem bytesToBase64Url_eq (bytes : List UInt8) : bytesToBase64Url bytes = (sextets bytes).map urlChar := by
  have hpad : ∀ (text : List Char) (k : Nat), text.getLast? ≠ some '=' →
      (text ++ List.replicate k '=').rdropWhile (· == '=') = text := by
    intro text k h
    induction k with
    | zero =>
      rw [List.replicate_zero, append_nil]
      refine List.rdropWhile_eq_self_iff.mpr fun hne heq => h ?_
      rw [List.getLast?_eq_some_getLast hne, eq_of_beq heq]
    | succ k ih =>
      rw [List.replicate_succ', ← List.append_assoc, List.rdropWhile_concat, if_pos (by decide), ih]
  have hlast : ((sextets bytes).map urlChar).getLast? ≠ some '=' := by
    intro hlast
    obtain ⟨n, hn, hc⟩ := mem_map.mp (List.mem_of_getLast? hlast)
    exact (urlChar_plain (sextets_lt bytes n hn)).2.1 hc
  rw [bytesToBase64Url, btoa, padToFour]
  simp only [List.map_append, map_map, List.map_replicate]
  exact hpad _ _ hlast

/-- **The bytes** are read back. -/
theorem base64UrlToBytes_bytesToBase64Url (bytes : List UInt8) :
    base64UrlToBytes (bytesToBase64Url bytes) = some bytes := by
  have hchars : (((sextets bytes).map urlChar).map fun c => if c = '-' then '+' else c).map
      (fun c => if c = '_' then '/' else c) = (sextets bytes).map base64Char := by
    rw [map_map, map_map]
    exact List.map_congr_left fun n hn => (urlChar_plain (sextets_lt bytes n hn)).2.2
  rw [base64UrlToBytes, bytesToBase64Url_eq, hchars]
  exact atob_padded bytes

theorem dot_notMem_base64Url (bytes : List UInt8) : '.' ∉ bytesToBase64Url bytes := by
  rw [bytesToBase64Url_eq]
  intro h
  obtain ⟨n, hn, hc⟩ := mem_map.mp h
  exact (urlChar_plain (sextets_lt bytes n hn)).1 hc

theorem length_base64Url (bytes : List UInt8) : (bytesToBase64Url bytes).length = (bytes.length * 4 + 2) / 3 := by
  rw [bytesToBase64Url_eq, List.length_map, length_sextets]

theorem foldl_or_eq_zero (f : Nat → Nat) : ∀ (indices : List Nat) (diff : Nat),
    indices.foldl (fun diff i => diff ||| f i) diff = 0 ↔ diff = 0 ∧ ∀ i ∈ indices, f i = 0 := by
  intro indices
  induction indices with
  | nil => simp
  | cons i rest ih =>
    intro diff
    rw [List.foldl_cons, ih, Nat.or_eq_zero_iff, List.forall_mem_cons, and_assoc]

/-- `constantTimeEqual` is equality. -/
theorem constantTimeEqual_iff (a b : List Char) : constantTimeEqual a b = true ↔ a = b := by
  refine ⟨fun h => ?_, fun h => ?_⟩
  · have hzero : ∀ x y : Nat, x ^^^ y = 0 → x = y := by
      intro x y hxy
      have hcancel : x ^^^ y ^^^ y = y := by rw [hxy, Nat.zero_xor]
      rwa [Nat.xor_assoc, Nat.xor_self, Nat.xor_zero] at hcancel
    simp only [constantTimeEqual, beq_iff_eq, foldl_or_eq_zero] at h
    obtain ⟨hlength, hbytes⟩ := h
    have hlists : encodeText a = encodeText b := by
      refine List.ext_getElem (hzero _ _ hlength) fun i ha hb => ?_
      have hi := hzero _ _ <| hbytes i (List.mem_range.mpr (Nat.lt_of_lt_of_le ha (Nat.le_max_left _ _)))
      rw [List.getElem?_eq_getElem ha, List.getElem?_eq_getElem hb] at hi
      exact UInt8.toNat_inj.mp hi
    have harrays := ByteArray.ext (Array.toList_inj.mp hlists)
    exact String.ofList_injective (String.toByteArray_inj.mp harrays)
  · subst h
    simp only [constantTimeEqual, beq_iff_eq, foldl_or_eq_zero, Nat.xor_self, implies_true, and_self]

/-! ## Created tokens -/

theorem acceptsPayload_json (rules : TokenRules) (payload : ViewerTokenPayload) (ip : String) (now : ℚ)
    (hnonce : 16 ≤ payload.nonce.toList.length) {fields : Fields} (hfields : payload.json = .obj fields) :
    acceptsPayload rules fields ip now = true ↔ now ≤ payload.exp ∧ payload.ip = normalizeIpForBinding rules ip := by
  obtain rfl := Json.obj.inj hfields
  have hunits : ∀ chars : List Char, chars.length ≤ (chars.map fun c => if c.val < 0x10000 then 1 else 2).sum := by
    intro chars
    induction chars with
    | nil => exact Nat.le_refl 0
    | cons c rest ih =>
      rw [List.length_cons, List.map_cons, List.sum_cons]
      split_ifs <;> omega
  have hlong : 16 ≤ (payload.nonce.toList.map fun c => if c.val < 0x10000 then 1 else 2).sum :=
    hnonce.trans (hunits _)
  simp [acceptsPayload, Assoc.get?, Json.str?, unexpired, hlong]

/-- **A signed payload** is found again. -/
theorem verify_signed (hlaw : rules.Lawful) (payload : ViewerTokenPayload) (ip secret : String)
    (now : ℚ) : ∃ fields, payload.json = .obj fields ∧
    verifyViewerToken rules (ofList (bytesToBase64Url (rules.stringify payload) ++
      '.' :: signPayload rules secret (bytesToBase64Url (rules.stringify payload)))) ip secret now =
      some (acceptsPayload rules fields ip now) := by
  refine ⟨_, rfl, ?_⟩
  have hparse := hlaw.parse payload
  have hbytes := base64UrlToBytes_bytesToBase64Url (rules.stringify payload)
  have hpos := List.length_pos_of_ne_nil (hlaw.stringify payload)
  have hlength := length_base64Url (rules.stringify payload)
  have hdot := dot_notMem_base64Url (rules.stringify payload)
  generalize bytesToBase64Url (rules.stringify payload) = text at hbytes hlength hdot ⊢
  have hsigned : (signPayload rules secret text).length = 43 := by rw [signPayload, length_base64Url, hlaw.hmac]
  have hsplit : (text ++ '.' :: signPayload rules secret text).splitOn '.' = [text, signPayload rules secret text] := by
    have hjoin := splitOn_join (List.cons_ne_nil text [signPayload rules secret text]) fun part hpart => by
      rcases List.mem_pair.mp hpart with rfl | rfl
      · exact hdot
      · exact dot_notMem_base64Url _
    rwa [joinWith_cons '.' _ (List.cons_ne_nil _ _), joinWith_singleton] at hjoin
  have hne : text.isEmpty = false := List.isEmpty_eq_false_iff.mpr (List.ne_nil_of_length_pos (by omega))
  have hne' : (signPayload rules secret text).isEmpty = false :=
    List.isEmpty_eq_false_iff.mpr (List.ne_nil_of_length_pos (by omega))
  have hsame := (constantTimeEqual_iff (signPayload rules secret text) _).mpr rfl
  rw [verifyViewerToken]
  simp only [toList_ofList, hsplit, hne, hne', hsame, hbytes, Option.bind_some, hparse, Bool.or_self,
    Bool.not_true, Bool.false_eq_true, if_false, ViewerTokenPayload.json]

/-- **A created token** verifies for the addresses that are bound as its own is, until it expires. -/
theorem verify_created (hlaw : rules.Lawful) (ip ip' secret : String) (ttlMs : Option ℚ)
    (now now' : ℚ) (random : Vector UInt8 16) :
    verifyViewerToken rules (createViewerToken rules ip secret ttlMs now random).token ip' secret now' = some true ↔
      now' ≤ (createViewerToken rules ip secret ttlMs now random).expires_at ∧
        normalizeIpForBinding rules ip = normalizeIpForBinding rules ip' := by
  simp only [createViewerToken]
  obtain ⟨fields, hfields, hverify⟩ := verify_signed hlaw ⟨_, normalizeIpForBinding rules ip,
    ofList (bytesToBase64Url random.toList)⟩ ip' secret now'
  rw [hverify, Option.some_inj, acceptsPayload_json rules _ ip' now' _ hfields]
  rw [toList_ofList, length_base64Url, Vector.length_toList]
  decide

/-- **Viewer tokens are bound to the network.** Two spellings of IPv6 addresses are bound alike exactly when their first
    64 bits are equal, two IPv4 addresses when their first 24 bits are, and an address of each never; so a token made
    for one address verifies for another, until it expires, exactly when both lie in one network. -/
theorem tokens_bound_to_network (rules : TokenRules) (hlaw : rules.Lawful) :
    (∀ x y : Ipv6Host, normalizeIpForBinding rules (Address.ipv6 x).text =
      normalizeIpForBinding rules (Address.ipv6 y).text ↔ x.network = y.network) ∧
    (∀ x y : Ipv4, normalizeIpForBinding rules (Address.ipv4 x).text =
      normalizeIpForBinding rules (Address.ipv4 y).text ↔ octetsOf x = octetsOf y) ∧
    (∀ (x : Ipv4) (y : Ipv6Host), normalizeIpForBinding rules (Address.ipv4 x).text ≠
      normalizeIpForBinding rules (Address.ipv6 y).text) ∧
    ∀ (a b : Address) (secret : String) (ttlMs : Option ℚ) (now now' : ℚ) (random : Vector UInt8 16),
      let created := createViewerToken rules a.text secret ttlMs now random
      verifyViewerToken rules created.token b.text secret now' = some true ↔
        now' ≤ created.expires_at ∧ a.network = b.network := by
  refine ⟨fun x y => ?_, fun x y => ?_, fun x y h => ?_, fun a b secret ttlMs now now' random => ?_⟩
  · rw [bound_alike hlaw]
    exact ⟨Network.ipv6.inj, congrArg Network.ipv6⟩
  · rw [bound_alike hlaw]
    exact ⟨Network.ipv4.inj, congrArg Network.ipv4⟩
  · exact Network.noConfusion ((bound_alike hlaw _ _).mp h)
  · rw [← bound_alike hlaw]
    exact verify_created hlaw a.text b.text secret ttlMs now now' random

/-! ## A platform for fixed inputs -/

/-- A JSON string from behind its opening quote. -/
def jsonString (text : List Char) : List Char :=
  text.flatMap (fun c => if c = '"' ∨ c = '\\' then ['\\', c] else [c]) ++ ['"']

/-- The text in front of the closing quote, and what is behind it. -/
def readString : List Char → Option (List Char × List Char)
  | [] => none
  | '"' :: rest => some ([], rest)
  | '\\' :: c :: rest => (readString rest).map fun (text, rest) => (c :: text, rest)
  | c :: rest => (readString rest).map fun (text, rest) => (c :: text, rest)

def intText (n : Int) : List Char := if n < 0 then '-' :: decimalText n.natAbs else decimalText n.natAbs

def readInt : List Char → Int
  | '-' :: digits => -(Nat.ofDigitChars 10 digits 0 : Int)
  | digits => (Nat.ofDigitChars 10 digits 0 : Int)

/-- A number, with a denominator only where it is no integer. -/
def numberText (x : ℚ) : List Char := intText x.num ++ if x.den = 1 then [] else '/' :: decimalText x.den

def readNumber (text : List Char) : ℚ :=
  match text.splitOn '/' with
  | [num, den] => readInt num / (Nat.ofDigitChars 10 den 0 : ℚ)
  | _ => readInt text

/-- The payload as `JSON.stringify` writes it. -/
def payloadChars (payload : ViewerTokenPayload) : List Char :=
  "\x7b\"exp\":".toList ++ (numberText payload.exp ++ (",\"ip\":\"".toList ++ (jsonString payload.ip.toList ++
    (",\"nonce\":\"".toList ++ (jsonString payload.nonce.toList ++ "\x7d".toList)))))

def readPayload (text : List Char) : Option Json :=
  let (number, rest) := (text.drop 7).span (· != ',')
  (readString (rest.drop 7)).bind fun (ip, rest) => (readString (rest.drop 10)).map fun (nonce, _) =>
    ViewerTokenPayload.json ⟨readNumber number, String.ofList ip, String.ofList nonce⟩

/-- The signature of one payload under one secret; it stands for nothing else. -/
def fixedHmac (secret : String) (text : List Char) : List UInt8 :=
  if secret = "viewer-token-secret-of-32-bytes!!" ∧
      text = "eyJleHAiOjE3MDAwMDAwNjAwMDAsImlwIjoiMjAwMTpkYjg6MToyOjovNjQiLCJub25jZSI6IkFBQUFBQUFBQUFBQUFBQUFBQUFBQUEifQ".toList then
    [226, 116, 251, 54, 92, 168, 161, 33, 16, 243, 144, 213, 167, 143, 10, 222, 251, 181, 167, 112, 140, 88, 238, 132, 138, 174, 61, 223, 254, 206, 2, 168]
  else List.replicate 32 0

def fixedRules : TokenRules where
  lower := fun text => String.ofList (text.toList.map Char.toLower)
  hmac := fixedHmac
  stringify := fun payload => encodeText (payloadChars payload)
  parse := fun bytes => (ByteArray.mk bytes.toArray).utf8Decode?.bind fun text => readPayload text.toList

theorem readString_jsonString (text rest : List Char) : readString (jsonString text ++ rest) = some (text, rest) := by
  induction text with
  | nil => simp [jsonString, readString]
  | cons c text ih =>
    rw [jsonString] at ih ⊢
    rw [List.flatMap_cons]
    by_cases hescaped : c = '"' ∨ c = '\\'
    · rw [if_pos hescaped]
      simp only [List.cons_append, List.nil_append]
      rw [readString, ih, Option.map_some]
    · rw [if_neg hescaped]
      obtain ⟨hquote, hslash⟩ := not_or.mp hescaped
      simp only [List.cons_append, List.nil_append]
      rw [readString, ih, Option.map_some]
      · exact fun h => hquote h
      · exact fun _ _ h => absurd h hslash

theorem isDigit_or_minus {n : Int} {c : Char} (h : c ∈ intText n) : c.isDigit = true ∨ c = '-' := by
  rw [intText] at h
  split_ifs at h
  · rcases List.mem_cons.mp h with h | h
    · exact .inr h
    · exact .inl (isDigit_of_mem_decimalText h)
  · exact .inl (isDigit_of_mem_decimalText h)

theorem readInt_intText (n : Int) : readInt (intText n) = n := by
  rw [intText]
  split_ifs with hneg
  · rw [readInt, decimalText, Nat.ofDigitChars_ten_toDigits]
    omega
  · rw [readInt]
    · rw [decimalText, Nat.ofDigitChars_ten_toDigits]
      omega
    · intro digits h
      have hdigit := isDigit_of_mem_decimalText (n := n.natAbs) (h ▸ List.mem_cons_self : '-' ∈ decimalText n.natAbs)
      cases hdigit

theorem readNumber_numberText (x : ℚ) : readNumber (numberText x) = x := by
  have hslash : '/' ∉ intText x.num := by
    intro h
    rcases isDigit_or_minus h with h | h
    · cases h
    · cases h
  rw [numberText, readNumber]
  split_ifs with hden
  · have hsplit := splitOn_join (List.cons_ne_nil (intText x.num) []) fun part hpart => by
      rw [List.mem_singleton.mp hpart]
      exact hslash
    rw [joinWith_singleton] at hsplit
    rw [append_nil, hsplit]
    simp only [readInt_intText]
    exact Rat.den_eq_one_iff x |>.mp hden
  · have hsplit := splitOn_join (List.cons_ne_nil (intText x.num) [decimalText x.den]) fun part hpart => by
      rcases List.mem_pair.mp hpart with rfl | rfl
      · exact hslash
      · exact fun h => absurd (isDigit_of_mem_decimalText h) (by decide)
    rw [joinWith_cons '/' _ (List.cons_ne_nil _ _), joinWith_singleton] at hsplit
    rw [hsplit]
    simp only [readInt_intText]
    rw [decimalText, Nat.ofDigitChars_ten_toDigits]
    exact Rat.num_div_den x

theorem comma_notMem_numberText (x : ℚ) : ',' ∉ numberText x := by
  intro h
  rcases mem_append.mp h with h | h
  · rcases isDigit_or_minus h with h | h
    · cases h
    · cases h
  · split_ifs at h
    · exact List.not_mem_nil h
    · rcases List.mem_cons.mp h with h | h
      · cases h
      · cases isDigit_of_mem_decimalText h

theorem readPayload_payloadChars (payload : ViewerTokenPayload) :
    readPayload (payloadChars payload) = some payload.json := by
  have hspan : ∀ rest, (numberText payload.exp ++ ',' :: rest).span (· != ',') = (numberText payload.exp, ',' :: rest) := by
    intro rest
    have hall : ∀ c ∈ numberText payload.exp, (c != ',') = true := fun c hc =>
      bne_iff_ne.mpr fun h => comma_notMem_numberText payload.exp (h ▸ hc)
    rw [List.span_eq_takeWhile_dropWhile, List.takeWhile_append_of_pos hall, List.dropWhile_append_of_pos hall]
    simp
  have hdrop : (payloadChars payload).drop 7 = numberText payload.exp ++ ',' :: ("\"ip\":\"".toList ++
      (jsonString payload.ip.toList ++ (",\"nonce\":\"".toList ++ (jsonString payload.nonce.toList ++
        "\x7d".toList)))) := rfl
  rw [readPayload, hdrop, hspan]
  have hip : ∀ rest : List Char, (',' :: ("\"ip\":\"".toList ++ rest)).drop 7 = rest := fun _ => rfl
  have hnonce : ∀ rest : List Char, (",\"nonce\":\"".toList ++ rest).drop 10 = rest := fun _ => rfl
  simp only [hip, readString_jsonString, Option.bind_some, hnonce, Option.map_some, readNumber_numberText,
    String.ofList_toList]

theorem fixedRules_parse (payload : ViewerTokenPayload) :
    fixedRules.parse (fixedRules.stringify payload) = some payload.json := by
  have hbytes : (ByteArray.mk (encodeText (payloadChars payload)).toArray).utf8Decode? =
      some (payloadChars payload).toArray := by
    have hsame : ByteArray.mk (encodeText (payloadChars payload)).toArray = (payloadChars payload).utf8Encode := by
      rw [encodeText, Array.toArray_toList, String.toByteArray_ofList]
    rw [hsame, List.utf8Decode?_utf8Encode]
  show (ByteArray.mk (encodeText (payloadChars payload)).toArray).utf8Decode?.bind _ = _
  rw [hbytes, Option.bind_some, List.toList_toArray, readPayload_payloadChars]

theorem fixedRules_lawful : fixedRules.Lawful where
  lower := by
    intro front rest _
    refine ⟨rest.map Char.toLower, ?_, fun h => by rw [h]; rfl⟩
    have hlower : ∀ text, fixedRules.lower text = ofList (text.toList.map Char.toLower) := fun _ => rfl
    rw [hlower, toList_ofList, List.map_append]
  hmac := by
    intro secret text
    have hhmac : fixedRules.hmac secret text = fixedHmac secret text := rfl
    rw [hhmac, fixedHmac]
    split_ifs
    · rfl
    · rfl
  stringify := by
    intro payload h
    have hparse := fixedRules_parse payload
    have hempty : fixedRules.parse [] = none := by
      show (ByteArray.mk ([] : List UInt8).toArray).utf8Decode?.bind (fun text => readPayload text.toList) = none
      have hbytes : ByteArray.mk ([] : List UInt8).toArray = ByteArray.empty := rfl
      rw [hbytes, ByteArray.utf8Decode?_empty]
      rfl
    rw [h, hempty] at hparse
    cases hparse
  parse := fixedRules_parse

/-- `[2001:0DB8:1:2::1%eth0]`. -/
def shortHost : Ipv6Host where
  text := ⟨[hextetOf "2001" (by decide), hextetOf "0DB8" (by decide), hextetOf "1" (by decide), hextetOf "2" (by decide)],
    some [hextetOf "1" (by decide)], none⟩
  valid := by decide
  hexadecimal := rfl
  brackets := .zone
  zone := some "eth0".toList

/-- `2001:db8:1:2:ffff:0:0:2`. -/
def longHost : Ipv6Host where
  text := ⟨[hextetOf "2001" (by decide), hextetOf "db8" (by decide), hextetOf "1" (by decide), hextetOf "2" (by decide),
    hextetOf "ffff" (by decide), hextetOf "0" (by decide), hextetOf "0" (by decide), hextetOf "2" (by decide)], none, none⟩
  valid := by decide
  hexadecimal := rfl
  brackets := .without
  zone := none

theorem token_verifies_in_network :
    verifyViewerToken fixedRules (createViewerToken fixedRules (Address.ipv6 shortHost).text
      "viewer-token-secret-of-32-bytes!!" (some 60000) 1700000000000 (Vector.replicate 16 0)).token
      (Address.ipv6 longHost).text "viewer-token-secret-of-32-bytes!!" 1700000060000 = some true := by
  refine ((tokens_bound_to_network fixedRules fixedRules_lawful).2.2.2 (.ipv6 shortHost) (.ipv6 longHost)
    "viewer-token-secret-of-32-bytes!!" (some 60000) 1700000000000 1700000060000 (Vector.replicate 16 0)).mpr ⟨?_, ?_⟩
  · show (1700000060000 : ℚ) ≤ 1700000000000 + (if (0 : ℚ) < 60000 then 60000 else tokenTtlMs)
    norm_num
  · decide

end CfMonitor.Auth
