/-
  Hosts and addresses in configuration (`parseIpv4`, `isAmbiguousNumericHost`,
  `validateNetworkBoundary` and the targets in `ping-task.ts`, `isUnsafeHostname` and the addresses in
  `website-monitor.ts`, `validateWebhookUrl` in `webhook.ts`, `normalizeSmtpHost` in `smtp-host.ts`).

  1. **Platform** — `new URL`, `JSON.parse`, `toLowerCase` and the token digest are parameters, with
     what is documented of them (`Lawful`): a URL reads back as itself, and so does its origin.

  2. **Hosts** — the three files have the same IPv4 reader and the same test for ambiguous numbers;
     each blocks its own list of networks.

  3. **Addresses** — what each file accepts.  What is stored of a webhook or a mail host is accepted
     again as it is (`validateWebhookUrl_again`, `smtpHost_again`).
-/
import CfMonitor.Live.ViewerMessages

namespace CfMonitor.Backup

open CfMonitor.Lib CfMonitor.Live

/-! ## Platform -/

/-- The parts of a `URL`. -/
structure Url where
  protocol : String
  username : String
  password : String
  hostname : String
  port : String
  pathname : String
  search : String
  hash : String
  href : String
  origin : String
  deriving DecidableEq

/-- `text.length`, in UTF-16 code units. -/
def units (text : String) : Nat := (text.toList.map utf16Size).sum

/-- What configuration uses from elsewhere: `new URL`, `JSON.parse`, `toLowerCase` and
    `hashAgentToken`. -/
structure BackupRules extends ViewerRules where
  parseUrl : String → Option Url
  parseJson : String → Option Json
  lower : String → String
  hashAgentToken : String → String

/-- A parsed address stands for an origin of its own. -/
structure Url.Origin (u v : Url) : Prop where
  protocol : v.protocol = u.protocol
  hostname : v.hostname = u.hostname
  username : v.username = ""
  password : v.password = ""
  origin : v.origin = u.origin

/-- What is documented of the platform. -/
structure BackupRules.Lawful (rules : BackupRules) : Prop where
  /-- The serialisation of an address has no blanks around it and parses to the same URL. -/
  href : ∀ text u, rules.parseUrl text = some u → u.protocol ∈ ["http:", "https:", "tcp:"] →
    trim u.href = u.href ∧ rules.parseUrl u.href = some u
  /-- The origin of an HTTP address is one, with its scheme written out. -/
  origin : ∀ text u, rules.parseUrl text = some u → u.protocol ∈ ["http:", "https:"] →
    trim u.origin = u.origin ∧ (u.protocol ++ "//").toList <+: u.origin.toList ∧
    ∃ v, rules.parseUrl u.origin = some v ∧ u.Origin v
  lower : ∀ text, rules.lower (rules.lower text) = rules.lower text
  lowerAscii : ∀ text, (∀ c ∈ text.toList, 'a' ≤ c ∧ c ≤ 'z') → rules.lower text = text
  numberTrim : ∀ text, rules.numberOf (trim text) = rules.numberOf text
  numberInt : ∀ n : Int, (n.natAbs : Int) ≤ maxSafeInteger → rules.numberOf (toString n) = some n
  digest : ∀ token, units (rules.hashAgentToken token) ≤ 256

/-! ## Hosts -/

/-- `text.split(c)`. -/
def splitAt (c : Char) (text : String) : List (List Char) := text.toList.splitOn c

def contains (part text : String) : Bool := text.toList.tails.any part.toList.isPrefixOf

def startsWith (part text : String) : Bool := part.toList.isPrefixOf text.toList

def endsWith (part text : String) : Bool := part.toList.isSuffixOf text.toList

/-- `/\s/.test(text)`. -/
def hasBlank (text : String) : Bool := text.toList.any isTrimmed

/-- `/^(0|[1-9]\d{0,2})$/`. -/
def isOctetText : List Char → Bool
  | [] => false
  | c :: rest => (c == '0' && rest.isEmpty) || (c != '0' && c.isDigit && rest.all Char.isDigit && rest.length ≤ 2)

/-- The value of a list of decimal digits. -/
def digitsValue (digits : List Char) : Nat := digits.foldl (fun n c => 10 * n + (c.toNat - '0'.toNat)) 0

/-- `parseIpv4`, `parseIPv4`. -/
def parseIpv4 (host : String) : Option (List Nat) :=
  let parts := splitAt '.' host
  if parts.length = 4 ∧ parts.all isOctetText = true then
    let octets := parts.map digitsValue
    if octets.all (· ≤ 255) = true then some octets else none
  else none

/-- `/^0x/i`. -/
def isHexText (part : List Char) : Bool := part.take 2 == ['0', 'x'] || part.take 2 == ['0', 'X']

def isLowerHexDigit (c : Char) : Bool := c.isDigit || ('a' ≤ c && c ≤ 'f')

def isHexDigit (c : Char) : Bool := isLowerHexDigit c || ('A' ≤ c && c ≤ 'F')

/-- `/^(0x[0-9a-f]+|\d+)$/i`. -/
def isNumericText (part : List Char) : Bool :=
  (isHexText part && 2 < part.length && (part.drop 2).all isHexDigit) ||
    (!part.isEmpty && part.all Char.isDigit)

def isAmbiguousNumericHost (host : String) : Bool :=
  let parts := splitAt '.' host
  if contains ":" host || 4 < parts.length || !parts.all isNumericText then false
  else if parts.length ≠ 4 then true
  else parts.any (fun part => isHexText part || (1 < part.length && part.head? == some '0')) ||
    (parseIpv4 host).isNone

/-- `host.replace(/^\[|\]$/g, '')`. -/
def withoutBrackets (host : String) : String :=
  let front := if startsWith "[" host then host.toList.drop 1 else host.toList
  String.ofList (if front.getLast? = some ']' then front.dropLast else front)

/-- `host.replace(/\.$/, '')`. -/
def withoutDot (host : String) : String :=
  if host.toList.getLast? = some '.' then String.ofList host.toList.dropLast else host

/-- The networks that all three files block. -/
def isPrivateIpv4 (a b : Nat) : Bool :=
  a == 0 || a == 10 || a == 127 || (a == 100 && 64 ≤ b && b ≤ 127) || (a == 169 && b == 254) ||
    (a == 172 && 16 ≤ b && b ≤ 31) || (a == 192 && b == 168)

section

variable (rules : BackupRules)

/-! ## Targets of ping tasks -/

/-- `isBlockedIpv4` of `ping-task.ts`. -/
def isBlockedIpv4 (host : String) : Bool :=
  match parseIpv4 host with
  | some (a :: b :: _) => isPrivateIpv4 a b || 224 ≤ a
  | _ => false

def isBlockedIpv6 (host : String) : Bool :=
  let written := withoutBrackets (rules.lower host)
  if !contains ":" written then false
  else match rules.parseUrl ("http://[" ++ written ++ "]/") with
    | none => true
    | some u =>
      let normalized := String.ofList (u.hostname.toList.drop 1).dropLast
      normalized == "::" || normalized == "::1" ||
        ["::ffff:", "0:0:0:0:0:ffff:", "fc", "fd"].any (fun p => startsWith p normalized) ||
        (match normalized.toList with
          | 'f' :: 'e' :: c :: d :: ':' :: _ => "89ab".toList.contains c && isLowerHexDigit d
          | _ => false)

def validateNetworkBoundary (host : String) : Option String :=
  let normalized := withoutBrackets (rules.lower (trim host))
  if normalized = "" then some "目标必须包含 host"
  else if normalized = "localhost" ∨ endsWith ".localhost" normalized = true then
    some "Ping 目标不能指向 localhost"
  else if normalized = "metadata.google.internal" then some "Ping 目标不能指向云厂商 metadata 地址"
  else if isAmbiguousNumericHost normalized || isBlockedIpv4 normalized || isBlockedIpv6 rules normalized then
    some "Ping 目标不能使用内网、环回、链路本地或保留 IP"
  else none

/-- The port of a URL, where it is one. -/
def portOf (u : Url) : Option ℚ :=
  (rules.numberOf u.port).filter fun port => decide (port.den = 1 ∧ 1 ≤ port ∧ port ≤ 65535)

def validateTcpTarget (target : String) : Option String :=
  if contains "://" target then some "TCP 目标必须使用 host:port 格式"
  else if hasBlank target then some "TCP 目标不能包含空白字符"
  else match rules.parseUrl ("tcp://" ++ target) with
    | none => some "TCP 目标必须使用 host:port 格式"
    | some u =>
      if u.hostname = "" ∨ (portOf rules u).isNone = true then some "TCP 目标必须包含 1-65535 范围内的端口"
      else validateNetworkBoundary rules u.hostname

def validateHttpTarget (target : String) : Option String :=
  match rules.parseUrl target with
  | none => some "HTTP 目标必须是有效 URL"
  | some u =>
    if u.protocol ≠ "http:" ∧ u.protocol ≠ "https:" then some "HTTP 目标必须使用 http:// 或 https://"
    else if u.hostname = "" then some "HTTP 目标必须包含 host"
    else if u.username ≠ "" ∨ u.password ≠ "" then some "HTTP 目标不能包含用户名或密码"
    else validateNetworkBoundary rules u.hostname

/-- `/^\[[^\]]+\]:.+$/` of a text without blanks. -/
def isBracketedWithPort (target : String) : Bool :=
  match target.toList with
  | '[' :: rest => match rest.span (· != ']') with
    | (inner, ']' :: ':' :: after) => !inner.isEmpty && !after.isEmpty
    | _ => false
  | _ => false

def validateIcmpTarget (target : String) : Option String :=
  if hasBlank target then some "ICMP 目标不能包含空白字符"
  else if contains "://" target then some "ICMP 目标必须是主机名或 IP"
  else if isBracketedWithPort target || target.toList.count ':' == 1 then
    some "ICMP 目标不能包含端口，请仅填写域名或 IP"
  else validateNetworkBoundary rules target

/-! ## Websites -/

/-- `isBlockedIPv4` of `website-monitor.ts`. -/
def isBlockedWebsiteIpv4 : List Nat → Bool
  | a :: b :: c :: _ => isPrivateIpv4 a b || (a == 192 && b == 0 && (c == 0 || c == 2)) ||
      (a == 198 && (b == 18 || b == 19)) || (a == 198 && b == 51 && c == 100) ||
      (a == 203 && b == 0 && c == 113) || 224 ≤ a
  | _ => false

/-- `IPV4_BLOCKS`: the labels in front of the dots. -/
def isBlockedLabel (host : String) : Bool :=
  let range (low high : Nat) : List String := (List.range (high + 1 - low)).map fun n => toString (low + n)
  match splitAt '.' host with
  | first :: second :: rest =>
    let a := String.ofList first
    let b := String.ofList second
    a == "0" || a == "10" || a == "127" || (range 224 239).contains a ||
      (!rest.isEmpty && ((a == "169" && b == "254") || (a == "192" && b == "168") ||
        (a == "172" && (range 16 31).contains b)))
  | _ => false

/-- `isIPv4MappedIPv6`. -/
def isIpv4MappedIpv6 (host : String) : Bool := startsWith "::ffff:" host || startsWith "0:0:0:0:0:ffff:" host

/-- `/^p(:|$)/`. -/
def isGroup (p host : String) : Bool := host == p || startsWith (p ++ ":") host

def isUnsafeHostname (hostname : String) : Bool :=
  let host := withoutDot (withoutBrackets (rules.lower hostname))
  if host == "" || host == "localhost" || endsWith ".localhost" host ||
      host == "metadata.google.internal" || isAmbiguousNumericHost host then true
  else match parseIpv4 host with
    | some parts => isBlockedWebsiteIpv4 parts
    | none =>
      isBlockedLabel host || (contains ":" host && (isIpv4MappedIpv6 host || host == "::" || host == "::1" ||
        ["fc", "fd", "fe8", "fe9", "fea", "feb", "ff"].any (fun p => startsWith p host) ||
        isGroup "100" host || isGroup "2001:db8" host))

def validateWebsiteUrl (u : Url) : Option String :=
  if u.protocol ≠ "http:" ∧ u.protocol ≠ "https:" then some "invalid_protocol"
  else if u.username ≠ "" ∨ u.password ≠ "" then some "url_credentials_not_allowed"
  else if u.hash ≠ "" then some "url_fragment_not_allowed"
  else if isUnsafeHostname rules u.hostname then some "unsafe_host"
  else none

def validateTcpUrl (u : Url) : Option String :=
  if u.protocol ≠ "tcp:" then some "invalid_protocol"
  else if u.username ≠ "" ∨ u.password ≠ "" then some "url_credentials_not_allowed"
  else if u.hash ≠ "" ∨ u.search ≠ "" ∨ (u.pathname ≠ "" ∧ u.pathname ≠ "/") then some "invalid_url"
  else if isUnsafeHostname rules u.hostname then some "unsafe_host"
  else if (portOf rules u).isNone = true then some "invalid_port"
  else none

/-! ## Webhooks and mail -/

/-- `isBlockedIPv4` of `webhook.ts`. -/
def isBlockedWebhookIpv4 : List Nat → Bool
  | a :: b :: _ => isPrivateIpv4 a b || (a == 198 && (b == 18 || b == 19))
  | _ => false

def isUnsafeWebhookHostname (hostname : String) : Bool :=
  let host := withoutDot (withoutBrackets (rules.lower hostname))
  if host == "" || host == "localhost" || endsWith ".localhost" host || host == "169.254.169.254" ||
      host == "fd00:ec2::254" || isAmbiguousNumericHost host then true
  else match parseIpv4 host with
    | some parts => isBlockedWebhookIpv4 parts
    | none => contains ":" host && (isIpv4MappedIpv6 host || host == "::" || host == "::1" ||
        ["fc", "fd", "fe8", "fe9", "fea", "feb"].any (fun p => startsWith p host))

/-- A webhook address: as it is stored, and its host. -/
structure WebhookUrl where
  url : String
  host : String

/-- `validateWebhookUrl`; a path that does not know its own host passes none. -/
def validateWebhookUrl (rawUrl : String) (selfHost : Option String) : Except String WebhookUrl :=
  match rules.parseUrl (trim rawUrl) with
  | none => .error "invalid_url"
  | some u =>
    let self := (selfHost.map fun host => rules.lower (trim host)).getD ""
    if u.protocol ≠ "https:" then .error "invalid_protocol"
    else if u.hostname = "" then .error "invalid_host"
    else if u.username ≠ "" ∨ u.password ≠ "" then .error "url_credentials_not_allowed"
    else if isUnsafeWebhookHostname rules u.hostname then .error "unsafe_host"
    else if self ≠ "" ∧ rules.lower u.hostname = self then .error "self_host"
    else .ok ⟨u.href, rules.lower u.hostname⟩

/-- The text of a value; `null` leaves it empty. -/
def optionalText : Json → Option String
  | .null => some ""
  | .str text => some text
  | _ => none

/-- `''` where nothing is written, otherwise what a text gives. -/
def orEmpty (f : String → Option String) (value : Json) : Option String :=
  (optionalText value).bind fun text => if text = "" then some "" else f text

/-- `normalizeSmtpHost` of a text that is not empty. -/
def smtpHost (text : String) : Option String :=
  let host := rules.lower (trim text)
  if host = "" ∨ host.toList.any (fun c => isTrimmed c || "/@:?#\\".toList.contains c) = true then none
  else match validateWebhookUrl rules ("https://" ++ host ++ "/") none with
    | .ok validated => if validated.host = host then some host else none
    | .error _ => none

def normalizeSmtpHost (value : Json) : Option String := orEmpty (smtpHost rules) value

/-! ## What is accepted once -/

variable {rules}

/-- A text without blanks has none around it. -/
theorem trim_eq_self {text : String} (h : ∀ c ∈ text.toList, isTrimmed c = false) : trim text = text := by
  have hfront : text.toList.dropWhile isTrimmed = text.toList := by
    rw [List.dropWhile_eq_self_iff]
    intro hpos
    rw [h _ (List.getElem_mem hpos)]
    exact Bool.false_ne_true
  have hback : text.toList.reverse.dropWhile isTrimmed = text.toList.reverse := by
    rw [List.dropWhile_eq_self_iff]
    intro hpos
    rw [h _ (List.mem_reverse.mp (List.getElem_mem hpos))]
    exact Bool.false_ne_true
  rw [trim, hfront, hback, List.reverse_reverse, String.ofList_toList]

/-- **A stored webhook address** is accepted as it is. -/
theorem validateWebhookUrl_again (hlaw : rules.Lawful) {rawUrl : String} {selfHost : Option String}
    {w : WebhookUrl} (h : validateWebhookUrl rules rawUrl selfHost = .ok w) :
    validateWebhookUrl rules w.url none = .ok w := by
  rw [validateWebhookUrl] at h
  cases hparse : rules.parseUrl (trim rawUrl) with
  | none => simp [hparse] at h
  | some u =>
    simp only [hparse] at h
    split_ifs at h with hprotocol hhost hcredentials hunsafe hself
    cases h
    obtain ⟨htrim, hagain⟩ := hlaw.href _ u hparse (by rw [not_not.mp hprotocol]; decide)
    rw [validateWebhookUrl]
    simp only [htrim, hagain]
    rw [if_neg hprotocol, if_neg hhost, if_neg hcredentials, if_neg hunsafe, if_neg (by simp)]

/-- **A stored mail host** is accepted as it is. -/
theorem smtpHost_again (hlaw : rules.Lawful) {text host : String} (h : smtpHost rules text = some host) :
    smtpHost rules host = some host := by
  rw [smtpHost] at h
  split_ifs at h with hblank
  cases hurl : validateWebhookUrl rules ("https://" ++ rules.lower (trim text) ++ "/") none with
  | error e => simp [hurl] at h
  | ok w =>
    simp only [hurl] at h
    split_ifs at h with hsame
    cases h
    obtain ⟨-, hany⟩ := not_or.mp hblank
    have htrim : trim (rules.lower (trim text)) = rules.lower (trim text) := by
      refine trim_eq_self fun c hc => ?_
      by_contra hc'
      exact hany (List.any_eq_true.mpr ⟨c, hc, by simp [Bool.eq_true_of_not_eq_false hc']⟩)
    rw [smtpHost]
    rw [htrim, hlaw.lower, if_neg hblank]
    simp only [hurl, hsame, if_true]

end

end CfMonitor.Backup
