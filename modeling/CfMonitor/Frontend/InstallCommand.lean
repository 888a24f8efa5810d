/-
  The commands that install an agent (`agentInstallCommand.ts`).

  1. **Values** — addresses, tags, refs and the instance id are brought into their own form; texts are
     trimmed and go into the command as they are.

  2. **Unix** — for the shell the command is its fixed commands and one call of the installer with the
     values as its words (`unix_commands`).

  3. **Windows** — the script inside `-EncodedCommand` has each value as one literal exactly if no text of
     the request has a curly quote, which `psQuote` does not double (`install_command_iff`).
-/
import Mathlib
import CfMonitor.Backup.Settings
import CfMonitor.Lib.Base64
import CfMonitor.Lib.HostPort
import CfMonitor.Lib.IpText
import CfMonitor.Lib.PosixShell
import CfMonitor.Lib.PowerShell
import CfMonitor.Lib.Utf16
import CfMonitor.Live.MonitorReport
import CfMonitor.Live.OutboxRuns
import CfMonitor.Live.PublicAddresses
import CfMonitor.Public.HistoryRequests

namespace CfMonitor.Frontend

open CfMonitor.Lib CfMonitor.Backup
open CfMonitor.Live (trim_part mem_trim)
open String (toList toList_append toList_ofList)
open List (append_assoc cons_append flatMap_cons mem_cons nil_append)
open PosixShell (literal run_cons run_text singleQuoted step_blank subshell tokens)

/-! ## Options -/

inductive AgentInstallPlatform where
  | unix
  | windows
  deriving DecidableEq

inductive InstallMode where
  | auto
  | system
  | user
  deriving DecidableEq

structure AgentInstallOptions where
  ghproxy : String
  downloadProxy : String
  installMode : InstallMode
  dir : String
  serviceName : String
  binaryUrl : Option String
  checksumUrl : Option String
  releaseTag : Option String
  scriptRef : Option String
  trafficResetDay : String
  mountInclude : String
  mountExclude : String
  nicInclude : String
  nicExclude : String

def defaultAgentInstallOptions : AgentInstallOptions where
  ghproxy := ""
  downloadProxy := ""
  installMode := .auto
  dir := ""
  serviceName := ""
  binaryUrl := some ""
  checksumUrl := some ""
  releaseTag := some ""
  scriptRef := some ""
  trafficResetDay := "1"
  mountInclude := ""
  mountExclude := ""
  nicInclude := ""
  nicExclude := ""

/-- What `buildAgentInstallCommand` is called with. -/
structure InstallRequest where
  serverUrl : String
  token : String
  options : AgentInstallOptions
  instanceId : Option String
  nodeName : Option String

def CF_MONITOR_REPOSITORY : String := "kadidalax/cf-monitor-test"

def CF_MONITOR_BRANCH : String := if CF_MONITOR_REPOSITORY = "kadidalax/cf-monitor-test" then "dev" else "main"

def CF_MONITOR_AGENT_SCRIPT_REF : String := "refs/heads/" ++ CF_MONITOR_BRANCH

/-! ## Forms of the values -/

section

variable (rules : BackupRules)

def httpsDownloadUrl (value : Option String) : String :=
  let raw := trim (value.getD "")
  if raw = "" then ""
  else match rules.parseUrl raw with
    | some u => if u.protocol = "https:" ∧ u.username = "" ∧ u.password = "" ∧ u.hostname ≠ "" then u.href else ""
    | none => ""

def customAgentDownloadUrls (binaryValue checksumValue : Option String) : String × String :=
  let binaryUrl := httpsDownloadUrl rules binaryValue
  let checksumUrl := if binaryUrl ≠ "" then httpsDownloadUrl rules checksumValue else ""
  if binaryUrl ≠ "" ∧ checksumUrl ≠ "" then (binaryUrl, checksumUrl) else ("", "")

/-- What follows `\d+`. -/
def afterDigits (text : List Char) : Option (List Char) :=
  if (text.takeWhile Char.isDigit).isEmpty then none else some (text.dropWhile Char.isDigit)

/-- What follows `\d+\.`. -/
def afterNumber (text : List Char) : Option (List Char) :=
  match afterDigits text with
  | some ('.' :: rest) => some rest
  | _ => none

/-- `[0-9A-Za-z.-]`. -/
def isTagChar (c : Char) : Bool := c.isAlphanum || c == '.' || c == '-'

/-- `/^v\d+\.\d+\.\d+(?:[-+][0-9A-Za-z.-]+)?$/`. -/
def isReleaseTag : List Char → Bool
  | 'v' :: text =>
    match ((afterNumber text).bind afterNumber).bind afterDigits with
    | some [] => true
    | some (c :: rest) => (c == '-' || c == '+') && !rest.isEmpty && rest.all isTagChar
    | none => false
  | _ => false

def normalizeReleaseTag (value : Option String) : String :=
  let raw := trim (value.getD "")
  if isReleaseTag raw.toList then raw else ""

/-- `pathname.replace(/\/+$/g, '')`. -/
def withoutEndSlashes (path : String) : String := String.ofList (path.toList.reverse.dropWhile (· == '/')).reverse

/-- The origin of a proxy, with its path where one is allowed. -/
def proxyAddress (allowPath : Bool) (address : String) : String :=
  match rules.parseUrl address with
  | some u =>
    if (u.protocol = "https:" ∨ (allowPath = false ∧ u.protocol = "http:")) ∧ u.username = "" ∧ u.password = "" ∧
        u.hostname ≠ "" ∧ u.search = "" ∧ u.hash = "" then
      u.origin ++ (if allowPath = true ∧ u.pathname ≠ "/" then withoutEndSlashes u.pathname else "")
    else ""
  | none => ""

def normalizeProxyUrl (value : String) (allowPath : Bool) : String :=
  let raw := trim value
  if raw = "" then ""
  else proxyAddress rules allowPath (if hasHttpScheme raw then raw else (if allowPath then "https" else "http") ++ "://" ++ raw)

/-- `/^[a-f0-9]{7,40}$/i`. -/
def isRevision (text : List Char) : Bool := 7 ≤ text.length && text.length ≤ 40 && text.all isHexDigit

def normalizeScriptRef (scriptRef : Option String) : String :=
  let raw := trim (scriptRef.getD "")
  if isRevision raw.toList then rules.lower raw else CF_MONITOR_AGENT_SCRIPT_REF

def cfMonitorAgentScriptUrl (scriptFile releaseTag : String) (scriptRef : Option String) : String :=
  let ref := normalizeScriptRef rules scriptRef
  let tag := normalizeReleaseTag (some releaseTag)
  let base :=
    if tag ≠ "" then "https://github.com/" ++ CF_MONITOR_REPOSITORY ++ "/releases/download/" ++ tag
    else "https://raw.githubusercontent.com/" ++ CF_MONITOR_REPOSITORY ++ "/" ++ ref ++ "/agent"
  base ++ "/" ++ scriptFile

/-- A number that is not finite is 1 too. -/
def normalizeTrafficResetDay (value : String) : String :=
  match Public.parseInt (some 10) (trim value) with
  | none => "1"
  | some day => toString (min 31 (max 1 day))

/-- `[a-z0-9_.-]`. -/
def isInstanceChar (c : Char) : Bool := c.isDigit || ('a' ≤ c && c ≤ 'z') || c == '_' || c == '.' || c == '-'

/-- `replace(/[^a-z0-9_.-]+/g, '-')`, with whether the character before was replaced. -/
def dashRuns : Bool → List Char → List Char
  | _, [] => []
  | replaced, c :: rest =>
    if isInstanceChar c then c :: dashRuns false rest
    else if replaced then dashRuns true rest
    else '-' :: dashRuns true rest

def normalizeInstanceId (value : Option String) : String :=
  let given := value.getD ""
  let cleaned := trimWhere (· == '-') (dashRuns false (rules.lower (trim (if given = "" then "default" else given))).toList)
  String.ofList ((if cleaned = [] then "default".toList else cleaned).take 48)

/-! ## Commands -/

def shellQuote (value : String) : String := String.ofList (PosixShell.singleQuoted value.toList)

def psQuote (value : String) : String := String.ofList (PowerShell.quoted value.toList)

def commandStart : String := "powershell.exe -NoProfile -ExecutionPolicy Bypass -EncodedCommand "

def powershellCommand (script : String) : String :=
  commandStart ++ String.ofList (btoa (Utf16.bytesLE (Utf16.units script.toList)))

/-- The shell command up to the proxy. -/
def shellStart : String :=
  "(set -eu; umask 077; d=$(mktemp -d \"$\x7bTMPDIR:-/tmp\x7d/cf-monitor-install.XXXXXX\"); trap 'rm -f \"$d/install.sh\"; rmdir \"$d\"' 0; curl -fsSL --proto '=https' --proto-redir '=https' --retry 3"

def shellDownloadAndRun (url : String) (args : List String) (proxy : String) : String :=
  let proxyArg := if proxy ≠ "" then " --proxy " ++ shellQuote proxy else ""
  shellStart ++ proxyArg ++ " -o \"$d/install.sh\" " ++ shellQuote url ++ "; test -s \"$d/install.sh\"; sh \"$d/install.sh\" " ++
    " ".intercalate (args.map shellQuote) ++ ")"

/-- The script up to the address. -/
def powershellStart : String :=
  "$ErrorActionPreference='Stop'; $d=Join-Path ([IO.Path]::GetTempPath()) ('cf-monitor-install-'+[Guid]::NewGuid().ToString('N')); $p=Join-Path $d 'install-windows.ps1'; try \x7b $null=New-Item -ItemType Directory -Path $d; $u=[uri]"

/-- The script from the address to the proxy. -/
def powershellLoop : String :=
  "; for($i=0;$i -lt 10;$i++)\x7b if($u.Scheme -ne 'https' -or $u.UserInfo)\x7bthrow 'HTTPS download required'\x7d; try \x7b $r=Invoke-WebRequest -Uri $u -UseBasicParsing -OutFile $p -PassThru -MaximumRedirection 0 -ErrorAction Stop"

/-- The script from the proxy to the arguments. -/
def powershellRun : String :=
  " \x7d catch \x7b $r=$_.Exception.Response; if(!$r -or [int]$r.StatusCode -notin 301,302,303,307,308)\x7bthrow\x7d \x7d; if([int]$r.StatusCode -in 301,302,303,307,308)\x7b if(!$r.Headers.Location)\x7bthrow 'Missing redirect location'\x7d; $u=[uri]::new($u,[string]$r.Headers.Location); continue \x7d; if([int]$r.StatusCode -ne 200)\x7bthrow 'Download failed'\x7d; break \x7d; if($i -eq 10 -or !(Test-Path -LiteralPath $p -PathType Leaf) -or (Get-Item -LiteralPath $p).Length -eq 0)\x7bthrow 'Incomplete download'\x7d; $global:LASTEXITCODE=0; & $p "

/-- The script behind the arguments. -/
def powershellEnd : String :=
  "; exit $LASTEXITCODE \x7d catch \x7b Write-Error 'Agent installer download or execution failed' -ErrorAction Continue; exit 1 \x7d finally \x7b Remove-Item -LiteralPath $p -Force -ErrorAction SilentlyContinue; Remove-Item -LiteralPath $d -Force -ErrorAction SilentlyContinue \x7d"

/-- The script that `powershellDownloadAndRun` encodes. -/
def powershellScript (url args proxy : String) : String :=
  let proxyArg := if proxy ≠ "" then " -Proxy " ++ psQuote proxy else ""
  powershellStart ++ psQuote url ++ powershellLoop ++ proxyArg ++ powershellRun ++ args ++ powershellEnd

def powershellDownloadAndRun (url args proxy : String) : String := powershellCommand (powershellScript url args proxy)

/-- A name and its value, if there is one. -/
def pushArg (name value : String) : List String := if value ≠ "" then [name, value] else []

namespace InstallRequest

variable (i : InstallRequest)

def ghproxy : String := normalizeProxyUrl rules i.options.ghproxy true

def downloadProxy : String := normalizeProxyUrl rules i.options.downloadProxy false

def binaryUrl : String := (customAgentDownloadUrls rules i.options.binaryUrl i.options.checksumUrl).1

def checksumUrl : String := (customAgentDownloadUrls rules i.options.binaryUrl i.options.checksumUrl).2

def releaseTag : String := normalizeReleaseTag i.options.releaseTag

def installMode : String :=
  match i.options.installMode with
  | .auto => ""
  | .system => "system"
  | .user => "user"

def effectiveInstanceId : String :=
  normalizeInstanceId rules (if i.instanceId.getD "" ≠ "" then i.instanceId else i.nodeName)

def effectiveNodeName : String := trim (i.nodeName.getD "")

def trafficResetDay : String := normalizeTrafficResetDay i.options.trafficResetDay

/-- The arguments that both installers begin with. -/
def commonArgs : List String :=
  ["-s", i.serverUrl, "-t", if i.token ≠ "" then i.token else "<TOKEN>"] ++
    (if i.trafficResetDay ≠ "1" then ["-r", i.trafficResetDay] else []) ++ pushArg "-n" i.effectiveNodeName ++
    ["-i", i.effectiveInstanceId rules]

/-- A tag is not used with an address of one's own. -/
def tagArg (name : String) : List String :=
  if i.releaseTag ≠ "" ∧ i.binaryUrl rules = "" then [name, i.releaseTag] else []

def unixArgs : List String :=
  i.commonArgs rules ++ pushArg "--install-mode" i.installMode ++ pushArg "--binary-url" (i.binaryUrl rules) ++
    pushArg "--checksum-url" (i.checksumUrl rules) ++ i.tagArg rules "--release-tag" ++
    pushArg "--install-ghproxy" (i.ghproxy rules) ++ pushArg "--proxy" (i.downloadProxy rules) ++
    pushArg "--install-dir" (trim i.options.dir) ++ pushArg "--service-name" (trim i.options.serviceName) ++
    pushArg "--mount-include" (trim i.options.mountInclude) ++ pushArg "--mount-exclude" (trim i.options.mountExclude) ++
    pushArg "--nic-include" (trim i.options.nicInclude) ++ pushArg "--nic-exclude" (trim i.options.nicExclude)

def windowsArgs : List String :=
  i.commonArgs rules ++ pushArg "-BinaryUrl" (i.binaryUrl rules) ++ pushArg "-ChecksumUrl" (i.checksumUrl rules) ++
    i.tagArg rules "-ReleaseTag" ++ pushArg "-InstallGhproxy" (i.ghproxy rules) ++
    pushArg "-Proxy" (i.downloadProxy rules) ++ pushArg "-InstallDir" (trim i.options.dir) ++
    pushArg "-ServiceName" (trim i.options.serviceName) ++ pushArg "-MountInclude" (trim i.options.mountInclude) ++
    pushArg "-MountExclude" (trim i.options.mountExclude) ++ pushArg "-NicInclude" (trim i.options.nicInclude) ++
    pushArg "-NicExclude" (trim i.options.nicExclude)

end InstallRequest

def buildAgentInstallCommand (platform : AgentInstallPlatform) (i : InstallRequest) : String :=
  match platform with
  | .unix =>
    shellDownloadAndRun (cfMonitorAgentScriptUrl rules "install.sh" i.releaseTag i.options.scriptRef) (i.unixArgs rules)
      (i.downloadProxy rules)
  | .windows =>
    powershellDownloadAndRun (cfMonitorAgentScriptUrl rules "install-windows.ps1" i.releaseTag i.options.scriptRef)
      (" ".intercalate ((i.windowsArgs rules).mapIdx fun index arg => if index % 2 = 0 then arg else psQuote arg))
      (i.downloadProxy rules)

end

/-! ## Unix -/

def word (text : String) : List PosixShell.Part := PosixShell.literal text.toList

/-- `"$d/install.sh"`. -/
def installPath : List PosixShell.Part := PosixShell.expansion "$d".toList ++ word "/install.sh"

/-- The commands before the download. -/
def prepareCommands : List (List (List PosixShell.Part)) := [[word "set", word "-eu"],
  [word "umask", word "077"],
  [word "d=" ++ PosixShell.expansion "$(mktemp -d \"$\x7bTMPDIR:-/tmp\x7d/cf-monitor-install.XXXXXX\")".toList],
  [word "trap", word "rm -f \"$d/install.sh\"; rmdir \"$d\"", word "0"]]

def curlWords : List (List PosixShell.Part) :=
  [word "curl", word "-fsSL", word "--proto", word "=https", word "--proto-redir", word "=https", word "--retry"]

def downloadCommand (url proxy : String) : List (List PosixShell.Part) :=
  curlWords ++ [word "3"] ++ (if proxy ≠ "" then [word "--proxy", word proxy] else []) ++ [word "-o", installPath, word url]

def testCommand : List (List PosixShell.Part) := [word "test", word "-s", installPath]

/-- The installer, called with arguments as they are. -/
def invocation (args : List String) : List (List PosixShell.Part) := [word "sh", installPath] ++ args.map word

def unixCommands (url : String) (args : List String) (proxy : String) : List (List (List PosixShell.Part)) :=
  prepareCommands ++ [downloadCommand url proxy, testCommand] ++ [invocation args]

/-- The tokens in front of the number of tries. -/
def startTokens : List PosixShell.Token :=
  .op '(' :: prepareCommands.flatMap (fun command => command.map .word ++ [.op ';']) ++ curlWords.map .word

theorem run_shellStart : PosixShell.run ⟨[], none, []⟩ shellStart.toList = some ⟨startTokens, some (word "3"), []⟩ := by
  unfold shellStart
  rw [toList_ofList]
  decide +kernel

theorem run_proxyText : PosixShell.run ⟨[], none, []⟩ "--proxy ".toList = some ⟨[.word (word "--proxy")], none, []⟩ := by
  decide +kernel

theorem run_outputText : PosixShell.run ⟨[], none, []⟩ "-o \"$d/install.sh\" ".toList
    = some ⟨[.word (word "-o"), .word installPath], none, []⟩ := by
  decide +kernel

theorem run_testText : PosixShell.run ⟨[], none, []⟩ " test -s \"$d/install.sh\"; sh \"$d/install.sh\" ".toList
    = some ⟨testCommand.map .word ++ [.op ';', .word (word "sh"), .word installPath], none, []⟩ := by
  decide +kernel

theorem toList_shellQuote (value : String) : (shellQuote value).toList = singleQuoted value.toList := toList_ofList

theorem run_proxy (ts : List PosixShell.Token) (proxy : String) (rest : List Char) :
    PosixShell.run ⟨ts, some (word "3"), []⟩
        ((if proxy ≠ "" then " --proxy " ++ shellQuote proxy else "").toList ++ ' ' :: rest)
      = PosixShell.run ⟨ts ++ .word (word "3") :: (if proxy ≠ "" then [word "--proxy", word proxy] else []).map .word, none, []⟩
          rest := by
  by_cases hproxy : proxy ≠ ""
  · have hblank : (" --proxy " : String).toList = ' ' :: "--proxy ".toList := rfl
    have hword : literal proxy.toList = word proxy := rfl
    rw [if_pos hproxy, if_pos hproxy, toList_append, toList_shellQuote, hblank, cons_append, cons_append,
      run_cons, step_blank, Option.bind_some, append_assoc, run_text run_proxyText,
      PosixShell.run_singleQuoted, run_cons, step_blank, Option.bind_some, hword]
    simp
  · rw [if_neg hproxy, if_neg hproxy]
    have hempty : ("" : String).toList = [] := rfl
    rw [hempty, nil_append, run_cons, step_blank, Option.bind_some, List.map_nil]

variable {args : List String}

theorem run_download (ts : List PosixShell.Token) (url : String) (hargs : args ≠ []) :
    PosixShell.run ⟨ts, none, []⟩ ("-o \"$d/install.sh\" ".toList ++ ((shellQuote url).toList ++
        ';' :: (" test -s \"$d/install.sh\"; sh \"$d/install.sh\" ".toList ++
          ([' '].intercalate ((args.map toList).map singleQuoted) ++ ')' :: []))))
      = some ⟨ts ++ [word "-o", installPath, word url].map .word ++ .op ';' :: testCommand.map .word ++ .op ';' ::
          (invocation args).map .word ++ [.op ')'], none, []⟩ := by
  have hsemicolon := fun ts' => PosixShell.step_operator ts' (word url) (show PosixShell.isOperator ';' = true by decide) (by decide)
  have hword : literal url.toList = word url := rfl
  have hne : args.map toList ≠ [] := by simpa using hargs
  rw [run_text run_outputText, toList_shellQuote, PosixShell.run_singleQuoted, hword, run_cons, hsemicolon,
    Option.bind_some, run_text run_testText, PosixShell.run_arguments _ hne]
  simp only [PosixShell.run, List.foldlM_nil, invocation, List.map_map, List.map_cons, List.map_nil,
    append_assoc, cons_append, nil_append]
  rfl

theorem toList_shellDownloadAndRun (url : String) (args : List String) (proxy : String) :
    (shellDownloadAndRun url args proxy).toList = shellStart.toList ++
      ((if proxy ≠ "" then " --proxy " ++ shellQuote proxy else "").toList ++ ' ' :: ("-o \"$d/install.sh\" ".toList ++
        ((shellQuote url).toList ++ ';' :: (" test -s \"$d/install.sh\"; sh \"$d/install.sh\" ".toList ++
          ([' '].intercalate ((args.map toList).map singleQuoted) ++ ')' :: []))))) := by
  have houtput : (" -o \"$d/install.sh\" " : String).toList = ' ' :: "-o \"$d/install.sh\" ".toList := rfl
  have htest : ("; test -s \"$d/install.sh\"; sh \"$d/install.sh\" " : String).toList
      = ';' :: " test -s \"$d/install.sh\"; sh \"$d/install.sh\" ".toList := rfl
  have hargs : (args.map shellQuote).map toList = (args.map toList).map singleQuoted := by
    rw [List.map_map, List.map_map]
    exact List.map_congr_left fun arg _ => toList_shellQuote arg
  rw [shellDownloadAndRun]
  simp only [toList_append, String.toList_intercalate, houtput, htest, hargs, append_assoc, cons_append]
  rfl

/-- **The Unix command** is read as the installer with the arguments. -/
theorem unix_commands (url : String) (hargs : args ≠ []) (proxy : String) :
    PosixShell.commands (shellDownloadAndRun url args proxy).toList = some (unixCommands url args proxy) := by
  have htokens : tokens (shellDownloadAndRun url args proxy).toList
      = some (subshell (prepareCommands ++ [downloadCommand url proxy, testCommand]) (invocation args)) := by
    rw [tokens, toList_shellDownloadAndRun, PosixShell.run_append, run_shellStart, Option.bind_some, run_proxy,
      run_download _ url hargs, Option.bind_some, if_pos rfl]
    simp only [PosixShell.State.finish, subshell, downloadCommand, startTokens, List.flatMap_append, flatMap_cons,
      List.flatMap_nil, List.map_append, List.map_cons, List.map_nil, append_assoc, cons_append, nil_append]
  refine PosixShell.commands_subshell htokens (fun command h => ?_) (List.cons_ne_nil _ _)
  simp only [prepareCommands, cons_append, nil_append, mem_cons, List.not_mem_nil, or_false] at h
  rcases h with rfl | rfl | rfl | rfl | rfl | rfl
  all_goals exact List.cons_ne_nil _ _

/-! ## Windows -/

/-- The script that PowerShell decodes: Base64 of UTF-16. -/
def decodedCommand (command : String) : Option (List Char) :=
  if commandStart.toList <+: command.toList then (atob (command.toList.drop commandStart.toList.length)).bind Utf16.decodeLE else none

theorem decodedCommand_powershellCommand (script : String) : decodedCommand (powershellCommand script) = some script.toList := by
  have hcommand : (powershellCommand script).toList
      = commandStart.toList ++ btoa (Utf16.bytesLE (Utf16.units script.toList)) := by
    rw [powershellCommand, toList_append, toList_ofList]
  rw [decodedCommand, hcommand, if_pos (List.prefix_append _ _), List.drop_left, btoa, atob_padded, Option.bind_some,
    Utf16.decodeLE_bytes]

/-- The names of arguments and their values. -/
def pairsOf : List String → List (String × String)
  | name :: value :: rest => (name, value) :: pairsOf rest
  | _ => []

/-- Each value behind the text of the script before it. -/
def windowsParts (url : String) (args : List (String × String)) (proxy : String) : List (List Char × List Char) :=
  (powershellStart.toList, url.toList) ::
    (if proxy ≠ "" then [(powershellLoop.toList ++ " -Proxy ".toList, proxy.toList)] else []) ++
    match args with
    | [] => []
    | (name, value) :: rest =>
      ((if proxy ≠ "" then [] else powershellLoop.toList) ++ powershellRun.toList ++ (name ++ " ").toList, value.toList) ::
        rest.map fun arg => ((" " ++ (arg.1 ++ " ")).toList, arg.2.toList)

/-- What PowerShell reads of the script: its fixed tokens, and one literal for each value. -/
def windowsTokens (url : String) (args : List String) (proxy : String) : List PowerShell.Token :=
  PowerShell.weaveTokens (windowsParts url (pairsOf args) proxy) powershellEnd.toList

theorem toList_psQuote (value : String) : (psQuote value).toList = PowerShell.quoted value.toList := toList_ofList

/-- Names and values alternate. -/
def Paired (args : List String) : Prop := (pairsOf args).flatMap (fun arg => [arg.1, arg.2]) = args

variable {a : List String}

theorem pairsOf_append (ha : Paired a) (b : List String) : pairsOf (a ++ b) = pairsOf a ++ pairsOf b := by
  have hpairs : ∀ pairs : List (String × String),
      pairsOf (pairs.flatMap (fun arg => [arg.1, arg.2]) ++ b) = pairs ++ pairsOf b := by
    intro pairs
    induction pairs with
    | nil => rfl
    | cons arg pairs ih =>
      rw [flatMap_cons, append_assoc, cons_append, cons_append, nil_append, pairsOf, ih, cons_append]
  rw [← ha, hpairs, ha]

variable {b : List String}

theorem Paired.append (ha : Paired a) (hb : Paired b) : Paired (a ++ b) := by
  rw [Paired, pairsOf_append ha, List.flatMap_append, ha, hb]

/-- The arguments as `windowsArgs.map` writes them. -/
theorem mapIdx_pairs (pairs : List (String × String)) :
    (pairs.flatMap fun arg => [arg.1, arg.2]).mapIdx (fun index arg => if index % 2 = 0 then arg else psQuote arg)
      = pairs.flatMap fun arg => [arg.1, psQuote arg.2] := by
  induction pairs with
  | nil => rfl
  | cons arg pairs ih =>
    have hshift : (fun index (text : String) => if (index + 1 + 1) % 2 = 0 then text else psQuote text)
        = fun index text => if index % 2 = 0 then text else psQuote text := by
      funext index text
      have hmod : (index + 1 + 1) % 2 = index % 2 := by omega
      rw [hmod]
    rw [flatMap_cons, flatMap_cons, cons_append, cons_append, nil_append, List.mapIdx_cons,
      List.mapIdx_cons, hshift, ih]
    rfl

theorem intercalate_pairs (arg : String × String) (pairs : List (String × String)) :
    ([' '].intercalate (((arg :: pairs).flatMap fun arg => [arg.1, psQuote arg.2]).map toList))
      = (arg.1 ++ " ").toList ++ (psQuote arg.2).toList ++
        pairs.flatMap fun arg => (" " ++ (arg.1 ++ " ")).toList ++ (psQuote arg.2).toList := by
  induction pairs generalizing arg with
  | nil => simp
  | cons next pairs ih =>
    have hnext := ih next
    rw [flatMap_cons, List.map_append, List.map_cons, List.map_cons, List.map_nil, cons_append, cons_append,
      nil_append, List.intercalate_cons_of_ne_nil (by simp), List.intercalate_cons_of_ne_nil (by simp), hnext]
    simp

theorem weave_script (start loop run finish url proxy args : String) (arg : String × String) (pairs : List (String × String))
    (hargs : args.toList = (arg.1 ++ " ").toList ++ (psQuote arg.2).toList ++
      pairs.flatMap fun arg => (" " ++ (arg.1 ++ " ")).toList ++ (psQuote arg.2).toList) :
    (start ++ psQuote url ++ loop ++ (if proxy ≠ "" then " -Proxy " ++ psQuote proxy else "") ++ run ++ args ++ finish).toList
      = PowerShell.weave ((start.toList, url.toList) ::
          (if proxy ≠ "" then [(loop.toList ++ " -Proxy ".toList, proxy.toList)] else []) ++
          ((if proxy ≠ "" then [] else loop.toList) ++ run.toList ++ (arg.1 ++ " ").toList, arg.2.toList) ::
            pairs.map fun arg => ((" " ++ (arg.1 ++ " ")).toList, arg.2.toList)) finish.toList := by
  rw [PowerShell.weave]
  simp only [toList_append, hargs, List.flatMap_append, flatMap_cons, List.flatMap_map, toList_psQuote]
  by_cases hproxy : proxy ≠ ""
  · rw [if_pos hproxy, if_pos hproxy, if_pos hproxy]
    simp only [toList_append, toList_psQuote, append_assoc, List.flatMap_nil, nil_append, flatMap_cons]
  · have hempty : ("" : String).toList = [] := rfl
    rw [if_neg hproxy, if_neg hproxy, if_neg hproxy]
    simp only [hempty, append_assoc, List.flatMap_nil, nil_append]

theorem toList_powershellScript (hargs : Paired args) (hne : args ≠ []) (url proxy : String) :
    (powershellScript url (" ".intercalate (args.mapIdx fun index arg => if index % 2 = 0 then arg else psQuote arg)) proxy).toList
      = PowerShell.weave (windowsParts url (pairsOf args) proxy) powershellEnd.toList := by
  have hpairs : ∃ arg pairs, pairsOf args = arg :: pairs := by
    refine List.exists_cons_of_ne_nil fun hnil => hne ?_
    rw [← hargs, hnil, List.flatMap_nil]
  obtain ⟨arg, pairs, hpairs⟩ := hpairs
  have hblank : " ".toList = [' '] := rfl
  rw [hpairs, powershellScript, windowsParts]
  refine weave_script powershellStart powershellLoop powershellRun powershellEnd url proxy _ arg pairs ?_
  rw [String.toList_intercalate, hblank, ← hargs, hpairs, mapIdx_pairs, intercalate_pairs]

/-! ## Fixed text -/

/-- The names in the script. -/
def windowsNames : List String := [
  "-s", "-t", "-r", "-n", "-i", "-BinaryUrl", "-ChecksumUrl", "-ReleaseTag", "-InstallGhproxy", "-Proxy", "-InstallDir",
  "-ServiceName", "-MountInclude", "-MountExclude", "-NicInclude", "-NicExclude"]

variable {name : String}

theorem apart_name (h : name ∈ windowsNames) : PowerShell.Apart (name ++ " ").toList := by
  revert name
  decide +kernel

theorem apart_start : PowerShell.Apart powershellStart.toList := by
  unfold powershellStart
  rw [toList_ofList]
  decide +kernel

theorem apart_loop : PowerShell.Apart powershellLoop.toList := by
  unfold powershellLoop
  rw [toList_ofList]
  decide +kernel

theorem apart_run : PowerShell.Apart powershellRun.toList := by
  unfold powershellRun
  rw [toList_ofList]
  decide +kernel

theorem apart_end : PowerShell.Apart powershellEnd.toList := by
  unfold powershellEnd
  rw [toList_ofList]
  decide +kernel

theorem apart_windowsParts {args : List (String × String)} (hnames : ∀ arg ∈ args, arg.1 ∈ windowsNames) (url proxy : String) :
    ∀ part ∈ windowsParts url args proxy, PowerShell.Apart part.1 := by
  have hproxyText : PowerShell.Apart " -Proxy ".toList := by decide +kernel
  have hblank : PowerShell.Apart " ".toList := by decide +kernel
  have hproxy : ∀ part ∈ (if proxy ≠ "" then [(powershellLoop.toList ++ " -Proxy ".toList, proxy.toList)] else []),
      PowerShell.Apart part.1 := by
    intro part hpart
    split_ifs at hpart
    · rw [List.mem_singleton.mp hpart]
      exact apart_loop.append hproxyText
    · cases hpart
  intro part hpart
  unfold windowsParts at hpart
  rw [cons_append, mem_cons, List.mem_append] at hpart
  rcases hpart with hpart | hpart | hpart
  · have hstart : part.1 = powershellStart.toList := by rw [hpart]
    rw [hstart]
    exact apart_start
  · exact hproxy part hpart
  · cases args with
    | nil => cases hpart
    | cons arg rest =>
      rcases mem_cons.mp hpart with rfl | hpart
      · have hname := apart_name (hnames arg List.mem_cons_self)
        by_cases hempty : proxy ≠ ""
        · rw [if_pos hempty, nil_append]
          exact apart_run.append hname
        · rw [if_neg hempty]
          exact (apart_loop.append apart_run).append hname
      · obtain ⟨next, hnext, rfl⟩ := List.mem_map.mp hpart
        rw [toList_append]
        exact hblank.append (apart_name (hnames next (List.mem_cons_of_mem _ hnext)))

/-- **The Windows command** is read as the script with each value one literal, if no value has a curly quote. -/
theorem windows_tokens_iff (hargs : Paired args) (hne : args ≠ [])
    (hnames : ∀ arg ∈ pairsOf args, arg.1 ∈ windowsNames) (url proxy : String) :
    (decodedCommand (powershellDownloadAndRun url
        (" ".intercalate (args.mapIdx fun index arg => if index % 2 = 0 then arg else psQuote arg)) proxy)).bind
        PowerShell.tokens = some (windowsTokens url args proxy) ↔
      ∀ part ∈ windowsParts url (pairsOf args) proxy, PowerShell.hasNoCurlyQuote part.2 = true := by
  rw [powershellDownloadAndRun, decodedCommand_powershellCommand, Option.bind_some, toList_powershellScript hargs hne, windowsTokens]
  exact PowerShell.tokens_weave_iff (apart_windowsParts hnames url proxy) apart_end

/-! ## Values -/

def hasNoCurlyQuote (text : String) : Bool := PowerShell.hasNoCurlyQuote text.toList

def IsAscii (text : String) : Prop := ∀ c ∈ text.toList, c.toNat < 128

theorem IsAscii.append {s t : String} (hs : IsAscii s) (ht : IsAscii t) : IsAscii (s ++ t) := by
  intro c hc
  rw [toList_append] at hc
  exact (List.mem_append.mp hc).elim (hs c) (ht c)

theorem IsAscii.noCurlyQuote {text : String} (h : IsAscii text) : hasNoCurlyQuote text = true := PowerShell.hasNoCurlyQuote_ascii h

theorem isAscii_empty : IsAscii "" := nofun

/-- What is documented of the platform: a URL is written in ASCII, and ASCII stays so in lower case. -/
structure InstallRules (rules : BackupRules) : Prop where
  url : ∀ text u, rules.parseUrl text = some u → u.protocol ∈ ["http:", "https:"] →
    IsAscii u.href ∧ IsAscii u.origin ∧ IsAscii u.pathname
  lower : LowersAscii rules.lower

theorem noCurlyQuote_trim (text : String) : hasNoCurlyQuote (trim text) = hasNoCurlyQuote text := by
  have hcurly : ∀ c : Char, PowerShell.isCurlyQuote c = true → isTrimmed c = false := by
    intro c hc
    rw [PowerShell.isCurlyQuote, Bool.and_eq_true, decide_eq_true_eq, decide_eq_true_eq] at hc
    have hnat : c.toNat = 0x2018 ∨ c.toNat = 0x2019 ∨ c.toNat = 0x201A ∨ c.toNat = 0x201B := by omega
    rcases hnat with h | h | h | h
    all_goals
      rw [← Char.ofNat_toNat c, h]
      decide
  rw [Bool.eq_iff_iff, hasNoCurlyQuote, hasNoCurlyQuote, PowerShell.hasNoCurlyQuote, PowerShell.hasNoCurlyQuote, List.all_eq_true,
    List.all_eq_true]
  refine ⟨fun h c hc => ?_, fun h c hc => h c ((trim_part text).subset hc)⟩
  cases hc' : PowerShell.isCurlyQuote c with
  | false => rfl
  | true =>
    have hkept := h c (mem_trim (hcurly c hc') hc)
    rw [hc'] at hkept
    exact hkept

section

variable {rules : BackupRules}

theorem isAscii_httpsDownloadUrl (hrules : InstallRules rules) (value : Option String) : IsAscii (httpsDownloadUrl rules value) := by
  rw [httpsDownloadUrl]
  split_ifs
  · exact isAscii_empty
  · cases hparse : rules.parseUrl (trim (value.getD "")) with
    | none => exact isAscii_empty
    | some u =>
      by_cases hsecure : u.protocol = "https:" ∧ u.username = "" ∧ u.password = "" ∧ u.hostname ≠ ""
      · have hscheme : u.protocol ∈ ["http:", "https:"] := by simp [hsecure.1]
        simpa only [if_pos hsecure] using (hrules.url _ u hparse hscheme).1
      · simpa only [if_neg hsecure] using isAscii_empty

theorem isAscii_downloadUrls (hrules : InstallRules rules) (binaryValue checksumValue : Option String) :
    IsAscii (customAgentDownloadUrls rules binaryValue checksumValue).1 ∧
    IsAscii (customAgentDownloadUrls rules binaryValue checksumValue).2 := by
  have hbinary := isAscii_httpsDownloadUrl hrules binaryValue
  have hchecksum := isAscii_httpsDownloadUrl hrules checksumValue
  rw [customAgentDownloadUrls]
  generalize httpsDownloadUrl rules binaryValue = binaryUrl at hbinary ⊢
  generalize httpsDownloadUrl rules checksumValue = checksumUrl at hchecksum ⊢
  split_ifs
  · exact ⟨hbinary, hchecksum⟩
  · exact ⟨isAscii_empty, isAscii_empty⟩
  · exact ⟨hbinary, isAscii_empty⟩
  · exact ⟨isAscii_empty, isAscii_empty⟩

theorem isAscii_proxyAddress (hrules : InstallRules rules) (allowPath : Bool) (address : String) :
    IsAscii (proxyAddress rules allowPath address) := by
  have hslashes : ∀ path, IsAscii path → IsAscii (withoutEndSlashes path) := by
    intro path hpath c hc
    rw [withoutEndSlashes, toList_ofList, List.mem_reverse] at hc
    exact hpath c (List.mem_reverse.mp ((List.dropWhile_suffix _).subset hc))
  rw [proxyAddress]
  cases hparse : rules.parseUrl address with
  | none => exact isAscii_empty
  | some u =>
    dsimp only
    split_ifs with hok hpath
    · have hscheme : u.protocol ∈ ["http:", "https:"] := by
        rcases hok.1 with h | h
        · simp [h]
        · simp [h.2]
      have hu := hrules.url _ u hparse hscheme
      exact hu.2.1.append (hslashes _ hu.2.2)
    · have hscheme : u.protocol ∈ ["http:", "https:"] := by
        rcases hok.1 with h | h
        · simp [h]
        · simp [h.2]
      exact (hrules.url _ u hparse hscheme).2.1.append isAscii_empty
    · exact isAscii_empty

theorem isAscii_normalizeProxyUrl (hrules : InstallRules rules) (value : String) (allowPath : Bool) :
    IsAscii (normalizeProxyUrl rules value allowPath) := by
  by_cases hempty : trim value = ""
  · rw [normalizeProxyUrl, if_pos hempty]
    exact isAscii_empty
  · rw [normalizeProxyUrl, if_neg hempty]
    exact isAscii_proxyAddress hrules _ _

variable {rest : List Char}

theorem afterDigits_chars {text : List Char} (h : afterDigits text = some rest) (hrest : ∀ c ∈ rest, c.toNat < 128) :
    ∀ c ∈ text, c.toNat < 128 := by
  rw [afterDigits] at h
  split_ifs at h
  cases h
  intro c hc
  rw [← List.takeWhile_append_dropWhile (p := Char.isDigit) (l := text)] at hc
  rcases List.mem_append.mp hc with hc | hc
  · have hdigit := List.mem_takeWhile_imp hc
    simp only [Char.isDigit, Bool.and_eq_true, decide_eq_true_eq, UInt32.le_iff_toNat_le] at hdigit
    exact Nat.lt_of_le_of_lt hdigit.2 (by decide)
  · exact hrest c hc

theorem afterNumber_chars {text : List Char} (h : afterNumber text = some rest) (hrest : ∀ c ∈ rest, c.toNat < 128) :
    ∀ c ∈ text, c.toNat < 128 := by
  rw [afterNumber] at h
  split at h
  · rename_i rest' hdigits
    cases h
    refine afterDigits_chars hdigits fun c hc => ?_
    rcases mem_cons.mp hc with rfl | hc
    · decide
    · exact hrest c hc
  · cases h

theorem isReleaseTag_chars {text : List Char} (h : isReleaseTag text = true) : ∀ c ∈ text, c.toNat < 128 := by
  have htag : ∀ {c : Char}, isTagChar c = true → c.toNat < 128 := by
    intro c hc
    simp only [isTagChar, Bool.or_eq_true, beq_iff_eq, Char.isAlphanum, Char.isAlpha, Char.isUpper, Char.isLower, Char.isDigit,
      Bool.and_eq_true, decide_eq_true_eq, UInt32.le_iff_toNat_le, ge_iff_le] at hc
    rcases hc with (((⟨-, h⟩ | ⟨-, h⟩) | ⟨-, h⟩) | rfl) | rfl
    · exact Nat.lt_of_le_of_lt h (by decide)
    · exact Nat.lt_of_le_of_lt h (by decide)
    · exact Nat.lt_of_le_of_lt h (by decide)
    · decide
    · decide
  unfold isReleaseTag at h
  split at h
  · rename_i text
    cases hnumbers : ((afterNumber text).bind afterNumber).bind afterDigits with
    | none =>
      rw [hnumbers] at h
      exact absurd h Bool.false_ne_true
    | some rest =>
      obtain ⟨second, hsecond, hthird⟩ := Option.bind_eq_some_iff.mp hnumbers
      obtain ⟨first, hfirst, hsecond⟩ := Option.bind_eq_some_iff.mp hsecond
      have hrest : ∀ c ∈ rest, c.toNat < 128 := by
        rw [hnumbers] at h
        cases rest with
        | nil => exact nofun
        | cons d rest =>
          simp only [Bool.and_eq_true, Bool.or_eq_true, beq_iff_eq, List.all_eq_true] at h
          intro c hc
          rcases mem_cons.mp hc with rfl | hc
          · rcases h.1.1 with rfl | rfl <;> decide
          · exact htag (h.2 c hc)
      have htext := afterNumber_chars hfirst (afterNumber_chars hsecond (afterDigits_chars hthird hrest))
      intro c hc
      rcases mem_cons.mp hc with rfl | hc
      · decide
      · exact htext c hc
  · exact absurd h Bool.false_ne_true

theorem isAscii_normalizeReleaseTag (value : Option String) : IsAscii (normalizeReleaseTag value) := by
  rw [normalizeReleaseTag]
  split_ifs with h
  · exact isReleaseTag_chars h
  · exact isAscii_empty

theorem isAscii_trafficResetDay (value : String) : IsAscii (normalizeTrafficResetDay value) := by
  have hdays : ∀ n < 32, IsAscii (toString ((n : Nat) : Int)) := by
    unfold IsAscii
    decide
  rw [normalizeTrafficResetDay]
  cases Public.parseInt (some 10) (trim value) with
  | none => exact hdays 1 (by decide)
  | some day =>
    dsimp only
    have hday : min 31 (max 1 day) = (((min 31 (max 1 day)).toNat : Nat) : Int) := by omega
    rw [hday]
    exact hdays _ (by omega)

theorem isAscii_normalizeInstanceId (value : Option String) : IsAscii (normalizeInstanceId rules value) := by
  have hchar : ∀ {c : Char}, isInstanceChar c = true → c.toNat < 128 := by
    intro c hc
    simp only [isInstanceChar, Bool.or_eq_true, beq_iff_eq, Char.isDigit, Bool.and_eq_true, decide_eq_true_eq, Char.le_def,
      UInt32.le_iff_toNat_le] at hc
    rcases hc with (((⟨-, h⟩ | ⟨-, h⟩) | rfl) | rfl) | rfl
    · exact Nat.lt_of_le_of_lt h (by decide)
    · exact Nat.lt_of_le_of_lt h (by decide)
    all_goals decide
  have hdashes : ∀ {text : List Char} {replaced : Bool}, ∀ c ∈ dashRuns replaced text, c.toNat < 128 := by
    intro text
    induction text with
    | nil => exact nofun
    | cons d text ih =>
      intro replaced c hc
      rw [dashRuns] at hc
      split_ifs at hc with hd
      · rcases mem_cons.mp hc with rfl | hc
        · exact hchar hd
        · exact ih c hc
      · exact ih c hc
      · rcases mem_cons.mp hc with rfl | hc
        · decide
        · exact ih c hc
  intro c hc
  rw [normalizeInstanceId, toList_ofList] at hc
  have hdefault : ∀ d ∈ "default".toList, d.toNat < 128 := by decide
  by_cases hempty : trimWhere (· == '-')
      (dashRuns false (rules.lower (trim (if value.getD "" = "" then "default" else value.getD ""))).toList) = []
  · rw [if_pos hempty] at hc
    exact hdefault c (List.mem_of_mem_take hc)
  · rw [if_neg hempty] at hc
    exact hdashes c (mem_of_mem_trimWhere (List.mem_of_mem_take hc))

theorem isAscii_scriptUrl (hrules : InstallRules rules) {scriptFile : String} (hfile : IsAscii scriptFile) (releaseTag : String)
    (scriptRef : Option String) : IsAscii (cfMonitorAgentScriptUrl rules scriptFile releaseTag scriptRef) := by
  have hrepository : IsAscii ("https://github.com/" ++ CF_MONITOR_REPOSITORY ++ "/releases/download/") := by
    unfold IsAscii
    decide +kernel
  have hraw : IsAscii ("https://raw.githubusercontent.com/" ++ CF_MONITOR_REPOSITORY ++ "/") := by
    unfold IsAscii
    decide +kernel
  have hagent : IsAscii "/agent" := by
    unfold IsAscii
    decide
  have hslash : IsAscii "/" := by
    unfold IsAscii
    decide
  have href : IsAscii (normalizeScriptRef rules scriptRef) := by
    rw [normalizeScriptRef]
    split_ifs with h
    · have hhex : ∀ c ∈ (trim (scriptRef.getD "")).toList, c.val < 128 := by
        rw [isRevision, Bool.and_eq_true, List.all_eq_true] at h
        intro c hc
        have hc' := h.2 c hc
        simp only [isHexDigit, isLowerHexDigit, Bool.or_eq_true, Bool.and_eq_true, decide_eq_true_eq, Char.isDigit, Char.le_def,
          UInt32.le_iff_toNat_le] at hc'
        rw [UInt32.lt_iff_toNat_lt]
        rcases hc' with (⟨-, h⟩ | ⟨-, h⟩) | ⟨-, h⟩
        all_goals exact Nat.lt_of_le_of_lt h (by decide)
      obtain ⟨rest, hlower, hnil⟩ := hrules.lower (trim (scriptRef.getD "")).toList [] hhex
      rw [List.append_nil, String.ofList_toList, hnil rfl, List.append_nil] at hlower
      intro c hc
      rw [hlower, toList_ofList] at hc
      obtain ⟨d, hd, rfl⟩ := List.mem_map.mp hc
      have hlower : ∀ n < 128, (Char.ofNat n).toLower.toNat < 128 := by decide
      have hd' := hlower d.toNat (UInt32.lt_iff_toNat_lt.mp (hhex d hd))
      rwa [Char.ofNat_toNat] at hd'
    · unfold IsAscii
      decide
  rw [cfMonitorAgentScriptUrl]
  split_ifs
  · exact ((hrepository.append (isAscii_normalizeReleaseTag _)).append hslash).append hfile
  · exact (((hraw.append href).append hagent).append hslash).append hfile

end

/-! ## Arguments -/

/-- Arguments with names of the script, and the condition on their values. -/
structure NamedArgs (args : List String) (condition : Prop) : Prop where
  paired : Paired args
  names : ∀ arg ∈ pairsOf args, arg.1 ∈ windowsNames
  values : (∀ arg ∈ pairsOf args, hasNoCurlyQuote arg.2 = true) ↔ condition

theorem NamedArgs.append {p q : Prop} (ha : NamedArgs a p) (hb : NamedArgs b q) : NamedArgs (a ++ b) (p ∧ q) := by
  have hpairs := pairsOf_append ha.paired b
  refine ⟨ha.paired.append hb.paired, fun arg harg => ?_, ?_⟩
  · rw [hpairs] at harg
    exact (List.mem_append.mp harg).elim (ha.names arg) (hb.names arg)
  · rw [hpairs, ← ha.values, ← hb.values, List.forall_mem_append]

theorem namedArgs_pair (h : name ∈ windowsNames) (value : String) :
    NamedArgs [name, value] (hasNoCurlyQuote value = true) := by
  refine ⟨rfl, fun arg harg => ?_, ?_⟩
  · rw [List.mem_singleton.mp harg]
    exact h
  · have hpairs : pairsOf [name, value] = [(name, value)] := rfl
    rw [hpairs, List.forall_mem_singleton]

theorem NamedArgs.congr {p q : Prop} (h : NamedArgs args p) (hpq : p ↔ q) : NamedArgs args q :=
  ⟨h.paired, h.names, h.values.trans hpq⟩

theorem namedArgs_nil {condition : Prop} (h : condition) : NamedArgs [] condition :=
  ⟨rfl, nofun, fun _ => h, nofun⟩

theorem namedArgs_pushArg (h : name ∈ windowsNames) (value : String) :
    NamedArgs (pushArg name value) (hasNoCurlyQuote value = true) := by
  rw [pushArg]
  split_ifs with hvalue
  · exact namedArgs_pair h value
  · have hempty : value = "" := not_not.mp hvalue
    exact namedArgs_nil (by rw [hempty]; exact isAscii_empty.noCurlyQuote)

theorem windowsParts_values (url proxy : String) (args : List (String × String)) :
    (∀ part ∈ windowsParts url args proxy, PowerShell.hasNoCurlyQuote part.2 = true) ↔
      hasNoCurlyQuote url = true ∧ hasNoCurlyQuote proxy = true ∧ ∀ arg ∈ args, hasNoCurlyQuote arg.2 = true := by
  have hproxy : (∀ part ∈ (if proxy ≠ "" then [(powershellLoop.toList ++ " -Proxy ".toList, proxy.toList)] else []),
      PowerShell.hasNoCurlyQuote part.2 = true) ↔ hasNoCurlyQuote proxy = true := by
    split_ifs with h
    · rw [List.forall_mem_singleton]
      rfl
    · rw [not_not.mp h]
      exact iff_of_true nofun isAscii_empty.noCurlyQuote
  unfold windowsParts
  rw [cons_append, List.forall_mem_cons, List.forall_mem_append, hproxy]
  refine and_congr Iff.rfl (and_congr_right fun _ => ?_)
  cases args with
  | nil => exact iff_of_true nofun nofun
  | cons arg rest =>
    rw [List.forall_mem_cons, List.forall_mem_cons, List.forall_mem_map]
    rfl

theorem namedArgs_trim (h : name ∈ windowsNames) (text : String) :
    NamedArgs (pushArg name (trim text)) (hasNoCurlyQuote text = true) := by
  refine (namedArgs_pushArg h (trim text)).congr ?_
  rw [noCurlyQuote_trim]

theorem namedArgs_ascii (h : name ∈ windowsNames) {value : String} (hvalue : IsAscii value) :
    NamedArgs (pushArg name value) True :=
  (namedArgs_pushArg h value).congr (iff_true_intro hvalue.noCurlyQuote)

section

variable {rules : BackupRules}

/-- The texts of a request that go into the command as they are. -/
def InstallRequest.texts (i : InstallRequest) : List String := [
  i.serverUrl, i.token, i.nodeName.getD "", i.options.dir, i.options.serviceName, i.options.mountInclude, i.options.mountExclude,
  i.options.nicInclude, i.options.nicExclude]

theorem namedArgs_commonArgs (i : InstallRequest) : NamedArgs (i.commonArgs rules)
    (((hasNoCurlyQuote i.serverUrl = true ∧ hasNoCurlyQuote i.token = true) ∧ True) ∧
      hasNoCurlyQuote (i.nodeName.getD "") = true ∧ True) := by
  have htoken : hasNoCurlyQuote (if i.token ≠ "" then i.token else "<TOKEN>") = true ↔ hasNoCurlyQuote i.token = true := by
    split_ifs with h
    · exact Iff.rfl
    · rw [not_not.mp h]
      exact iff_of_true (by decide) isAscii_empty.noCurlyQuote
  have hday : NamedArgs (if i.trafficResetDay ≠ "1" then ["-r", i.trafficResetDay] else []) True := by
    split_ifs
    · exact (namedArgs_pair (by decide) _).congr (iff_true_intro (isAscii_trafficResetDay _).noCurlyQuote)
    · exact namedArgs_nil trivial
  have hid : NamedArgs ["-i", i.effectiveInstanceId rules] True :=
    (namedArgs_pair (by decide) _).congr (iff_true_intro (isAscii_normalizeInstanceId _).noCurlyQuote)
  have hfront := (namedArgs_pair (show "-s" ∈ windowsNames by decide) i.serverUrl).append
    ((namedArgs_pair (show "-t" ∈ windowsNames by decide) (if i.token ≠ "" then i.token else "<TOKEN>")).congr htoken)
  rw [InstallRequest.commonArgs, append_assoc (_ ++ _)]
  exact (hfront.append hday).append ((namedArgs_trim (by decide) _).append hid)

theorem namedArgs_windowsArgs (hrules : InstallRules rules) (i : InstallRequest) :
    NamedArgs (i.windowsArgs rules) (∀ text ∈ i.texts, hasNoCurlyQuote text = true) := by
  have htag : NamedArgs (i.tagArg rules "-ReleaseTag") True := by
    rw [InstallRequest.tagArg]
    split_ifs
    · exact (namedArgs_pair (by decide) _).congr (iff_true_intro (isAscii_normalizeReleaseTag _).noCurlyQuote)
    · exact namedArgs_nil trivial
  have hurls := isAscii_downloadUrls hrules i.options.binaryUrl i.options.checksumUrl
  have hbinary := namedArgs_ascii (show "-BinaryUrl" ∈ windowsNames by decide) hurls.1
  have hchecksum := namedArgs_ascii (show "-ChecksumUrl" ∈ windowsNames by decide) hurls.2
  have hghproxy := namedArgs_ascii (show "-InstallGhproxy" ∈ windowsNames by decide)
    (isAscii_normalizeProxyUrl hrules i.options.ghproxy true)
  have hproxy := namedArgs_ascii (show "-Proxy" ∈ windowsNames by decide)
    (isAscii_normalizeProxyUrl hrules i.options.downloadProxy false)
  have hdir := namedArgs_trim (show "-InstallDir" ∈ windowsNames by decide) i.options.dir
  have hservice := namedArgs_trim (show "-ServiceName" ∈ windowsNames by decide) i.options.serviceName
  have hmounts := (namedArgs_trim (show "-MountInclude" ∈ windowsNames by decide) i.options.mountInclude).append
    (namedArgs_trim (show "-MountExclude" ∈ windowsNames by decide) i.options.mountExclude)
  have hnics := (namedArgs_trim (show "-NicInclude" ∈ windowsNames by decide) i.options.nicInclude).append
    (namedArgs_trim (show "-NicExclude" ∈ windowsNames by decide) i.options.nicExclude)
  have hcommon : NamedArgs (i.commonArgs rules) _ := namedArgs_commonArgs i
  have hall := (hcommon.append (hbinary.append (hchecksum.append (htag.append (hghproxy.append
    (hproxy.append (hdir.append (hservice.append (hmounts.append hnics)))))))))
  rw [InstallRequest.windowsArgs]
  simp only [append_assoc] at hall ⊢
  refine hall.congr ?_
  simp only [InstallRequest.texts, List.forall_mem_cons, and_true]
  tauto

/-- **Arguments as they are**: for the shell always, for PowerShell exactly if no text has one of the quotes
    U+2018 to U+201B, which end its literals too. -/
theorem install_command_iff (hrules : InstallRules rules) (i : InstallRequest) :
    (PosixShell.commands (buildAgentInstallCommand rules .unix i).toList
        = some (unixCommands (cfMonitorAgentScriptUrl rules "install.sh" i.releaseTag i.options.scriptRef) (i.unixArgs rules)
            (i.downloadProxy rules)) ∧
      (decodedCommand (buildAgentInstallCommand rules .windows i)).bind PowerShell.tokens
        = some (windowsTokens (cfMonitorAgentScriptUrl rules "install-windows.ps1" i.releaseTag i.options.scriptRef)
            (i.windowsArgs rules) (i.downloadProxy rules))) ↔
      ∀ text ∈ i.texts, hasNoCurlyQuote text = true := by
  have hunix := unix_commands (cfMonitorAgentScriptUrl rules "install.sh" i.releaseTag i.options.scriptRef)
    (show i.unixArgs rules ≠ [] from List.cons_ne_nil _ _) (i.downloadProxy rules)
  have hargs := namedArgs_windowsArgs hrules i
  have hfile : IsAscii "install-windows.ps1" := by
    unfold IsAscii
    decide
  have hurl := (isAscii_scriptUrl hrules hfile i.releaseTag i.options.scriptRef).noCurlyQuote
  have hproxy := (isAscii_normalizeProxyUrl hrules i.options.downloadProxy false).noCurlyQuote
  have hwindows := windows_tokens_iff hargs.paired (show i.windowsArgs rules ≠ [] from List.cons_ne_nil _ _) hargs.names
    (cfMonitorAgentScriptUrl rules "install-windows.ps1" i.releaseTag i.options.scriptRef) (i.downloadProxy rules)
  rw [windowsParts_values, hargs.values] at hwindows
  rw [buildAgentInstallCommand, buildAgentInstallCommand]
  exact ⟨fun h => (hwindows.mp h.2).2.2, fun h => ⟨hunix, hwindows.mpr ⟨hurl, hproxy, h⟩⟩⟩

end

section

open CfMonitor.Live

/-- Rules for fixed inputs: one address, and ASCII in lower case. -/
def mirrorRules : BackupRules :=
  { outboxRules with
    numberOf := fun _ => none
    compactLiveReport := fun report => report
    parseUrl := fun text =>
      if text = "https://mirror.example" then
        some ⟨"https:", "", "", "mirror.example", "", "/", "", "", "https://mirror.example/", "https://mirror.example"⟩
      else none
    parseJson := fun _ => none
    lower := fun text => String.ofList (text.toList.map Char.toLower)
    hashAgentToken := fun _ => "" }

theorem mirrorRules_install : InstallRules mirrorRules where
  url := by
    intro text u h _
    have hparse : (if text = "https://mirror.example" then
        some (⟨"https:", "", "", "mirror.example", "", "/", "", "", "https://mirror.example/", "https://mirror.example"⟩ : Url)
      else none) = some u := h
    split_ifs at hparse
    cases hparse
    unfold IsAscii
    decide
  lower := fun front rest _ => ⟨rest.map Char.toLower, by
    have hlower : mirrorRules.lower (String.ofList (front ++ rest)) = String.ofList ((String.ofList (front ++ rest)).toList.map Char.toLower) := rfl
    rw [hlower, toList_ofList, List.map_append], fun h => by rw [h]; rfl⟩

/-- A request for a node, through a mirror. -/
def namedRequest (nodeName : String) : InstallRequest :=
  ⟨"https://monitor.example", "secret", { defaultAgentInstallOptions with ghproxy := "https://mirror.example" }, none, some nodeName⟩

/-- A node whose name has a quote and a command. -/
theorem install_command_quoted :
    PosixShell.commands (buildAgentInstallCommand mirrorRules .unix (namedRequest "it's; $(reboot)")).toList
        = some (unixCommands (cfMonitorAgentScriptUrl mirrorRules "install.sh" "" (some "")) ["-s", "https://monitor.example", "-t",
            "secret", "-n", "it's; $(reboot)", "-i", "it-s-reboot", "--install-ghproxy", "https://mirror.example"] "") ∧
      (decodedCommand (buildAgentInstallCommand mirrorRules .windows (namedRequest "it's; $(reboot)"))).bind PowerShell.tokens
        = some (windowsTokens (cfMonitorAgentScriptUrl mirrorRules "install-windows.ps1" "" (some "")) ["-s",
            "https://monitor.example", "-t", "secret", "-n", "it's; $(reboot)", "-i", "it-s-reboot", "-InstallGhproxy",
            "https://mirror.example"] "") := by
  have hread := (install_command_iff mirrorRules_install (namedRequest "it's; $(reboot)")).mpr (by decide)
  have hunix : (namedRequest "it's; $(reboot)").unixArgs mirrorRules = ["-s", "https://monitor.example", "-t", "secret", "-n",
      "it's; $(reboot)", "-i", "it-s-reboot", "--install-ghproxy", "https://mirror.example"] := by decide +kernel
  have hwindows : (namedRequest "it's; $(reboot)").windowsArgs mirrorRules = ["-s", "https://monitor.example", "-t", "secret", "-n",
      "it's; $(reboot)", "-i", "it-s-reboot", "-InstallGhproxy", "https://mirror.example"] := by decide +kernel
  have hproxy : (namedRequest "it's; $(reboot)").downloadProxy mirrorRules = "" := by decide +kernel
  have htag : (namedRequest "it's; $(reboot)").releaseTag = "" := by decide +kernel
  rw [hunix, hwindows, hproxy, htag] at hread
  exact hread

/-- **A node name can start a command**: a quote that is not doubled ends the literal of the name. -/
theorem curly_quote_ends_literal :
    ¬ (decodedCommand (buildAgentInstallCommand mirrorRules .windows (namedRequest "a’; calc; ‘"))).bind PowerShell.tokens
        = some (windowsTokens (cfMonitorAgentScriptUrl mirrorRules "install-windows.ps1" "" (some ""))
            ((namedRequest "a’; calc; ‘").windowsArgs mirrorRules) "") ∧
      PowerShell.tokens (psQuote "a’; calc; ‘").toList = some ([.literal ['a']] ++ "; calc; ".toList.map .char ++ [.literal []]) := by
  have hargs := namedArgs_windowsArgs mirrorRules_install (namedRequest "a’; calc; ‘")
  have hwindows := windows_tokens_iff hargs.paired (List.cons_ne_nil _ _) hargs.names
    (cfMonitorAgentScriptUrl mirrorRules "install-windows.ps1" "" (some "")) ""
  refine ⟨fun h => ?_, by decide⟩
  have hvalues := hwindows.mp h
  rw [windowsParts_values, hargs.values] at hvalues
  exact absurd hvalues.2.2 (by decide)

end

end CfMonitor.Frontend
