/-
  Multi-factor credentials (`cfm_consume_mfa_factor`, `cfm_enable_user_totp`,
  `cfm_disable_user_totp`, `cfm_replace_user_recovery_codes`, the session rotations).

  1. **Data** — of a row of `users` the columns these functions read; for each account its receipts of
     `mfa_factor_receipts`.  Recovery code hashes are a JSON array; `?` and `-` see its texts.

  2. **Program** — a call is one transaction that holds the row lock of its account, with the clock
     of its start.  Clocks of successive calls are in no order.

  3. **History** — `log` has the enrolments, the new lists of codes and the consumed factors, newest
     first.
-/
import CfMonitor.Lib.Directory
import CfMonitor.Lib.Json
import CfMonitor.Lib.Machine
import Mathlib.Data.String.Basic

namespace CfMonitor.Auth

open CfMonitor.Lib

/-! ## Data -/

/-- A row of `users`. -/
structure User where
  sessionVersion : Int
  totpSecretEnc : Option String
  totpEnabledAt : Option Int
  totpLastUsedStep : Int
  recoveryCodeHashes : List Json

/-- A row of `mfa_factor_receipts`. -/
structure Receipt where
  operationId : String
  factorKey : String
  sessionVersion : Int
  verifiedAt : Int
  expiresAt : Int

/-- What was used up. -/
inductive Factor where
  | step (step : Int)
  | code (hash : String)

/-- What happened to the factors of an account. -/
inductive MfaEntry where
  | enrolled (usedStep : Int) (codes : List Json)
  | replaced (codes : List Json)
  | consumed (operationId factorKey : String) (sessionVersion : Int) (factor : Factor) (verifiedAt : Int)

/-- An account with its receipts and its history. -/
structure Account where
  row : User
  receipts : List Receipt
  log : List MfaEntry

/-- The arguments of `cfm_consume_mfa_factor`. -/
structure FactorCall where
  sessionVersion : Option Int
  operationId : Option String
  factorKey : Option String
  method : Option String
  step : Option Int
  codeHashes : Option Json

/-! ## The arguments of a call -/

inductive FactorMethod where
  | totp
  | recoveryCode

/-- `input_method in ('totp', 'recovery_code')`. -/
def FactorMethod.ofText : Option String → Option FactorMethod
  | some "totp" => some .totp
  | some "recovery_code" => some .recoveryCode
  | _ => none

def isHexDigit (c : Char) : Bool := ('0' ≤ c && c ≤ '9') || ('a' ≤ c && c ≤ 'f')

def isBase64Url (c : Char) : Bool :=
  ('A' ≤ c && c ≤ 'Z') || ('a' ≤ c && c ≤ 'z') || ('0' ≤ c && c ≤ '9') || c == '_' || c == '-'

/-- `^[a-f0-9]{64}$`. -/
def isDigest (s : String) : Bool := s.toList.length == 64 && s.toList.all isHexDigit

/-- `^[A-Za-z0-9_-]{43}$`. -/
def isPlainHash (cs : List Char) : Bool := cs.length == 43 && cs.all isBase64Url

/-- `^(v2\.[a-f0-9]{16}\.)?[A-Za-z0-9_-]{43}$`. -/
def isCodeHash (s : String) : Bool :=
  isPlainHash s.toList ||
  (s.toList.take 3 == ['v', '2', '.'] && ((s.toList.drop 3).take 16).all isHexDigit &&
    (s.toList.drop 19).take 1 == ['.'] && isPlainHash (s.toList.drop 20))

/-- The texts of a list of candidate hashes, if it has one to four elements and all are hashes. -/
def candidates : Option Json → Option (List String)
  | some (.arr items) =>
    if 1 ≤ items.length ∧ items.length ≤ 4 then
      items.mapM fun item => match item with
        | .str s => if isCodeHash s then some s else none
        | _ => none
    else none
  | _ => none

/-- What a call asks for. -/
inductive FactorInput where
  | totp (step : Option Int)
  | recoveryCode (hashes : List String)

/-- A call whose arguments have passed the checks. -/
structure ValidCall where
  sessionVersion : Int
  operationId : String
  factorKey : String
  input : FactorInput

/-- The checks before the row is read. -/
def FactorCall.validate (call : FactorCall) : Option ValidCall := do
  let operationId := call.operationId.getD ""
  let factorKey := call.factorKey.getD ""
  if !isDigest operationId || !isDigest factorKey then none
  let method ← FactorMethod.ofText call.method
  let sessionVersion ← call.sessionVersion
  if sessionVersion < 1 then none
  match method with
  | .totp => some ⟨sessionVersion, operationId, factorKey, .totp call.step⟩
  | .recoveryCode =>
    (candidates call.codeHashes).map fun hashes =>
      ⟨sessionVersion, operationId, factorKey, .recoveryCode hashes⟩

/-! ## Consuming a factor -/

/-- Whether a JSON value is this text. -/
def isText (hash : String) : Json → Bool
  | .str s => s == hash
  | _ => false

/-- `codes ? hash`. -/
def hasCode (codes : List Json) (hash : String) : Bool := codes.any (isText hash)

/-- `codes - hash`: every element with this text goes. -/
def removeCode (codes : List Json) (hash : String) : List Json := codes.filter fun code => !isText hash code

/-- Use up a factor of a row, if the call names one that is left. -/
def User.useFactor (row : User) : FactorInput → Option (User × Factor)
  | .totp none => none
  | .totp (some step) =>
    if step < 0 ∨ step ≤ row.totpLastUsedStep then none
    else some ({ row with totpLastUsedStep := step }, .step step)
  | .recoveryCode hashes =>
    match hashes.find? (hasCode row.recoveryCodeHashes) with
    | none => none
    | some hash =>
      some ({ row with recoveryCodeHashes := removeCode row.recoveryCodeHashes hash }, .code hash)

/-- Five minutes, in microseconds. -/
def receiptLifetime : Int := 300000000

/-- `cfm_consume_mfa_factor` on the account it names, and the `verified_at` that it returns with
    `verified`. -/
def consumeMfaFactor (a : Account) (call : FactorCall) (now : Int) : Account × Option Int :=
  match call.validate with
  | none => (a, none)
  | some v =>
    if a.row.sessionVersion ≠ v.sessionVersion ∨ a.row.totpEnabledAt = none ∨ a.row.totpSecretEnc = none
    then (a, none)
    else
      let receipts := a.receipts.filter fun r => decide (now < r.expiresAt)
      match receipts.find? fun r => r.operationId == v.operationId with
      | some receipt =>
        ({ a with receipts := receipts },
          if receipt.sessionVersion = v.sessionVersion ∧ receipt.factorKey = v.factorKey then
            some receipt.verifiedAt
          else none)
      | none =>
        match a.row.useFactor v.input with
        | none => ({ a with receipts := receipts }, none)
        | some (row, factor) =>
          ({ row := row
             receipts := receipts ++
               [⟨v.operationId, v.factorKey, v.sessionVersion, now, now + receiptLifetime⟩]
             log := .consumed v.operationId v.factorKey v.sessionVersion factor now :: a.log },
            some now)

/-! ## The other functions -/

/-- `nullif(trim(coalesce(text, '')), '') is null`. -/
def isBlank (s : String) : Bool := s.toList.all fun c => c == ' '

/-- `cfm_enable_user_totp`: none when it raises an exception. -/
def enableUserTotp (uuid : String) (a : Account) (secretEnc : String) (codes : List Json)
    (usedStep now : Int) : Option Account :=
  if isBlank uuid ∨ isBlank secretEnc ∨ usedStep < 0 ∨ codes.length ≠ 8 then none
  else some { a with
    row := ⟨a.row.sessionVersion + 1, some secretEnc, some now, usedStep, codes⟩
    log := .enrolled usedStep codes :: a.log }

/-- `cfm_disable_user_totp`. -/
def disableUserTotp (a : Account) : Account :=
  { a with row := ⟨a.row.sessionVersion + 1, none, none, -1, []⟩ }

/-- `cfm_replace_user_recovery_codes`: none when it raises an exception. -/
def replaceUserRecoveryCodes (a : Account) (codes : List Json) : Option Account :=
  if codes.length ≠ 8 then none
  else if a.row.totpEnabledAt = none then some a
  else some { a with
    row := { a.row with sessionVersion := a.row.sessionVersion + 1, recoveryCodeHashes := codes }
    log := .replaced codes :: a.log }

/-- The password, the username or the session is rotated. -/
def rotateUserSession (a : Account) : Account :=
  { a with row := { a.row with sessionVersion := a.row.sessionVersion + 1 } }

/-- `cfm_reencrypt_totp_secret`, when it applies. -/
def reencryptTotpSecret (a : Account) (expected secretEnc : String) : Account :=
  if a.row.totpSecretEnc = some expected ∧ a.row.totpEnabledAt ≠ none then
    { a with row := { a.row with totpSecretEnc := some secretEnc } }
  else a

/-! ## The accounts as a machine -/

/-- What is called next, for an account. -/
inductive MfaEvent where
  | consume (call : FactorCall) (now : Int)
  | enable (secretEnc : String) (codes : List Json) (usedStep now : Int)
  | disable
  | replaceCodes (codes : List Json)
  | rotate
  | reencrypt (expected secretEnc : String)

/-- A call on an account. -/
def Account.step (uuid : String) (a : Account) : MfaEvent → Option Account
  | .consume call now => some (consumeMfaFactor a call now).1
  | .enable secretEnc codes usedStep now => enableUserTotp uuid a secretEnc codes usedStep now
  | .disable => some (disableUserTotp a)
  | .replaceCodes codes => replaceUserRecoveryCodes a codes
  | .rotate => some (rotateUserSession a)
  | .reencrypt expected secretEnc => some (reencryptTotpSecret a expected secretEnc)

/-- One call: an unknown account is left alone. -/
def mfaStep (w : Directory String Account) (e : String × MfaEvent) : Option (Directory String Account) :=
  match w.get? e.1 with
  | none => some w
  | some a => (a.step e.1 e.2).map (w.put e.1)

/-- The accounts as a machine. -/
def mfaMachine : Machine (Directory String Account) (String × MfaEvent) := ⟨mfaStep⟩

/-- Any accounts, without receipts. -/
def mfaStart (users : Directory String User) : Directory String Account :=
  ⟨users.entries.map fun p => (p.1, ⟨p.2, [], []⟩), List.pairwise_map.mpr users.sorted⟩

end CfMonitor.Auth
