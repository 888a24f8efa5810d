/-
  Keys of second factors and their rotation (`mfa.ts`).

  1. **Platform** — SHA-256, HKDF, AES-GCM, HMAC, `toUpperCase` and `TextDecoder` are parameters.  They
     are ideal (`MfaCrypto.Ideal`): a ciphertext opens with its own key, nonce and additional data only.

  2. **Program** — data is written with the current key and its id, or, where none is configured, with
     the legacy key.

  3. **Result** — who can use what was written (`mfa_rotation`).
-/
import CfMonitor.Auth.ViewerTokens

namespace CfMonitor.Auth

open CfMonitor.Lib

/-! ## Data -/

structure MfaEnv where
  JWT_SECRET : Option String
  MFA_SECRET : Option String
  MFA_PREVIOUS_SECRET : Option String
  MFA_LEGACY_SECRET : Option String

/-- `MfaConfigurationError`, `AuthConfigurationError` and a code of a wrong form. -/
inductive MfaError where
  | configuration
  | jwtSecret
  | recoveryCode
  deriving DecidableEq

inductive MfaVersion where
  | v1
  | v2
  deriving DecidableEq

/-- A data key with its id. -/
structure DataKey where
  id : List Char
  secret : String
  deriving DecidableEq

/-- The platform. -/
structure MfaCrypto (Key : Type) where
  upper : String → String
  /-- The bytes of SHA-256. -/
  digest : List UInt8 → List UInt8
  /-- HKDF of a secret, with a salt and an info. -/
  deriveKey : List UInt8 → List UInt8 → List UInt8 → Key
  /-- AES-GCM with a nonce, additional data and a plaintext. -/
  encrypt : Key → List UInt8 → List UInt8 → List UInt8 → List UInt8
  decrypt : Key → List UInt8 → List UInt8 → List UInt8 → Option (List UInt8)
  /-- HMAC. -/
  sign : Key → List UInt8 → List UInt8
  /-- `TextDecoder`. -/
  decode : List UInt8 → String

/-- `new TextEncoder().encode(text)`. -/
def encodeString (text : String) : List UInt8 := encodeText text.toList

/-! ## Keys -/

def configuredKey (value : Option String) : Except MfaError (Option String) :=
  match value with
  | none => .ok none
  | some value =>
    if value = "" then .ok none
    else
      let key := trim value
      if (encodeString key).length < 32 then .error .configuration else .ok (some key)

def requireJwtSecret (env : MfaEnv) : Except MfaError String :=
  let secret := (env.JWT_SECRET.map trim).getD ""
  if (encodeString secret).length < 32 then .error .jwtSecret else .ok secret

def legacyKey (env : MfaEnv) : Except MfaError String := do
  match ← configuredKey env.MFA_LEGACY_SECRET with
  | some key => pure key
  | none => requireJwtSecret env

/-- `byte.toString(16).padStart(2, '0')`. -/
def byteHex (byte : UInt8) : List Char := [Nat.digitChar (byte.toNat / 16), Nat.digitChar (byte.toNat % 16)]

section

variable {Key : Type} (crypto : MfaCrypto Key)

def keyId (secret : String) : List Char := ((crypto.digest (encodeString secret)).take 8).flatMap byteHex

def independentKeys (env : MfaEnv) : Except MfaError (List DataKey) := do
  let current ← configuredKey env.MFA_SECRET
  let previous ← configuredKey env.MFA_PREVIOUS_SECRET
  if previous.isSome && current.isNone then throw .configuration
  pure (([current, previous].filterMap id).eraseDups.map fun secret => ⟨keyId crypto secret, secret⟩)

def MFA_KDF_SALT : List UInt8 := encodeString "cf-vps-monitor/mfa-key/v1"

def MFA_V2_KDF_SALT : List UInt8 := encodeString "cf-vps-monitor/mfa-key/v2"

def deriveKey (secret : String) (version : MfaVersion) (info : String) : Key :=
  crypto.deriveKey (encodeString secret) (if version = .v2 then MFA_V2_KDF_SALT else MFA_KDF_SALT) (encodeString info)

/-! ## TOTP secrets -/

/-- What is authenticated with a secret of a user. -/
def additionalData (tag : Option (List Char)) (userId : String) : List UInt8 :=
  match tag with
  | some tag => encodeText (tag ++ ':' :: userId.toList)
  | none => encodeString userId

def encryptTotpSecret (secret userId : String) (env : MfaEnv) (iv : Vector UInt8 12) : Except MfaError (List Char) := do
  let current := (← independentKeys crypto env).head?
  let (tag, version, material) ← match current with
    | some current => pure ('v' :: '2' :: '.' :: current.id, MfaVersion.v2, current.secret)
    | none => pure (['v', '1'], MfaVersion.v1, ← legacyKey env)
  let key := deriveKey crypto material version "totp-secret-encryption"
  let ciphertext := crypto.encrypt key iv.toList (additionalData (current.map fun _ => tag) userId) (encodeString secret)
  pure (tag ++ '.' :: bytesToBase64Url iv.toList ++ '.' :: bytesToBase64Url ciphertext)

/-- `/^[a-f0-9]{16}$/`. -/
def isKeyId (text : List Char) : Bool := text.length == 16 && text.all fun c => c.isDigit || ('a' ≤ c && c ≤ 'f')

/-- The end of `decryptTotpSecret`, from the key on. -/
def openTotpSecret (secret : String) (version : MfaVersion) (ivText dataText : List Char) (aad : List UInt8) :
    Except MfaError String :=
  if ivText = [] ∨ dataText = [] then .error .configuration
  else match base64UrlToBytes ivText with
    | none => .error .configuration
    | some iv =>
      if iv.length ≠ 12 then .error .configuration
      else
        let key := deriveKey crypto secret version "totp-secret-encryption"
        match (base64UrlToBytes dataText).bind (crypto.decrypt key iv aad) with
        | none => .error .configuration
        | some plaintext => .ok (crypto.decode plaintext)

def decryptTotpSecret (ciphertext : List Char) (userId : String) (env : MfaEnv) : Except MfaError String :=
  match ciphertext.splitOn '.' with
  | [['v', '1'], ivText, dataText] => do
    let secret ← legacyKey env
    openTotpSecret crypto secret .v1 ivText dataText (additionalData none userId)
  | [['v', '2'], id, ivText, dataText] =>
    if isKeyId id then do
      match (← independentKeys crypto env).find? fun key => key.id == id with
      | none => throw .configuration
      | some selected =>
        openTotpSecret crypto selected.secret .v2 ivText dataText
          (additionalData (some ('v' :: '2' :: '.' :: selected.id)) userId)
    else .error .configuration
  | _ => .error .configuration

def needsTotpReencryption (ciphertext : List Char) (env : MfaEnv) : Except MfaError Bool := do
  match (← independentKeys crypto env).head? with
  | none => pure false
  | some current => pure (!('v' :: '2' :: '.' :: current.id ++ ['.']).isPrefixOf ciphertext)

/-! ## Recovery codes -/

/-- `[A-Z2-7]`. -/
def isBase32 (c : Char) : Bool := ('A' ≤ c && c ≤ 'Z') || ('2' ≤ c && c ≤ '7')

def normalizeRecoveryCode (value : String) : Except MfaError (List Char) :=
  let normalized := (crypto.upper (trim value)).toList.filter fun c => !(isTrimmed c || c == '-')
  if normalized.length = 24 ∧ normalized.all isBase32 = true then .ok normalized else .error .recoveryCode

def recoveryHash (normalized : List Char) (secret : String) (id : Option (List Char)) : List Char :=
  let key := deriveKey crypto secret (if id.isSome then .v2 else .v1) "totp-recovery-code-hmac"
  let digest := bytesToBase64Url (crypto.sign key (encodeText normalized))
  match id with
  | some id => 'v' :: '2' :: '.' :: id ++ '.' :: digest
  | none => digest

def hashRecoveryCode (code : String) (env : MfaEnv) : Except MfaError (List Char) := do
  let normalized ← normalizeRecoveryCode crypto code
  match (← independentKeys crypto env).head? with
  | some current => pure (recoveryHash crypto normalized current.secret (some current.id))
  | none => pure (recoveryHash crypto normalized (← legacyKey env) none)

def hashRecoveryCodeCandidates (code : String) (env : MfaEnv) : Except MfaError (List (List Char)) := do
  let normalized ← normalizeRecoveryCode crypto code
  let keys ← independentKeys crypto env
  let hashes := keys.map fun key => recoveryHash crypto normalized key.secret (some key.id)
  let legacy ← legacyKey env
  pure (hashes ++ [recoveryHash crypto normalized legacy none]).eraseDups

/-! ## Ideal functions -/

/-- What is assumed of the platform: AES-GCM is authenticated, HKDF and HMAC have no collisions, and a
    text without a byte order mark is decoded again. -/
structure MfaCrypto.Ideal : Prop where
  digest : ∀ bytes, 8 ≤ (crypto.digest bytes).length
  derive : ∀ {secret salt info secret' salt' info'},
    crypto.deriveKey secret salt info = crypto.deriveKey secret' salt' info' → secret = secret' ∧ salt = salt' ∧ info = info'
  opens : ∀ key iv aad plaintext, crypto.decrypt key iv aad (crypto.encrypt key iv aad plaintext) = some plaintext
  authentic : ∀ {key iv aad plaintext key' iv' aad' plaintext'},
    crypto.decrypt key' iv' aad' (crypto.encrypt key iv aad plaintext) = some plaintext' → key' = key ∧ iv' = iv ∧ aad' = aad
  tagged : ∀ key iv aad plaintext, crypto.encrypt key iv aad plaintext ≠ []
  sign : ∀ {key text key' text'}, crypto.sign key text = crypto.sign key' text' → key = key' ∧ text = text'
  decode : ∀ text : String, text.toList.head? ≠ some '\uFEFF' → crypto.decode (encodeString text) = text

/-- One of the data keys of an environment. -/
def MfaEnv.HasKey (env : MfaEnv) (key : String) : Prop :=
  configuredKey env.MFA_SECRET = .ok (some key) ∨ configuredKey env.MFA_PREVIOUS_SECRET = .ok (some key)

/-- The keys of an environment can be used. -/
def MfaEnv.Admissible (env : MfaEnv) : Prop :=
  (∃ keys, independentKeys crypto env = .ok keys) ∧ ∃ legacy, legacyKey env = .ok legacy

/-- The data keys of two environments have ids of their own. -/
def KeyIdsDiffer (env env' : MfaEnv) : Prop :=
  ∀ key key', env.HasKey key ∨ env'.HasKey key → env.HasKey key' ∨ env'.HasKey key' → keyId crypto key = keyId crypto key' → key = key'

/-- An environment has the key that another one writes with. -/
def MfaEnv.Reads (env writer : MfaEnv) : Prop :=
  (∃ key, configuredKey writer.MFA_SECRET = .ok (some key) ∧ env.HasKey key) ∨
    (configuredKey writer.MFA_SECRET = .ok none ∧ legacyKey env = legacyKey writer)

end

theorem encodeText_injective {a b : List Char} (h : encodeText a = encodeText b) : a = b := by
  have harrays := ByteArray.ext (Array.toList_inj.mp h)
  exact String.ofList_injective (String.toByteArray_inj.mp harrays)

theorem encodeString_injective {a b : String} (h : encodeString a = encodeString b) : a = b :=
  String.toList_inj.mp (encodeText_injective h)

section

variable {Key : Type} {crypto : MfaCrypto Key}

/-! ## The keys of an environment -/

variable {env : MfaEnv}

theorem independentKeys_ok {keys : List DataKey} (h : independentKeys crypto env = .ok keys) :
    ∃ current previous, configuredKey env.MFA_SECRET = .ok current ∧
      configuredKey env.MFA_PREVIOUS_SECRET = .ok previous ∧ (current = none → previous = none) ∧
      ([current, previous].filterMap id).eraseDups.map (fun secret => ⟨keyId crypto secret, secret⟩) = keys := by
  rw [independentKeys] at h
  cases hcurrent : configuredKey env.MFA_SECRET with
  | error e =>
    rw [hcurrent] at h
    simp [bind, Except.bind] at h
  | ok current =>
    cases hprevious : configuredKey env.MFA_PREVIOUS_SECRET with
    | error e =>
      rw [hcurrent, hprevious] at h
      simp [bind, Except.bind] at h
    | ok previous =>
      rw [hcurrent, hprevious] at h
      refine ⟨current, previous, rfl, rfl, ?_⟩
      cases current with
      | none =>
        cases previous with
        | none => exact ⟨fun _ => rfl, Except.ok.inj h⟩
        | some key => simp [bind, Except.bind, throw, throwThe, MonadExceptOf.throw] at h
      | some key => exact ⟨nofun, by simpa [bind, Except.bind, pure, Except.pure] using h⟩

theorem independentKeys_cases {keys : List DataKey} (h : independentKeys crypto env = .ok keys) :
    (configuredKey env.MFA_SECRET = .ok none ∧ keys = []) ∨
      ∃ key, configuredKey env.MFA_SECRET = .ok (some key) ∧ keys.head? = some ⟨keyId crypto key, key⟩ := by
  obtain ⟨current, previous, hcurrent, -, hnone, rfl⟩ := independentKeys_ok h
  cases current with
  | none =>
    rw [hnone rfl]
    exact .inl ⟨hcurrent, rfl⟩
  | some key =>
    refine .inr ⟨key, hcurrent, ?_⟩
    cases previous <;> simp [List.eraseDups_cons]

theorem mem_independentKeys {keys : List DataKey} (h : independentKeys crypto env = .ok keys) (d : DataKey) :
    d ∈ keys ↔ ∃ key, env.HasKey key ∧ d = ⟨keyId crypto key, key⟩ := by
  obtain ⟨current, previous, hcurrent, hprevious, -, rfl⟩ := independentKeys_ok h
  have hhas : ∀ key, key ∈ ([current, previous].filterMap id).eraseDups ↔ env.HasKey key := by
    intro key
    rw [List.mem_eraseDups, MfaEnv.HasKey, hcurrent, hprevious]
    simp [eq_comm]
  simp only [List.mem_map, hhas, eq_comm]

/-- **A key is found by its id** exactly if the environment has it. -/
theorem find_keyId {env' : MfaEnv} (hids : KeyIdsDiffer crypto env env') {keys : List DataKey}
    (h : independentKeys crypto env' = .ok keys) {key : String} (hkey : env.HasKey key) :
    (env'.HasKey key → keys.find? (fun d => d.id == keyId crypto key) = some ⟨keyId crypto key, key⟩) ∧
      (¬ env'.HasKey key → keys.find? (fun d => d.id == keyId crypto key) = none) := by
  have hsame : ∀ d ∈ keys, (d.id == keyId crypto key) = true → d = ⟨keyId crypto key, key⟩ ∧ env'.HasKey key := by
    intro d hd hid
    obtain ⟨key', hkey', rfl⟩ := (mem_independentKeys h d).mp hd
    obtain rfl := hids key' key (.inr hkey') (.inl hkey) (beq_iff_eq.mp hid)
    exact ⟨rfl, hkey'⟩
  refine ⟨fun hhas => ?_, fun hnot => ?_⟩
  · have hmem := (mem_independentKeys h ⟨keyId crypto key, key⟩).mpr ⟨key, hhas, rfl⟩
    cases hfind : keys.find? (fun d => d.id == keyId crypto key) with
    | none => exact absurd (List.find?_eq_none.mp hfind _ hmem) (by simp)
    | some d => rw [(hsame d (List.mem_of_find?_eq_some hfind) (List.find?_some (p := fun d : DataKey => d.id == keyId crypto key) hfind)).1]
  · rw [List.find?_eq_none]
    exact fun d hd hid => hnot (hsame d hd hid).2

theorem keyId_form (hideal : crypto.Ideal) (secret : String) : isKeyId (keyId crypto secret) = true ∧ '.' ∉ keyId crypto secret := by
  have hbyte : ∀ n : Fin 256, ∀ c ∈ [Nat.digitChar (n.val / 16), Nat.digitChar (n.val % 16)],
      (c.isDigit || ('a' ≤ c && c ≤ 'f')) = true ∧ c ≠ '.' := by decide +kernel
  have hchar : ∀ c ∈ keyId crypto secret, (c.isDigit || ('a' ≤ c && c ≤ 'f')) = true ∧ c ≠ '.' := by
    intro c hc
    obtain ⟨b, -, hb⟩ := List.mem_flatMap.mp hc
    exact hbyte ⟨b.toNat, b.toNat_lt⟩ c hb
  have hlength : (keyId crypto secret).length = 16 := by
    have hdigest := hideal.digest (encodeString secret)
    simp only [keyId, byteHex, List.length_flatMap, List.length_cons, List.length_nil, List.map_const', List.sum_replicate_nat,
      List.length_take]
    omega
  refine ⟨?_, fun hdot => (hchar '.' hdot).2 rfl⟩
  rw [isKeyId, hlength, Bool.and_eq_true, List.all_eq_true]
  exact ⟨rfl, fun c hc => (hchar c hc).1⟩

/-! ## TOTP secrets -/

variable {secret secret' : String}

theorem deriveKey_injective (hideal : crypto.Ideal) {version : MfaVersion} {info info' : String}
    (h : deriveKey crypto secret version info = deriveKey crypto secret' version info') : secret = secret' :=
  encodeString_injective (hideal.derive h).1

/-- **A ciphertext opens** with its own key and additional data. -/
theorem openTotpSecret_same (hideal : crypto.Ideal) {text : String} (htext : text.toList.head? ≠ some '\uFEFF')
    (version : MfaVersion) (iv : Vector UInt8 12) (aad : List UInt8) :
    openTotpSecret crypto secret version (bytesToBase64Url iv.toList)
      (bytesToBase64Url (crypto.encrypt (deriveKey crypto secret version "totp-secret-encryption") iv.toList aad (encodeString text)))
      aad = .ok text := by
  have hne : ∀ bytes : List UInt8, bytes ≠ [] → bytesToBase64Url bytes ≠ [] := by
    intro bytes hbytes hempty
    have hback := base64UrlToBytes_bytesToBase64Url bytes
    rw [hempty] at hback
    exact hbytes (Option.some.inj hback).symm
  have hiv : iv.toList ≠ [] := fun hempty => by
    have hlength := iv.length_toList
    rw [hempty] at hlength
    cases hlength
  rw [openTotpSecret, if_neg (not_or.mpr ⟨hne _ hiv, hne _ (hideal.tagged _ _ _ _)⟩), base64UrlToBytes_bytesToBase64Url]
  simp only
  rw [if_neg (by simp), base64UrlToBytes_bytesToBase64Url, Option.bind_some, hideal.opens]
  simp only
  rw [hideal.decode text htext]

theorem openTotpSecret_other (hideal : crypto.Ideal) {text : String} {version : MfaVersion}
    {iv : Vector UInt8 12} {aad aad' : List UInt8} (h : secret' ≠ secret ∨ aad' ≠ aad) :
    openTotpSecret crypto secret' version (bytesToBase64Url iv.toList)
      (bytesToBase64Url (crypto.encrypt (deriveKey crypto secret version "totp-secret-encryption") iv.toList aad (encodeString text)))
      aad' = .error .configuration := by
  rw [openTotpSecret]
  split_ifs with hempty
  · rfl
  · rw [base64UrlToBytes_bytesToBase64Url]
    simp only
    rw [if_neg (by simp), base64UrlToBytes_bytesToBase64Url, Option.bind_some]
    cases hopen : crypto.decrypt (deriveKey crypto secret' version "totp-secret-encryption") iv.toList aad'
        (crypto.encrypt (deriveKey crypto secret version "totp-secret-encryption") iv.toList aad (encodeString text)) with
    | none => rfl
    | some plaintext =>
      obtain ⟨hkey, -, haad⟩ := hideal.authentic hopen
      exact (h.elim (fun hne => hne (deriveKey_injective hideal hkey)) fun hne => hne haad).elim

/-- What an environment writes: with its current key, or with its legacy key. -/
theorem encryptTotpSecret_cases {legacy : String} {keys : List DataKey}
    (hkeys : independentKeys crypto env = .ok keys) (hlegacy : legacyKey env = .ok legacy) (secret userId : String)
    (iv : Vector UInt8 12) :
    (configuredKey env.MFA_SECRET = .ok none ∧ encryptTotpSecret crypto secret userId env iv = .ok (['v', '1'] ++
      '.' :: bytesToBase64Url iv.toList ++ '.' :: bytesToBase64Url (crypto.encrypt
        (deriveKey crypto legacy .v1 "totp-secret-encryption") iv.toList (additionalData none userId) (encodeString secret)))) ∨
    ∃ key, configuredKey env.MFA_SECRET = .ok (some key) ∧
      encryptTotpSecret crypto secret userId env iv = .ok ('v' :: '2' :: '.' :: keyId crypto key ++
        '.' :: bytesToBase64Url iv.toList ++ '.' :: bytesToBase64Url (crypto.encrypt
          (deriveKey crypto key .v2 "totp-secret-encryption") iv.toList
          (additionalData (some ('v' :: '2' :: '.' :: keyId crypto key)) userId) (encodeString secret))) := by
  rcases independentKeys_cases hkeys with ⟨hnone, rfl⟩ | ⟨key, hcurrent, hhead⟩
  · refine .inl ⟨hnone, ?_⟩
    rw [encryptTotpSecret, hkeys]
    simp only [bind, Except.bind, List.head?_nil, hlegacy, pure, Except.pure, Option.map_none]
  · refine .inr ⟨key, hcurrent, ?_⟩
    rw [encryptTotpSecret, hkeys]
    simp only [bind, Except.bind, hhead, pure, Except.pure, Option.map_some]

variable {a b : List Char}

/-- The parts of a ciphertext of the first version. -/
theorem splitOn_v1 (ha : '.' ∉ a) (hb : '.' ∉ b) :
    (['v', '1'] ++ '.' :: a ++ '.' :: b).splitOn '.' = [['v', '1'], a, b] := by
  have hfront : ['v', '1'] ++ '.' :: a ++ '.' :: b = ['v', '1'] ++ '.' :: (a ++ '.' :: b) := by simp
  rw [hfront, List.splitOn_append_cons_self_of_not_mem (by decide), List.splitOn_append_cons_self_of_not_mem ha,
    List.splitOn_eq_singleton hb]

/-- The parts of a ciphertext of the second version. -/
theorem splitOn_v2 {id : List Char} (hid : '.' ∉ id) (ha : '.' ∉ a) (hb : '.' ∉ b) :
    ('v' :: '2' :: '.' :: id ++ '.' :: a ++ '.' :: b).splitOn '.' = [['v', '2'], id, a, b] := by
  have hfront : 'v' :: '2' :: '.' :: id ++ '.' :: a ++ '.' :: b = ['v', '2'] ++ '.' :: (id ++ '.' :: (a ++ '.' :: b)) := by simp
  rw [hfront, List.splitOn_append_cons_self_of_not_mem (by decide), List.splitOn_append_cons_self_of_not_mem hid,
    List.splitOn_append_cons_self_of_not_mem ha, List.splitOn_eq_singleton hb]

theorem additionalData_injective {tag : Option (List Char)} {user user' : String}
    (h : additionalData tag user = additionalData tag user') : user = user' := by
  cases tag with
  | none => exact encodeString_injective h
  | some tag =>
    have hchars := encodeText_injective h
    exact String.toList_inj.mp (List.cons.inj (List.append_cancel_left hchars)).2

variable {writer : MfaEnv}

/-- **TOTP secrets** can be read with the key that they were written with, and for their own user. -/
theorem decrypt_encrypt (hideal : crypto.Ideal) (hwriter : writer.Admissible crypto)
    (henv : env.Admissible crypto) (hids : KeyIdsDiffer crypto writer env)
    (hsecret : secret.toList.head? ≠ some '\uFEFF') (user user' : String) (iv : Vector UInt8 12) :
    (user' = user ∧ env.Reads writer → (encryptTotpSecret crypto secret user writer iv).bind
      (fun ciphertext => decryptTotpSecret crypto ciphertext user' env) = .ok secret) ∧
    (¬ (user' = user ∧ env.Reads writer) → (encryptTotpSecret crypto secret user writer iv).bind
      (fun ciphertext => decryptTotpSecret crypto ciphertext user' env) = .error .configuration) := by
  obtain ⟨⟨keys, hkeys⟩, legacy, hlegacy⟩ := hwriter
  obtain ⟨⟨keys', hkeys'⟩, legacy', hlegacy'⟩ := henv
  have hdot := dot_notMem_base64Url
  rcases encryptTotpSecret_cases hkeys hlegacy secret user iv with ⟨hnone, hwritten⟩ | ⟨key, hcurrent, hwritten⟩
  · have hreads : env.Reads writer ↔ legacy' = legacy := by
      rw [MfaEnv.Reads, hnone, hlegacy, hlegacy']
      simp
    rw [hwritten, hreads]
    simp only [Except.bind, decryptTotpSecret]
    rw [splitOn_v1 (hdot _) (hdot _)]
    simp only [hlegacy', bind, Except.bind]
    refine ⟨fun ⟨huser, hsame⟩ => ?_, fun hnot => ?_⟩
    · rw [huser, hsame]
      exact openTotpSecret_same hideal hsecret _ _ _
    · refine openTotpSecret_other hideal ?_
      by_contra hboth
      rw [not_or, not_not, not_not] at hboth
      exact hnot ⟨additionalData_injective hboth.2, hboth.1⟩
  · have hhas : writer.HasKey key := .inl hcurrent
    have hreads : env.Reads writer ↔ env.HasKey key := by
      rw [MfaEnv.Reads, hcurrent]
      simp
    obtain ⟨hform, hiddot⟩ := keyId_form hideal key
    obtain ⟨hfound, hmissing⟩ := find_keyId hids hkeys' hhas
    rw [hwritten, hreads]
    simp only [Except.bind, decryptTotpSecret]
    rw [splitOn_v2 hiddot (hdot _) (hdot _)]
    simp only [hform, if_true, hkeys', bind, Except.bind]
    by_cases hkey : env.HasKey key
    · rw [hfound hkey]
      refine ⟨fun hboth => ?_, fun hnot => ?_⟩
      · rw [hboth.1]
        exact openTotpSecret_same hideal hsecret _ _ _
      · refine openTotpSecret_other hideal (.inr fun haad => ?_)
        exact hnot ⟨additionalData_injective haad, hkey⟩
    · rw [hmissing hkey]
      exact ⟨fun h => absurd h.2 hkey, fun _ => rfl⟩

/-! ## Recovery codes -/

theorem base64Url_injective {a b : List UInt8} (h : bytesToBase64Url a = bytesToBase64Url b) : a = b := by
  have hback := congrArg base64UrlToBytes h
  rw [base64UrlToBytes_bytesToBase64Url, base64UrlToBytes_bytesToBase64Url] at hback
  exact Option.some.inj hback

/-- **Hashes are equal** for one code, one key and one id only. -/
theorem recoveryHash_inj (hideal : crypto.Ideal) {n n' : List Char} {id id' : Option (List Char)}
    (hid : ∀ i ∈ id, '.' ∉ i) (hid' : ∀ i ∈ id', '.' ∉ i) :
    recoveryHash crypto n secret id = recoveryHash crypto n' secret' id' ↔ n = n' ∧ secret = secret' ∧ id = id' := by
  constructor
  · intro h
    have hdigest : ∀ {digest digest' : List UInt8}, bytesToBase64Url digest = bytesToBase64Url digest' → digest = digest' :=
      base64Url_injective
    have hsign : ∀ {version version' : MfaVersion}, crypto.sign (deriveKey crypto secret version "totp-recovery-code-hmac")
        (encodeText n) = crypto.sign (deriveKey crypto secret' version' "totp-recovery-code-hmac") (encodeText n') →
        n = n' ∧ secret = secret' := by
      intro version version' hsign
      obtain ⟨hkey, htext⟩ := hideal.sign hsign
      exact ⟨encodeText_injective htext, encodeString_injective (hideal.derive hkey).1⟩
    cases id with
    | none =>
      cases id' with
      | none =>
        obtain ⟨hn, hsecret⟩ := hsign (hdigest h)
        exact ⟨hn, hsecret, rfl⟩
      | some i =>
        have hmem : '.' ∈ recoveryHash crypto n' secret' (some i) := by simp [recoveryHash]
        rw [← h] at hmem
        exact absurd hmem (dot_notMem_base64Url _)
    | some i =>
      cases id' with
      | none =>
        have hmem : '.' ∈ recoveryHash crypto n secret (some i) := by simp [recoveryHash]
        rw [h] at hmem
        exact absurd hmem (dot_notMem_base64Url _)
      | some i' =>
        simp only [recoveryHash, Option.isSome_some, if_true, List.cons_append, List.cons.injEq, true_and] at h
        have hsplit := congrArg (List.splitOn '.') h
        rw [List.splitOn_append_cons_self_of_not_mem (hid i rfl), List.splitOn_append_cons_self_of_not_mem (hid' i' rfl),
          List.splitOn_eq_singleton (dot_notMem_base64Url _), List.splitOn_eq_singleton (dot_notMem_base64Url _)] at hsplit
        obtain ⟨rfl, hrest⟩ := List.cons.inj hsplit
        obtain ⟨hn, hsecret⟩ := hsign (hdigest (List.cons.inj hrest).1)
        exact ⟨hn, hsecret, rfl⟩
  · rintro ⟨rfl, rfl, rfl⟩
    rfl

/-- **Recovery codes** are recognised with the key that they were hashed with. -/
theorem hash_mem_candidates (hideal : crypto.Ideal) (hwriter : writer.Admissible crypto)
    (henv : env.Admissible crypto) (code code' : String) :
    (∃ hash hashes, hashRecoveryCode crypto code writer = .ok hash ∧ hashRecoveryCodeCandidates crypto code' env = .ok hashes ∧
        hash ∈ hashes) ↔
      (∃ normalized, normalizeRecoveryCode crypto code = .ok normalized ∧ normalizeRecoveryCode crypto code' = .ok normalized) ∧
        env.Reads writer := by
  obtain ⟨⟨keys, hkeys⟩, legacy, hlegacy⟩ := hwriter
  obtain ⟨⟨keys', hkeys'⟩, legacy', hlegacy'⟩ := henv
  cases hn : normalizeRecoveryCode crypto code with
  | error e => simp [hashRecoveryCode, hn, bind, Except.bind]
  | ok n =>
    cases hn' : normalizeRecoveryCode crypto code' with
    | error e => simp [hashRecoveryCodeCandidates, hn', bind, Except.bind]
    | ok n' =>
      have hcandidates : hashRecoveryCodeCandidates crypto code' env = .ok ((keys'.map fun key =>
          recoveryHash crypto n' key.secret (some key.id)) ++ [recoveryHash crypto n' legacy' none]).eraseDups := by
        simp only [hashRecoveryCodeCandidates, hn', hkeys', hlegacy', bind, Except.bind, pure, Except.pure]
      have hnodot : ∀ i ∈ (none : Option (List Char)), '.' ∉ i := nofun
      have hkeydot : ∀ key, ∀ i ∈ some (keyId crypto key), '.' ∉ i := by
        intro key i hi
        cases hi
        exact (keyId_form hideal key).2
      have hsame : (∃ normalized, (Except.ok n : Except MfaError (List Char)) = .ok normalized ∧
          (Except.ok n' : Except MfaError (List Char)) = .ok normalized) ↔ n = n' := by
        simp [eq_comm]
      have hmem : ∀ hash, hash ∈ ((keys'.map fun key => recoveryHash crypto n' key.secret (some key.id)) ++
          [recoveryHash crypto n' legacy' none]).eraseDups ↔
          (∃ key, env.HasKey key ∧ hash = recoveryHash crypto n' key (some (keyId crypto key))) ∨
            hash = recoveryHash crypto n' legacy' none := by
        intro hash
        rw [List.mem_eraseDups, List.mem_append, List.mem_map, List.mem_singleton]
        refine or_congr ⟨?_, ?_⟩ Iff.rfl
        · rintro ⟨d, hd, rfl⟩
          obtain ⟨key, hkey, rfl⟩ := (mem_independentKeys hkeys' d).mp hd
          exact ⟨key, hkey, rfl⟩
        · rintro ⟨key, hkey, rfl⟩
          exact ⟨_, (mem_independentKeys hkeys' _).mpr ⟨key, hkey, rfl⟩, rfl⟩
      rw [hsame]
      rcases independentKeys_cases hkeys with ⟨hnone, rfl⟩ | ⟨key, hcurrent, hhead⟩
      · have hhash : hashRecoveryCode crypto code writer = .ok (recoveryHash crypto n legacy none) := by
          simp only [hashRecoveryCode, hn, hkeys, hlegacy, List.head?_nil, bind, Except.bind, pure, Except.pure]
        have hreads : env.Reads writer ↔ legacy' = legacy := by
          rw [MfaEnv.Reads, hnone, hlegacy, hlegacy']
          simp
        rw [hhash, hcandidates, hreads]
        simp only [Except.ok.injEq, exists_eq_left', exists_and_left, hmem]
        constructor
        · rintro (⟨key, -, heq⟩ | heq)
          · exact absurd ((recoveryHash_inj hideal hnodot (hkeydot key)).mp heq).2.2 (by simp)
          · obtain ⟨hn, hsecret, -⟩ := (recoveryHash_inj hideal hnodot hnodot).mp heq
            exact ⟨hn, hsecret.symm⟩
        · rintro ⟨rfl, rfl⟩
          exact .inr rfl
      · have hhash : hashRecoveryCode crypto code writer = .ok (recoveryHash crypto n key (some (keyId crypto key))) := by
          simp only [hashRecoveryCode, hn, hkeys, hhead, bind, Except.bind, pure, Except.pure]
        have hreads : env.Reads writer ↔ env.HasKey key := by
          rw [MfaEnv.Reads, hcurrent]
          simp
        rw [hhash, hcandidates, hreads]
        simp only [Except.ok.injEq, exists_eq_left', exists_and_left, hmem]
        constructor
        · rintro (⟨key', hkey', heq⟩ | heq)
          · obtain ⟨hn, rfl, -⟩ := (recoveryHash_inj hideal (hkeydot key) (hkeydot key')).mp heq
            exact ⟨hn, hkey'⟩
          · exact absurd ((recoveryHash_inj hideal (hkeydot key) hnodot).mp heq).2.2 (by simp)
        · rintro ⟨rfl, hkey⟩
          exact .inl ⟨key, hkey, rfl⟩

/-! ## Rotation -/

/-- What was just written is written with the current key. -/
theorem needsTotpReencryption_encrypted (henv : env.Admissible crypto) (secret user : String)
    (iv : Vector UInt8 12) : (encryptTotpSecret crypto secret user env iv).bind
      (fun ciphertext => needsTotpReencryption crypto ciphertext env) = .ok false := by
  obtain ⟨⟨keys, hkeys⟩, legacy, hlegacy⟩ := henv
  rcases independentKeys_cases hkeys with ⟨hnone, rfl⟩ | ⟨key, hcurrent, hhead⟩
  · rcases encryptTotpSecret_cases hkeys hlegacy secret user iv with ⟨-, hwritten⟩ | ⟨key, hcurrent, -⟩
    · rw [hwritten]
      simp only [Except.bind, needsTotpReencryption, hkeys, bind, List.head?_nil]
      rfl
    · rw [hnone] at hcurrent
      cases Except.ok.inj hcurrent
  · rcases encryptTotpSecret_cases hkeys hlegacy secret user iv with ⟨hnone, -⟩ | ⟨key', hcurrent', hwritten⟩
    · rw [hnone] at hcurrent
      cases Except.ok.inj hcurrent
    · rw [hcurrent] at hcurrent'
      obtain rfl := Option.some.inj (Except.ok.inj hcurrent')
      rw [hwritten]
      simp only [Except.bind, needsTotpReencryption, hkeys, bind, hhead, pure, Except.pure]
      have hfront : ('v' :: '2' :: '.' :: keyId crypto key ++ ['.']).isPrefixOf ('v' :: '2' :: '.' :: keyId crypto key ++
          '.' :: bytesToBase64Url iv.toList ++ '.' :: bytesToBase64Url (crypto.encrypt
            (deriveKey crypto key .v2 "totp-secret-encryption") iv.toList
            (additionalData (some ('v' :: '2' :: '.' :: keyId crypto key)) user) (encodeString secret))) = true := by
        rw [List.isPrefixOf_iff_prefix]
        exact ⟨_, by rw [List.append_assoc, List.append_assoc]; rfl⟩
      rw [hfront]
      rfl

/-- **Second factors survive the rotations that keep their key**, and no others. -/
theorem mfa_rotation (hideal : crypto.Ideal) {writer env : MfaEnv} (hwriter : writer.Admissible crypto)
    (henv : env.Admissible crypto) (hids : KeyIdsDiffer crypto writer env) :
    (∀ (secret user user' : String) (iv : Vector UInt8 12), secret.toList.head? ≠ some '\uFEFF' →
      (user' = user ∧ env.Reads writer → (encryptTotpSecret crypto secret user writer iv).bind
        (fun ciphertext => decryptTotpSecret crypto ciphertext user' env) = .ok secret) ∧
      (¬ (user' = user ∧ env.Reads writer) → (encryptTotpSecret crypto secret user writer iv).bind
        (fun ciphertext => decryptTotpSecret crypto ciphertext user' env) = .error .configuration))
    ∧ (∀ code code' : String, (∃ hash hashes, hashRecoveryCode crypto code writer = .ok hash ∧
        hashRecoveryCodeCandidates crypto code' env = .ok hashes ∧ hash ∈ hashes) ↔
      (∃ normalized, normalizeRecoveryCode crypto code = .ok normalized ∧ normalizeRecoveryCode crypto code' = .ok normalized) ∧
        env.Reads writer)
    ∧ ∀ (secret user : String) (iv : Vector UInt8 12), (encryptTotpSecret crypto secret user writer iv).bind
        (fun ciphertext => needsTotpReencryption crypto ciphertext writer) = .ok false :=
  ⟨fun _ user user' iv hsecret => decrypt_encrypt hideal hwriter henv hids hsecret user user' iv,
    fun code code' => hash_mem_candidates hideal hwriter henv code code',
    fun secret user iv => needsTotpReencryption_encrypted hwriter secret user iv⟩

end

/-! ## A rotation -/

/-- A list that can be told from what follows it. -/
def packed : List UInt8 → List UInt8
  | [] => [0]
  | b :: rest => 1 :: b :: packed rest

theorem packed_append_inj {a b x y : List UInt8} (h : packed a ++ x = packed b ++ y) : a = b ∧ x = y := by
  induction a generalizing b with
  | nil =>
    cases b with
    | nil => exact ⟨rfl, (List.cons.inj h).2⟩
    | cons d rest => exact absurd (List.cons.inj h).1 (by decide)
  | cons c rest ih =>
    cases b with
    | nil => exact absurd (List.cons.inj h).1 (by decide)
    | cons d rest' =>
      obtain ⟨-, hrest⟩ := List.cons.inj h
      obtain ⟨rfl, hbehind⟩ := List.cons.inj hrest
      obtain ⟨rfl, rfl⟩ := ih hbehind
      exact ⟨rfl, rfl⟩

/-- Functions that keep what they are given: a ciphertext names its key, its nonce and its data. -/
def openCrypto : MfaCrypto (List UInt8) where
  upper := fun text => text
  digest := fun bytes => bytes ++ List.replicate 8 0
  deriveKey := fun secret salt info => packed secret ++ (packed salt ++ packed info)
  encrypt := fun key iv aad plaintext => packed key ++ (packed iv ++ (packed aad ++ plaintext))
  decrypt := fun key iv aad ciphertext =>
    let front := packed key ++ (packed iv ++ packed aad)
    if front.isPrefixOf ciphertext then some (ciphertext.drop front.length) else none
  sign := fun key text => packed key ++ text
  decode := fun bytes => String.ofList (((ByteArray.mk bytes.toArray).utf8Decode?.map Array.toList).getD [])

theorem openCrypto_ideal : openCrypto.Ideal where
  digest := by
    intro bytes
    show 8 ≤ (bytes ++ List.replicate 8 0).length
    simp
  derive := by
    intro secret salt info secret' salt' info' h
    obtain ⟨hsecret, hbehind⟩ := packed_append_inj h
    obtain ⟨hsalt, hbehind⟩ := packed_append_inj hbehind
    have hnil : packed info ++ [] = packed info' ++ [] := by simpa using hbehind
    exact ⟨hsecret, hsalt, (packed_append_inj hnil).1⟩
  opens := by
    intro key iv aad plaintext
    have hsplit : packed key ++ (packed iv ++ (packed aad ++ plaintext)) = packed key ++ (packed iv ++ packed aad) ++ plaintext := by
      simp
    simp only [openCrypto]
    rw [hsplit, if_pos (List.isPrefixOf_iff_prefix.mpr (List.prefix_append _ _)), List.drop_left]
  authentic := by
    intro key iv aad plaintext key' iv' aad' plaintext' h
    simp only [openCrypto] at h
    split_ifs at h with hfront
    obtain ⟨behind, hbehind⟩ := List.isPrefixOf_iff_prefix.mp hfront
    rw [List.append_assoc, List.append_assoc] at hbehind
    obtain ⟨hkey, hbehind⟩ := packed_append_inj hbehind
    obtain ⟨hiv, hbehind⟩ := packed_append_inj hbehind
    exact ⟨hkey, hiv, (packed_append_inj hbehind).1⟩
  tagged := by
    intro key iv aad plaintext h
    cases key <;> exact absurd h (List.cons_ne_nil _ _)
  sign := fun h => packed_append_inj h
  decode := by
    intro text _
    have hbytes : ByteArray.mk (encodeString text).toArray = text.toList.utf8Encode := by
      rw [encodeString, encodeText, Array.toArray_toList, String.toByteArray_ofList]
    show String.ofList (((ByteArray.mk (encodeString text).toArray).utf8Decode?.map Array.toList).getD []) = text
    rw [hbytes, List.utf8Decode?_utf8Encode]
    exact String.ofList_toList

def beforeRotation : MfaEnv :=
  ⟨some "session-key-before-rotation-00000", some "first-data-key-000000000000000000", none, none⟩

def afterRotation : MfaEnv :=
  ⟨some "session-key-after-rotation-000000", some "second-data-key-00000000000000000",
    some "first-data-key-000000000000000000", none⟩

/-- The keys of both environments. -/
theorem hasKey_rotation {key : String} (h : beforeRotation.HasKey key ∨ afterRotation.HasKey key) :
    key = "first-data-key-000000000000000000" ∨ key = "second-data-key-00000000000000000" := by
  have hfirst : configuredKey (some "first-data-key-000000000000000000") = .ok (some "first-data-key-000000000000000000") := by
    decide +kernel
  have hsecond : configuredKey (some "second-data-key-00000000000000000") = .ok (some "second-data-key-00000000000000000") := by
    decide +kernel
  rcases h with (h | h) | (h | h)
  · rw [beforeRotation, hfirst] at h
    exact .inl (Option.some.inj (Except.ok.inj h)).symm
  · cases Except.ok.inj h
  · rw [afterRotation, hsecond] at h
    exact .inr (Option.some.inj (Except.ok.inj h)).symm
  · rw [afterRotation, hfirst] at h
    exact .inl (Option.some.inj (Except.ok.inj h)).symm

/-- A secret written with a key that is now the previous one is read with the new keys. -/
theorem mfa_rotation_previous :
    (encryptTotpSecret openCrypto "JBSWY3DPEHPK3PXP" "owner" beforeRotation (Vector.replicate 12 0)).bind
      (fun ciphertext => decryptTotpSecret openCrypto ciphertext "owner" afterRotation) = .ok "JBSWY3DPEHPK3PXP" := by
  have hbefore : beforeRotation.Admissible openCrypto :=
    ⟨⟨[⟨keyId openCrypto "first-data-key-000000000000000000", "first-data-key-000000000000000000"⟩], by decide +kernel⟩,
      "session-key-before-rotation-00000", by decide +kernel⟩
  have hafter : afterRotation.Admissible openCrypto :=
    ⟨⟨[⟨keyId openCrypto "second-data-key-00000000000000000", "second-data-key-00000000000000000"⟩,
      ⟨keyId openCrypto "first-data-key-000000000000000000", "first-data-key-000000000000000000"⟩], by decide +kernel⟩,
      "session-key-after-rotation-000000", by decide +kernel⟩
  have hids : KeyIdsDiffer openCrypto beforeRotation afterRotation := by
    have hdiffer : keyId openCrypto "first-data-key-000000000000000000" ≠ keyId openCrypto "second-data-key-00000000000000000" := by
      decide +kernel
    intro key key' hkey hkey' hsame
    rcases hasKey_rotation hkey with rfl | rfl
    · rcases hasKey_rotation hkey' with rfl | rfl
      · rfl
      · exact absurd hsame hdiffer
    · rcases hasKey_rotation hkey' with rfl | rfl
      · exact absurd hsame.symm hdiffer
      · rfl
  have hreads : afterRotation.Reads beforeRotation :=
    .inl ⟨"first-data-key-000000000000000000", by decide +kernel, .inr (by decide +kernel)⟩
  exact ((mfa_rotation openCrypto_ideal hbefore hafter hids).1 _ "owner" "owner" _ (by decide)).1 ⟨rfl, hreads⟩

end CfMonitor.Auth
