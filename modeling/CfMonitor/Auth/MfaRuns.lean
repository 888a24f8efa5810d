/-
  Every multi-factor credential is used once.

  1. **One call** (`consume_cases`) — a call is refused and leaves the row alone, or it repeats a
     receipt, or it uses up a factor of the row and leaves a receipt.

  2. **Invariant** (`Account.Inv`) — since the last enrolment no step above the last used one was
     accepted; a consumed code that was not stored again is not in the list; every receipt is of a
     consumed factor.

  3. **Results** (`mfa_factors_used_once`) — for every account, over any order of calls.
-/
import CfMonitor.Auth.MfaFactor
import CfMonitor.Lib.History

namespace CfMonitor.Auth

open CfMonitor.Lib CfMonitor.Lib.History

variable {a a' : Account} {call : FactorCall} {now : Int}

/-! ## One call -/

/-- A factor of a row that is left, and the row without it. -/
inductive Uses (row : User) : Factor → User → Prop where
  | step {step : Int} (hnew : row.totpLastUsedStep < step) :
      Uses row (.step step) { row with totpLastUsedStep := step }
  | code {hash : String} (hleft : hasCode row.recoveryCodeHashes hash = true) : Uses row (.code hash)
        { row with recoveryCodeHashes := removeCode row.recoveryCodeHashes hash }

theorem useFactor_uses {row row' : User} {input : FactorInput} {factor : Factor}
    (h : row.useFactor input = some (row', factor)) : Uses row factor row' := by
  match input with
  | .totp none => simp [User.useFactor] at h
  | .totp (some step) =>
    rw [User.useFactor] at h
    split_ifs at h with hused
    cases h
    exact Uses.step (by omega)
  | .recoveryCode hashes =>
    rw [User.useFactor] at h
    cases hfind : hashes.find? (hasCode row.recoveryCodeHashes) with
    | none => simp [hfind] at h
    | some hash =>
      simp only [hfind] at h
      cases h
      exact Uses.code (List.find?_some hfind)

/-- What a call can do: refuse, repeat a receipt, or use up a factor. -/
theorem consume_cases (a : Account) (call : FactorCall) (now : Int) :
    -- refused, or answered from a receipt
    ((consumeMfaFactor a call now).1.row = a.row ∧ (consumeMfaFactor a call now).1.log = a.log ∧
      (∀ r ∈ (consumeMfaFactor a call now).1.receipts, r ∈ a.receipts) ∧
      ∀ t, (consumeMfaFactor a call now).2 = some t → ∃ v r, call.validate = some v ∧ r ∈ a.receipts ∧
        r.operationId = v.operationId ∧ r.factorKey = v.factorKey ∧
        r.sessionVersion = v.sessionVersion ∧ r.verifiedAt = t ∧ now < r.expiresAt) ∨
    -- a factor is used up
    (∃ v factor row, call.validate = some v ∧ a.row.sessionVersion = v.sessionVersion ∧
      a.row.totpEnabledAt ≠ none ∧ Uses a.row factor row ∧
      (consumeMfaFactor a call now).1.row = row ∧
      (consumeMfaFactor a call now).1.log =
        .consumed v.operationId v.factorKey v.sessionVersion factor now :: a.log ∧
      (∀ r ∈ (consumeMfaFactor a call now).1.receipts, r ∈ a.receipts ∨
        r = ⟨v.operationId, v.factorKey, v.sessionVersion, now, now + receiptLifetime⟩) ∧
      (consumeMfaFactor a call now).2 = some now) := by
  rw [consumeMfaFactor]
  cases hvalid : call.validate with
  | none => exact .inl ⟨rfl, rfl, fun _ h => h, nofun⟩
  | some v =>
    simp only
    by_cases hopen : a.row.sessionVersion ≠ v.sessionVersion ∨ a.row.totpEnabledAt = none ∨
        a.row.totpSecretEnc = none
    · rw [if_pos hopen]
      exact .inl ⟨rfl, rfl, fun _ h => h, nofun⟩
    · rw [if_neg hopen]
      have hversion : a.row.sessionVersion = v.sessionVersion :=
        Classical.not_not.mp fun hne => hopen (.inl hne)
      have henabled : a.row.totpEnabledAt ≠ none := fun hnone => hopen (.inr (.inl hnone))
      have hkept : ∀ r ∈ a.receipts.filter (fun r => decide (now < r.expiresAt)), r ∈ a.receipts :=
        fun r hr => (List.mem_filter.mp hr).1
      cases hfind : (a.receipts.filter fun r => decide (now < r.expiresAt)).find?
          fun r => r.operationId == v.operationId with
      | some receipt =>
        left
        refine ⟨rfl, rfl, hkept, fun t ht => ?_⟩
        have hanswer : (if receipt.sessionVersion = v.sessionVersion ∧ receipt.factorKey = v.factorKey
          then some receipt.verifiedAt else none) = some t := ht
        split_ifs at hanswer with hsame
        have hmem := List.mem_of_find?_eq_some hfind
        have hid := List.find?_some hfind
        rw [beq_iff_eq] at hid
        exact ⟨v, receipt, rfl, hkept receipt hmem, hid, hsame.2, hsame.1,
          Option.some.inj hanswer, by simpa using (List.mem_filter.mp hmem).2⟩
      | none =>
        cases huse : a.row.useFactor v.input with
        | none => exact .inl ⟨rfl, rfl, hkept, nofun⟩
        | some used =>
          obtain ⟨row, factor⟩ := used
          refine .inr ⟨v, factor, row, rfl, hversion, henabled, useFactor_uses huse, rfl, rfl, ?_, rfl⟩
          intro r hr
          rcases List.mem_append.mp hr with hr | hr
          · exact .inl (hkept r hr)
          · exact .inr (List.mem_singleton.mp hr)

/-! ## The invariant -/

/-- Whether an entry of the history stores a code. -/
def MfaEntry.stores (hash : String) : MfaEntry → Bool
  | .enrolled _ codes => hasCode codes hash
  | .replaced codes => hasCode codes hash
  | .consumed .. => false

/-- Whether an entry of the history is an enrolment. -/
def MfaEntry.enrols : MfaEntry → Bool
  | .enrolled .. => true
  | _ => false

/-- A later entry does not use up what an earlier one has used up, unless an enrolment, or the code
    stored again, lies between them. -/
def Fresh (x : MfaEntry) (mid : List MfaEntry) (y : MfaEntry) : Prop :=
  (∀ {o k v s t o' k' v' s' t'}, x = .consumed o k v (.step s) t → y = .consumed o' k' v' (.step s') t' →
    (∀ e ∈ mid, e.enrols = false) → s < s') ∧
  (∀ {o k v h t o' k' v' t'}, x = .consumed o k v (.code h) t → y = .consumed o' k' v' (.code h) t' →
    ∃ e ∈ mid, e.stores h = true)

/-- What the row and the receipts know of the history. -/
structure Account.Inv (a : Account) : Prop where
  fresh : Related Fresh a.log
  steps : ∀ {mid pre o k v s t}, a.log = mid ++ .consumed o k v (.step s) t :: pre →
    (∀ e ∈ mid, e.enrols = false) → a.row.totpEnabledAt ≠ none → s ≤ a.row.totpLastUsedStep
  codes : ∀ {mid pre o k v h t}, a.log = mid ++ .consumed o k v (.code h) t :: pre →
    (∀ e ∈ mid, e.stores h = false) → hasCode a.row.recoveryCodeHashes h = false
  receipts : ∀ r ∈ a.receipts, r.expiresAt = r.verifiedAt + receiptLifetime ∧
    ∃ factor, .consumed r.operationId r.factorKey r.sessionVersion factor r.verifiedAt ∈ a.log

theorem Account.Inv.start (row : User) : Account.Inv ⟨row, [], []⟩ :=
  ⟨Related.nil, fun h => absurd h (by simp), fun h => absurd h (by simp), fun r h => absurd h (by simp)⟩

theorem hasCode_removeCode_self (codes : List Json) (hash : String) :
    hasCode (removeCode codes hash) hash = false := by
  rw [hasCode, List.any_eq_false]
  intro code hcode
  have hkept := (List.mem_filter.mp hcode).2
  simpa using hkept

theorem hasCode_removeCode {codes : List Json} {hash other : String}
    (h : hasCode codes other = false) : hasCode (removeCode codes hash) other = false := by
  rw [hasCode, List.any_eq_false] at h ⊢
  exact fun code hcode => h code (List.mem_filter.mp hcode).1

namespace Account.Inv

variable {row : User}

theorem of_row (h : a.Inv) (hsteps : row.totpEnabledAt ≠ none → a.row.totpEnabledAt ≠ none ∧
      row.totpLastUsedStep = a.row.totpLastUsedStep)
    (hcodes : ∀ hash, hasCode a.row.recoveryCodeHashes hash = false →
      hasCode row.recoveryCodeHashes hash = false) : Account.Inv { a with row := row } where
  fresh := h.fresh
  steps hlog hmid henabled := by
    obtain ⟨hbefore, hlast⟩ := hsteps henabled
    show _ ≤ row.totpLastUsedStep
    rw [hlast]
    exact h.steps hlog hmid hbefore
  codes hlog hmid := hcodes _ (h.codes hlog hmid)
  receipts := h.receipts

/-- An entry that uses nothing up. -/
theorem store (h : a.Inv) {e : MfaEntry} (he : ∀ o k v f t, e ≠ .consumed o k v f t)
    (hsteps : e.enrols = false → row.totpEnabledAt ≠ none → a.row.totpEnabledAt ≠ none ∧
      row.totpLastUsedStep = a.row.totpLastUsedStep)
    (hcodes : ∀ hash, e.stores hash = false → hasCode row.recoveryCodeHashes hash = false) :
    Account.Inv { a with row := row, log := e :: a.log } where
  fresh := h.fresh.push fun mid pre x _ =>
    ⟨fun _ hy => absurd hy (he _ _ _ _ _), fun _ hy => absurd hy (he _ _ _ _ _)⟩
  steps {mid pre o k v s t} hlog hmid henabled := by
    rcases cons_cases hlog with ⟨-, hx⟩ | ⟨mid', rfl, hrest⟩
    · exact absurd hx.symm (he _ _ _ _ _)
    · obtain ⟨hbefore, hlast⟩ := hsteps (hmid e List.mem_cons_self) henabled
      show s ≤ row.totpLastUsedStep
      rw [hlast]
      exact h.steps hrest (fun e' he' => hmid e' (List.mem_cons_of_mem _ he')) hbefore
  codes {mid pre o k v hash t} hlog hmid := by
    rcases cons_cases hlog with ⟨-, hx⟩ | ⟨mid', rfl, hrest⟩
    · exact absurd hx.symm (he _ _ _ _ _)
    · exact hcodes hash (hmid e List.mem_cons_self)
  receipts r hr := by
    obtain ⟨hexpires, factor, hmem⟩ := h.receipts r hr
    exact ⟨hexpires, factor, List.mem_cons_of_mem _ hmem⟩

theorem use (h : a.Inv) {factor : Factor} (huses : Uses a.row factor row)
    (henabled : a.row.totpEnabledAt ≠ none) {operationId factorKey : String} {version : Int}
    {receipts : List Receipt}
    (hreceipts : ∀ r ∈ receipts, r ∈ a.receipts ∨
      r = ⟨operationId, factorKey, version, now, now + receiptLifetime⟩) :
    Account.Inv ⟨row, receipts, .consumed operationId factorKey version factor now :: a.log⟩ := by
  have hlogged : ∀ r ∈ receipts, r.expiresAt = r.verifiedAt + receiptLifetime ∧
      ∃ factor', .consumed r.operationId r.factorKey r.sessionVersion factor' r.verifiedAt ∈
        .consumed operationId factorKey version factor now :: a.log := by
    intro r hr
    rcases hreceipts r hr with hold | rfl
    · obtain ⟨hexpires, factor', hmem⟩ := h.receipts r hold
      exact ⟨hexpires, factor', List.mem_cons_of_mem _ hmem⟩
    · exact ⟨rfl, factor, List.mem_cons_self⟩
  cases huses with
  | @step step hnew =>
    refine ⟨h.fresh.push fun mid pre x hlog => ⟨?_, ?_⟩, ?_, ?_, hlogged⟩
    · intro o k v s t o' k' v' s' t' hx hy hmid
      subst hx
      have hle := h.steps hlog hmid henabled
      injection hy with _ _ _ hfactor
      injection hfactor with hstep
      omega
    · intro o k v hash t o' k' v' t' _ hy
      injection hy with _ _ _ hfactor
      cases hfactor
    · intro mid pre o k v s t hlog hmid _
      show s ≤ step
      rcases cons_cases hlog with ⟨-, hx⟩ | ⟨mid', rfl, hrest⟩
      · injection hx with _ _ _ hfactor
        injection hfactor with hstep
        omega
      · have hle := h.steps hrest (fun e he => hmid e (List.mem_cons_of_mem _ he)) henabled
        omega
    · intro mid pre o k v hash t hlog hmid
      rcases cons_cases hlog with ⟨-, hx⟩ | ⟨mid', rfl, hrest⟩
      · injection hx with _ _ _ hfactor
        cases hfactor
      · exact h.codes hrest fun e he => hmid e (List.mem_cons_of_mem _ he)
  | @code hash hleft =>
    refine ⟨h.fresh.push fun mid pre x hlog => ⟨?_, ?_⟩, ?_, ?_, hlogged⟩
    · intro o k v s t o' k' v' s' t' _ hy
      injection hy with _ _ _ hfactor
      cases hfactor
    · intro o k v other t o' k' v' t' hx hy
      subst hx
      injection hy with _ _ _ hfactor
      injection hfactor with hsame
      subst hsame
      -- a code that was not stored again is not in the list
      apply Classical.byContradiction
      intro hnone
      have hgone := h.codes hlog fun e he => by
        cases hstores : e.stores hash with
        | false => rfl
        | true => exact absurd ⟨e, he, hstores⟩ hnone
      cases hleft.symm.trans hgone
    · intro mid pre o k v s t hlog hmid hopen
      show s ≤ a.row.totpLastUsedStep
      rcases cons_cases hlog with ⟨-, hx⟩ | ⟨mid', rfl, hrest⟩
      · injection hx with _ _ _ hfactor
        cases hfactor
      · exact h.steps hrest (fun e he => hmid e (List.mem_cons_of_mem _ he)) henabled
    · intro mid pre o k v other t hlog hmid
      show hasCode (removeCode a.row.recoveryCodeHashes hash) other = false
      rcases cons_cases hlog with ⟨-, hx⟩ | ⟨mid', rfl, hrest⟩
      · injection hx with _ _ _ hfactor
        injection hfactor with hsame
        rw [hsame]
        exact hasCode_removeCode_self _ _
      · exact hasCode_removeCode (h.codes hrest fun e he => hmid e (List.mem_cons_of_mem _ he))

theorem consume (h : a.Inv) (call : FactorCall) (now : Int) : (consumeMfaFactor a call now).1.Inv := by
  rcases consume_cases a call now with ⟨hrow, hlog, hreceipts, -⟩ |
    ⟨v, factor, row, -, -, henabled, huses, hrow, hlog, hreceipts, -⟩
  · refine ⟨?_, ?_, ?_, fun r hr => ?_⟩
    · rw [hlog]
      exact h.fresh
    · rw [hlog, hrow]
      exact h.steps
    · rw [hlog, hrow]
      exact h.codes
    · rw [hlog]
      exact h.receipts r (hreceipts r hr)
  · have hused := h.use huses henabled hreceipts
    refine ⟨?_, ?_, ?_, ?_⟩
    · rw [hlog]
      exact hused.fresh
    · rw [hlog, hrow]
      exact hused.steps
    · rw [hlog, hrow]
      exact hused.codes
    · rw [hlog]
      exact hused.receipts

/-- **One call.** -/
theorem step {uuid : String} {e : MfaEvent} (h : a.Inv) (hstep : a.step uuid e = some a') : a'.Inv := by
  cases e with
  | consume call now =>
    cases hstep
    exact h.consume call now
  | enable secretEnc codes usedStep now =>
    have henable : enableUserTotp uuid a secretEnc codes usedStep now = some a' := hstep
    rw [enableUserTotp] at henable
    split_ifs at henable
    cases henable
    exact h.store (fun _ _ _ _ _ => by simp) nofun
      fun hash hnot => hnot
  | disable =>
    cases hstep
    exact h.of_row (fun hnone => absurd rfl hnone) fun _ _ => rfl
  | replaceCodes codes =>
    have hreplace : replaceUserRecoveryCodes a codes = some a' := hstep
    rw [replaceUserRecoveryCodes] at hreplace
    split_ifs at hreplace with hlength hoff
    · cases hreplace
      exact h
    · cases hreplace
      exact h.store (fun _ _ _ _ _ => by simp) (fun _ henabled => ⟨henabled, rfl⟩) fun hash hnot => hnot
  | rotate =>
    cases hstep
    exact h.of_row (fun henabled => ⟨henabled, rfl⟩) fun _ hnot => hnot
  | reencrypt expected secretEnc =>
    cases hstep
    rw [reencryptTotpSecret]
    split_ifs
    · exact h.of_row (fun henabled => ⟨henabled, rfl⟩) fun _ hnot => hnot
    · exact h

end Account.Inv

/-! ## Whole runs -/

/-- Every account of a reachable state satisfies the invariant. -/
theorem run_inv {users : Directory String User} {es : List (String × MfaEvent)}
    {w : Directory String Account} (hrun : mfaMachine.run (mfaStart users) es = some w) :
    ∀ uuid a, w.get? uuid = some a → a.Inv := by
  refine mfaMachine.run_inv (I := fun w => ∀ uuid a, w.get? uuid = some a → a.Inv) ?_ ?_ hrun
  · intro w e w' hI hstep uuid a ha
    have hstep' : mfaStep w e = some w' := hstep
    rw [mfaStep] at hstep'
    cases hget : w.get? e.1 with
    | none =>
      rw [hget] at hstep'
      cases hstep'
      exact hI uuid a ha
    | some b =>
      rw [hget] at hstep'
      obtain ⟨b', hb', rfl⟩ := Option.map_eq_some_iff.mp hstep'
      rw [Directory.get?_put] at ha
      split_ifs at ha with hsame
      · cases ha
        exact (hI e.1 b hget).step hb'
      · exact hI uuid a ha
  · intro uuid a ha
    have hmem := Directory.mem_entries.mpr ha
    obtain ⟨p, -, hp⟩ := List.mem_map.mp hmem
    obtain ⟨-, rfl⟩ := Prod.mk.inj hp
    exact Account.Inv.start p.2

/-- **Every credential is used once**: for every account, after any order of calls.  A used recovery
    code is accepted again only if it was stored again. -/
theorem mfa_factors_used_once (users : Directory String User) (es : List (String × MfaEvent))
    (w : Directory String Account) (hrun : mfaMachine.run (mfaStart users) es = some w)
    (uuid : String) (a : Account) (ha : w.get? uuid = some a) :
    -- between two enrolments the accepted steps increase, by whatever operations
    (∀ post mid pre o k v s t o' k' v' s' t', a.log = post ++ .consumed o' k' v' (.step s') t' ::
        (mid ++ .consumed o k v (.step s) t :: pre) → (∀ u c, .enrolled u c ∉ mid) → s < s') ∧
    -- between two removals of a code, by whatever operations, a list with this code was stored
    (∀ post mid pre o k v h t o' k' v' t', a.log = post ++ .consumed o' k' v' (.code h) t' ::
        (mid ++ .consumed o k v (.code h) t :: pre) →
      ∃ codes, ((∃ u, .enrolled u codes ∈ mid) ∨ .replaced codes ∈ mid) ∧ hasCode codes h = true) ∧
    ∀ call now,
      -- a call that is verified uses up a factor that was left, or repeats its own operation
      (∀ t, (consumeMfaFactor a call now).2 = some t → ∃ v factor, call.validate = some v ∧
        ((t = now ∧ Uses a.row factor (consumeMfaFactor a call now).1.row ∧
            (consumeMfaFactor a call now).1.log =
              .consumed v.operationId v.factorKey v.sessionVersion factor now :: a.log) ∨
          ((consumeMfaFactor a call now).1.row = a.row ∧ (consumeMfaFactor a call now).1.log = a.log ∧
            .consumed v.operationId v.factorKey v.sessionVersion factor t ∈ a.log ∧
            now < t + receiptLifetime))) ∧
      -- a call that is rejected changes no factor
      ((consumeMfaFactor a call now).2 = none →
        (consumeMfaFactor a call now).1.row = a.row ∧ (consumeMfaFactor a call now).1.log = a.log) := by
  have hI := run_inv hrun uuid a ha
  refine ⟨?_, ?_, fun call now => ?_⟩
  · intro post mid pre o k v s t o' k' v' s' t' hlog hnone
    refine (hI.fresh post mid pre _ _ hlog).1 rfl rfl fun e he => ?_
    match e, he with
    | .enrolled u c, he => exact absurd he (hnone u c)
    | .replaced _, _ => rfl
    | .consumed .., _ => rfl
  · intro post mid pre o k v h t o' k' v' t' hlog
    obtain ⟨e, he, hstores⟩ := (hI.fresh post mid pre _ _ hlog).2 rfl rfl
    match e, he, hstores with
    | .enrolled u codes, he, hstores => exact ⟨codes, .inl ⟨u, he⟩, hstores⟩
    | .replaced codes, he, hstores => exact ⟨codes, .inr he, hstores⟩
  · rcases consume_cases a call now with ⟨hrow, hlog, -, hanswer⟩ |
      ⟨v, factor, row, hvalid, -, -, huses, hrow, hlog, -, hanswer⟩
    · refine ⟨fun t ht => ?_, fun _ => ⟨hrow, hlog⟩⟩
      obtain ⟨v, r, hvalid, hr, hid, hkey, hversion, hat, hlive⟩ := hanswer t ht
      obtain ⟨hexpires, factor, hmem⟩ := hI.receipts r hr
      rw [hid, hkey, hversion, hat] at hmem
      rw [hexpires, hat] at hlive
      exact ⟨v, factor, hvalid, .inr ⟨hrow, hlog, hmem, hlive⟩⟩
    · refine ⟨fun t ht => ?_, fun hnone => absurd (hanswer.symm.trans hnone) (by simp)⟩
      obtain rfl := Option.some.inj (hanswer.symm.trans ht)
      exact ⟨v, factor, hvalid, .inl ⟨rfl, hrow.symm ▸ huses, hlog⟩⟩

/-- A digest of one digit. -/
def digestOf (c : Char) : String := String.ofList (List.replicate 64 c)

/-- A code hash, and a list with it. -/
def someHash : String := String.ofList (List.replicate 43 'A')

def someCodes : List Json := .str someHash :: List.replicate 7 (.str "x")

/-- An account without factors. -/
def newUsers : Directory String User := Directory.empty.put "u" ⟨1, none, none, -1, []⟩

/-- A call with the code. -/
def codeCall (version : Int) (operation : Char) : FactorCall :=
  ⟨some version, some (digestOf operation), some (digestOf '0'), some "recovery_code", none,
    some (.arr [.str someHash])⟩

/-- A call with a step. -/
def stepCall (version : Int) (operation : Char) (step : Int) : FactorCall :=
  ⟨some version, some (digestOf operation), some (digestOf '0'), some "totp", some step, none⟩

/-- The hypotheses are satisfiable: two steps of one enrolment. -/
theorem mfa_factors_used_once_steps : ∃ w a, mfaMachine.run (mfaStart newUsers)
        [("u", .enable "s" someCodes 3 10), ("u", .consume (stepCall 2 'a' 5) 20),
          ("u", .consume (stepCall 2 'b' 6) 30)] = some w ∧
      w.get? "u" = some a ∧ a.row.totpLastUsedStep = 6 ∧ (5 : Int) < 6 := by
  refine ⟨_, _, rfl, rfl, rfl, ?_⟩
  exact (mfa_factors_used_once newUsers
    [("u", .enable "s" someCodes 3 10), ("u", .consume (stepCall 2 'a' 5) 20),
      ("u", .consume (stepCall 2 'b' 6) 30)] _ rfl "u" _ rfl).1
    [] [] [.enrolled 3 someCodes] _ _ _ 5 _ _ _ _ 6 _ rfl (by simp)

/-- Stored again, a code is accepted again for another operation; and so is a step after another
    enrolment. -/
theorem stored_again_accepted_again : (∃ w a, mfaMachine.run (mfaStart newUsers)
        [("u", .enable "s" someCodes 3 10), ("u", .consume (codeCall 2 'a') 20),
          ("u", .replaceCodes someCodes), ("u", .consume (codeCall 3 'b') 30)] = some w ∧
      w.get? "u" = some a ∧
      a.log = [.consumed (digestOf 'b') (digestOf '0') 3 (.code someHash) 30, .replaced someCodes,
        .consumed (digestOf 'a') (digestOf '0') 2 (.code someHash) 20, .enrolled 3 someCodes]) ∧
    (∃ w a, mfaMachine.run (mfaStart newUsers)
        [("u", .enable "s" someCodes 3 10), ("u", .consume (stepCall 2 'a' 5) 20),
          ("u", .enable "s" someCodes 3 25), ("u", .consume (stepCall 3 'b' 5) 30)] = some w ∧
      w.get? "u" = some a ∧
      a.log = [.consumed (digestOf 'b') (digestOf '0') 3 (.step 5) 30, .enrolled 3 someCodes,
        .consumed (digestOf 'a') (digestOf '0') 2 (.step 5) 20, .enrolled 3 someCodes]) := by
  constructor
  · exact ⟨_, _, rfl, rfl, rfl⟩
  · exact ⟨_, _, rfl, rfl, rfl⟩

end CfMonitor.Auth
