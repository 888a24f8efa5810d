/-
  TCP targets of accepted ping tasks, and the address that the agent dials for them.

  1. **Server** — `validateTcpTarget` checks the host and the port of the URL `tcp://` with the target
     behind it; what else a URL may have is not looked at.

  2. **Agent** — the target is split at its last colon (`Agent.TcpTargets`).  It is dialed at the host
     and the port of the URL exactly where it is written plainly.
-/
import CfMonitor.Agent.TcpTargets
import CfMonitor.Backup.RuleInputs

namespace CfMonitor.Backup

open CfMonitor.Lib CfMonitor.Live CfMonitor.Agent

/-- What is documented of `new URL` of a scheme without rules of its own and of `Number`. -/
structure TcpRules (rules : BackupRules) : Prop where
  url : ∀ target u, hasBlank target = false → rules.parseUrl ("tcp://" ++ target) = some u →
    SchemeUrl target.toList u.hostname.toList u.port.toList
  number : ∀ n : Nat, n ≤ 65535 → rules.numberOf (String.ofList (decimalText n)) = some (n : ℚ)
  empty : rules.numberOf "" = some 0

/-- **An accepted target** has no blanks, and its URL has a port. -/
theorem port_of_accepted {rules : BackupRules} (hrules : TcpRules rules) {target : String} {u : Url}
    (h : validateTarget rules .tcp target = none) (hparse : rules.parseUrl ("tcp://" ++ target) = some u) :
    SchemeUrl target.toList u.hostname.toList u.port.toList ∧ (∀ c ∈ target.toList, isTrimmed c = false) ∧
    ∃ n, portNumber u.port.toList = some n ∧ 0 < n := by
  unfold validateTarget at h
  split_ifs at h
  simp only [validateTcpTarget, hparse] at h
  split_ifs at h with hscheme hblank hport
  have hblank := Bool.eq_false_of_not_eq_true hblank
  have hurl := hrules.url target u hblank hparse
  refine ⟨hurl, fun c hc => Bool.eq_false_of_not_eq_true (List.any_eq_false.mp hblank c hc), ?_⟩
  obtain ⟨p, hp⟩ : ∃ p, portOf rules u = some p := by
    cases hportOf : portOf rules u with
    | none => exact absurd (.inr (by rw [hportOf]; rfl)) hport
    | some p => exact ⟨p, rfl⟩
  rw [portOf] at hp
  obtain ⟨hp, hrange⟩ := Option.filter_eq_some_iff.mp hp
  rw [decide_eq_true_eq] at hrange
  rcases hurl.port_text with hempty | ⟨n, hn, htext⟩
  · have hnone : u.port = "" := String.toList_inj.mp hempty
    rw [hnone, hrules.empty] at hp
    cases hp
    exact absurd hrange.2.1 (by norm_num)
  · have hdecimal : u.port = String.ofList (decimalText n) := by rw [← htext, String.ofList_toList]
    rw [hdecimal, hrules.number n hn] at hp
    cases hp
    refine ⟨n, by rw [htext, portNumber_decimal], ?_⟩
    have hone : (1 : ℚ) ≤ n := hrange.2.1
    exact_mod_cast hone

/-- **Accepted TCP targets** are dialed at the host and the port of their URL exactly where they are written plainly; the
    port is also written as in the URL exactly where it has no leading zero besides. -/
theorem tcp_targets_dialed {rules : BackupRules} (hrules : TcpRules rules) (parseIP : List Char → Bool) (input : Json)
    (allowed : Option (List String)) (task : PingTaskInput) (u : Url)
    (htask : validatePingTaskInput rules input allowed = .ok task) (htype : task.type = .tcp)
    (hparse : rules.parseUrl ("tcp://" ++ task.target) = some u) :
    (Dials parseIP task.target.toList u.hostname.toList u.port.toList ↔ Written task.target.toList) ∧
    ((∃ a, normalizeTCPTargetAddress parseIP task.target.toList = some a ∧ SameHost a.host u.hostname.toList ∧
        a.port = u.port.toList) ↔
      Written task.target.toList ∧ (portDigits task.target.toList).head? ≠ some '0') := by
  have hvalid := (validatePingTaskInput_valid htask).1.target.2
  rw [htype] at hvalid
  obtain ⟨hurl, hblank, n, hn, hpos⟩ := port_of_accepted hrules hvalid hparse
  exact ⟨dials_iff hurl hblank (digits_of_portNumber hn).1.1, dials_text_iff hurl hblank hn hpos⟩

/-! ## Fixed inputs -/

/-- `new URL` of a name, a port and a path. -/
def nameUrl (text : String) : Option Url :=
  match text.toList with
  | 't' :: 'c' :: 'p' :: ':' :: '/' :: '/' :: target =>
    let hostport := authority (withoutControls target)
    let path := (withoutControls target).drop hostport.length
    let host := (splitPort false hostport).1
    if '@' ∈ hostport ∨ '?' ∈ path ∨ '#' ∈ path ∨ host.any isForbidden = true then none
    else ((splitPort false hostport).2.elim (some []) portText).map fun port =>
      ⟨"tcp:", "", "", String.ofList (host.flatMap encodeHostChar), String.ofList port, String.ofList path, "", "", text, "null"⟩
  | _ => none

/-- Rules for fixed inputs: names are parsed. -/
def nameRules : BackupRules :=
  { outboxRules with
    numberOf := fun text => if text = "" then some 0 else (portNumber text.toList).map fun n => (n : ℚ)
    compactLiveReport := fun report => report
    parseUrl := nameUrl
    parseJson := fun _ => none
    lower := fun text => String.ofList (text.toList.map Char.toLower)
    hashAgentToken := fun _ => "" }

theorem nameRules_tcp : TcpRules nameRules where
  url := by
    intro target u _ h
    have htext : ("tcp://" ++ target).toList = 't' :: 'c' :: 'p' :: ':' :: '/' :: '/' :: target.toList := by
      rw [String.toList_append]
      rfl
    have hparse : nameUrl ("tcp://" ++ target) = some u := h
    simp only [nameUrl, htext] at hparse
    split_ifs at hparse with hother
    simp only [not_or] at hother
    obtain ⟨hat, -, -, hname⟩ := hother
    obtain ⟨port, hport, rfl⟩ := Option.map_eq_some_iff.mp hparse
    have hcredentials : afterCredentials (authority (withoutControls target.toList)) =
        authority (withoutControls target.toList) := by
      refine afterCredentials_eq fun c hc => bne_iff_ne.mpr ?_
      rintro rfl
      exact hat hc
    refine ⟨?_, ?_⟩
    · rw [hcredentials, String.toList_ofList]
      exact .name _ (Bool.eq_false_of_not_eq_true hname)
    · rw [hcredentials, String.toList_ofList]
      exact hport
  number := by
    intro n _
    have hne : String.ofList (decimalText n) ≠ "" := by
      intro h
      refine decimalText_ne_nil n ?_
      rw [← String.toList_ofList (l := decimalText n), h]
      rfl
    have hnumber : nameRules.numberOf (String.ofList (decimalText n)) = if String.ofList (decimalText n) = "" then some 0
      else (portNumber (String.ofList (decimalText n)).toList).map fun n => (n : ℚ) := rfl
    rw [hnumber, if_neg hne, String.toList_ofList, portNumber_decimal]
    rfl
  empty := rfl

/-- A TCP task for all clients. -/
def tcpTask (target : String) : Json :=
  .obj [("name", .str "n"), ("type", .str "tcp"), ("target", .str target), ("all_clients", .bool true)]

/-- What is accepted of `example.com:8080`, and of the same with a path. -/
theorem tcpTask_accepted : (∃ task, validatePingTaskInput nameRules (tcpTask "example.com:8080") none = .ok task ∧
      task.type = .tcp ∧ task.target = "example.com:8080") ∧
    ∃ task, validatePingTaskInput nameRules (tcpTask "example.com:8080/x") none = .ok task ∧
      task.type = .tcp ∧ task.target = "example.com:8080/x" := by
  have hplain : (checkPingTask nameRules ((Json.obj? (tcpTask "example.com:8080")).getD []) none).errors = [] := by
    decide +kernel
  have hpath : (checkPingTask nameRules ((Json.obj? (tcpTask "example.com:8080/x")).getD []) none).errors = [] := by
    decide +kernel
  exact ⟨⟨_, accepted_ok.mpr ⟨hplain, rfl⟩, by decide +kernel, by decide +kernel⟩,
    ⟨_, accepted_ok.mpr ⟨hpath, rfl⟩, by decide +kernel, by decide +kernel⟩⟩

/-- The hypotheses are satisfiable, and there are targets written plainly. -/
theorem tcp_targets_dialed_plain : ∃ task u, validatePingTaskInput nameRules (tcpTask "example.com:8080") none = .ok task ∧
    task.type = .tcp ∧ nameRules.parseUrl ("tcp://" ++ task.target) = some u ∧
    Dials (fun _ => false) task.target.toList u.hostname.toList u.port.toList := by
  obtain ⟨⟨task, htask, htype, htarget⟩, -⟩ := tcpTask_accepted
  have hparse : ∃ u, nameUrl "tcp://example.com:8080" = some u := ⟨_, rfl⟩
  obtain ⟨u, hparse⟩ := hparse
  have hu : nameRules.parseUrl ("tcp://" ++ task.target) = some u := by
    rw [htarget]
    exact hparse
  have hwritten : Written task.target.toList := by
    rw [htarget]
    exact ⟨by decide, nofun⟩
  exact ⟨task, u, htask, htype, hu,
    (tcp_targets_dialed nameRules_tcp (fun _ => false) _ none task u htask htype hu).1.mpr hwritten⟩

/-- A path is checked as a path and dialed as a port. -/
theorem path_is_dialed : TcpRules nameRules ∧ ∃ task u,
    validatePingTaskInput nameRules (tcpTask "example.com:8080/x") none = .ok task ∧ task.type = .tcp ∧
    nameRules.parseUrl ("tcp://" ++ task.target) = some u ∧ u.hostname = "example.com" ∧ u.port = "8080" ∧
    ∃ a, normalizeTCPTargetAddress (fun _ => false) task.target.toList = some a ∧ a.port = "8080/x".toList ∧
      ¬Dials (fun _ => false) task.target.toList u.hostname.toList u.port.toList := by
  obtain ⟨-, task, htask, htype, htarget⟩ := tcpTask_accepted
  have hparse : ∃ u, nameUrl "tcp://example.com:8080/x" = some u ∧ u.hostname = "example.com" ∧ u.port = "8080" :=
    ⟨_, rfl, by decide +kernel, by decide +kernel⟩
  obtain ⟨u, hparse, hhost, hport⟩ := hparse
  have hnormalize : ∃ a, normalizeTCPTargetAddress (fun _ => false) "example.com:8080/x".toList = some a ∧
      a.port = "8080/x".toList := ⟨_, rfl, by decide⟩
  obtain ⟨a, ha, haport⟩ := hnormalize
  refine ⟨nameRules_tcp, task, u, htask, htype, by rw [htarget]; exact hparse, hhost, hport, a, by rw [htarget]; exact ha,
    haport, ?_⟩
  rintro ⟨a', ha', -, hsome, -⟩
  rw [htarget] at ha'
  obtain rfl := Option.some.inj (ha.symm.trans ha')
  rw [haport] at hsome
  cases hsome

end CfMonitor.Backup
