/-
  The admission of viewers to the live-data object (`enforceViewerConnectionLimit`, `registerSession`,
  `cleanupSession`, `expireViewer`, `removeExpiredViewers`, `hydrateSessionsFromAcceptedWebSockets`, the
  upgrade in `fetch`, and the route `/ws/live`).

  1. **Sockets** — the runtime numbers the sockets that it accepted.  One that its peer closed, or that
     broke or was closed, is not open again.

  2. **Program** — an upgrade is checked, waits for the policy settings, is checked again and
     registered.  A session leaves by the handler of a close or an error, by its expiry at an alarm or at
     a cold start, or with the memory of the object.

  3. **Invariant** (`AdmissionWorld.Inv`) — every socket that is open and unexpired is registered, so
     that the check before a registration counts all of them.

  4. **Results** — the two limits hold at every moment (`viewer_admission_limits`).
-/
import CfMonitor.Lib.Json
import CfMonitor.Live.ExpiryAlarm
import Mathlib.Data.List.Perm.Subperm
import Mathlib.Data.List.Nodup

namespace CfMonitor.Live

open CfMonitor.Lib
open Assoc (get? get?_erase)

/-! ## Data -/

def VIEWER_MAX_TOTAL_SESSIONS : Nat := 128
def VIEWER_MAX_SESSIONS_PER_IP : Nat := 8

/-- A socket of a viewer, with its attachment. -/
structure ViewerSocket where
  clientId : String
  viewerIp : String
  viewerExpiresAt : Int
  isOpen : Bool

/-- An upgrade that waits for the policy settings, with the clock of its begin.  `ttlParam` is the
    parameter `viewer_ttl_ms`, as `Number` reads it. -/
structure WaitingUpgrade where
  clientId : String
  viewerIp : String
  ttlParam : Option (Option Int)
  now : Int

/-- The object, the accepted sockets and the clock. -/
structure AdmissionWorld where
  clock : Int
  sockets : List ViewerSocket
  sessions : List (String × Nat)
  viewerExpiresAt : List (String × Int)
  waiting : List WaitingUpgrade

/-- An object without sockets. -/
def AdmissionWorld.start : AdmissionWorld := ⟨0, [], [], [], []⟩

namespace ViewerSocket

variable (s : ViewerSocket)

/-- `getSessionAttachment` finds an attachment. -/
def attached : Bool := decide (trim s.clientId ≠ "")

/-- The `viewerIp` of `getSessionAttachment`. -/
def address : Option String := if trim s.viewerIp = "" then none else some s.viewerIp

/-- The socket is open, and its window has not ended. -/
def isLive (clock : Int) : Bool := s.isOpen && decide (clock < s.viewerExpiresAt)

/-- The socket is no longer open. -/
def shut : ViewerSocket := { s with isOpen := false }

end ViewerSocket

open ViewerSocket (attached clientId isLive shut)

/-! ## Program -/

/-- `getCloudflareClientIp`. -/
def getCloudflareClientIp (header : String) : String :=
  let ip := trim header
  String.ofList ((if ip = "" then "unknown" else ip).toList.take 128)

namespace AdmissionWorld

variable (w : AdmissionWorld)

/-- The sessions that `countViewers` counts. -/
def counted : List ViewerSocket :=
  w.sessions.filterMap fun p => (w.sockets[p.2]?).filter fun s =>
    let expiresAt := (Assoc.get? w.viewerExpiresAt s.clientId).getD s.viewerExpiresAt
    s.attached && s.isOpen && !(decide (expiresAt ≠ 0) && decide (expiresAt ≤ w.clock))

/-- `enforceViewerConnectionLimit`: the error of a refusal. -/
def enforceViewerConnectionLimit (viewerIp : String) : Option String :=
  let sameIp := w.counted.filter fun s => s.address == some viewerIp
  if VIEWER_MAX_TOTAL_SESSIONS ≤ w.counted.length then some "Too many live viewers"
  else if viewerIp ≠ "" ∧ VIEWER_MAX_SESSIONS_PER_IP ≤ sameIp.length then
    some "Too many live viewers from this IP"
  else none

def shutSocket (i : Nat) : AdmissionWorld := { w with sockets := w.sockets.modify i ViewerSocket.shut }

/-- The session of an id is no longer registered. -/
def unregister (id : String) : AdmissionWorld :=
  { w with sessions := Assoc.erase w.sessions id, viewerExpiresAt := Assoc.erase w.viewerExpiresAt id }

def registerSession (i : Nat) (s : ViewerSocket) : AdmissionWorld :=
  { w with
    sessions := Assoc.set w.sessions s.clientId i
    viewerExpiresAt := if s.viewerExpiresAt ≠ 0
      then Assoc.set w.viewerExpiresAt s.clientId s.viewerExpiresAt
      else Assoc.erase w.viewerExpiresAt s.clientId }

/-- `expireViewer`; the attempt to close may fail. -/
def expireViewer (id : String) (i : Nat) (closes : Bool) : AdmissionWorld :=
  let sessions := if Assoc.get? w.sessions id = some i then Assoc.erase w.sessions id else w.sessions
  let w : AdmissionWorld := { w with sessions, viewerExpiresAt := Assoc.erase w.viewerExpiresAt id }
  if closes then w.shutSocket i else w

/-- One turn of the loop of `removeExpiredViewers`. -/
def removeExpiredViewer (now : Int) (stuck : List Nat) (w : AdmissionWorld) (entry : String × Int) :
    AdmissionWorld :=
  if now < entry.2 then w
  else match Assoc.get? w.sessions entry.1 with
    | none => { w with viewerExpiresAt := Assoc.erase w.viewerExpiresAt entry.1 }
    | some i => w.expireViewer entry.1 i (!stuck.contains i)

def removeExpiredViewers (now : Int) (stuck : List Nat) : AdmissionWorld :=
  w.viewerExpiresAt.foldl (removeExpiredViewer now stuck) w

/-- `cleanupSession` of a socket. -/
def cleanupSession (i : Nat) (s : ViewerSocket) : AdmissionWorld :=
  if Assoc.get? w.sessions s.clientId = some i then w.unregister s.clientId else w

/-- One turn of the loop of `hydrateSessionsFromAcceptedWebSockets`. -/
def hydrateSession (stuck : List Nat) (w : AdmissionWorld) (i : Nat) : AdmissionWorld :=
  match w.sockets[i]? with
  | none => w
  | some s =>
    if s.attached = false then w
    else if s.viewerExpiresAt ≠ 0 ∧ s.viewerExpiresAt ≤ w.clock then
      w.expireViewer s.clientId i (!stuck.contains i)
    else w.registerSession i s

/-- A cold start: the memory is made from the sockets that the runtime lists. -/
def hydrate (listed stuck : List Nat) : AdmissionWorld :=
  listed.foldl (hydrateSession stuck) { w with sessions := [], viewerExpiresAt := [], waiting := [] }

/-- The rest of an upgrade, after the settings have come. -/
def acceptViewer (u : WaitingUpgrade) (viewerTtlSec : Int) : AdmissionWorld :=
  match w.enforceViewerConnectionLimit u.viewerIp with
  | some _ => w
  | none =>
    let viewerTtlMs := match u.ttlParam with
      | some ttl => AlarmWorld.normalizeViewerTtlMs ttl
      | none => AlarmWorld.normalizeViewerTtlMs (some (viewerTtlSec * 1000))
    let s : ViewerSocket := ⟨u.clientId, u.viewerIp, u.now + viewerTtlMs, true⟩
    { w with sockets := w.sockets ++ [s] }.registerSession w.sockets.length s

/-- The ids of sockets and waiting upgrades. -/
def ids : List String := w.sockets.map ViewerSocket.clientId ++ w.waiting.map WaitingUpgrade.clientId

end AdmissionWorld

/-- What happens next.  The id of an upgrade is its own.  A peer closes a socket or it breaks (`shut`), and the
    handler runs after (`left`).  `stuck` has the sockets that cannot be closed. -/
inductive AdmissionEvent where
  | tick (now : Int)
  | upgrade (uuid header : String) (ttlParam : Option (Option Int))
  | resume (i : Nat) (viewerTtlSec : Int)
  | shut (i : Nat)
  | left (i : Nat)
  | alarm (now : Int) (stuck : List Nat)
  | restart (listed stuck : List Nat)

/-- One step. -/
def admissionStep (w : AdmissionWorld) : AdmissionEvent → Option AdmissionWorld
  | .tick now => if w.clock ≤ now then some { w with clock := now } else none
  | .upgrade uuid header ttlParam =>
    let id := "frontend-" ++ uuid
    let viewerIp := getCloudflareClientIp header
    if id ∈ w.ids then none
    else match w.enforceViewerConnectionLimit viewerIp with
      | some _ => some w
      | none => some { w with waiting := w.waiting ++ [⟨id, viewerIp, ttlParam, w.clock⟩] }
  | .resume i viewerTtlSec =>
    match w.waiting[i]? with
    | none => none
    | some u => some ({ w with waiting := w.waiting.eraseIdx i }.acceptViewer u viewerTtlSec)
  | .shut i => some (w.shutSocket i)
  | .left i =>
    match w.sockets[i]? with
    | some s => if s.isOpen then none else some (if s.attached then w.cleanupSession i s else w)
    | none => none
  | .alarm now stuck => if now ≤ w.clock then some (w.removeExpiredViewers now stuck) else none
  | .restart listed stuck =>
    if ∀ i < w.sockets.length, (w.sockets[i]?).any ViewerSocket.isOpen = true → i ∈ listed
    then some (w.hydrate listed stuck) else none

def admissionMachine : Machine AdmissionWorld AdmissionEvent := ⟨admissionStep⟩

/-- The sessions that are registered, open and unexpired. -/
def AdmissionWorld.viewers (w : AdmissionWorld) : List ViewerSocket :=
  w.sessions.filterMap fun p => (w.sockets[p.2]?).filter fun s => s.isLive w.clock

/-- The sockets that are open and unexpired. -/
def AdmissionWorld.live (w : AdmissionWorld) : List ViewerSocket := w.sockets.filter fun s => s.isLive w.clock

/-! ## Invariant -/

namespace AdmissionWorld

/-- The maps of sessions describe the sockets. -/
structure Kept (w : AdmissionWorld) : Prop where
  ids : w.ids.Nodup
  named : ∀ s ∈ w.sockets, trim s.clientId ≠ "" ∧ trim s.viewerIp ≠ "" ∧ 0 < s.viewerExpiresAt
  waits : ∀ u ∈ w.waiting, trim u.clientId ≠ "" ∧ trim u.viewerIp ≠ "" ∧ 0 ≤ u.now
  clock : 0 ≤ w.clock
  keys : (Assoc.keys w.sessions).Nodup
  windows : (Assoc.keys w.viewerExpiresAt).Nodup
  keyed : ∀ id i, Assoc.get? w.sessions id = some i → ∃ s, w.sockets[i]? = some s ∧ s.clientId = id ∧
    Assoc.get? w.viewerExpiresAt id = some s.viewerExpiresAt

/-- The sockets that are open and unexpired are registered. -/
def Present (w : AdmissionWorld) : Prop :=
  ∀ i s, w.sockets[i]? = some s → s.isLive w.clock = true → Assoc.get? w.sessions s.clientId = some i

/-- What is open and unexpired is registered, and within the limits. -/
structure Inv (w : AdmissionWorld) : Prop where
  kept : w.Kept
  present : w.Present
  total : w.live.length ≤ VIEWER_MAX_TOTAL_SESSIONS
  perIp : ∀ ip, (w.live.filter fun s => s.viewerIp == ip).length ≤ VIEWER_MAX_SESSIONS_PER_IP

variable {w w' : AdmissionWorld}

variable {i j : Nat} {s t : ViewerSocket}

theorem Kept.socket_unique (hK : w.Kept) (hs : w.sockets[i]? = some s)
    (ht : w.sockets[j]? = some t) (hid : s.clientId = t.clientId) : i = j := by
  have hnodup : (w.sockets.map clientId).Nodup := hK.ids.of_append_left
  obtain ⟨hi, -⟩ := List.getElem?_eq_some_iff.mp hs
  refine (List.getElem?_inj (by simpa using hi) hnodup).mp ?_
  rw [List.getElem?_map, List.getElem?_map, hs, ht, Option.map_some, Option.map_some, hid]

theorem Inv.live_counted (hI : w.Inv) : w.live ⊆ w.counted := by
  intro s hs
  obtain ⟨hmem, hlive⟩ := List.mem_filter.mp hs
  obtain ⟨i, hi⟩ := List.mem_iff_getElem?.mp hmem
  have hsession := hI.present i s hi hlive
  obtain ⟨t, ht, -, hexpiry⟩ := hI.kept.keyed _ i hsession
  obtain rfl : s = t := Option.some.inj (hi.symm.trans ht)
  obtain ⟨hid, -, hpositive⟩ := hI.kept.named s hmem
  simp only [isLive, Bool.and_eq_true, decide_eq_true_eq] at hlive
  refine List.mem_filterMap.mpr ⟨(s.clientId, i), Assoc.mem_of_get? hsession, ?_⟩
  rw [hi, Option.filter_some, if_pos]
  simp [hexpiry, attached, hid, hlive.1, hlive.2]

theorem Kept.live_nodup (hK : w.Kept) : w.live.Nodup :=
  (List.Nodup.of_map _ hK.ids.of_append_left).filter _

theorem Inv.room (hI : w.Inv) {viewerIp : String} (hip : trim viewerIp ≠ "")
    (h : w.enforceViewerConnectionLimit viewerIp = none) :
    w.live.length < VIEWER_MAX_TOTAL_SESSIONS ∧
    (w.live.filter fun s => s.viewerIp == viewerIp).length < VIEWER_MAX_SESSIONS_PER_IP := by
  have hsub := hI.kept.live_nodup.subperm hI.live_counted
  simp only [enforceViewerConnectionLimit] at h
  split_ifs at h with htotal hsame
  constructor
  · have hlength := hsub.length_le
    omega
  · have hblank : viewerIp ≠ "" := by
      rintro rfl
      exact hip (by decide)
    have hlength := (hsub.filter fun s => s.address == some viewerIp).length_le
    have hcongr : (w.live.filter fun s => s.address == some viewerIp) =
        w.live.filter fun s => s.viewerIp == viewerIp := by
      refine List.filter_congr fun s hs => ?_
      rw [ViewerSocket.address, if_neg (hI.kept.named s (List.mem_filter.mp hs).1).2.1]
      simp
    rw [hcongr] at hlength
    have hfew := not_and.mp hsame hblank
    omega

theorem Kept.viewers_subperm (hK : w.Kept) : w.viewers.Subperm w.live := by
  refine List.Nodup.subperm (List.Nodup.of_map clientId ?_) ?_
  · have hsublist (l : List (String × Nat)) (h : ∀ p ∈ l, p ∈ w.sessions) :
        ((l.filterMap fun p => (w.sockets[p.2]?).filter fun s => s.isLive w.clock).map
          clientId).Sublist (Assoc.keys l) := by
      induction l with
      | nil => exact List.Sublist.slnil
      | cons p rest ih =>
        have hrest := ih fun q hq => h q (List.mem_cons_of_mem p hq)
        obtain ⟨s, hs, hid, -⟩ := hK.keyed p.1 p.2 (Assoc.get?_of_mem hK.keys (h p List.mem_cons_self))
        rw [List.filterMap_cons, hs, Option.filter_some]
        split_ifs
        · rw [List.map_cons, hid]
          exact hrest.cons_cons p.1
        · exact hrest.cons p.1
    exact (hsublist w.sessions fun _ h => h).nodup hK.keys
  · intro s hs
    obtain ⟨p, -, hp⟩ := List.mem_filterMap.mp hs
    obtain ⟨hsocket, hlive⟩ := Option.filter_eq_some_iff.mp hp
    exact List.mem_filter.mpr ⟨List.mem_of_getElem? hsocket, hlive⟩

/-- A step that opens nothing keeps the limits. -/
theorem Inv.of_fewer (hI : w.Inv) (hK : w'.Kept) (hP : w'.Present) (h : w'.live.Sublist w.live) : w'.Inv :=
  ⟨hK, hP, h.length_le.trans hI.total, fun ip => ((h.filter _).length_le).trans (hI.perIp ip)⟩

/-! ## Sockets and sessions -/

theorem shutSocket_get (h : (w.shutSocket i).sockets[j]? = some t) :
    ∃ s, w.sockets[j]? = some s ∧ (t = s ∨ t = s.shut) := by
  rw [shutSocket, List.getElem?_modify] at h
  obtain ⟨s, hs, rfl⟩ := Option.map_eq_some_iff.mp h
  refine ⟨s, hs, ?_⟩
  split_ifs
  · exact .inr rfl
  · exact .inl rfl

theorem shutSocket_of_get (h : w.sockets[j]? = some s) :
    ∃ t, (w.shutSocket i).sockets[j]? = some t ∧ t.clientId = s.clientId ∧
      t.viewerExpiresAt = s.viewerExpiresAt := by
  refine ⟨if i = j then s.shut else s, ?_, ?_, ?_⟩
  · rw [shutSocket, List.getElem?_modify, h]
    rfl
  · split_ifs <;> rfl
  · split_ifs <;> rfl

theorem Kept.shutSocket (hK : w.Kept) (i : Nat) : (w.shutSocket i).Kept := by
  have hids : (w.shutSocket i).ids = w.ids := by
    have hmap : (w.sockets.modify i shut).map clientId = w.sockets.map clientId := by
      refine List.ext_getElem? fun j => ?_
      rw [List.getElem?_map, List.getElem?_map, List.getElem?_modify]
      cases w.sockets[j]? with
      | none => rfl
      | some s =>
        simp only [Option.map_eq_map, Option.map_some]
        split_ifs <;> rfl
    rw [AdmissionWorld.ids, AdmissionWorld.ids, AdmissionWorld.shutSocket, hmap]
  refine ⟨hids ▸ hK.ids, ?_, hK.waits, hK.clock, hK.keys, hK.windows, ?_⟩
  · intro t ht
    obtain ⟨j, hj⟩ := List.mem_iff_getElem?.mp ht
    obtain ⟨s, hs, hsame⟩ := shutSocket_get hj
    have hnamed := hK.named s (List.mem_of_getElem? hs)
    rcases hsame with rfl | rfl
    · exact hnamed
    · exact hnamed
  · intro id j hsession
    obtain ⟨s, hs, hid, hexpiry⟩ := hK.keyed id j hsession
    obtain ⟨t, ht, htid, htexpiry⟩ := shutSocket_of_get (i := i) hs
    exact ⟨t, ht, htid.trans hid, htexpiry ▸ hexpiry⟩

theorem Present.shutSocket (hP : w.Present) (i : Nat) : (w.shutSocket i).Present := by
  intro j t ht hlive
  obtain ⟨s, hs, rfl | rfl⟩ := shutSocket_get ht
  · exact hP j t hs hlive
  · simp [isLive, shut] at hlive

theorem shutSocket_live (i : Nat) : (w.shutSocket i).live.Sublist w.live := by
  have hall (l : List ViewerSocket) (i : Nat) : ((l.modify i shut).filter fun s => s.isLive w.clock).Sublist
        (l.filter fun s => s.isLive w.clock) := by
    induction l generalizing i with
    | nil => simp
    | cons s rest ih =>
      cases i with
      | zero =>
        rw [List.modify_zero_cons, List.filter_cons_of_neg (by simp [isLive, shut])]
        exact (List.sublist_cons_self s rest).filter _
      | succ i =>
        rw [List.modify_succ_cons, List.filter_cons, List.filter_cons]
        split_ifs
        · exact (ih i).cons_cons s
        · exact ih i
  exact hall w.sockets i

theorem Kept.unregister (hK : w.Kept) (id : String) : (w.unregister id).Kept := by
  refine ⟨hK.ids, hK.named, hK.waits, hK.clock, Assoc.keys_filter_nodup _ hK.keys,
    Assoc.keys_filter_nodup _ hK.windows, ?_⟩
  intro k i hsession
  rw [AdmissionWorld.unregister, get?_erase] at hsession
  rw [AdmissionWorld.unregister, get?_erase]
  split_ifs at hsession with hk
  rw [if_neg hk]
  exact hK.keyed k i hsession

/-- Without the session of a socket that is shut or expired, the others are still registered. -/
theorem Present.unregister (hK : w.Kept) (hP : w.Present)
    (hs : w.sockets[i]? = some s) (hgone : s.isLive w.clock = false) : (w.unregister s.clientId).Present := by
  intro j t ht hlive
  have hid : t.clientId ≠ s.clientId := by
    intro hsame
    obtain rfl := hK.socket_unique ht hs hsame
    obtain rfl : t = s := Option.some.inj (ht.symm.trans hs)
    cases hgone.symm.trans hlive
  rw [AdmissionWorld.unregister, get?_erase, if_neg hid]
  exact hP j t ht hlive

theorem expireViewer_eq (hK : w.Kept) (hs : w.sockets[i]? = some s)
    (closes : Bool) : w.expireViewer s.clientId i closes =
      if closes then (w.unregister s.clientId).shutSocket i else w.unregister s.clientId := by
  have hsessions : (if get? w.sessions s.clientId = some i then Assoc.erase w.sessions s.clientId
      else w.sessions) = Assoc.erase w.sessions s.clientId := by
    split_ifs with hsession
    · rfl
    · refine (Assoc.erase_of_none ?_).symm
      rw [Option.eq_none_iff_forall_ne_some]
      intro j hj
      obtain ⟨t, ht, hid, -⟩ := hK.keyed _ j hj
      exact hsession (hK.socket_unique hs ht hid.symm ▸ hj)
  rw [expireViewer, hsessions]
  rfl

theorem Kept.expireViewer (hK : w.Kept) (hs : w.sockets[i]? = some s)
    (closes : Bool) : (w.expireViewer s.clientId i closes).Kept := by
  rw [expireViewer_eq hK hs]
  cases closes with
  | true => exact (hK.unregister s.clientId).shutSocket i
  | false => exact hK.unregister s.clientId

theorem Present.expireViewer (hK : w.Kept) (hP : w.Present)
    (hs : w.sockets[i]? = some s) (hexpired : s.viewerExpiresAt ≤ w.clock) (closes : Bool) :
    (w.expireViewer s.clientId i closes).Present := by
  have hgone : s.isLive w.clock = false := by simp [isLive, hexpired]
  rw [expireViewer_eq hK hs]
  cases closes with
  | true => exact (hP.unregister hK hs hgone).shutSocket i
  | false => exact hP.unregister hK hs hgone

theorem expireViewer_live (hK : w.Kept) (hs : w.sockets[i]? = some s)
    (closes : Bool) : (w.expireViewer s.clientId i closes).live.Sublist w.live := by
  rw [expireViewer_eq hK hs]
  cases closes with
  | true => exact shutSocket_live (w := w.unregister s.clientId) i
  | false => exact List.Sublist.refl _

theorem expireViewer_get (hK : w.Kept) (hs : w.sockets[i]? = some s)
    (hexpired : s.viewerExpiresAt ≤ w.clock) {closes : Bool}
    (ht : (w.expireViewer s.clientId i closes).sockets[j]? = some t) (hlive : t.isLive w.clock = true) :
    w.sockets[j]? = some t ∧ get? (w.expireViewer s.clientId i closes).sessions t.clientId =
        get? w.sessions t.clientId := by
  rw [expireViewer_eq hK hs] at ht ⊢
  have hold : w.sockets[j]? = some t := by
    cases closes with
    | true =>
      obtain ⟨u, hu, rfl | rfl⟩ := shutSocket_get ht
      · exact hu
      · simp [isLive, shut] at hlive
    | false => exact ht
  have hid : t.clientId ≠ s.clientId := by
    intro hsame
    obtain rfl := hK.socket_unique hold hs hsame
    obtain rfl : t = s := Option.some.inj (hold.symm.trans hs)
    rw [isLive, Bool.and_eq_true, decide_eq_true_eq] at hlive
    omega
  refine ⟨hold, ?_⟩
  cases closes with
  | true => exact (get?_erase _ _ _).trans (if_neg hid)
  | false => exact (get?_erase _ _ _).trans (if_neg hid)

/-! ## Alarms -/

/-- The windows that are left were there before. -/
def Shrinks (w w' : AdmissionWorld) : Prop :=
  w'.clock = w.clock ∧
    ∀ id e, Assoc.get? w'.viewerExpiresAt id = some e → Assoc.get? w.viewerExpiresAt id = some e

/-- One turn of the loop over the windows. -/
theorem Inv.removeExpiredViewer (hI : w'.Inv) (hK : w.Kept) (hshrinks : w.Shrinks w') {now : Int}
    (hnow : now ≤ w.clock) (stuck : List Nat) {entry : String × Int} (hentry : entry ∈ w.viewerExpiresAt) :
    (removeExpiredViewer now stuck w' entry).Inv ∧ w.Shrinks (removeExpiredViewer now stuck w' entry) := by
  rw [AdmissionWorld.removeExpiredViewer]
  split_ifs with hlater
  · exact ⟨hI, hshrinks⟩
  · have herase (id e) (h : get? (Assoc.erase w'.viewerExpiresAt entry.1) id = some e) :
        get? w.viewerExpiresAt id = some e := by
      rw [get?_erase] at h
      split_ifs at h
      exact hshrinks.2 id e h
    split
    · rename_i hnone
      refine ⟨hI.of_fewer ⟨hI.kept.ids, hI.kept.named, hI.kept.waits, hI.kept.clock, hI.kept.keys,
        Assoc.keys_filter_nodup _ hI.kept.windows, ?_⟩ hI.present (List.Sublist.refl _), hshrinks.1, herase⟩
      intro id i hsession
      have hid : id ≠ entry.1 := by
        rintro rfl
        cases hnone.symm.trans hsession
      rw [get?_erase, if_neg hid]
      exact hI.kept.keyed id i hsession
    · rename_i i hsession
      obtain ⟨s, hs, hid, hexpiry⟩ := hI.kept.keyed entry.1 i hsession
      -- The window of the entry is that of the socket.
      have hwindow : s.viewerExpiresAt = entry.2 :=
        Option.some.inj ((hshrinks.2 _ _ hexpiry).symm.trans (Assoc.get?_of_mem hK.windows hentry))
      have hexpired : s.viewerExpiresAt ≤ w'.clock := by
        rw [hwindow, hshrinks.1]
        omega
      refine ⟨?_, ?_⟩
      · rw [← hid]
        exact hI.of_fewer (hI.kept.expireViewer hs _) (hI.present.expireViewer hI.kept hs hexpired _)
          (expireViewer_live hI.kept hs _)
      · cases !stuck.contains i with
        | true => exact ⟨hshrinks.1, herase⟩
        | false => exact ⟨hshrinks.1, herase⟩

theorem Inv.removeExpiredViewers (hI : w.Inv) {now : Int} (hnow : now ≤ w.clock) (stuck : List Nat) :
    (w.removeExpiredViewers now stuck).Inv := by
  have hall (entries : List (String × Int)) (hsub : entries ⊆ w.viewerExpiresAt) :
      ∀ v : AdmissionWorld, v.Inv → w.Shrinks v →
        (entries.foldl (AdmissionWorld.removeExpiredViewer now stuck) v).Inv := by
    induction entries with
    | nil => exact fun v hv _ => hv
    | cons entry rest ih =>
      intro v hv hshrinks
      obtain ⟨hnext, hnextShrinks⟩ :=
        hv.removeExpiredViewer hI.kept hshrinks hnow stuck (hsub List.mem_cons_self)
      exact ih (fun e he => hsub (List.mem_cons_of_mem entry he)) _ hnext hnextShrinks
  exact hall w.viewerExpiresAt (fun _ h => h) w hI ⟨rfl, fun _ _ h => h⟩

theorem Inv.cleanupSession (hI : w.Inv) (hs : w.sockets[i]? = some s)
    (hclosed : s.isOpen = false) : (w.cleanupSession i s).Inv := by
  rw [AdmissionWorld.cleanupSession]
  split_ifs
  · exact hI.of_fewer (hI.kept.unregister _)
      (hI.present.unregister hI.kept hs (by simp [isLive, hclosed])) (List.Sublist.refl _)
  · exact hI

/-! ## Registrations and cold starts -/

theorem Kept.registerSession (hK : w.Kept) (hs : w.sockets[i]? = some s) : (w.registerSession i s).Kept := by
  have hpositive : s.viewerExpiresAt ≠ 0 := by
    have hlater := (hK.named s (List.mem_of_getElem? hs)).2.2
    omega
  rw [AdmissionWorld.registerSession, if_pos hpositive]
  refine ⟨hK.ids, hK.named, hK.waits, hK.clock, Assoc.keys_set_nodup hK.keys,
    Assoc.keys_set_nodup hK.windows, ?_⟩
  intro id j hsession
  rw [Assoc.get?_set] at hsession ⊢
  split_ifs at hsession with hid
  · cases hsession
    exact ⟨s, hs, hid.symm, by rw [if_pos hid]⟩
  · rw [if_neg hid]
    exact hK.keyed id j hsession

theorem registerSession_get (hK : w.Kept) (hs : w.sockets[i]? = some s)
    (ht : w.sockets[j]? = some t) (h : j = i ∨ get? w.sessions t.clientId = some j) :
    get? (w.registerSession i s).sessions t.clientId = some j := by
  rw [AdmissionWorld.registerSession, Assoc.get?_set]
  split_ifs with hid
  · rw [hK.socket_unique ht hs hid]
  · rcases h with rfl | h
    · obtain rfl : t = s := Option.some.inj (ht.symm.trans hs)
      exact absurd rfl hid
    · exact h

/-- What the loop of a cold start has made of the sockets that it came to: those are registered, and
    none was opened. -/
structure Hydrates (w : AdmissionWorld) (done : List Nat) (v : AdmissionWorld) : Prop where
  kept : v.Kept
  clock : v.clock = w.clock
  fewer : v.live.Sublist w.live
  same : ∀ (i : Nat) (s : ViewerSocket), v.sockets[i]? = some s → s.isLive w.clock = true → w.sockets[i]? = some s
  present : ∀ i ∈ done, ∀ s : ViewerSocket, v.sockets[i]? = some s → s.isLive w.clock = true →
    Assoc.get? v.sessions s.clientId = some i

theorem Hydrates.step {done : List Nat} {v : AdmissionWorld} (h : w.Hydrates done v) (stuck : List Nat)
    (i : Nat) : w.Hydrates (done ++ [i]) (hydrateSession stuck v i) := by
  rw [hydrateSession]
  cases hs : v.sockets[i]? with
  | none =>
    refine ⟨h.kept, h.clock, h.fewer, h.same, fun j hj t ht hlive => ?_⟩
    rcases List.mem_append.mp hj with hdone | hlast
    · exact h.present j hdone t ht hlive
    · rw [List.mem_singleton.mp hlast] at ht
      cases hs.symm.trans ht
  | some s =>
    have hnamed := h.kept.named s (List.mem_of_getElem? hs)
    have hattached : s.attached ≠ false := by simp [attached, hnamed.1]
    dsimp only
    rw [if_neg hattached]
    split_ifs with hexpired
    · have hclock : (v.expireViewer s.clientId i (!stuck.contains i)).clock = v.clock := by
        rw [expireViewer_eq h.kept hs]
        split_ifs <;> rfl
      have hothers {j : Nat} {t : ViewerSocket}
          (ht : (v.expireViewer s.clientId i (!stuck.contains i)).sockets[j]? = some t)
          (htlive : t.isLive w.clock = true) :=
        expireViewer_get h.kept hs hexpired.2 ht (h.clock ▸ htlive)
      refine ⟨h.kept.expireViewer hs _, hclock.trans h.clock, (expireViewer_live h.kept hs _).trans h.fewer,
        fun j t ht htlive => h.same j t (hothers ht htlive).1 htlive, fun j hj t ht htlive => ?_⟩
      obtain ⟨hold, hsession⟩ := hothers ht htlive
      rw [hsession]
      rcases List.mem_append.mp hj with hdone | hlast
      · exact h.present j hdone t hold htlive
      · obtain rfl := List.mem_singleton.mp hlast
        obtain rfl : t = s := Option.some.inj (hold.symm.trans hs)
        rw [isLive, Bool.and_eq_true, decide_eq_true_eq, ← h.clock] at htlive
        omega
    · refine ⟨h.kept.registerSession hs, h.clock, h.fewer, h.same, fun j hj t ht htlive => ?_⟩
      refine registerSession_get h.kept hs ht ?_
      rcases List.mem_append.mp hj with hdone | hlast
      · exact .inr (h.present j hdone t ht htlive)
      · exact .inl (List.mem_singleton.mp hlast)

theorem Inv.hydrate (hI : w.Inv) (listed stuck : List Nat)
    (h : ∀ i < w.sockets.length, (w.sockets[i]?).any ViewerSocket.isOpen = true → i ∈ listed) :
    (w.hydrate listed stuck).Inv := by
  have hall (rest : List Nat) : ∀ (done : List Nat) (v : AdmissionWorld), w.Hydrates done v →
      w.Hydrates (done ++ rest) (rest.foldl (hydrateSession stuck) v) := by
    induction rest with
    | nil => exact fun done v hv => (List.append_nil done).symm ▸ hv
    | cons i rest ih =>
      intro done v hv
      have hrest := ih (done ++ [i]) _ (hv.step stuck i)
      rwa [List.append_assoc, List.singleton_append] at hrest
  have hempty : w.Hydrates [] { w with sessions := [], viewerExpiresAt := [], waiting := [] } := by
    refine ⟨⟨?_, hI.kept.named, nofun, hI.kept.clock, List.nodup_nil, List.nodup_nil, nofun⟩, rfl,
      List.Sublist.refl _, fun _ _ hs _ => hs, nofun⟩
    show (_ ++ []).Nodup
    rw [List.append_nil]
    exact hI.kept.ids.of_append_left
  have hfinal := hall listed [] _ hempty
  refine hI.of_fewer hfinal.kept (fun i s hs hlive => ?_) hfinal.fewer
  rw [AdmissionWorld.hydrate, hfinal.clock] at hlive
  have hold := hfinal.same i s hs hlive
  refine hfinal.present i ?_ s hs hlive
  have hopen : s.isOpen = true := by
    rw [isLive, Bool.and_eq_true] at hlive
    exact hlive.1
  exact h i (List.getElem?_eq_some_iff.mp hold).1 (by rw [hold]; exact hopen)

theorem Inv.accept (hI : w.Inv) (hid : s.clientId ∉ w.ids)
    (hnamed : trim s.clientId ≠ "" ∧ trim s.viewerIp ≠ "" ∧ 0 < s.viewerExpiresAt)
    (htotal : w.live.length < VIEWER_MAX_TOTAL_SESSIONS)
    (hperIp : (w.live.filter fun t => t.viewerIp == s.viewerIp).length < VIEWER_MAX_SESSIONS_PER_IP) :
    ({ w with sockets := w.sockets ++ [s] }.registerSession w.sockets.length s).Inv := by
  have hkept : ({ w with sockets := w.sockets ++ [s] } : AdmissionWorld).Kept := by
    refine ⟨?_, ?_, hI.kept.waits, hI.kept.clock, hI.kept.keys, hI.kept.windows, ?_⟩
    · show ((w.sockets ++ [s]).map _ ++ _).Nodup
      rw [List.map_append, List.append_assoc]
      refine (List.perm_middle.nodup_iff).mpr ?_
      exact List.nodup_cons.mpr ⟨hid, hI.kept.ids⟩
    · intro t ht
      rcases List.mem_append.mp ht with hold | hnew
      · exact hI.kept.named t hold
      · obtain rfl := List.mem_singleton.mp hnew
        exact hnamed
    · intro id i hsession
      obtain ⟨t, ht, hrest⟩ := hI.kept.keyed id i hsession
      exact ⟨t, (List.getElem?_append_left (List.getElem?_eq_some_iff.mp ht).1).trans ht, hrest⟩
  have hnew : (w.sockets ++ [s])[w.sockets.length]? = some s := by simp
  have hlive : (({ w with sockets := w.sockets ++ [s] } : AdmissionWorld).registerSession
      w.sockets.length s).live.Sublist (w.live ++ [s]) := by
    show ((w.sockets ++ [s]).filter fun t => t.isLive w.clock).Sublist _
    rw [List.filter_append]
    exact (List.Sublist.refl _).append List.filter_sublist
  refine ⟨hkept.registerSession hnew, ?_, ?_, fun ip => ?_⟩
  · intro i t ht htlive
    refine registerSession_get hkept hnew ht ?_
    rcases Nat.lt_or_ge i w.sockets.length with hlt | hge
    · exact .inr (hI.present i t ((List.getElem?_append_left hlt).symm.trans ht) htlive)
    · have hbound : i < (w.sockets ++ [s]).length := (List.getElem?_eq_some_iff.mp ht).1
      rw [List.length_append, List.length_singleton] at hbound
      exact .inl (by omega)
  · have hlength := hlive.length_le
    rw [List.length_append, List.length_singleton] at hlength
    omega
  · have hlength := (hlive.filter fun t => t.viewerIp == ip).length_le
    rw [List.filter_append, List.length_append] at hlength
    by_cases hip : s.viewerIp = ip
    · subst hip
      have hone := List.length_filter_le (fun t => t.viewerIp == s.viewerIp) [s]
      rw [List.length_singleton] at hone
      omega
    · have hnone : ([s].filter fun t => t.viewerIp == ip) = [] := by simp [hip]
      have hold := hI.perIp ip
      rw [hnone, List.length_nil] at hlength
      omega

theorem normalizeViewerTtlMs_pos (ttl : Option Int) : 0 < AlarmWorld.normalizeViewerTtlMs ttl := by
  cases ttl with
  | none => decide
  | some ttl =>
    simp only [AlarmWorld.normalizeViewerTtlMs]
    split_ifs <;> omega

/-- An upgrade is registered under an id of its own, if the check leaves room. -/
theorem Inv.acceptViewer (hI : w.Inv) {u : WaitingUpgrade} (hid : u.clientId ∉ w.ids)
    (hu : trim u.clientId ≠ "" ∧ trim u.viewerIp ≠ "" ∧ 0 ≤ u.now) (viewerTtlSec : Int) :
    (w.acceptViewer u viewerTtlSec).Inv := by
  rw [AdmissionWorld.acceptViewer]
  cases hlimit : w.enforceViewerConnectionLimit u.viewerIp with
  | some _ => exact hI
  | none =>
    obtain ⟨htotal, hperIp⟩ := hI.room hu.2.1 hlimit
    refine hI.accept hid ⟨hu.1, hu.2.1, ?_⟩ htotal hperIp
    have hnow := hu.2.2
    dsimp only
    split
    · have hpositive := normalizeViewerTtlMs_pos ‹_›
      omega
    · have hpositive := normalizeViewerTtlMs_pos (some (viewerTtlSec * 1000))
      omega

/-! ## Texts -/

variable {rest : List Char}

theorem trim_ne_empty {text : String} {c : Char} (h : text.toList = c :: rest)
    (hc : isTrimmed c = false) : trim text ≠ "" := by
  intro hempty
  have hlist : List.rdropWhile isTrimmed (text.toList.dropWhile isTrimmed) = [] := by
    have htoList := congrArg String.toList hempty
    rwa [trim, String.toList_ofList] at htoList
  rw [h, List.dropWhile_cons_of_neg (by simp [hc]), List.rdropWhile_eq_nil_iff] at hlist
  exact absurd (hlist c List.mem_cons_self) (by simp [hc])

theorem head_of_trimmed {text : String} {c : Char} (htrim : trim text = text)
    (h : text.toList = c :: rest) : isTrimmed c = false := by
  by_contra hc
  have hc : isTrimmed c = true := Bool.eq_true_of_not_eq_false hc
  have hlist : List.rdropWhile isTrimmed (text.toList.dropWhile isTrimmed) = text.toList := by
    have htoList := congrArg String.toList htrim
    rwa [trim, String.toList_ofList] at htoList
  rw [h, List.dropWhile_cons_of_pos hc] at hlist
  have hlength := congrArg List.length hlist
  have hfront := (List.rdropWhile_prefix isTrimmed (l := rest.dropWhile isTrimmed)).length_le
  have hback := (List.dropWhile_sublist (l := rest) isTrimmed).length_le
  rw [List.length_cons] at hlength
  omega

/-- The address of a request is not blank. -/
theorem trim_getCloudflareClientIp (header : String) : trim (getCloudflareClientIp header) ≠ "" := by
  have hfirst (text : String) (htrim : trim text = text) (hne : text ≠ "") :
      trim (String.ofList (text.toList.take 128)) ≠ "" := by
    cases htext : text.toList with
    | nil => exact absurd (String.toList_injective (htext.trans String.toList_empty.symm)) hne
    | cons c rest =>
      have hshort : (String.ofList ((c :: rest).take 128)).toList = c :: rest.take 127 := by
        rw [String.toList_ofList, List.take_succ_cons]
      exact trim_ne_empty hshort (head_of_trimmed htrim htext)
  rw [getCloudflareClientIp]
  split_ifs with hempty
  · exact hfirst "unknown" (by decide) (by decide)
  · exact hfirst (trim header) (trim_trim header) hempty

theorem trim_frontend (uuid : String) : trim ("frontend-" ++ uuid) ≠ "" := by
  have htoList : ("frontend-" ++ uuid).toList = 'f' :: ("rontend-".toList ++ uuid.toList) := by
    rw [String.toList_append]
    rfl
  exact trim_ne_empty htoList (by decide)

/-! ## Runs -/

/-- **A step keeps the limits.** -/
theorem Inv.step (hI : w.Inv) {e : AdmissionEvent} (h : admissionStep w e = some w') : w'.Inv := by
  cases e with
  | tick now =>
    simp only [admissionStep] at h
    split_ifs at h with hlater
    cases h
    have hlive (s : ViewerSocket) (hs : s.isLive now = true) : s.isLive w.clock = true := by
      simp only [isLive, Bool.and_eq_true, decide_eq_true_eq] at hs ⊢
      exact ⟨hs.1, by omega⟩
    have hclock := hI.kept.clock
    exact hI.of_fewer
      ⟨hI.kept.ids, hI.kept.named, hI.kept.waits, by show 0 ≤ now; omega, hI.kept.keys, hI.kept.windows,
        hI.kept.keyed⟩
      (fun i s hs hs' => hI.present i s hs (hlive s hs')) (List.monotone_filter_right _ hlive)
  | upgrade uuid header ttlParam =>
    simp only [admissionStep] at h
    split_ifs at h with hid
    split at h
    · cases h
      exact hI
    · cases h
      refine hI.of_fewer ⟨?_, hI.kept.named, ?_, hI.kept.clock, hI.kept.keys, hI.kept.windows,
        hI.kept.keyed⟩ hI.present (List.Sublist.refl _)
      · show (_ ++ (w.waiting ++ [_]).map _).Nodup
        rw [List.map_append, ← List.append_assoc, List.nodup_append_comm]
        exact List.nodup_cons.mpr ⟨hid, hI.kept.ids⟩
      · intro u hu
        rcases List.mem_append.mp hu with hold | hnew
        · exact hI.kept.waits u hold
        · obtain rfl := List.mem_singleton.mp hnew
          exact ⟨trim_frontend uuid, trim_getCloudflareClientIp header, hI.kept.clock⟩
  | resume i viewerTtlSec =>
    simp only [admissionStep] at h
    split at h
    · cases h
    · rename_i u hu
      cases h
      have hperm : (w.sockets.map clientId ++ w.waiting.map WaitingUpgrade.clientId).Perm
          (u.clientId :: (w.sockets.map clientId ++ (w.waiting.eraseIdx i).map WaitingUpgrade.clientId)) := by
        obtain ⟨hi, rfl⟩ := List.getElem?_eq_some_iff.mp hu
        have hwaiting := (List.getElem_cons_eraseIdx_perm hi).symm.map WaitingUpgrade.clientId
        rw [List.map_cons] at hwaiting
        exact (hwaiting.append_left _).trans List.perm_middle
      obtain ⟨hfresh, hids⟩ := List.nodup_cons.mp (hperm.nodup_iff.mp hI.kept.ids)
      have hrest : ({ w with waiting := w.waiting.eraseIdx i } : AdmissionWorld).Inv :=
        hI.of_fewer ⟨hids, hI.kept.named, fun v hv => hI.kept.waits v (List.mem_of_mem_eraseIdx hv),
          hI.kept.clock, hI.kept.keys, hI.kept.windows, hI.kept.keyed⟩ hI.present (List.Sublist.refl _)
      exact hrest.acceptViewer hfresh (hI.kept.waits u (List.mem_of_getElem? hu)) viewerTtlSec
  | shut i =>
    cases h
    exact hI.of_fewer (hI.kept.shutSocket i) (hI.present.shutSocket i) (shutSocket_live i)
  | left i =>
    simp only [admissionStep] at h
    split at h
    · rename_i s hs
      split_ifs at h with hopen hattached
      · cases h
        exact hI.cleanupSession hs (Bool.eq_false_of_not_eq_true hopen)
      · cases h
        exact hI
    · cases h
  | alarm now stuck =>
    simp only [admissionStep] at h
    split_ifs at h with hnow
    cases h
    exact hI.removeExpiredViewers hnow stuck
  | restart listed stuck =>
    simp only [admissionStep] at h
    split_ifs at h with hlisted
    cases h
    exact hI.hydrate listed stuck hlisted

theorem Inv.start : AdmissionWorld.start.Inv := by
  refine ⟨⟨List.nodup_nil, fun s hs => ?_, fun u hu => ?_, Int.le_refl 0, List.nodup_nil, List.nodup_nil,
    fun id i hsession => ?_⟩, fun i s hs => ?_, Nat.zero_le _, fun ip => Nat.zero_le _⟩
  · simp [AdmissionWorld.start] at hs
  · simp [AdmissionWorld.start] at hu
  · simp [AdmissionWorld.start, get?] at hsession
  · simp [AdmissionWorld.start] at hs

end AdmissionWorld

/-- **Viewer admission respects its limits**: at every moment at most 128 viewers are registered, open
    and unexpired, and at most 8 of them come from one address. -/
theorem viewer_admission_limits (es : List AdmissionEvent) (w : AdmissionWorld)
    (hrun : admissionMachine.run .start es = some w) :
    w.viewers.length ≤ 128 ∧ ∀ ip, (w.viewers.filter fun s => s.viewerIp == ip).length ≤ 8 := by
  have hI : w.Inv := admissionMachine.run_inv (fun _ _ _ hI h => hI.step h) .start hrun
  have hsub := hI.kept.viewers_subperm
  exact ⟨hsub.length_le.trans hI.total, fun ip => ((hsub.filter _).length_le).trans (hI.perIp ip)⟩

/-- Nine upgrades from one address wait together, and are resumed. -/
def ninthViewer : List AdmissionEvent :=
  (List.range 9).map (fun n => .upgrade (toString n) "203.0.113.7" none) ++ List.replicate 9 (.resume 0 120)

/-- The ninth one is refused after its wait. -/
theorem ninth_viewer_refused : ∃ w, admissionMachine.run .start ninthViewer = some w ∧
    w.viewers.length = 8 ∧ w.viewers.length ≤ 128 ∧
      ∀ ip, (w.viewers.filter fun s => s.viewerIp == ip).length ≤ 8 := by
  have hcount : (admissionMachine.run .start ninthViewer).map (fun w => w.viewers.length) = some 8 := by
    decide +kernel
  obtain ⟨w, hrun, hw⟩ := Option.map_eq_some_iff.mp hcount
  exact ⟨w, hrun, hw, viewer_admission_limits ninthViewer w hrun⟩

end CfMonitor.Live
