/-
  The history capacity fuse of the live-data object (`canPersistWithinCapacity`,
  `readReusableRecordCapacitySnapshot`, `invalidateRecordCapacityMemorySnapshot`,
  `evaluateHistoryCapacity`).

  1. **State** — the flag is in memory and in storage.  A call is suspended while the database measures,
     and again while it records a health event; between two of these the object works on its own.

  2. **Fuse** (`fuse`) — a measurement at the limit blocks, one of at most 80 % releases, and in between
     the flag stays.

  3. **Condition** (`CapacityWorld.Remembers`) — `unread` says that the flag in memory was dropped and
     not read back since.  The flag in memory is not needed then, or the fuse has not blown.

  4. **Results** — when the flag is that of the fuse (`capacity_fuse_holds`).
-/
import CfMonitor.Lib.Machine
import Mathlib.Data.Rat.Lemmas
import Mathlib.Algebra.Order.Ring.Rat
import Mathlib.Tactic.NormNum
import Mathlib.Tactic.Linarith

namespace CfMonitor.Records

open CfMonitor.Lib

/-! ## Data -/

def RECORD_CAPACITY_CACHE_FAR_MS : Nat := 6 * 60 * 60000
def RECORD_CAPACITY_CACHE_NEAR_MS : Nat := 10 * 60000
def RECORD_CAPACITY_CACHE_CRITICAL_MS : Nat := 60000
def RECORD_CAPACITY_AUDIT_THROTTLE_MS : Nat := 10 * 60 * 1000

def RECORD_HIGH_WATERMARK_MIN_ROWS : Nat := 1000
def RECORD_HIGH_WATERMARK_MAX_ROWS : Nat := 10000000
def RECORD_HIGH_WATERMARK_MIN_BYTES : Nat := 16777216
def RECORD_HIGH_WATERMARK_MAX_BYTES : Nat := 549755813888

/-- The two limits, within the bounds to which the settings are clamped. -/
structure CapacityLimits where
  rows : Nat
  bytes : Nat
  rows_min : RECORD_HIGH_WATERMARK_MIN_ROWS ≤ rows
  rows_max : rows ≤ RECORD_HIGH_WATERMARK_MAX_ROWS
  bytes_min : RECORD_HIGH_WATERMARK_MIN_BYTES ≤ bytes
  bytes_max : bytes ≤ RECORD_HIGH_WATERMARK_MAX_BYTES

/-- What the database measures. -/
structure HistoryStorageUsage where
  liveRows : Nat
  estimatedLiveStorageBytes : Nat
  allocatedBytes : Nat

structure RecordCapacitySnapshot where
  rows : Nat
  bytes : Nat
  blocked : Bool
  checkedAt : Nat
  nextCheckAt : Nat
  highWatermarkRows : Nat
  highWatermarkBytes : Nat

/-- The fields of the object. -/
structure CapacityMemory where
  rows : Nat
  bytes : Nat
  nextCheckAt : Nat
  blocked : Bool
  lastAuditAt : Nat

/-- Where a call is suspended: the measurement, or the health event after it. -/
inductive CapacityCall where
  | measuring (now : Nat)
  | reporting
  deriving DecidableEq

/-- The object, its storage and the calls that wait.  `unread`, `completed` (newest first) and `answer`
    are not read by the program: whether the flag in memory was dropped and not read back, the ratio of
    every completed measurement with the flag after it, and what the last step answered. -/
structure CapacityWorld where
  memory : CapacityMemory
  stored : Option RecordCapacitySnapshot
  calls : List CapacityCall
  unread : Bool
  completed : List (ℚ × Bool)
  answer : Option Bool

def CapacityMemory.initial : CapacityMemory := ⟨0, 0, 0, false, 0⟩

/-- An object with empty storage. -/
def CapacityWorld.start : CapacityWorld := ⟨.initial, none, [], true, [], none⟩

/-! ## Program -/

section Program

variable (limits : CapacityLimits)

def HistoryStorageUsage.rowRatio (u : HistoryStorageUsage) : ℚ := u.liveRows / limits.rows

def HistoryStorageUsage.byteRatio (u : HistoryStorageUsage) : ℚ := u.estimatedLiveStorageBytes / limits.bytes

/-- The ratio that counts. -/
def HistoryStorageUsage.ratio (u : HistoryStorageUsage) : ℚ := max (u.rowRatio limits) (u.byteRatio limits)

/-- The `blocked` of `evaluateHistoryCapacity`; the limits are positive and the ratio finite. -/
def evaluateHistoryCapacity (u : HistoryStorageUsage) (wasBlocked : Bool) : Bool :=
  if wasBlocked then decide (4 / 5 < u.ratio limits) else decide (1 ≤ u.ratio limits)

/-- `normalizeRecordCapacitySnapshot`. -/
def normalizeRecordCapacitySnapshot (s : RecordCapacitySnapshot) : Option RecordCapacitySnapshot :=
  if s.highWatermarkBytes < RECORD_HIGH_WATERMARK_MIN_BYTES ∨
      RECORD_HIGH_WATERMARK_MAX_BYTES < s.highWatermarkBytes ∨
      s.checkedAt = 0 ∨ s.nextCheckAt ≤ s.checkedAt ∨
      s.highWatermarkRows < RECORD_HIGH_WATERMARK_MIN_ROWS ∨
      RECORD_HIGH_WATERMARK_MAX_ROWS < s.highWatermarkRows then none
  else some s

/-- A snapshot of these limits. -/
def RecordCapacitySnapshot.ofLimits (s : RecordCapacitySnapshot) : Bool :=
  s.highWatermarkRows == limits.rows && s.highWatermarkBytes == limits.bytes

def isReusableRecordCapacitySnapshot (s : RecordCapacitySnapshot) (now : Nat) : Bool :=
  s.ofLimits limits && decide (now < s.nextCheckAt)

def capacityCheckDelayMs (m : CapacityMemory) : Nat :=
  let ratio : ℚ := max (m.rows / limits.rows) (m.bytes / limits.bytes)
  if m.blocked then RECORD_CAPACITY_CACHE_CRITICAL_MS
  else if limits.rows = 0 ∨ limits.bytes = 0 then RECORD_CAPACITY_CACHE_NEAR_MS
  else if 95 / 100 ≤ ratio then RECORD_CAPACITY_CACHE_CRITICAL_MS
  else if 4 / 5 ≤ ratio then RECORD_CAPACITY_CACHE_NEAR_MS
  else RECORD_CAPACITY_CACHE_FAR_MS

namespace CapacityMemory

variable (m : CapacityMemory)

def applyRecordCapacitySnapshot (s : RecordCapacitySnapshot) : CapacityMemory :=
  { m with rows := s.rows, bytes := s.bytes, blocked := s.blocked, nextCheckAt := s.nextCheckAt }

def invalidateRecordCapacityMemorySnapshot : CapacityMemory :=
  { m with nextCheckAt := 0, rows := 0, bytes := 0, blocked := false }

/-- A measurement is taken over. -/
def measure (u : HistoryStorageUsage) (now : Nat) : CapacityMemory :=
  let next := { m with
    rows := u.liveRows, bytes := u.estimatedLiveStorageBytes
    blocked := evaluateHistoryCapacity limits u m.blocked }
  { next with nextCheckAt := now + capacityCheckDelayMs limits next }

/-- What `writeRecordCapacitySnapshot` gets. -/
def snapshot (now : Nat) : RecordCapacitySnapshot where
  rows := m.rows
  bytes := m.bytes
  blocked := m.blocked
  checkedAt := now
  nextCheckAt := m.nextCheckAt
  highWatermarkRows := limits.rows
  highWatermarkBytes := limits.bytes

end CapacityMemory

namespace CapacityWorld

variable (w : CapacityWorld)

/-- A call returns. -/
def answered : CapacityWorld := { w with answer := some (!w.memory.blocked) }

/-- `readReusableRecordCapacitySnapshot`: what it returns, and the object after it. -/
def readReusableRecordCapacitySnapshot (now : Nat) : Option RecordCapacitySnapshot × CapacityWorld :=
  let snapshot := w.stored.bind normalizeRecordCapacitySnapshot
  let memory := match snapshot.filter (RecordCapacitySnapshot.ofLimits limits) with
    | some s => { w.memory with blocked := s.blocked }
    | none => w.memory
  (snapshot.filter fun s => isReusableRecordCapacitySnapshot limits s now,
    { w with memory, unread := false })

/-- `canPersistWithinCapacity`, until it waits for the database. -/
def canPersistWithinCapacity (now : Nat) : CapacityWorld :=
  if now < w.memory.nextCheckAt then w.answered
  else
    let read := w.readReusableRecordCapacitySnapshot limits now
    match read.1 with
    | some s => { read.2 with memory := read.2.memory.applyRecordCapacitySnapshot s }.answered
    | none => { read.2 with calls := read.2.calls ++ [.measuring now] }

/-- A measurement is taken over, and written. -/
def taken (u : HistoryStorageUsage) (now : Nat) : CapacityWorld :=
  let memory := w.memory.measure limits u now
  { w with
    memory, unread := false
    stored := some (memory.snapshot limits now)
    completed := (u.ratio limits, memory.blocked) :: w.completed }

/-- The measurement of a call completes. -/
def measured (u : HistoryStorageUsage) (now : Nat) : CapacityWorld :=
  let w := w.taken limits u now
  if w.memory.blocked = true ∧ RECORD_CAPACITY_AUDIT_THROTTLE_MS ≤ now - w.memory.lastAuditAt then
    { w with memory := { w.memory with lastAuditAt := now }, calls := w.calls ++ [.reporting] }
  else w.answered

/-- The measurement of a call fails. -/
def failed (now : Nat) : CapacityWorld :=
  { w with
    memory := { w.memory with nextCheckAt := now + RECORD_CAPACITY_CACHE_NEAR_MS }
    calls := w.calls ++ [.reporting] }

end CapacityWorld

/-- What happens next.  The clock of a call is past the epoch. -/
inductive CapacityEvent where
  | call (now : Nat)
  | measured (i : Nat) (usage : HistoryStorageUsage)
  | failed (i : Nat)
  | reported (i : Nat)
  | refresh
  | restart

/-- One step. -/
def capacityStep (w : CapacityWorld) (e : CapacityEvent) : Option CapacityWorld :=
  let w : CapacityWorld := { w with answer := none }
  match e with
  | .call now => if now = 0 then none else some (w.canPersistWithinCapacity limits now)
  | .measured i usage =>
    match w.calls[i]? with
    | some (.measuring now) => some ({ w with calls := w.calls.eraseIdx i }.measured limits usage now)
    | _ => none
  | .failed i =>
    match w.calls[i]? with
    | some (.measuring now) => some ({ w with calls := w.calls.eraseIdx i }.failed now)
    | _ => none
  | .reported i =>
    match w.calls[i]? with
    | some .reporting => some { w with calls := w.calls.eraseIdx i }.answered
    | _ => none
  | .refresh =>
    some { w with memory := w.memory.invalidateRecordCapacityMemorySnapshot, unread := true }
  | .restart => some { w with memory := .initial, calls := [], unread := true }

def capacityMachine : Machine CapacityWorld CapacityEvent := ⟨capacityStep limits⟩

end Program

/-! ## Fuse -/

/-- The flag after some measurements, the newest first. -/
def fuse : List ℚ → Bool
  | [] => false
  | m :: earlier => decide (1 ≤ m) || (decide (4 / 5 < m) && fuse earlier)

namespace CapacityWorld

/-- The ratios of the completed measurements. -/
def ratios (w : CapacityWorld) : List ℚ := w.completed.map Prod.fst

/-- The flag in storage, false before the first measurement. -/
def storedFlag (w : CapacityWorld) : Bool := (w.stored.map RecordCapacitySnapshot.blocked).getD false

/-- The stored flag, the one in memory after the newest measurement, and what a call was told after one
    are the flag of the fuse. -/
structure Fused (w : CapacityWorld) : Prop where
  stored : w.storedFlag = fuse w.ratios
  memory : ∀ c ∈ w.completed.head?, c.2 = fuse w.ratios
  answer : ∀ a, w.answer = some a → w.completed ≠ [] → a = !fuse w.ratios

/-- A step that needs the flag in memory: a call is told what the memory has, or resumes, or a
    measurement between the thresholds completes. -/
def Relies (limits : CapacityLimits) (w : CapacityWorld) : CapacityEvent → Prop
  | .call now => now < w.memory.nextCheckAt
  | .measured _ u => 4 / 5 < u.ratio limits ∧ u.ratio limits < 1
  | .reported _ => True
  | .failed _ | .refresh | .restart => False

/-- Where a step needs the flag in memory, the flag was not dropped, or the fuse has not blown. -/
def Remembers (limits : CapacityLimits) (w : CapacityWorld) (e : CapacityEvent) : Prop :=
  w.Relies limits e → w.unread = true → fuse w.ratios = false

/-- What holds beside the flags. -/
structure Inv (limits : CapacityLimits) (w : CapacityWorld) : Prop where
  valid : ∀ s, w.stored = some s → normalizeRecordCapacitySnapshot s = some s ∧ s.ofLimits limits = true
  fresh : w.stored = none → w.completed = []
  read : w.unread = false → w.memory.blocked = fuse w.ratios
  dropped : w.unread = true → w.memory.blocked = false
  clock : ∀ now, .measuring now ∈ w.calls → now ≠ 0

end CapacityWorld

section Steps

variable {limits : CapacityLimits} {w w' : CapacityWorld}

/-- A measurement follows the fuse, unless it is between the thresholds and a blown fuse is forgotten. -/
theorem evaluateHistoryCapacity_eq {u : HistoryStorageUsage} {wasBlocked flag : Bool}
    (h : wasBlocked = flag ∨ wasBlocked = false) :
    (evaluateHistoryCapacity limits u wasBlocked =
      (decide (1 ≤ u.ratio limits) || (decide (4 / 5 < u.ratio limits) && flag))) ↔
    (4 / 5 < u.ratio limits ∧ u.ratio limits < 1 → wasBlocked = false → flag = false) := by
  rw [evaluateHistoryCapacity]
  generalize u.ratio limits = m
  by_cases hhigh : 1 ≤ m
  · have hlow : 4 / 5 < m := lt_of_lt_of_le (by norm_num) hhigh
    simp [hhigh, hlow, not_lt.mpr hhigh]
  · have hbelow : m < 1 := not_le.mp hhigh
    by_cases hlow : 4 / 5 < m
    · rcases h with rfl | rfl
      · cases wasBlocked <;> simp [hhigh, hlow]
      · simp [hhigh, hlow, hbelow, eq_comm]
    · rcases h with rfl | rfl
      · cases wasBlocked <;> simp [hhigh, hlow]
      · simp [hhigh, hlow]

theorem capacityCheckDelayMs_pos (m : CapacityMemory) : 0 < capacityCheckDelayMs limits m := by
  simp only [capacityCheckDelayMs, RECORD_CAPACITY_CACHE_CRITICAL_MS, RECORD_CAPACITY_CACHE_NEAR_MS,
    RECORD_CAPACITY_CACHE_FAR_MS]
  split_ifs <;> omega

theorem normalize_snapshot {m : CapacityMemory} {now : Nat} (hnow : now ≠ 0) (hnext : now < m.nextCheckAt) :
    normalizeRecordCapacitySnapshot (m.snapshot limits now) = some (m.snapshot limits now) := by
  have hrowsMin := limits.rows_min
  have hrowsMax := limits.rows_max
  have hbytesMin := limits.bytes_min
  have hbytesMax := limits.bytes_max
  rw [normalizeRecordCapacitySnapshot, if_neg]
  show ¬ (limits.bytes < _ ∨ _ < limits.bytes ∨ now = 0 ∨ m.nextCheckAt ≤ now ∨ limits.rows < _ ∨
    _ < limits.rows)
  omega

namespace CapacityWorld

theorem Inv.flag (hI : w.Inv limits) : w.memory.blocked = fuse w.ratios ∨ w.memory.blocked = false := by
  cases hunread : w.unread with
  | false => exact .inl (hI.read hunread)
  | true => exact .inr (hI.dropped hunread)

theorem fused_answered (hI : w.Inv limits) (hF : w.Fused) :
    w.answered.Fused ↔ (w.unread = true → fuse w.ratios = false) := by
  constructor
  · intro h hunread
    by_contra hblown
    have hblown : fuse w.ratios = true := Bool.eq_true_of_not_eq_false hblown
    have hsome : w.completed ≠ [] := by
      intro hnil
      rw [ratios, hnil] at hblown
      cases hblown
    have hanswer : (!w.memory.blocked) = !fuse w.ratios := h.answer _ rfl hsome
    rw [hI.dropped hunread, hblown] at hanswer
    cases hanswer
  · intro h
    refine ⟨hF.stored, hF.memory, fun a ha _ => ?_⟩
    obtain rfl : (!w.memory.blocked) = a := Option.some.inj ha
    show (!w.memory.blocked) = !fuse w.ratios
    cases hunread : w.unread with
    | false => rw [hI.read hunread]
    | true => rw [hI.dropped hunread, h hunread]

theorem Inv.answered (hI : w.Inv limits) : w.answered.Inv limits :=
  ⟨hI.valid, hI.fresh, hI.read, hI.dropped, hI.clock⟩

/-- The state before a step, with no answer. -/
def quiet (w : CapacityWorld) : CapacityWorld := { w with answer := none }

theorem Inv.quiet (hI : w.Inv limits) : w.quiet.Inv limits :=
  ⟨hI.valid, hI.fresh, hI.read, hI.dropped, hI.clock⟩

theorem Fused.quiet (hF : w.Fused) : w.quiet.Fused :=
  ⟨hF.stored, hF.memory, nofun⟩

theorem Inv.withCalls (hI : w.Inv limits) {calls : List CapacityCall}
    (h : ∀ now, .measuring now ∈ calls → now ≠ 0) : { w with calls }.Inv limits :=
  ⟨hI.valid, hI.fresh, hI.read, hI.dropped, h⟩

theorem Inv.resume (hI : w.Inv limits) (i : Nat) : { w with calls := w.calls.eraseIdx i }.Inv limits :=
  hI.withCalls fun now hnow => hI.clock now (List.mem_of_mem_eraseIdx hnow)

theorem Inv.report (hI : w.Inv limits) :
    { w with calls := w.calls ++ [CapacityCall.reporting] }.Inv limits := by
  refine hI.withCalls fun now hnow => ?_
  rcases List.mem_append.mp hnow with h | h
  · exact hI.clock now h
  · cases List.mem_singleton.mp h

theorem read_flag (hI : w.Inv limits) (hF : w.Fused) (now : Nat) :
    (w.readReusableRecordCapacitySnapshot limits now).2.memory.blocked = fuse w.ratios ∧
    ∀ s, (w.readReusableRecordCapacitySnapshot limits now).1 = some s → s.blocked = fuse w.ratios := by
  have hstored := hF.stored
  cases hs : w.stored with
  | none =>
    have hnil : fuse w.ratios = false := by
      rw [ratios, hI.fresh hs]
      rfl
    have hblocked : w.memory.blocked = false := by
      rcases hI.flag with h | h
      · exact h.trans hnil
      · exact h
    simp [readReusableRecordCapacitySnapshot, hs, hblocked, hnil]
  | some s =>
    obtain ⟨hnormal, hlimits⟩ := hI.valid s hs
    have hflag : s.blocked = fuse w.ratios := by simpa [storedFlag, hs] using hstored
    have hsnapshot : w.stored.bind normalizeRecordCapacitySnapshot = some s := by
      rw [hs]
      exact hnormal
    simp only [readReusableRecordCapacitySnapshot, hsnapshot, Option.filter_some, hlimits, if_true]
    refine ⟨hflag, fun s' hs' => ?_⟩
    split_ifs at hs'
    cases hs'
    exact hflag

variable {now : Nat}

theorem call_spec (hI : w.Inv limits) (hF : w.Fused) (hquiet : w.answer = none) (hnow : now ≠ 0) :
    ((w.canPersistWithinCapacity limits now).Fused ↔ w.Remembers limits (.call now)) ∧
    (w.canPersistWithinCapacity limits now).Inv limits := by
  rw [canPersistWithinCapacity]
  by_cases hcached : now < w.memory.nextCheckAt
  · rw [if_pos hcached]
    exact ⟨(fused_answered hI hF).trans ⟨fun h _ => h, fun h => h hcached⟩, hI.answered⟩
  · rw [if_neg hcached]
    obtain ⟨hflag, hreused⟩ := read_flag hI hF now
    -- The flag is read back, and nothing else changes but the numbers beside it.
    have hread : (w.readReusableRecordCapacitySnapshot limits now).2.Inv limits :=
      ⟨hI.valid, hI.fresh, fun _ => hflag, nofun,
        hI.clock⟩
    have hfused : (w.readReusableRecordCapacitySnapshot limits now).2.Fused :=
      ⟨hF.stored, hF.memory, fun a ha => absurd (hquiet.symm.trans ha) (by simp)⟩
    have hremembers : w.Remembers limits (.call now) := fun h => absurd h hcached
    have hsame : fuse w.ratios = fuse (w.readReusableRecordCapacitySnapshot limits now).2.ratios := rfl
    have hunread : (w.readReusableRecordCapacitySnapshot limits now).2.unread = false := rfl
    generalize w.readReusableRecordCapacitySnapshot limits now = read at *
    obtain ⟨stored, v⟩ := read
    cases stored with
    | none =>
      refine ⟨⟨fun _ => hremembers, fun _ => ⟨hfused.stored, hfused.memory, hfused.answer⟩⟩,
        hread.withCalls fun t ht => ?_⟩
      rcases List.mem_append.mp ht with h | h
      · exact hread.clock t h
      · obtain rfl : t = now := by simpa using h
        exact hnow
    | some snapshot =>
      have hblocked : snapshot.blocked = fuse v.ratios := (hreused snapshot rfl).trans hsame
      refine ⟨⟨fun _ => hremembers, fun _ => ⟨hfused.stored, hfused.memory, fun a ha _ => ?_⟩⟩,
        ⟨hread.valid, hread.fresh, fun _ => hblocked, fun h => absurd (hunread.symm.trans h) (by simp),
          hread.clock⟩⟩
      obtain rfl : (!snapshot.blocked) = a := Option.some.inj ha
      show (!snapshot.blocked) = !fuse v.ratios
      rw [hblocked]

variable {u : HistoryStorageUsage}

theorem taken_fused (hquiet : w.answer = none) : (w.taken limits u now).Fused ↔
      (w.taken limits u now).memory.blocked = fuse (w.taken limits u now).ratios := by
  refine ⟨fun h => h.stored, fun h => ⟨h, fun c hc => ?_, fun a ha => ?_⟩⟩
  · cases hc
    exact h
  · cases hquiet.symm.trans ha

theorem Inv.taken (hI : w.Inv limits) (hnow : now ≠ 0)
    (h : (w.taken limits u now).memory.blocked = fuse (w.taken limits u now).ratios) :
    (w.taken limits u now).Inv limits := by
  have hnext : now < (w.memory.measure limits u now).nextCheckAt := by
    show now < now + _
    exact Nat.lt_add_of_pos_right (capacityCheckDelayMs_pos _)
  refine ⟨fun s hs => ?_, nofun, fun _ => h,
    nofun, hI.clock⟩
  cases hs
  exact ⟨normalize_snapshot hnow hnext, by simp [RecordCapacitySnapshot.ofLimits, CapacityMemory.snapshot]⟩

theorem taken_flag (hI : w.Inv limits) :
    (w.taken limits u now).memory.blocked = fuse (w.taken limits u now).ratios ↔
      (4 / 5 < u.ratio limits ∧ u.ratio limits < 1 → w.unread = true → fuse w.ratios = false) := by
  have hflag : (w.taken limits u now).memory.blocked = evaluateHistoryCapacity limits u w.memory.blocked := rfl
  have hratios : fuse (w.taken limits u now).ratios =
      (decide (1 ≤ u.ratio limits) || (decide (4 / 5 < u.ratio limits) && fuse w.ratios)) := rfl
  rw [hflag, hratios, evaluateHistoryCapacity_eq hI.flag]
  constructor
  · intro h hbetween hunread
    exact h hbetween (hI.dropped hunread)
  · intro h hbetween hfree
    cases hunread : w.unread with
    | true => exact h hbetween hunread
    | false => exact (hI.read hunread).symm.trans hfree

theorem measured_spec (hI : w.Inv limits) (hquiet : w.answer = none) (hnow : now ≠ 0) :
    ((w.measured limits u now).Fused ↔
      (w.taken limits u now).memory.blocked = fuse (w.taken limits u now).ratios) ∧
    ((w.measured limits u now).Fused → (w.measured limits u now).Inv limits) := by
  have hfused : (w.taken limits u now).Fused ↔
      (w.taken limits u now).memory.blocked = fuse (w.taken limits u now).ratios := taken_fused hquiet
  rw [measured]
  dsimp only
  split_ifs with haudit
  · refine ⟨⟨fun h => h.stored, fun h => ?_⟩, fun h => ?_⟩
    · have hv := hfused.mpr h
      exact ⟨hv.stored, hv.memory, hv.answer⟩
    · have hv := (hI.taken hnow h.stored).report
      exact ⟨hv.valid, hv.fresh, hv.read, hv.dropped, hv.clock⟩
  · refine ⟨⟨fun h => h.stored, fun h => ?_⟩, fun h => (hI.taken hnow h.stored).answered⟩
    have hread : (w.taken limits u now).unread = false := rfl
    exact (fused_answered (hI.taken hnow h) (hfused.mpr h)).mpr fun hunread =>
      absurd (hread.symm.trans hunread) (by simp)

/-- **A step keeps the flag of the fuse** exactly when it needs no forgotten flag. -/
theorem step_spec (hI : w.Inv limits) (hF : w.Fused) {e : CapacityEvent} (h : capacityStep limits w e = some w') :
    (w'.Fused ↔ w.Remembers limits e) ∧ (w'.Fused → w'.Inv limits) := by
  have hQ := hI.quiet
  have hG := hF.quiet
  cases e with
  | call now =>
    rw [capacityStep] at h
    split_ifs at h with hnow
    cases h
    have hspec := call_spec hQ hG rfl hnow
    exact ⟨hspec.1, fun _ => hspec.2⟩
  | measured i u =>
    rw [capacityStep] at h
    dsimp only at h
    split at h
    · rename_i now hcall
      cases h
      have hnow := hI.clock now (List.mem_of_getElem? hcall)
      obtain ⟨hfused, hinv⟩ := measured_spec (hQ.resume i) rfl hnow
      exact ⟨hfused.trans (taken_flag (hQ.resume i)), hinv⟩
    · cases h
  | failed i =>
    rw [capacityStep] at h
    dsimp only at h
    split at h
    · cases h
      have hv := (hQ.resume i).report
      exact ⟨⟨fun _ hrelies => absurd hrelies id, fun _ => ⟨hG.stored, hG.memory, hG.answer⟩⟩,
        fun _ => ⟨hv.valid, hv.fresh, hv.read, hv.dropped, hv.clock⟩⟩
    · cases h
  | reported i =>
    rw [capacityStep] at h
    dsimp only at h
    split at h
    · cases h
      have hspec := fused_answered (hQ.resume i) ⟨hG.stored, hG.memory, hG.answer⟩
      exact ⟨hspec.trans ⟨fun hright _ => hright, fun hright => hright trivial⟩, fun _ => (hQ.resume i).answered⟩
    · cases h
  | refresh =>
    cases h
    exact ⟨⟨fun _ hrelies => absurd hrelies id, fun _ => ⟨hG.stored, hG.memory, hG.answer⟩⟩,
      fun _ => ⟨hI.valid, hI.fresh, nofun, fun _ => rfl, hI.clock⟩⟩
  | restart =>
    cases h
    exact ⟨⟨fun _ hrelies => absurd hrelies id, fun _ => ⟨hG.stored, hG.memory, hG.answer⟩⟩,
      fun _ => ⟨hI.valid, hI.fresh, nofun, fun _ => rfl,
        nofun⟩⟩

theorem Inv.start : CapacityWorld.start.Inv limits :=
  ⟨nofun, fun _ => rfl, fun _ => rfl, fun _ => rfl,
    nofun⟩

theorem Fused.start : CapacityWorld.start.Fused :=
  ⟨rfl, nofun, nofun⟩

end CapacityWorld

end Steps

/-- **The capacity fuse.**  Every state of a run has the flag of the fuse in storage, and had it in
    memory when it was measured, and every call is told it, if and only if no step of the run needs a flag
    of a blown fuse that a refresh dropped from memory. -/
theorem capacity_fuse_holds (limits : CapacityLimits) (es : List CapacityEvent) :
    (capacityMachine limits).Along (fun _ _ w => w.Fused) .start es ↔
      (capacityMachine limits).Along (fun w e _ => w.Remembers limits e) .start es :=
  (capacityMachine limits).along_iff_kept_with (J := fun w => w.Inv limits)
    (fun _ _ _ hI hF h => CapacityWorld.step_spec hI hF h) es .start .start .start

/-- The limits that the object begins with. -/
def defaultLimits : CapacityLimits where
  rows := 700000
  bytes := 419430400
  rows_min := by decide
  rows_max := by decide
  bytes_min := by decide
  bytes_max := by decide

/-- A full history blocks; a refresh comes while the next measurement is on its way, which finds 90 %. -/
def refreshedMeasurement : List CapacityEvent :=
  [.call 1, .measured 0 ⟨700000, 0, 0⟩, .call 60001, .refresh, .measured 0 ⟨630000, 0, 0⟩]

/-- The fuse is reset at 90 % of the limit. -/
theorem refresh_resets_fuse : ¬ ∀ (limits : CapacityLimits) (es : List CapacityEvent) (w : CapacityWorld),
    (capacityMachine limits).run .start es = some w → w.Fused := by
  intro h
  have hflags : ((capacityMachine defaultLimits).run .start refreshedMeasurement).map
      (fun w => (w.storedFlag, fuse w.ratios)) = some (false, true) := by decide +kernel
  obtain ⟨w, hrun, hw⟩ := Option.map_eq_some_iff.mp hflags
  obtain ⟨hstored, hblown⟩ := Prod.mk.inj hw
  have hsame := (h defaultLimits refreshedMeasurement w hrun).stored
  rw [hstored, hblown] at hsame
  cases hsame

end CfMonitor.Records
