/-
  The size of a CPU set (`cpuSetCount` in `cgroup_cpu.go`).

  1. **Program** — a list of numbers and ranges is parsed, sorted by the first CPUs and swept once.

  2. **Sweep** — what was swept is counted, and from the first CPU of any later range up to the last
     CPU so far nothing is missing (`Swept`).

  3. **Result** — the count is the size of the union of the ranges (`cpu_set_counts_union`).
-/
import CfMonitor.Lib.Fallible
import CfMonitor.Lib.HostPort
import CfMonitor.Lib.Split

namespace CfMonitor.Agent

open CfMonitor.Lib CfMonitor.Lib.Fallible

/-! ## Program -/

/-- `strconv.Atoi`, for a 64-bit `int`. -/
def atoi (text : List Char) : Option Int :=
  let value : Option Int := match text with
    | '-' :: digits => (portNumber digits).map fun n : Nat => -(n : Int)
    | '+' :: digits => (portNumber digits).map fun n : Nat => (n : Int)
    | digits => (portNumber digits).map fun n : Nat => (n : Int)
  value.filter fun n => -2 ^ 63 ≤ n && n < 2 ^ 63

def maxCPU : Int := 1048575

/-- The first and the last CPU of a part, or nothing. -/
def cpuRange (part : List Char) : Option (Int × Int) :=
  match part.splitOn '-' with
  | [text] => do
    let first ← atoi text
    if first < 0 ∨ maxCPU < first then none else some (first, first)
  | [text, text'] => do
    let first ← atoi text
    if first < 0 ∨ maxCPU < first then none
    else
      let last ← atoi text'
      if last < first ∨ maxCPU < last then none else some (first, last)
  | _ => none

/-- One range of the sweep: the count so far and the last CPU so far. -/
def sweepStep (s : Int × Int) (item : Int × Int) : Int × Int :=
  if item.2 ≤ s.2 then s
  else
    let first := if item.1 ≤ s.2 then s.2 + 1 else item.1
    (s.1 + (item.2 - first + 1), item.2)

/-- `sortSlice` is `sort.Slice` by the first CPU. -/
def cpuSetCount (sortSlice : List (Int × Int) → List (Int × Int)) (raw : List Char) : Int × Bool :=
  match ((trimWhere isGoSpace raw).splitOn ',').mapM cpuRange with
  | none => (0, false)
  | some ranges =>
    let count := ((sortSlice ranges).foldl sweepStep (0, -1)).1
    (count, decide (0 < count))

/-- What is documented of `sort.Slice`: it need not be stable. -/
def SortsByFirst (sortSlice : List (Int × Int) → List (Int × Int)) : Prop :=
  ∀ ranges, (sortSlice ranges).Perm ranges ∧ (sortSlice ranges).Pairwise fun a b => a.1 ≤ b.1

/-! ## Specification -/

/-- A number, or two with a dash between them. -/
inductive CpuEntry (number : List Char → Int → Prop) : List Char → Int × Int → Prop where
  | single {text : List Char} {a : Int} (h : number text a) (hpos : 0 ≤ a) (hmax : a ≤ maxCPU) : CpuEntry number text (a, a)
  | range {text text' : List Char} {a b : Int} (h : number text a) (h' : number text' b) (hpos : 0 ≤ a) (hle : a ≤ b)
      (hmax : b ≤ maxCPU) : CpuEntry number (text ++ '-' :: text') (a, b)

/-- A list of entries with commas between them. -/
def CpuList (number : List Char → Int → Prop) (raw : List Char) (ranges : List (Int × Int)) : Prop :=
  ∃ parts, parts ≠ [] ∧ trimWhere isGoSpace raw = joinWith ',' parts ∧ List.Forall₂ (CpuEntry number) parts ranges

/-- A number in the syntax of `Atoi`. -/
def AtoiNumber (text : List Char) (a : Int) : Prop := atoi text = some a

/-- And without a minus sign. -/
def PlainNumber (text : List Char) (a : Int) : Prop := atoi text = some a ∧ '-' ∉ text

/-- The CPUs of some ranges. -/
noncomputable def cpus (ranges : List (Int × Int)) : Finset Int := ranges.toFinset.biUnion fun r => Finset.Icc r.1 r.2

/-! ## Parsing -/

theorem comma_not_mem_of_atoi {text : List Char} {a : Int} (h : atoi text = some a) : ',' ∉ text := by
  obtain ⟨hvalue, -⟩ := Option.filter_eq_some_iff.mp h
  have hdigits : ∀ {digits : List Char} {f : Nat → Int} {a : Int}, (portNumber digits).map f = some a → ',' ∉ digits := by
    intro digits f a h hmem
    obtain ⟨n, hn, -⟩ := Option.map_eq_some_iff.mp h
    exact absurd ((digits_of_portNumber hn).1.2 ',' hmem) (by decide)
  split at hvalue
  · exact List.not_mem_cons_of_ne_of_not_mem (by decide) (hdigits hvalue)
  · exact List.not_mem_cons_of_ne_of_not_mem (by decide) (hdigits hvalue)
  · exact hdigits hvalue

variable {part : List Char} {r : Int × Int}

theorem cpuRange_spec : cpuRange part = some r ↔ CpuEntry PlainNumber part r := by
  constructor
  · intro h
    have hjoin : joinWith '-' (part.splitOn '-') = part := List.intercalate_splitOn '-'
    have hfree : ∀ text ∈ part.splitOn '-', '-' ∉ text := fun text htext => not_mem_part htext
    rw [cpuRange] at h
    split at h
    · rename_i text hsplit
      rw [hsplit] at hjoin hfree
      obtain ⟨first, hfirst, h⟩ := Option.bind_eq_some_iff.mp h
      split_ifs at h with hbound
      cases h
      rw [← hjoin, joinWith_singleton]
      exact .single ⟨hfirst, hfree _ List.mem_cons_self⟩ (by omega) (by omega)
    · rename_i text text' hsplit
      rw [hsplit] at hjoin hfree
      obtain ⟨first, hfirst, h⟩ := Option.bind_eq_some_iff.mp h
      split_ifs at h with hbound
      obtain ⟨last, hlast, h⟩ := Option.bind_eq_some_iff.mp h
      split_ifs at h with hbound'
      cases h
      rw [← hjoin, joinWith_cons _ _ (by simp), joinWith_singleton]
      exact .range ⟨hfirst, hfree _ List.mem_cons_self⟩ ⟨hlast, hfree _ (List.mem_cons_of_mem _ List.mem_cons_self)⟩
        (by omega) (by omega) (by omega)
    · cases h
  · intro h
    cases h with
    | single h hpos hmax =>
      have hsplit := splitOn_join (List.cons_ne_nil part []) (by simpa using h.2)
      rw [joinWith_singleton] at hsplit
      rw [cpuRange, hsplit]
      exact Option.bind_eq_some_iff.mpr ⟨_, h.1, if_neg (by omega)⟩
    | @range text text' a b h h' hpos hle hmax =>
      have hsplit := splitOn_join (List.cons_ne_nil text [text']) (by simpa using ⟨h.2, h'.2⟩)
      rw [joinWith_cons _ _ (List.cons_ne_nil _ _), joinWith_singleton] at hsplit
      rw [cpuRange, hsplit]
      refine Option.bind_eq_some_iff.mpr ⟨_, h.1, ?_⟩
      rw [if_neg (by omega)]
      exact Option.bind_eq_some_iff.mpr ⟨_, h'.1, if_neg (by omega)⟩

/-! ## Sweep -/

variable {ranges : List (Int × Int)}

theorem mem_cpus {x : Int} : x ∈ cpus ranges ↔ ∃ r ∈ ranges, r.1 ≤ x ∧ x ≤ r.2 := by
  simp [cpus]

/-- After some ranges: their CPUs are counted, none is behind the last one, and up to there none is
    missing from where the next range may begin. -/
structure Swept (done : List (Int × Int)) (s : Int × Int) : Prop where
  count : s.1 = (cpus done).card
  last : ∀ x ∈ cpus done, x ≤ s.2
  full : ∀ first x, 0 ≤ first → (∀ r ∈ done, r.1 ≤ first) → first ≤ x → x ≤ s.2 → x ∈ cpus done

theorem Swept.grown {done : List (Int × Int)} {s item : Int × Int} {first : Int} (h : Swept done s)
    (hnew : cpus (done ++ [item]) = cpus done ∪ Finset.Icc first item.2) (hbehind : ∀ x ∈ cpus done, x < first)
    (hle : first ≤ item.2) (hlast : s.2 ≤ item.2)
    (hmem : ∀ x, x ∈ cpus (done ++ [item]) ↔ x ∈ cpus done ∨ item.1 ≤ x ∧ x ≤ item.2) :
    Swept (done ++ [item]) (s.1 + (item.2 - first + 1), item.2) := by
  refine ⟨?_, fun x hx => ?_, fun g x _ hg hx hend => ?_⟩
  · have hdisjoint : Disjoint (cpus done) (Finset.Icc first item.2) := by
      rw [Finset.disjoint_left]
      intro x hx hx'
      have hlt := hbehind x hx
      rw [Finset.mem_Icc] at hx'
      omega
    rw [hnew, Finset.card_union_of_disjoint hdisjoint, Int.card_Icc, Nat.cast_add, ← h.count]
    omega
  · rcases (hmem x).mp hx with hx | hx
    · exact (h.last x hx).trans hlast
    · exact hx.2
  · exact (hmem x).mpr (.inr ⟨(hg item (List.mem_append_right _ List.mem_cons_self)).trans hx, hend⟩)

/-- **One range of the sweep.** -/
theorem Swept.step {done : List (Int × Int)} {s item : Int × Int} (h : Swept done s) (hpos : 0 ≤ item.1) (hle : item.1 ≤ item.2)
    (hsorted : ∀ r ∈ done, r.1 ≤ item.1) : Swept (done ++ [item]) (sweepStep s item) := by
  have hmem : ∀ x, x ∈ cpus (done ++ [item]) ↔ x ∈ cpus done ∨ item.1 ≤ x ∧ x ≤ item.2 := by
    intro x
    simp only [mem_cpus, List.mem_append, List.mem_singleton, or_and_right, exists_or, exists_eq_left]
  have hold : ∀ x, item.1 ≤ x → x ≤ s.2 → x ∈ cpus done := fun x => h.full item.1 x hpos hsorted
  rw [sweepStep]
  split_ifs with hinside hjoined
  · -- The range adds nothing.
    have hsame : cpus (done ++ [item]) = cpus done := by
      ext x
      rw [hmem]
      exact ⟨fun hx => hx.elim id fun hx => hold x hx.1 (by omega), .inl⟩
    refine ⟨hsame ▸ h.count, hsame ▸ h.last, fun first x h0 hfirst hx hlast => hsame ▸ ?_⟩
    exact h.full first x h0 (fun r hr => hfirst r (List.mem_append_left _ hr)) hx hlast
  · -- It begins among the CPUs that were swept and adds those behind them.
    have hnew : cpus (done ++ [item]) = cpus done ∪ Finset.Icc (s.2 + 1) item.2 := by
      ext x
      rw [hmem, Finset.mem_union, Finset.mem_Icc]
      constructor
      · rintro (hx | ⟨hx, hx'⟩)
        · exact .inl hx
        · by_cases hlast : x ≤ s.2
          · exact .inl (hold x hx hlast)
          · exact .inr ⟨by omega, hx'⟩
      · rintro (hx | ⟨hx, hx'⟩)
        · exact .inl hx
        · exact .inr ⟨by omega, hx'⟩
    exact h.grown hnew (fun x hx => by have hlast := h.last x hx; omega) (by omega) (by omega) hmem
  · have hnew : cpus (done ++ [item]) = cpus done ∪ Finset.Icc item.1 item.2 := by
      ext x
      rw [hmem, Finset.mem_union, Finset.mem_Icc]
    exact h.grown hnew (fun x hx => by have hlast := h.last x hx; omega) hle (by omega) hmem

theorem swept_foldl (hsorted : ranges.Pairwise fun a b => a.1 ≤ b.1)
    (hranges : ∀ r ∈ ranges, 0 ≤ r.1 ∧ r.1 ≤ r.2) : Swept ranges (ranges.foldl sweepStep (0, -1)) := by
  induction ranges using List.reverseRecOn with
  | nil => exact ⟨rfl, nofun, fun first x h0 _ hx hlast => absurd hlast (by show ¬ x ≤ -1; omega)⟩
  | append_singleton ranges item ih =>
    obtain ⟨hbefore, -, hitem⟩ := List.pairwise_append.mp hsorted
    have hstep := ih hbefore fun r hr => hranges r (List.mem_append_left _ hr)
    obtain ⟨hpos, hle⟩ := hranges item (List.mem_append_right _ List.mem_cons_self)
    rw [List.foldl_append]
    exact hstep.step hpos hle fun r hr => hitem r hr item List.mem_cons_self

/-! ## Result -/

theorem CpuEntry.bounds {number : List Char → Int → Prop} (h : CpuEntry number part r) :
    0 ≤ r.1 ∧ r.1 ≤ r.2 := by
  cases h with
  | single h hpos hmax => exact ⟨hpos, le_rfl⟩
  | range h h' hpos hle hmax => exact ⟨hpos, hle⟩

theorem CpuEntry.no_comma (h : CpuEntry PlainNumber part r) : ',' ∉ part := by
  cases h with
  | single h hpos hmax => exact comma_not_mem_of_atoi h.1
  | range h h' hpos hle hmax =>
    intro hmem
    rcases List.mem_append.mp hmem with hmem | hmem
    · exact comma_not_mem_of_atoi h.1 hmem
    · exact comma_not_mem_of_atoi h'.1 ((List.mem_cons.mp hmem).resolve_left (by decide))

/-- **Parsing** succeeds for the lists of the specification. -/
theorem mapM_cpuRange {raw : List Char} :
    ((trimWhere isGoSpace raw).splitOn ',').mapM cpuRange = some ranges ↔ CpuList PlainNumber raw ranges := by
  rw [mapM_eq_some]
  simp only [cpuRange_spec]
  constructor
  · exact fun h => ⟨_, List.splitOn_ne_nil _ _, (List.intercalate_splitOn ',').symm, h⟩
  · rintro ⟨parts, hne, htext, h⟩
    have hplain : ∀ part ∈ parts, ',' ∉ part := by
      clear htext hne
      induction h with
      | nil => exact nofun
      | cons hentry _ ih => exact List.forall_mem_cons.mpr ⟨hentry.no_comma, ih⟩
    rwa [htext, splitOn_join hne hplain]

/-- **The CPUs of a list are counted**, each once: a list is accepted exactly if it has the form, and lists of
    the same CPUs have the same count. -/
theorem cpu_set_counts_union {sortSlice : List (Int × Int) → List (Int × Int)} (hsort : SortsByFirst sortSlice) (raw : List Char) :
    ((cpuSetCount sortSlice raw).2 = true ↔ ∃ ranges, CpuList PlainNumber raw ranges) ∧
    (∀ ranges, CpuList PlainNumber raw ranges → cpuSetCount sortSlice raw = (((cpus ranges).card : Int), true)) ∧
    ∀ ranges raw' ranges', CpuList PlainNumber raw ranges → CpuList PlainNumber raw' ranges' → cpus ranges = cpus ranges' →
      cpuSetCount sortSlice raw = cpuSetCount sortSlice raw' := by
  have hcount : ∀ raw ranges, CpuList PlainNumber raw ranges → cpuSetCount sortSlice raw = (((cpus ranges).card : Int), true) := by
    intro raw ranges hlist
    obtain ⟨hperm, hsorted⟩ := hsort ranges
    have hparts := hlist
    obtain ⟨parts, hne, -, hentries⟩ := hparts
    have hbounds : ∀ r ∈ ranges, 0 ≤ r.1 ∧ r.1 ≤ r.2 := by
      clear hne hlist hperm hsorted
      induction hentries with
      | nil => exact nofun
      | cons hentry _ ih => exact List.forall_mem_cons.mpr ⟨hentry.bounds, ih⟩
    have hsame : cpus (sortSlice ranges) = cpus ranges := by
      ext x
      simp only [mem_cpus, hperm.mem_iff]
    have hswept := (swept_foldl hsorted fun r hr => hbounds r (hperm.mem_iff.mp hr)).count
    rw [hsame] at hswept
    have hpos : (0 : Int) < (cpus ranges).card := by
      rw [Nat.cast_pos, Finset.card_pos]
      cases hentries with
      | nil => exact absurd rfl hne
      | @cons _ r _ _ hentry _ => exact ⟨r.1, mem_cpus.mpr ⟨r, List.mem_cons_self, le_rfl, hentry.bounds.2⟩⟩
    rw [cpuSetCount, mapM_cpuRange.mpr hlist]
    dsimp only
    rw [hswept, decide_eq_true hpos]
  refine ⟨⟨fun h => ?_, fun ⟨ranges, h⟩ => by rw [hcount raw ranges h]⟩, hcount raw, fun ranges raw' ranges' h h' hcpus => ?_⟩
  · rw [cpuSetCount] at h
    split at h
    · cases h
    · rename_i ranges hranges
      exact ⟨ranges, mapM_cpuRange.mp hranges⟩
  · rw [hcount raw ranges h, hcount raw' ranges' h', hcpus]

/-- A stable sort. -/
def sortByFirst (ranges : List (Int × Int)) : List (Int × Int) := ranges.mergeSort fun a b => a.1 ≤ b.1

theorem sortByFirst_sorts : SortsByFirst sortByFirst := by
  intro ranges
  refine ⟨List.mergeSort_perm _ _, ?_⟩
  have htrans : ∀ a b c : Int × Int, decide (a.1 ≤ b.1) = true → decide (b.1 ≤ c.1) = true → decide (a.1 ≤ c.1) = true := by
    simp only [decide_eq_true_eq]
    exact fun a b c => Int.le_trans
  have htotal : ∀ a b : Int × Int, (decide (a.1 ≤ b.1) || decide (b.1 ≤ a.1)) = true := by
    simp only [Bool.or_eq_true, decide_eq_true_eq]
    exact fun a b => Int.le_total a.1 b.1
  have hsorted := List.pairwise_mergeSort htrans htotal ranges
  rw [sortByFirst]
  simpa using hsorted

/-- Overlapping ranges: `0-3,2-5` are six CPUs. -/
theorem cpu_set_counts_overlap : cpuSetCount sortByFirst "0-3,2-5".toList = (6, true) := by
  have hlist : CpuList PlainNumber "0-3,2-5".toList [(0, 3), (2, 5)] := mapM_cpuRange.mp (by decide +kernel)
  exact ((cpu_set_counts_union sortByFirst_sorts _).2.1 _ hlist).trans (by decide +kernel)

/-- `Atoi` reads `-0`, but the minus sign is taken for a dash. -/
theorem minus_zero_refused : ¬ ∀ raw, (cpuSetCount sortByFirst raw).2 = true ↔ ∃ ranges, CpuList AtoiNumber raw ranges := by
  intro h
  have hrefused : (cpuSetCount sortByFirst "-0".toList).2 = false := by decide +kernel
  have hzero : atoi "-0".toList = some 0 := by decide +kernel
  have hlist : CpuList AtoiNumber "-0".toList [(0, 0)] :=
    ⟨["-0".toList], by simp, by decide +kernel, .cons (.single hzero (by decide) (by decide)) .nil⟩
  rw [(h "-0".toList).mpr ⟨_, hlist⟩] at hrefused
  cases hrefused

end CfMonitor.Agent
