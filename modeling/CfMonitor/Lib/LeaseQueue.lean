/-
  A queue whose entries are leased to carriers until they are acknowledged.

  An entry waits under its key with a SEQUENCE NUMBER of its own and a mark that says whether it
  has been handed out.  A carrier (a message under construction, in transit or waiting to be sent
  again) holds the results it was handed and, for each key, the sequence number it was handed
  under.  Carriers are copied and moved freely; an entry is removed only by key, so a carrier may
  hold a lease of an entry that is gone, or that a later entry of the same key has replaced.

  1. **Program** — `offer` (a result per free key), `lease` (hand out in order, up to a limit),
     `Carrier.current` (forget results whose entry is gone), `settle` (remove what a list of
     carriers was handed), `prune`.

  2. **Invariant** (`Held`) — every waiting entry is either not handed out and on no carrier, or
     handed out and on exactly one, which still carries its result and no other of that key.

  3. **Rules** — one lemma for each operation, one for forgetting a carrier that holds nothing
     current (`Held.drop_idle`) and one for moving carriers around (`Held.perm`).  The order of
     arrival lists what waits (`LeaseQueue.Ordered`).
-/
import CfMonitor.Lib.Directory
import Mathlib.Data.List.Perm.Basic
import Mathlib.Data.List.Count

namespace CfMonitor.Lib

open Directory (get?_put get?_remove mem_entries)

/-- A waiting result, its sequence number, and whether a carrier was handed it. -/
structure Queued (ρ : Type) where
  result : ρ
  sequence : Nat
  leased : Bool
  deriving DecidableEq, Repr

/-- The waiting results by key, and the keys in the order of arrival. -/
structure LeaseQueue (κ ρ : Type) [LinearOrder κ] where
  pending : Directory κ (Queued ρ)
  order : List κ

/-- Results in transit, with the sequence number each key was handed out under. -/
structure Carrier (κ ρ : Type) [LinearOrder κ] where
  results : List ρ
  leases : Directory κ Nat

variable {κ ρ : Type} [LinearOrder κ] (key : ρ → κ)

/-- A carrier that was handed nothing. -/
def Carrier.empty : Carrier κ ρ := ⟨[], Directory.empty⟩

namespace LeaseQueue

/-- A queue in which nothing waits. -/
def empty : LeaseQueue κ ρ := ⟨Directory.empty, []⟩

/-- Queue each result whose key is free, under the next sequence number. -/
def offer (q : LeaseQueue κ ρ) (next : Nat) : List ρ → LeaseQueue κ ρ × Nat
  | [] => (q, next)
  | r :: rs =>
    if (q.pending.get? (key r)).isSome then q.offer next rs
    else offer ⟨q.pending.put (key r) ⟨r, next + 1, false⟩, q.order ++ [key r]⟩ (next + 1) rs

/-- Forget the order of keys under which nothing waits. -/
def prune (q : LeaseQueue κ ρ) : LeaseQueue κ ρ :=
  { q with order := q.order.filter fun k => (q.pending.get? k).isSome }

/-- Hand results out in the given order, until the carrier holds `limit` of them. -/
def leaseAlong (limit : Nat) : List κ → Directory κ (Queued ρ) → Carrier κ ρ →
    Directory κ (Queued ρ) × Carrier κ ρ
  | [], pending, c => (pending, c)
  | k :: ks, pending, c =>
    if limit ≤ c.results.length then (pending, c)
    else match pending.get? k with
      | none => leaseAlong limit ks pending c
      | some p =>
        if p.leased then leaseAlong limit ks pending c
        else leaseAlong limit ks (pending.put k { p with leased := true })
          ⟨c.results ++ [p.result], c.leases.put k p.sequence⟩

/-- Hand waiting results to a carrier, in the order of arrival. -/
def lease (q : LeaseQueue κ ρ) (limit : Nat) (c : Carrier κ ρ) : LeaseQueue κ ρ × Carrier κ ρ :=
  ({ q with pending := (leaseAlong limit q.order q.pending c).1 }, (leaseAlong limit q.order q.pending c).2)

end LeaseQueue

/-- Keep the results whose entry still waits under the sequence number they were handed out
    with; a carrier without leases is left alone. -/
def Carrier.current (pending : Directory κ (Queued ρ)) (c : Carrier κ ρ) : Carrier κ ρ :=
  if c.leases.entries.isEmpty then c
  else { c with results := c.results.filter fun r =>
    match pending.get? (key r) with
    | none => false
    | some p => p.sequence == (c.leases.get? (key r)).getD 0 }

/-- Remove the entry of `k` if it still has this sequence number. -/
def settleOne (pending : Directory κ (Queued ρ)) (lease : κ × Nat) : Directory κ (Queued ρ) :=
  match pending.get? lease.1 with
  | none => pending
  | some p => if p.sequence = lease.2 then pending.remove lease.1 else pending

/-- Remove every entry that a carrier of the list was handed. -/
def settle (pending : Directory κ (Queued ρ)) (cs : List (Carrier κ ρ)) :
    Directory κ (Queued ρ) :=
  cs.foldl (fun pending c => c.leases.entries.foldl settleOne pending) pending

/-! ## Lookup after an operation -/

variable (pending : Directory κ (Queued ρ))

theorem get?_settleOne (l : κ × Nat) {k : κ} {p : Queued ρ} : (settleOne pending l).get? k = some p
      ↔ pending.get? k = some p ∧ l ≠ (k, p.sequence) := by
  obtain ⟨m, n⟩ := l
  rw [settleOne]
  cases hm : pending.get? m with
  | none =>
    refine ⟨fun h => ⟨h, ?_⟩, fun h => h.1⟩
    rintro ⟨⟩
    cases hm.symm.trans h
  | some e =>
    show (if e.sequence = n then pending.remove m else pending).get? k = some p ↔ _
    by_cases hk : k = m
    · subst hk
      split_ifs with hn
      · subst hn
        rw [get?_remove, if_pos rfl, hm]
        refine ⟨nofun, ?_⟩
        rintro ⟨⟨⟩, h⟩
        exact absurd rfl h
      · rw [hm]
        constructor
        · rintro ⟨⟩
          exact ⟨rfl, fun h => hn (Prod.mk.inj h).2.symm⟩
        · exact fun h => h.1
    · have hne : (m, n) ≠ (k, p.sequence) := fun h => hk (Prod.mk.inj h).1.symm
      split_ifs with hn
      · rw [get?_remove, if_neg hk]
        exact ⟨fun h => ⟨h, hne⟩, fun h => h.1⟩
      · exact ⟨fun h => ⟨h, hne⟩, fun h => h.1⟩

theorem get?_foldl_settleOne (l : List (κ × Nat)) {k : κ} {p : Queued ρ} :
    ∀ pending : Directory κ (Queued ρ), (l.foldl settleOne pending).get? k = some p
      ↔ pending.get? k = some p ∧ (k, p.sequence) ∉ l := by
  induction l with
  | nil => intro pending; simp
  | cons a l ih =>
    intro pending
    rw [List.foldl_cons, ih, get?_settleOne, List.mem_cons, not_or, and_assoc, ne_comm]

/-- What waits after settling: the entries that none of the carriers was handed. -/
theorem get?_settle (cs : List (Carrier κ ρ)) {k : κ} {p : Queued ρ} :
    ∀ pending : Directory κ (Queued ρ), (settle pending cs).get? k = some p
      ↔ pending.get? k = some p ∧ ∀ c ∈ cs, c.leases.get? k ≠ some p.sequence := by
  induction cs with
  | nil => intro pending; show pending.get? k = some p ↔ _; simp
  | cons c cs ih =>
    intro pending
    show (settle (c.leases.entries.foldl settleOne pending) cs).get? k = some p ↔ _
    rw [ih, get?_foldl_settleOne, mem_entries, List.forall_mem_cons, and_assoc]

@[simp] theorem Carrier.current_leases (c : Carrier κ ρ) : (c.current key pending).leases = c.leases := by
  rw [Carrier.current]
  split_ifs <;> rfl

/-! ## What stays and what is left -/

/-- The entry still waits: the same result under the same number. -/
def Keeps (pending : Directory κ (Queued ρ)) (k : κ) (p : Queued ρ) : Prop :=
  ∃ p', pending.get? k = some p' ∧ p'.result = p.result ∧ p'.sequence = p.sequence

theorem Keeps.refl {pending : Directory κ (Queued ρ)} {k : κ} {p : Queued ρ}
    (hp : pending.get? k = some p) : Keeps pending k p := ⟨p, hp, rfl, rfl⟩

/-- An entry waits under `k` and was not handed out. -/
def waits (pending : Directory κ (Queued ρ)) (k : κ) : Bool :=
  match pending.get? k with
  | none => false
  | some p => !p.leased

namespace LeaseQueue

theorem offer_keeps (rs : List ρ) {k : κ} {p : Queued ρ} :
    ∀ {q : LeaseQueue κ ρ} {next : Nat}, q.pending.get? k = some p →
      (q.offer key next rs).1.pending.get? k = some p := by
  induction rs with
  | nil => intro q next hp; exact hp
  | cons r rs ih =>
    intro q next hp
    rw [offer]
    split_ifs with hbusy
    · exact ih hp
    · refine ih ?_
      have hne : k ≠ key r := by
        rintro rfl
        rw [hp] at hbusy
        exact hbusy rfl
      rw [get?_put, if_neg hne]
      exact hp

theorem offer_le (rs : List ρ) : ∀ (q : LeaseQueue κ ρ) (next : Nat), next ≤ (q.offer key next rs).2 := by
  induction rs with
  | nil => intro q next; exact Nat.le_refl next
  | cons r rs ih =>
    intro q next
    rw [offer]
    split_ifs
    · exact ih q next
    · exact Nat.le_of_succ_le (ih _ (next + 1))

/-- A key under which nothing waits is passed over. -/
theorem leaseAlong_skip {limit : Nat} {k : κ} {ks : List κ} {pending : Directory κ (Queued ρ)}
    {c : Carrier κ ρ} (hroom : c.results.length < limit) (hk : waits pending k = false) :
    leaseAlong limit (k :: ks) pending c = leaseAlong limit ks pending c := by
  rw [leaseAlong, if_neg (Nat.not_le.mpr hroom)]
  rw [waits] at hk
  cases hp : pending.get? k with
  | none => rfl
  | some p =>
    rw [hp] at hk
    have hl : p.leased = true := by simpa using hk
    exact if_pos hl

theorem leaseAlong_hand {limit : Nat} {k : κ} {ks : List κ} {pending : Directory κ (Queued ρ)}
    {c : Carrier κ ρ} {p : Queued ρ} (hroom : c.results.length < limit)
    (hp : pending.get? k = some p) (hl : p.leased = false) :
    leaseAlong limit (k :: ks) pending c = leaseAlong limit ks (pending.put k { p with leased := true })
          ⟨c.results ++ [p.result], c.leases.put k p.sequence⟩ := by
  rw [leaseAlong, if_neg (Nat.not_le.mpr hroom), hp]
  exact if_neg (by rw [hl]; simp)

theorem waits_cases (k : κ) : waits pending k = false ∨ ∃ p, pending.get? k = some p ∧ p.leased = false := by
  rw [waits]
  cases pending.get? k with
  | none => exact .inl rfl
  | some p =>
    cases hl : p.leased with
    | true => exact .inl (by simp [hl])
    | false => exact .inr ⟨p, rfl, hl⟩

/-- **Rule for hand-outs**: what handing out one waiting result preserves, `leaseAlong` does. -/
theorem leaseAlong_inv {P : Directory κ (Queued ρ) → Carrier κ ρ → Prop} {l : List κ}
    (hstep : ∀ pending c k p, k ∈ l → pending.get? k = some p → p.leased = false →
      P pending c → P (pending.put k { p with leased := true })
        ⟨c.results ++ [p.result], c.leases.put k p.sequence⟩) (limit : Nat) :
    ∀ (ks : List κ), ks ⊆ l → ∀ (pending : Directory κ (Queued ρ)) (c : Carrier κ ρ), P pending c →
      P (leaseAlong limit ks pending c).1 (leaseAlong limit ks pending c).2 := by
  intro ks
  induction ks with
  | nil => intro _ pending c h; exact h
  | cons k ks ih =>
    intro hks pending c h
    have hks' : ks ⊆ l := fun m hm => hks (List.mem_cons_of_mem k hm)
    by_cases hroom : c.results.length < limit
    · rcases waits_cases pending k with hk | ⟨p, hp, hl⟩
      · rw [leaseAlong_skip hroom hk]
        exact ih hks' pending c h
      · rw [leaseAlong_hand hroom hp hl]
        exact ih hks' _ _ (hstep pending c k p (hks List.mem_cons_self) hp hl h)
    · rw [leaseAlong, if_pos (Nat.not_lt.mp hroom)]
      exact h

theorem leaseAlong_keeps (limit : Nat) (ks : List κ) (pending : Directory κ (Queued ρ))
    (c : Carrier κ ρ) {k : κ} {p : Queued ρ} (hp : pending.get? k = some p) :
    Keeps (leaseAlong limit ks pending c).1 k p := by
  refine leaseAlong_inv (P := fun pending _ => Keeps pending k p) ?_ limit ks (List.Subset.refl ks)
    pending c (Keeps.refl hp)
  rintro pending c m e - hm - ⟨p', hp', hres, hseq⟩
  by_cases hk : k = m
  · subst hk
    obtain rfl : e = p' := Option.some.inj (hm.symm.trans hp')
    exact ⟨{ e with leased := true }, by rw [get?_put, if_pos rfl], hres, hseq⟩
  · exact ⟨p', by rw [get?_put, if_neg hk]; exact hp', hres, hseq⟩

theorem keeps_of_leaseAlong (limit : Nat) (ks : List κ) (pending : Directory κ (Queued ρ))
    (c : Carrier κ ρ) {k : κ} {p : Queued ρ} (hp : (leaseAlong limit ks pending c).1.get? k = some p) :
    Keeps pending k p := by
  refine leaseAlong_inv (P := fun d _ => ∀ p, d.get? k = some p → Keeps pending k p) ?_ limit ks
    (List.Subset.refl ks) pending c (fun p hp => Keeps.refl hp) p hp
  intro d c m e _ hm _ h p' hp'
  rw [get?_put] at hp'
  split_ifs at hp' with hk
  · cases hp'
    obtain ⟨p₀, hp₀, hresult, hsequence⟩ := h e (hk ▸ hm)
    exact ⟨p₀, hp₀, hresult, hsequence⟩
  · exact h p' hp'

/-- A hand-out that gave nothing to an empty carrier found nothing to give. -/
theorem leaseAlong_exhausts {limit : Nat} (hlimit : 0 < limit) (ks : List κ)
    (pending : Directory κ (Queued ρ)) {c : Carrier κ ρ} (hc : c.results = []) :
    (leaseAlong limit ks pending c).2.results = [] →
      (leaseAlong limit ks pending c).1 = pending ∧ ∀ k ∈ ks, waits pending k = false := by
  have hroom : c.results.length < limit := by rw [hc]; exact hlimit
  induction ks with
  | nil => intro _; exact ⟨rfl, by simp⟩
  | cons k ks ih =>
    rcases waits_cases pending k with hk | ⟨p, hp, hl⟩
    · rw [leaseAlong_skip hroom hk, List.forall_mem_cons]
      intro h
      exact ⟨(ih h).1, hk, (ih h).2⟩
    · rw [leaseAlong_hand hroom hp hl]
      intro h
      -- what was handed out is still there at the end
      refine absurd h (leaseAlong_inv (P := fun _ c => c.results ≠ []) ?_ limit ks
        (List.Subset.refl ks) _ _ (by simp))
      intro _ c _ _ _ _ _ _
      simp

theorem countP_waits_put {l : List κ} {k : κ} (hk : k ∈ l) {pending : Directory κ (Queued ρ)}
    {p : Queued ρ} (hp : pending.get? k = some p) (hl : p.leased = false) :
    l.countP (waits (pending.put k { p with leased := true })) < l.countP (waits pending) := by
  have hput : ∀ m, waits (pending.put k { p with leased := true }) m
      = (waits pending m && !decide (m = k)) := by
    intro m
    rw [waits, get?_put]
    by_cases hm : m = k
    · simp [hm]
    · rw [if_neg hm, waits]
      simp [hm]
  have hwaits : waits pending k = true := by rw [waits, hp]; simp [hl]
  obtain ⟨l₁, l₂, rfl⟩ := List.append_of_mem hk
  have hle : ∀ l' : List κ, l'.countP (waits (pending.put k { p with leased := true }))
      ≤ l'.countP (waits pending) := by
    intro l'
    refine List.countP_mono_left ?_
    intro m _ hm
    rw [hput] at hm
    exact (Bool.and_eq_true_iff.mp hm).1
  have h₁ := hle l₁
  have h₂ := hle l₂
  have hnot : waits (pending.put k { p with leased := true }) k = false := by rw [hput]; simp
  rw [List.countP_append, List.countP_append, List.countP_cons_of_pos hwaits,
    List.countP_cons_of_neg (by rw [hnot]; simp)]
  omega

theorem leaseAlong_uses (limit : Nat) (ks : List κ) (pending : Directory κ (Queued ρ)) (c : Carrier κ ρ) :
    (leaseAlong limit ks pending c).2.results.length + ks.countP (waits (leaseAlong limit ks pending c).1)
      ≤ c.results.length + ks.countP (waits pending) := by
  refine leaseAlong_inv (P := fun d e => e.results.length + ks.countP (waits d)
    ≤ c.results.length + ks.countP (waits pending)) ?_ limit ks (List.Subset.refl ks) pending c
    (Nat.le_refl _)
  intro d e k p hk hp hl h
  have hlt := countP_waits_put hk hp hl
  rw [List.length_append, List.length_singleton]
  omega

end LeaseQueue

/-! ## The invariant -/

/-- The carriers that were handed the entry of `k` with sequence number `n`. -/
def holders (cs : List (Carrier κ ρ)) (k : κ) (n : Nat) : List (Carrier κ ρ) :=
  cs.filter fun c => decide (c.leases.get? k = some n)

/-- Every waiting entry is on no carrier or on one, as its mark says, and the one carries it. -/
structure Held (next : Nat) (pending : Directory κ (Queued ρ)) (cs : List (Carrier κ ρ)) :
    Prop where
  keyed : ∀ {k p}, pending.get? k = some p → key p.result = k
  numbered : ∀ {k p}, pending.get? k = some p → p.sequence ≤ next
  issued : ∀ {c k n}, c ∈ cs → c.leases.get? k = some n → n ≤ next
  held : ∀ {k p}, pending.get? k = some p → (holders cs k p.sequence).length = if p.leased then 1 else 0
  carries : ∀ {c k p}, c ∈ cs → pending.get? k = some p → c.leases.get? k = some p.sequence →
    c.results.filter (fun r => decide (key r = k)) = [p.result]

/-- A carrier that was handed nothing of what waits. -/
def Idle (pending : Directory κ (Queued ρ)) (c : Carrier κ ρ) : Prop :=
  ∀ k p, pending.get? k = some p → c.leases.get? k ≠ some p.sequence

@[simp] theorem holders_nil (k : κ) (n : Nat) : holders ([] : List (Carrier κ ρ)) k n = [] := rfl

theorem holders_cons (c : Carrier κ ρ) (cs : List (Carrier κ ρ)) (k : κ) (n : Nat) : holders (c :: cs) k n
      = if c.leases.get? k = some n then c :: holders cs k n else holders cs k n := by
  simp only [holders, List.filter_cons, decide_eq_true_eq]

theorem holders_append (cs ds : List (Carrier κ ρ)) (k : κ) (n : Nat) :
    holders (cs ++ ds) k n = holders cs k n ++ holders ds k n := List.filter_append ..

theorem mem_holders {cs : List (Carrier κ ρ)} {k : κ} {n : Nat} {c : Carrier κ ρ} :
    c ∈ holders cs k n ↔ c ∈ cs ∧ c.leases.get? k = some n := by
  simp [holders]

namespace Held

variable {key} {next : Nat} {pending pending' : Directory κ (Queued ρ)} {cs ds : List (Carrier κ ρ)}

theorem nothing : Held key next (Directory.empty : Directory κ (Queued ρ)) [] where
  keyed h := absurd h (by simp)
  numbered h := absurd h (by simp)
  issued h := absurd h (by simp)
  held h := absurd h (by simp)
  carries h := absurd h (by simp)

/-- **What the invariant says of an entry**: nobody holds it, or exactly one carrier does, and
    that carrier has its result. -/
theorem holder (h : Held key next pending cs) {k : κ} {p : Queued ρ} (hp : pending.get? k = some p) :
    (p.leased = false ∧ holders cs k p.sequence = []) ∨
    (p.leased = true ∧ ∃ c, holders cs k p.sequence = [c] ∧
      c.results.filter (fun r => decide (key r = k)) = [p.result]) := by
  have hlen := h.held hp
  cases hl : p.leased with
  | false =>
    rw [hl] at hlen
    exact .inl ⟨rfl, List.length_eq_zero_iff.mp (by simpa using hlen)⟩
  | true =>
    rw [hl] at hlen
    obtain ⟨c, hc⟩ := List.length_eq_one_iff.mp (by simpa using hlen)
    have hmem : c ∈ holders cs k p.sequence := by rw [hc]; exact List.mem_singleton_self c
    obtain ⟨hcs, hlease⟩ := mem_holders.mp hmem
    exact .inr ⟨rfl, c, hc, h.carries hcs hp hlease⟩

theorem not_leased (h : Held key next pending cs) {k : κ} {p : Queued ρ}
    (hp : pending.get? k = some p) (hl : p.leased = false) {c : Carrier κ ρ} (hc : c ∈ cs) :
    c.leases.get? k ≠ some p.sequence := by
  intro hlease
  have hmem : c ∈ holders cs k p.sequence := mem_holders.mpr ⟨hc, hlease⟩
  rcases h.holder hp with ⟨-, hnil⟩ | ⟨htrue, -⟩
  · rw [hnil] at hmem
    cases hmem
  · rw [hl] at htrue
    cases htrue

/-! ## Rules that leave the queue alone -/

theorem mono {next' : Nat} (hle : next ≤ next') (h : Held key next pending cs) : Held key next' pending cs :=
  { h with
    numbered := fun hp => Nat.le_trans (h.numbered hp) hle
    issued := fun hc hl => Nat.le_trans (h.issued hc hl) hle }

/-- The order of the carriers does not matter. -/
theorem perm (hperm : cs.Perm ds) (h : Held key next pending cs) : Held key next pending ds :=
  { h with
    issued := fun hc hl => h.issued (hperm.mem_iff.mpr hc) hl
    held := fun hp => (hperm.filter _).length_eq.symm.trans (h.held hp)
    carries := fun hc hp hl => h.carries (hperm.mem_iff.mpr hc) hp hl }

/-- Forgetting entries keeps the invariant: what is left is held as before. -/
theorem sub (hsub : ∀ {k p}, pending'.get? k = some p → pending.get? k = some p)
    (h : Held key next pending cs) : Held key next pending' cs where
  keyed hp := h.keyed (hsub hp)
  numbered hp := h.numbered (hsub hp)
  issued hc hl := h.issued hc hl
  held hp := h.held (hsub hp)
  carries hc hp hl := h.carries hc (hsub hp) hl

/-- A carrier with nothing current can be added: a new one, or one whose leases are all old. -/
theorem add_idle {c : Carrier κ ρ} (hidle : Idle pending c)
    (hissued : ∀ {k n}, c.leases.get? k = some n → n ≤ next) (h : Held key next pending cs) :
    Held key next pending (c :: cs) where
  keyed := h.keyed
  numbered := h.numbered
  issued hc hl := by
    rcases List.mem_cons.mp hc with rfl | hc
    · exact hissued hl
    · exact h.issued hc hl
  held {k p} hp := by
    rw [holders_cons, if_neg (hidle k p hp)]
    exact h.held hp
  carries {d k p} hd hp hl := by
    rcases List.mem_cons.mp hd with rfl | hd
    · exact absurd hl (hidle k p hp)
    · exact h.carries hd hp hl

/-- Carriers that hold nothing current can be forgotten. -/
theorem drop_idle (hidle : ∀ c ∈ ds, Idle pending c) (h : Held key next pending (ds ++ cs)) :
    Held key next pending cs where
  keyed := h.keyed
  numbered := h.numbered
  issued hc hl := h.issued (List.mem_append_right ds hc) hl
  held {k p} hp := by
    have hnil : holders ds k p.sequence = [] := by
      refine List.filter_eq_nil_iff.mpr ?_
      intro c hc
      simpa using hidle c hc k p hp
    have hall := h.held hp
    rw [holders_append, hnil, List.nil_append] at hall
    exact hall
  carries hc hp hl := h.carries (List.mem_append_right ds hc) hp hl

theorem drop_head {c : Carrier κ ρ} (hidle : Idle pending c) (h : Held key next pending (c :: cs)) :
    Held key next pending cs :=
  drop_idle (fun _ hd => List.mem_singleton.mp hd ▸ hidle)
    (show Held key next pending ([c] ++ cs) from h)

/-- Copies that keep the leases and what is current may stand in for the carriers. -/
theorem copy {f : Carrier κ ρ → Carrier κ ρ} (hleases : ∀ c, (f c).leases = c.leases)
    (hkeep : ∀ c ∈ ds, ∀ {k p}, pending.get? k = some p → c.leases.get? k = some p.sequence →
      (f c).results.filter (fun r => decide (key r = k))
        = c.results.filter (fun r => decide (key r = k)))
    (h : Held key next pending (ds ++ cs)) : Held key next pending (ds.map f ++ cs) where
  keyed := h.keyed
  numbered := h.numbered
  issued {c k n} hc hl := by
    rcases List.mem_append.mp hc with hc | hc
    · obtain ⟨d, hd, rfl⟩ := List.mem_map.mp hc
      rw [hleases] at hl
      exact h.issued (List.mem_append_left cs hd) hl
    · exact h.issued (List.mem_append_right ds hc) hl
  held {k p} hp := by
    have hlen : (holders (ds.map f) k p.sequence).length = (holders ds k p.sequence).length := by
      show ((ds.map f).filter _).length = (ds.filter _).length
      rw [List.filter_map, List.length_map]
      simp only [Function.comp_def, hleases]
    rw [holders_append, List.length_append, hlen, ← List.length_append, ← holders_append]
    exact h.held hp
  carries {c k p} hc hp hl := by
    rcases List.mem_append.mp hc with hc | hc
    · obtain ⟨d, hd, rfl⟩ := List.mem_map.mp hc
      rw [hleases] at hl
      rw [hkeep d hd hp hl]
      exact h.carries (List.mem_append_left cs hd) hp hl
    · exact h.carries (List.mem_append_right ds hc) hp hl

theorem current_results {c : Carrier κ ρ} {k : κ} {p : Queued ρ} (hp : pending.get? k = some p)
    (hl : c.leases.get? k = some p.sequence) :
    (c.current key pending).results.filter (fun r => decide (key r = k))
      = c.results.filter (fun r => decide (key r = k)) := by
  rw [Carrier.current]
  split_ifs with hempty
  · rfl
  · show List.filter _ (List.filter _ c.results) = _
    rw [List.filter_filter]
    refine List.filter_congr ?_
    intro r _
    by_cases hr : key r = k
    · subst hr
      simp [hp, hl]
    · simp [hr]

theorem current (h : Held key next pending (ds ++ cs)) :
    Held key next pending (ds.map (Carrier.current key pending) ++ cs) :=
  h.copy (Carrier.current_leases key pending) (fun _ _ _ _ hp hl => current_results hp hl)

theorem idle_of_no_results (h : Held key next pending cs) {c : Carrier κ ρ} (hc : c ∈ cs)
    (hnone : c.results = []) : Idle pending c := by
  intro k p hp hl
  have hres := h.carries hc hp hl
  rw [hnone] at hres
  cases hres

/-! ## Rules of the operations -/

theorem put_fresh (r : ρ) (h : Held key next pending cs) :
    Held key (next + 1) (pending.put (key r) ⟨r, next + 1, false⟩) cs where
  keyed {k p} hp := by
    rw [get?_put] at hp
    split_ifs at hp with hk
    · cases hp
      exact hk.symm
    · exact h.keyed hp
  numbered {k p} hp := by
    rw [get?_put] at hp
    split_ifs at hp with hk
    · cases hp
      exact Nat.le_refl _
    · exact Nat.le_succ_of_le (h.numbered hp)
  issued hc hl := Nat.le_succ_of_le (h.issued hc hl)
  held {k p} hp := by
    rw [get?_put] at hp
    split_ifs at hp with hk
    · cases hp
      -- no carrier was handed a number that did not exist before
      have hnil : holders cs k (next + 1) = [] := by
        refine List.filter_eq_nil_iff.mpr ?_
        intro c hc hl
        have := h.issued hc (by simpa using hl)
        omega
      show (holders cs k (next + 1)).length = 0
      rw [hnil]
      rfl
    · exact h.held hp
  carries {c k p} hc hp hl := by
    rw [get?_put] at hp
    split_ifs at hp with hk
    · cases hp
      have : next + 1 ≤ next := h.issued hc hl
      omega
    · exact h.carries hc hp hl

theorem offer (rs : List ρ) : ∀ {q : LeaseQueue κ ρ} {next : Nat}, Held key next q.pending cs →
    Held key (q.offer key next rs).2 (q.offer key next rs).1.pending cs := by
  induction rs with
  | nil => intro q next h; exact h
  | cons r rs ih =>
    intro q next h
    rw [LeaseQueue.offer]
    split_ifs with hbusy
    · exact ih h
    · exact ih (h.put_fresh r)

theorem hand_out {c : Carrier κ ρ} {k : κ} {p : Queued ρ} (hp : pending.get? k = some p)
    (hfree : p.leased = false) (hnew : ∀ r ∈ c.results, key r ≠ k)
    (h : Held key next pending (c :: cs)) :
    Held key next (pending.put k { p with leased := true })
      (⟨c.results ++ [p.result], c.leases.put k p.sequence⟩ :: cs) where
  keyed {k' p'} hp' := by
    rw [get?_put] at hp'
    split_ifs at hp' with hk
    · cases hp'
      exact (h.keyed hp).trans hk.symm
    · exact h.keyed hp'
  numbered {k' p'} hp' := by
    rw [get?_put] at hp'
    split_ifs at hp' with hk
    · cases hp'
      show p.sequence ≤ next
      exact h.numbered hp
    · exact h.numbered hp'
  issued {d k' n} hd hl := by
    rcases List.mem_cons.mp hd with rfl | hd
    · rw [get?_put] at hl
      split_ifs at hl with hk
      · cases hl
        exact h.numbered hp
      · exact h.issued List.mem_cons_self hl
    · exact h.issued (List.mem_cons_of_mem c hd) hl
  held {k' p'} hp' := by
    rw [get?_put] at hp'
    rw [holders_cons]
    split_ifs at hp' with hk
    · -- the entry itself: nobody held it, now the carrier does
      subst hk
      cases hp'
      have hnone : holders (c :: cs) k' p.sequence = [] := by
        refine List.filter_eq_nil_iff.mpr ?_
        intro d hd
        simpa using h.not_leased hp hfree hd
      rw [holders_cons, if_neg (h.not_leased hp hfree List.mem_cons_self)] at hnone
      simp [hnone]
    · have hold := h.held hp'
      rw [holders_cons] at hold
      rw [show (c.leases.put k p.sequence).get? k' = c.leases.get? k' by
        rw [get?_put, if_neg hk]]
      split_ifs at hold ⊢ with hl <;> simpa using hold
  carries {d k' p'} hd hp' hl := by
    rw [get?_put] at hp'
    rcases List.mem_cons.mp hd with rfl | hd
    · show (c.results ++ [p.result]).filter _ = _
      rw [List.filter_append]
      split_ifs at hp' with hk
      · subst hk
        cases hp'
        have hnone : c.results.filter (fun r => decide (key r = k')) = [] := by
          refine List.filter_eq_nil_iff.mpr ?_
          intro r hr
          simpa using hnew r hr
        rw [hnone, List.nil_append, List.filter_cons_of_pos (by simpa using h.keyed hp)]
        rfl
      · have hother : key p.result ≠ k' := by rw [h.keyed hp]; exact Ne.symm hk
        rw [List.filter_cons_of_neg (by simpa using hother), List.filter_nil, List.append_nil]
        rw [show (c.leases.put k p.sequence).get? k' = c.leases.get? k' by
          rw [get?_put, if_neg hk]] at hl
        exact h.carries List.mem_cons_self hp' hl
    · have hd' : d ∈ c :: cs := List.mem_cons_of_mem c hd
      split_ifs at hp' with hk
      · subst hk
        cases hp'
        exact absurd hl (h.not_leased hp hfree hd')
      · exact h.carries (List.mem_cons_of_mem c hd) hp' hl

/-- Every result of the carrier waits and is marked as handed out. -/
def AllLeased (key : ρ → κ) (pending : Directory κ (Queued ρ)) (c : Carrier κ ρ) : Prop :=
  ∀ r ∈ c.results, ∃ p, pending.get? (key r) = some p ∧ p.leased = true

theorem hand_out_allLeased {c : Carrier κ ρ} {k : κ} {p : Queued ρ}
    (hk : key p.result = k) (hall : AllLeased key pending c) :
    AllLeased key (pending.put k { p with leased := true })
      ⟨c.results ++ [p.result], c.leases.put k p.sequence⟩ := by
  intro r hr
  by_cases hrk : key r = k
  · exact ⟨{ p with leased := true }, by rw [get?_put, if_pos hrk], rfl⟩
  · rcases List.mem_append.mp hr with hr | hr
    · obtain ⟨p', hp', hl'⟩ := hall r hr
      exact ⟨p', by rw [get?_put, if_neg hrk]; exact hp', hl'⟩
    · obtain rfl := List.mem_singleton.mp hr
      exact absurd hk hrk

theorem leaseAlong (limit : Nat) (ks : List κ) {c : Carrier κ ρ} (hall : AllLeased key pending c)
    (h : Held key next pending (c :: cs)) :
    Held key next (LeaseQueue.leaseAlong limit ks pending c).1
      ((LeaseQueue.leaseAlong limit ks pending c).2 :: cs) := by
  refine (LeaseQueue.leaseAlong_inv
    (P := fun d e => AllLeased key d e ∧ Held key next d (e :: cs)) ?_ limit ks
    (List.Subset.refl ks) pending c ⟨hall, h⟩).2
  rintro d e k p - hp hl ⟨hall, h⟩
  refine ⟨hand_out_allLeased (h.keyed hp) hall, h.hand_out hp hl ?_⟩
  intro r hr hk
  obtain ⟨p', hp', hl'⟩ := hall r hr
  rw [hk, hp] at hp'
  cases hp'
  rw [hl] at hl'
  cases hl'

/-- Handing out to a new carrier. -/
theorem lease (q : LeaseQueue κ ρ) (limit : Nat) (h : Held key next q.pending cs) :
    Held key next (q.lease limit Carrier.empty).1.pending ((q.lease limit Carrier.empty).2 :: cs) := by
  refine leaseAlong limit q.order nofun ?_
  refine h.add_idle ?_ ?_
  · intro k p _ hl
    simp [Carrier.empty] at hl
  · intro k n hl
    simp [Carrier.empty] at hl

theorem settle (h : Held key next pending (ds ++ cs)) : Held key next (settle pending ds) cs := by
  refine (h.sub fun hp => ((get?_settle ds pending).mp hp).1).drop_idle ?_
  intro c hc k p hp
  exact ((get?_settle ds pending).mp hp).2 c hc

end Held

/-! ## Leases that cover the results -/

/-- Every result of the carrier was handed out under some number. -/
def Carrier.Covered (c : Carrier κ ρ) : Prop := ∀ r ∈ c.results, (c.leases.get? (key r)).isSome

theorem Carrier.Covered.empty : (Carrier.empty : Carrier κ ρ).Covered key :=
  nofun

theorem Carrier.Covered.current {c : Carrier κ ρ} (h : c.Covered key) (pending : Directory κ (Queued ρ)) :
    (c.current key pending).Covered key := by
  rw [Carrier.current]
  split_ifs
  · exact h
  · exact fun r hr => h r (List.mem_filter.mp hr).1

theorem Carrier.Covered.lease {q : LeaseQueue κ ρ} {c : Carrier κ ρ} (h : c.Covered key)
    (hkeyed : ∀ {k p}, q.pending.get? k = some p → key p.result = k) (limit : Nat) :
    (q.lease limit c).2.Covered key := by
  refine (LeaseQueue.leaseAlong_inv (P := fun d e => (∀ {k p}, d.get? k = some p → key p.result = k) ∧
    e.Covered key) ?_ limit q.order (List.Subset.refl q.order) q.pending c ⟨hkeyed, h⟩).2
  rintro d e k p - hp - ⟨hkeyed, hcovered⟩
  have hkey : key p.result = k := hkeyed hp
  constructor
  · intro k' p' hp'
    rw [get?_put] at hp'
    split_ifs at hp' with hk
    · cases hp'
      exact hkey.trans hk.symm
    · exact hkeyed hp'
  · intro r hr
    rw [get?_put]
    split_ifs with hk
    · rfl
    · rcases List.mem_append.mp hr with hr | hr
      · exact hcovered r hr
      · rw [List.mem_singleton.mp hr] at hk
        exact absurd hkey hk

/-- **What a covered carrier keeps** when it forgets what is gone: results that wait under the very
    number they were handed out with. -/
theorem Carrier.Covered.mem_current {c : Carrier κ ρ} (h : c.Covered key)
    {pending : Directory κ (Queued ρ)} {r : ρ} (hr : r ∈ (c.current key pending).results) :
    ∃ p, pending.get? (key r) = some p ∧ c.leases.get? (key r) = some p.sequence := by
  rw [Carrier.current] at hr
  split_ifs at hr with hnone
  · obtain ⟨n, hn⟩ := Option.isSome_iff_exists.mp (h r hr)
    have hmem := mem_entries.mpr hn
    rw [List.isEmpty_iff.mp hnone] at hmem
    cases hmem
  · obtain ⟨hmem, hkept⟩ := List.mem_filter.mp hr
    obtain ⟨n, hn⟩ := Option.isSome_iff_exists.mp (h r hmem)
    cases hp : pending.get? (key r) with
    | none => rw [hp] at hkept; cases hkept
    | some p =>
      rw [hp, hn] at hkept
      have hsequence : p.sequence = n := by simpa using hkept
      exact ⟨p, rfl, by rw [hn, hsequence]⟩

/-! ## The order of arrival -/

namespace LeaseQueue

variable {q : LeaseQueue κ ρ} {pending : Directory κ (Queued ρ)}

/-- The order lists the keys under which something waits, each once. -/
def Ordered (q : LeaseQueue κ ρ) : Prop :=
  q.order.Nodup ∧ ∀ k, k ∈ q.order ↔ (q.pending.get? k).isSome

theorem Ordered.perm (h : q.Ordered) : q.order.Perm q.pending.names := by
  refine (List.perm_ext_iff_of_nodup h.1 q.pending.names_nodup).mpr fun k => ?_
  rw [h.2, Directory.mem_names]

theorem Ordered.empty : (LeaseQueue.empty : LeaseQueue κ ρ).Ordered :=
  ⟨List.nodup_nil, fun k => by simp [LeaseQueue.empty]⟩

theorem Ordered.prune (h : q.Ordered) (hsub : ∀ k, (pending.get? k).isSome → (q.pending.get? k).isSome) :
    (LeaseQueue.prune { q with pending := pending }).Ordered := by
  constructor
  · exact h.1.filter _
  · intro k
    show k ∈ q.order.filter (fun k => (pending.get? k).isSome) ↔ (pending.get? k).isSome
    rw [List.mem_filter, h.2]
    exact ⟨fun hk => hk.2, fun hk => ⟨hsub k hk, hk⟩⟩

/-- A result under its key, if that is free. -/
theorem Ordered.offer (h : q.Ordered) (next : Nat) (r : ρ) : (q.offer key next [r]).1.Ordered := by
  rw [LeaseQueue.offer]
  split_ifs with htaken
  · exact h
  · constructor
    · show (q.order ++ [key r]).Nodup
      refine List.nodup_append.mpr ⟨h.1, List.pairwise_singleton _ _, ?_⟩
      intro k hk k' hk' heq
      rw [List.mem_singleton.mp hk'] at heq
      exact htaken ((h.2 _).mp (heq ▸ hk))
    · intro k
      show k ∈ q.order ++ [key r] ↔ ((q.pending.put (key r) _).get? k).isSome
      rw [List.mem_append, List.mem_singleton, h.2, get?_put]
      by_cases hk : k = key r
      · simp [hk]
      · simp [hk]

/-- A result concerns its key alone. -/
theorem get?_offer_ne (q : LeaseQueue κ ρ) (next : Nat) (r : ρ) {k : κ} (hk : k ≠ key r) :
    (q.offer key next [r]).1.pending.get? k = q.pending.get? k := by
  rw [LeaseQueue.offer]
  split_ifs
  · rfl
  · show (q.pending.put (key r) _).get? k = _
    rw [get?_put, if_neg hk]

theorem isSome_leaseAlong (limit : Nat) (ks : List κ) (pending : Directory κ (Queued ρ))
    (c : Carrier κ ρ) (k : κ) :
    ((leaseAlong limit ks pending c).1.get? k).isSome = (pending.get? k).isSome := by
  refine leaseAlong_inv (P := fun d _ => (d.get? k).isSome = (pending.get? k).isSome) ?_ limit ks
    (List.Subset.refl ks) pending c rfl
  intro d c m p _ hp _ h
  rw [get?_put]
  split_ifs with hk
  · rw [← h, hk, hp]
    rfl
  · exact h

theorem Ordered.lease (h : q.Ordered) (limit : Nat) (c : Carrier κ ρ) : (q.lease limit c).1.Ordered := by
  refine ⟨h.1, fun k => (h.2 k).trans ?_⟩
  show _ ↔ ((leaseAlong limit q.order q.pending c).1.get? k).isSome
  rw [isSome_leaseAlong]

end LeaseQueue
end CfMonitor.Lib
