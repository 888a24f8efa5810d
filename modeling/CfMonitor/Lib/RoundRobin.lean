/-
  Work on a ring, in rounds that may break off.

  The items of a ring are at the positions below `n`.  A lap visits all of them once, from the current
  position on, as long as the round is live.  A visit in a live round moves the position behind the
  item; when the round is over a visit does nothing.

  1. **Laps** (`lap`, `lapTo`) — the visits of one round, and the first of them.

  2. **One lap** (`Turns.lap_measure`) — a lap hits a target at an item, or comes nearer to it: `ahead`
     is the number of items before it, `μ` what is still to be done at the item itself.  An inner ring
     gives `μ` for an outer one.

  3. **Many rounds** (`hits_of_rounds`) — more rounds than the measure says hit the target.

  4. **The order of service** (`ring`) — positions one after another, and how runs of them join.
-/
import Mathlib.Data.List.Basic
import Mathlib.Data.List.Range
import Mathlib.Data.List.Rotate
import Mathlib.Tactic.Common

namespace CfMonitor.Lib.RoundRobin

variable {σ : Type}

/-! ## Positions -/

/-- How many items are visited before one, from a position on. -/
def ahead (n p j : Nat) : Nat := if p ≤ j then j - p else j + n - p

variable {n p : Nat}

/-- A position a part of a lap further on. -/
theorem add_mod_ring {i : Nat} (hp : p < n) (hi : i ≤ n) :
    (p + i) % n = if p + i < n then p + i else p + i - n := by
  split_ifs with h
  · exact Nat.mod_eq_of_lt h
  · rw [Nat.mod_eq_sub_mod (by omega), Nat.mod_eq_of_lt (by omega)]

variable {j : Nat}

theorem ahead_lt (hp : p < n) (hj : j < n) : ahead n p j < n := by
  rw [ahead]
  split_ifs <;> omega

/-- An item is reached after the items before it. -/
theorem add_ahead (hp : p < n) (hj : j < n) : (p + ahead n p j) % n = j := by
  rw [add_mod_ring hp (Nat.le_of_lt (ahead_lt hp hj)), ahead]
  split_ifs <;> omega

theorem add_eq_iff {i : Nat} (hp : p < n) (hj : j < n) (hi : i < n) : (p + i) % n = j ↔ i = ahead n p j := by
  rw [add_mod_ring hp (Nat.le_of_lt hi), ahead]
  split_ifs <;> omega

/-- A part of the way to an item. -/
theorem ahead_add {m : Nat} (hp : p < n) (hj : j < n) (hm : m ≤ ahead n p j) :
    ahead n ((p + m) % n) j = ahead n p j - m := by
  have hlt := ahead_lt hp hj
  rw [add_mod_ring hp (by omega)]
  rw [ahead] at hm hlt ⊢
  rw [ahead]
  split_ifs at hm hlt ⊢ <;> omega

/-! ## Laps -/

/-- The first visits of a lap. -/
def lapTo (n : Nat) (body : Nat → σ → σ) (start k : Nat) (s : σ) : σ :=
  (List.range k).foldl (fun s i => body ((start + i) % n) s) s

/-- A lap. -/
def lap (n : Nat) (body : Nat → σ → σ) (start : Nat) (s : σ) : σ := lapTo n body start n s

theorem lapTo_succ (n : Nat) (body : Nat → σ → σ) (start k : Nat) (s : σ) :
    lapTo n body start (k + 1) s = body ((start + k) % n) (lapTo n body start k s) := by
  rw [lapTo, List.range_succ, List.foldl_append]
  rfl

/-- A visit does nothing when the round is over, and moves the position otherwise. -/
structure Turns (n : Nat) (live : σ → Prop) (pos : σ → Nat) (body : Nat → σ → σ) : Prop where
  dead : ∀ i s, ¬ live s → body i s = s
  turn : ∀ i s, i < n → live s → pos (body i s) = (i + 1) % n

namespace Turns

variable {n : Nat} {live : σ → Prop} {pos : σ → Nat} {body : Nat → σ → σ}

/-- The position in a lap: as many items further on as were visited, which are all until the round
    is over, and one at least. -/
theorem pos_lapTo (h : Turns n live pos body) {s : σ} (hs : live s) (hpos : pos s < n) (k : Nat)
    (hk : k ≤ n) :
    ∃ m ≤ k, pos (lapTo n body (pos s) k s) = (pos s + m) % n ∧
      (live (lapTo n body (pos s) k s) → m = k) ∧ (0 < k → 0 < m) := by
  induction k with
  | zero => exact ⟨0, Nat.le_refl 0, (Nat.mod_eq_of_lt hpos).symm, fun _ => rfl, id⟩
  | succ k ih =>
    obtain ⟨m, hm, hat, hlive, hmoved⟩ := ih (by omega)
    rw [lapTo_succ]
    by_cases hk' : live (lapTo n body (pos s) k s)
    · obtain rfl := hlive hk'
      refine ⟨m + 1, Nat.le_refl _, ?_, fun _ => rfl, fun _ => Nat.succ_pos m⟩
      rw [h.turn _ _ (Nat.mod_lt _ (by omega)) hk', Nat.mod_add_mod, Nat.add_assoc]
    · rw [h.dead _ _ hk']
      refine ⟨m, by omega, hat, fun hl => absurd hl hk', fun _ => ?_⟩
      rcases Nat.eq_zero_or_pos k with rfl | hpos'
      · exact absurd hs hk'
      · exact hmoved hpos'

/-- **A lap hits the target at an item or comes nearer to it.**  The items before it do not touch what
    is to be done there; the round is over before the item is reached, or the item is visited. -/
theorem lap_measure (h : Turns n live pos body) (μ : σ → Nat) (hit : σ → Prop) {j : Nat} (hj : j < n)
    (hother : ∀ i s, i < n → i ≠ j → μ (body i s) = μ s)
    (hhit : ∀ i s, i < n → hit s → hit (body i s))
    (hvisit : ∀ s, live s → hit (body j s) ∨ μ (body j s) < μ s)
    {s : σ} (hs : live s) (hpos : pos s < n) :
    hit (lap n body (pos s) s) ∨ μ (lap n body (pos s) s) * n + ahead n (pos (lap n body (pos s) s)) j
        < μ s * n + ahead n (pos s) j := by
  have hd := ahead_lt hpos hj
  have hn : 0 < n := by omega
  -- until the item is reached, and behind it, nothing is done there
  have hbefore : ∀ k, k ≤ ahead n (pos s) j → μ (lapTo n body (pos s) k s) = μ s := by
    intro k
    induction k with
    | zero => exact fun _ => rfl
    | succ k ih =>
      intro hk
      have hne : (pos s + k) % n ≠ j := by
        rw [Ne, add_eq_iff hpos hj (by omega)]
        omega
      rw [lapTo_succ, hother _ _ (Nat.mod_lt _ hn) hne, ih (by omega)]
  have hafter : ∀ k, ahead n (pos s) j + 1 + k ≤ n → μ (lapTo n body (pos s) (ahead n (pos s) j + 1 + k) s)
        = μ (lapTo n body (pos s) (ahead n (pos s) j + 1) s) := by
    intro k
    induction k with
    | zero => exact fun _ => rfl
    | succ k ih =>
      intro hk
      have hne : (pos s + (ahead n (pos s) j + 1 + k)) % n ≠ j := by
        rw [Ne, add_eq_iff hpos hj (by omega)]
        omega
      rw [← Nat.add_assoc, lapTo_succ, hother _ _ (Nat.mod_lt _ hn) hne, ih (by omega)]
  by_cases hreached : live (lapTo n body (pos s) (ahead n (pos s) j) s)
  · have hlast : ahead n (pos s) j + 1 + (n - (ahead n (pos s) j + 1)) = n := by omega
    have hvisited : lapTo n body (pos s) (ahead n (pos s) j + 1) s
        = body j (lapTo n body (pos s) (ahead n (pos s) j) s) := by
      rw [lapTo_succ, add_ahead hpos hj]
    rcases hvisit _ hreached with hdone | hless
    · refine .inl ?_
      have hkept : ∀ k, hit (lapTo n body (pos s) (ahead n (pos s) j + 1 + k) s) := by
        intro k
        induction k with
        | zero => rw [Nat.add_zero, hvisited]; exact hdone
        | succ k ih =>
          rw [← Nat.add_assoc, lapTo_succ]
          exact hhit _ _ (Nat.mod_lt _ hn) ih
      have hend := hkept (n - (ahead n (pos s) j + 1))
      rwa [hlast] at hend
    · refine .inr ?_
      have hμ : μ (lap n body (pos s) s) < μ s := by
        have heq := hafter (n - (ahead n (pos s) j + 1)) (Nat.le_of_eq hlast)
        rw [hlast, hvisited] at heq
        rw [lap, heq, ← hbefore _ (Nat.le_refl _)]
        exact hless
      obtain ⟨m, -, hat, -, -⟩ := h.pos_lapTo hs hpos n (Nat.le_refl n)
      have hend : ahead n (pos (lap n body (pos s) s)) j < n :=
        ahead_lt (by rw [lap, hat]; exact Nat.mod_lt _ hn) hj
      have hstep : (μ (lap n body (pos s) s) + 1) * n ≤ μ s * n := Nat.mul_le_mul_right n hμ
      rw [Nat.add_mul, Nat.one_mul] at hstep
      omega
  · -- the round is over on the way
    refine .inr ?_
    have hstays : ∀ k, lapTo n body (pos s) (ahead n (pos s) j + k) s
        = lapTo n body (pos s) (ahead n (pos s) j) s := by
      intro k
      induction k with
      | zero => rfl
      | succ k ih => rw [← Nat.add_assoc, lapTo_succ, ih, h.dead _ _ hreached]
    have hlap : lap n body (pos s) s = lapTo n body (pos s) (ahead n (pos s) j) s := by
      have hk := hstays (n - ahead n (pos s) j)
      rwa [show ahead n (pos s) j + (n - ahead n (pos s) j) = n by omega] at hk
    obtain ⟨m, hm, hat, -, hmoved⟩ := h.pos_lapTo hs hpos (ahead n (pos s) j) (by omega)
    have hsome : 0 < ahead n (pos s) j := by
      by_contra hzero
      have hz : ahead n (pos s) j = 0 := by omega
      rw [hz] at hreached
      exact hreached hs
    rw [hlap, hbefore _ (Nat.le_refl _), hat, ahead_add hpos hj hm]
    have := hmoved hsome
    omega

end Turns

/-! ## Rounds -/

/-- **More rounds than the measure says hit the target**, if a round that does not hit it lowers the
    measure. -/
theorem hits_of_rounds {ε : Type} {round : σ → ε → σ} (μ : σ → Nat) (hit : σ → Prop) {D : ε → Prop}
    (hhit : ∀ s e, hit s → hit (round s e))
    (hround : ∀ s e, D e → hit (round s e) ∨ μ (round s e) < μ s) (rounds : List ε)
    (hrounds : ∀ e ∈ rounds, D e) (s : σ) (hs : μ s < rounds.length) : hit (rounds.foldl round s) := by
  induction rounds generalizing s with
  | nil => cases hs
  | cons e rounds ih =>
    rcases hround s e (hrounds e List.mem_cons_self) with hdone | hless
    · exact List.foldlRecOn rounds round hdone fun t ht e' _ => hhit t e' ht
    · refine ih (fun e' he' => hrounds e' (List.mem_cons_of_mem e he')) (round s e) ?_
      rw [List.length_cons] at hs
      omega

/-! ## Lists -/

section Lists

variable {α : Type}

variable {visit : σ → α → σ} {s : σ}

theorem foldl_sets (live Q : σ → Prop) {l : List α}
    (hdead : ∀ s, ∀ a ∈ l, ¬ live s → visit s a = s) (hlive : ∀ s, ∀ a ∈ l, live s → Q (visit s a)) (hl : l ≠ [])
    (hs : live s) : Q (l.foldl visit s) := by
  cases l with
  | nil => exact absurd rfl hl
  | cons a l =>
    refine List.foldlRecOn l visit (hlive s a List.mem_cons_self hs) fun t ht b hb => ?_
    by_cases htl : live t
    · exact hlive t b (List.mem_cons_of_mem a hb) htl
    · rw [hdead t b (List.mem_cons_of_mem a hb) htl]
      exact ht

/-- When the round is over, the visits of a list do nothing. -/
theorem foldl_dead (live : σ → Prop) {l : List α}
    (hdead : ∀ s, ∀ a ∈ l, ¬ live s → visit s a = s) (hs : ¬ live s) : l.foldl visit s = s := by
  induction l with
  | nil => rfl
  | cons a l ih =>
    rw [List.foldl_cons, hdead s a List.mem_cons_self hs]
    exact ih fun t b hb => hdead t b (List.mem_cons_of_mem a hb)

/-- Every item with the one after it, the last with the first. -/
def withNext (items : List α) : List (α × α) := items.zip (items.rotate 1)

theorem mem_withNext {items : List α} {turn : α × α} (h : turn ∈ withNext items) :
    turn.1 ∈ items ∧ turn.2 ∈ items := by
  obtain ⟨h1, h2⟩ := List.of_mem_zip h
  exact ⟨h1, List.mem_rotate.mp h2⟩

/-- The visit of an item of a list, at its position. -/
def visitAt (items : List α) (visit : σ → α × α → σ) (i : Nat) (s : σ) : σ :=
  if h : i < items.length then
    visit s (items.get ⟨i, h⟩, items.get ⟨(i + 1) % items.length, Nat.mod_lt _ (Nat.lt_of_le_of_lt (Nat.zero_le i) h)⟩)
  else s

theorem visitAt_lt {items : List α} {visit : σ → α × α → σ} {i : Nat} (hi : i < items.length) {j : Nat}
    (hj : j < items.length) (hij : (i + 1) % items.length = j) (s : σ) :
    visitAt items visit i s = visit s (items.get ⟨i, hi⟩, items.get ⟨j, hj⟩) := by
  subst hij
  exact dif_pos hi

theorem visitAt_keeps (I : σ → Prop) {items : List α} {visit : σ → α × α → σ}
    (h : ∀ s turn, turn.1 ∈ items → I s → I (visit s turn)) (i : Nat) (hs : I s) :
    I (visitAt items visit i s) := by
  rw [visitAt]
  split_ifs with hi
  · exact h s _ (List.get_mem items ⟨i, hi⟩) hs
  · exact hs

theorem foldl_range {β : Type} (f : σ → β → σ) (l : List β) (s : σ) {n : Nat} (hn : l.length = n) :
    l.foldl f s = (List.range n).foldl (fun s i => if h : i < l.length then f s (l.get ⟨i, h⟩) else s) s := by
  induction l using List.reverseRecOn generalizing n with
  | nil =>
    obtain rfl := hn
    rfl
  | append_singleton l a ih =>
    have hrange : List.range n = List.range l.length ++ [l.length] := by
      rw [← hn, List.length_append, List.length_singleton, List.range_succ]
    have hlast : ∀ t, (if h : l.length < (l ++ [a]).length then f t ((l ++ [a]).get ⟨l.length, h⟩) else t)
        = f t a := by
      intro t
      rw [dif_pos (by simp), List.get_eq_getElem, List.getElem_concat_length]
      rfl
    rw [List.foldl_append, ih rfl, hrange, List.foldl_append, List.foldl_cons, List.foldl_nil, List.foldl_cons, List.foldl_nil, hlast]
    congr 1
    refine List.foldl_ext _ _ s fun t i hi => ?_
    have hlt : i < l.length := List.mem_range.mp hi
    have hlt' : i < (l ++ [a]).length := by
      rw [List.length_append]
      omega
    rw [dif_pos hlt, dif_pos hlt', List.get_eq_getElem, List.get_eq_getElem, List.getElem_append_left hlt]

/-- **Visiting the items from a position on is a lap.** -/
theorem foldl_withNext (items : List α) (visit : σ → α × α → σ) {start : Nat} (hstart : start < items.length)
    (s : σ) :
    (withNext (items.drop start ++ items.take start)).foldl visit s
      = lap items.length (visitAt items visit) start s := by
  have hlength : (withNext (items.rotate start)).length = items.length := by
    simp [withNext]
  rw [← List.rotate_eq_drop_append_take (Nat.le_of_lt hstart), foldl_range _ _ _ hlength, lap, lapTo]
  refine List.foldl_ext _ _ s fun t i hi => ?_
  have hi := List.mem_range.mp hi
  have hmod : (start + i) % items.length < items.length := Nat.mod_lt _ (by omega)
  rw [dif_pos (by rw [hlength]; exact hi), visitAt, dif_pos hmod]
  congr 1
  simp only [withNext, List.get_eq_getElem, List.getElem_zip, List.getElem_rotate, List.length_rotate]
  refine Prod.ext ?_ ?_
  · simp only [Nat.add_comm i start]
  · have hnext : ((i + 1) % items.length + start) % items.length
        = ((start + i) % items.length + 1) % items.length := by
      rw [Nat.mod_add_mod, Nat.mod_add_mod]
      congr 1
      omega
    simp only [hnext]

end Lists

/-! ## The order of service -/

/-- Positions one after another. -/
def ring (n start k : Nat) : List Nat := (List.range k).map fun i => (start + i) % n

theorem ring_add (n start a b : Nat) :
    ring n start (a + b) = ring n start a ++ ring n ((start + a) % n) b := by
  rw [ring, ring, ring, List.range_add, List.map_append, List.map_map]
  congr 1
  refine List.map_congr_left fun i _ => ?_
  show (start + (a + i)) % n = ((start + a) % n + i) % n
  rw [Nat.mod_add_mod, Nat.add_assoc]

theorem ring_succ (n start k : Nat) : ring n start (k + 1) = ring n start k ++ [(start + k) % n] := by
  rw [ring, List.range_succ, List.map_append]
  rfl

end CfMonitor.Lib.RoundRobin
