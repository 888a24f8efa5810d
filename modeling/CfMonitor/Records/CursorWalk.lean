/-
  Following the cursors of history.

  1. **Text** — the cursor that `history_cursor_key` writes for a line is accepted by
     `readTimeCursorParam` as it is and read back by `history_cursor`
     (`readTimeCursorParam_key`, `historyCursor_key`).

  2. **One page** — a page shows the first lines of what is left, and its cursor leaves the others
     (`Shows`, `shows_first`, `shows_next`).

  3. **All pages** — by induction on the lines that are left, the answers end and show each of them
     once (`answers_from`).
-/
import CfMonitor.Records.CursorPages
import Mathlib.Data.List.Perm.Basic
import Mathlib.Data.List.TakeWhile

namespace CfMonitor.Records

open CfMonitor.Lib CfMonitor.Lib.Paging

/-! ## Text -/

section Text

variable {T : TimeText} {time id ordinal : Int}

/-- What the cursor relies on for an instant: it is written with four digits for the year, read back
    as the same instant, and known to `Date.parse`. -/
structure TimeText.Legible (T : TimeText) (time : Int) : Prop where
  shape : isInstant (T.toJsonb time).toList = true
  back : T.timestamptz (T.toJsonb time) = some time
  parsed : (T.dateParse (T.toJsonb time)).isSome = true

variable {c : Char}

theorem ne_bar_of_isDigit (h : c.isDigit = true) : c ≠ '|' := by
  rintro rfl
  cases h

theorem val_of_isDigit (h : c.isDigit = true) : 48 ≤ c.val.toNat ∧ c.val.toNat ≤ 57 := by
  rw [Char.isDigit, Bool.and_eq_true, decide_eq_true_eq, decide_eq_true_eq] at h
  exact h

theorem not_blank_of_isDigit (h : c.isDigit = true) :
    (c.val == 0x20 || (9 ≤ c.val && c.val ≤ 13)) = false := by
  obtain ⟨hlo, -⟩ := val_of_isDigit h
  rw [Bool.eq_false_iff]
  intro hblank
  simp only [Bool.or_eq_true, beq_iff_eq, Bool.and_eq_true, decide_eq_true_eq,
    UInt32.le_iff_toNat_le, ← UInt32.toNat_inj] at hblank
  have : (0x20 : UInt32).toNat = 32 := rfl
  have : (13 : UInt32).toNat = 13 := rfl
  omega

theorem isTrimmed_of_isDigit (h : c.isDigit = true) : isTrimmed c = false := by
  obtain ⟨hlo, hhi⟩ := val_of_isDigit h
  rw [Bool.eq_false_iff]
  intro htrim
  simp only [isTrimmed, Bool.or_eq_true, beq_iff_eq, Bool.and_eq_true, decide_eq_true_eq,
    UInt32.le_iff_toNat_le, ← UInt32.toNat_inj, UInt32.reduceToNat] at htrim
  omega

variable {cs : List Char}

theorem dropShape_eq_some {shape rest : List Char} (h : dropShape shape cs = some rest)
    (hbar : '|' ∉ shape) : ∃ front, cs = front ++ rest ∧ '|' ∉ front ∧ front.length = shape.length := by
  fun_induction dropShape shape cs with
  | case1 cs =>
    cases h
    exact ⟨[], rfl, by simp, rfl⟩
  | case2 shape c cs hdigit ih =>
    obtain ⟨front, rfl, hno, hlen⟩ := ih h (fun hm => hbar (List.mem_cons_of_mem _ hm))
    refine ⟨c :: front, rfl, ?_, by simp [hlen]⟩
    rw [List.mem_cons, not_or]
    exact ⟨(ne_bar_of_isDigit hdigit).symm, hno⟩
  | case3 => cases h
  | case4 shape c cs hd ih =>
    obtain ⟨front, rfl, hno, hlen⟩ := ih h (fun hm => hbar (List.mem_cons_of_mem _ hm))
    refine ⟨c :: front, rfl, ?_, by simp [hlen]⟩
    rw [List.mem_cons, not_or]
    exact ⟨fun heq => hbar (heq ▸ List.mem_cons_self ..), hno⟩
  | case5 => cases h
  | case6 => cases h

theorem isOffset_spec (h : isOffset cs = true) : '|' ∉ cs ∧ cs.length ≤ 6 := by
  fun_cases isOffset cs with
  | case1 => decide
  | case2 cs =>
    obtain ⟨front, rfl, hno, hlen⟩ := dropShape_eq_some (eq_of_beq h) (by decide)
    simpa [hlen] using hno
  | case3 cs =>
    obtain ⟨front, rfl, hno, hlen⟩ := dropShape_eq_some (eq_of_beq h) (by decide)
    simpa [hlen] using hno
  | case4 => simp [isOffset, *] at h

theorem isInstant_spec (h : isInstant cs = true) : '|' ∉ cs ∧ cs.length ≤ 32 := by
  rw [isInstant] at h
  split at h
  · rename_i rest heq
    obtain ⟨front, rfl, hno, hlen⟩ := dropShape_eq_some heq (by decide)
    simp only [Bool.and_eq_true, decide_eq_true_eq] at h
    obtain ⟨⟨-, hsix⟩, hoff⟩ := h
    obtain ⟨hoffbar, hofflen⟩ := isOffset_spec hoff
    have hdigits : '|' ∉ rest.takeWhile Char.isDigit := fun hm =>
      ne_bar_of_isDigit (List.mem_takeWhile_imp hm) rfl
    have hrest : rest = rest.takeWhile Char.isDigit ++ rest.dropWhile Char.isDigit :=
      (List.takeWhile_append_dropWhile ..).symm
    have hrestbar : '|' ∉ rest := by
      rw [hrest, List.mem_append, not_or]
      exact ⟨hdigits, hoffbar⟩
    have hrestlen : rest.length ≤ 12 := by
      rw [hrest, List.length_append]
      omega
    have hshape : "dddd-dd-ddTdd:dd:dd".toList.length = 19 := by decide
    constructor
    · simp [hno, hrestbar]
    · simp only [List.length_append, List.length_cons]
      omega
  · rename_i rest _ heq
    obtain ⟨front, rfl, hno, hlen⟩ := dropShape_eq_some heq (by decide)
    obtain ⟨hoffbar, hofflen⟩ := isOffset_spec h
    have hshape : "dddd-dd-ddTdd:dd:dd".toList.length = 19 := by decide
    constructor
    · simp [hno, hoffbar]
    · rw [List.length_append]
      omega
  · cases h

/-! ### Numbers -/

theorem toList_repr {n : Int} (h : 0 ≤ n) : n.repr.toList = Nat.toDigits 10 n.toNat := by
  obtain ⟨m, rfl⟩ := Int.eq_ofNat_of_zero_le h
  exact Nat.toList_repr

theorem bar_notMem_toDigits (n : Nat) : '|' ∉ Nat.toDigits 10 n := by
  intro hm
  exact ne_bar_of_isDigit (Nat.isDigit_of_mem_toDigits (by decide) (by decide) hm) rfl

theorem all_isDigit_toDigits (n : Nat) : (Nat.toDigits 10 n).all Char.isDigit = true := by
  rw [List.all_eq_true]
  intro c hc
  exact Nat.isDigit_of_mem_toDigits (by decide) (by decide) hc

variable {n : Nat}

theorem toDigits_eq_cons (h : 0 < n) : ∃ c cs, Nat.toDigits 10 n = c :: cs ∧ c ≠ '0' := by
  induction n using Nat.strongRecOn with
  | ind n ih =>
    by_cases hlt : n < 10
    · have hdigit : ∀ m : Fin 10, 0 < m.val → m.val.digitChar ≠ '0' := by decide
      exact ⟨n.digitChar, [], Nat.toDigits_of_lt_base hlt, hdigit ⟨n, hlt⟩ h⟩
    · obtain ⟨c, cs, heq, hc⟩ := ih (n / 10) (by omega) (by omega)
      refine ⟨c, cs ++ [Nat.digitChar (n % 10)], ?_, hc⟩
      rw [Nat.toDigits_of_base_le (by decide) (by omega), heq]
      rfl

theorem isPositiveDigits_toDigits {k : Nat} (h : 0 < n) (hlt : n < 10 ^ (k + 1)) :
    isPositiveDigits k (Nat.toDigits 10 n) = true := by
  obtain ⟨c, cs, heq, hc⟩ := toDigits_eq_cons h
  have hall := all_isDigit_toDigits n
  have hlen : (Nat.toDigits 10 n).length ≤ k + 1 :=
    (Nat.length_toDigits_le_iff (by decide) (by omega)).mpr hlt
  rw [heq, List.all_cons, Bool.and_eq_true] at hall
  rw [heq, List.length_cons] at hlen
  rw [heq, isPositiveDigits]
  simp [hall.1, hall.2, hc]
  omega

theorem isDigits_toDigits {k : Nat} (hlt : n < 10 ^ (k + 1)) : isDigits k (Nat.toDigits 10 n) = true := by
  rw [isDigits, Bool.or_eq_true]
  rcases Nat.eq_zero_or_pos n with rfl | hpos
  · exact .inl rfl
  · exact .inr (isPositiveDigits_toDigits hpos hlt)

theorem readDigits_toDigits (n : Nat) : readDigits (Nat.toDigits 10 n) = some n := by
  rw [readDigits, if_pos ⟨Nat.toDigits_ne_nil, all_isDigit_toDigits n⟩, Nat.ofDigitChars_ten_toDigits]

/-- Nothing is taken off a list that begins and ends with kept characters. -/
theorem dropWhile_both {p : Char → Bool} {l : List Char} (hhead : ∀ c ∈ l.head?, p c = false)
    (hlast : ∀ c ∈ l.getLast?, p c = false) : ((l.dropWhile p).reverse.dropWhile p).reverse = l := by
  have hkeep : ∀ m : List Char, (∀ c ∈ m.head?, p c = false) → m.dropWhile p = m := by
    intro m hm
    cases m with
    | nil => rfl
    | cons c cs => exact List.dropWhile_cons_of_neg (by simp [hm c rfl])
  rw [hkeep l hhead, hkeep l.reverse (by rwa [List.head?_reverse]), List.reverse_reverse]

theorem castInteger_toString {max n : Int} (h : 0 ≤ n) (hle : n ≤ max) :
    castInteger max (String.ofList (Nat.toDigits 10 n.toNat)) = some n := by
  obtain ⟨m, rfl⟩ := Int.eq_ofNat_of_zero_le h
  have hdigit : ∀ c ∈ Nat.toDigits 10 m, c.isDigit = true := by
    intro c hc
    exact Nat.isDigit_of_mem_toDigits (by decide) (by decide) hc
  have hblank : ∀ c ∈ Nat.toDigits 10 m, (c.val == 0x20 || (9 ≤ c.val && c.val ≤ 13)) = false := by
    intro c hc
    exact not_blank_of_isDigit (hdigit c hc)
  rw [castInteger, String.toList_ofList, Int.toNat_natCast,
    dropWhile_both (fun c hc => hblank c (List.mem_of_mem_head? hc))
      (fun c hc => hblank c (List.mem_of_getLast? hc))]
  obtain ⟨c, cs, hcons⟩ := List.exists_cons_of_ne_nil (Nat.toDigits_ne_nil (b := 10) (n := m))
  have hc := hdigit c (hcons ▸ List.mem_cons_self ..)
  have hread := readDigits_toDigits m
  rw [hcons] at hread ⊢
  have hminus : c ≠ '-' := by
    rintro rfl
    cases hc
  have hplus : c ≠ '+' := by
    rintro rfl
    cases hc
  simp [hminus, hplus, hread, Option.filter_eq_some_iff]
  omega

/-! ### The key of a line -/

/-- A line whose key can be sent. -/
structure Sendable (T : TimeText) (time id ordinal : Int) : Prop where
  legible : T.Legible time
  id_pos : 1 ≤ id
  id_le : id ≤ maxBigint
  ordinal_nonneg : 0 ≤ ordinal
  ordinal_le : ordinal ≤ maxInteger

section

variable (h : Sendable T time id ordinal)

include h

theorem toList_historyCursorKey : (historyCursorKey T time id ordinal).toList =
      ['|'].intercalate [['v', '1'], (T.toJsonb time).toList, Nat.toDigits 10 id.toNat,
        Nat.toDigits 10 ordinal.toNat] := by
  have hid : 0 ≤ id := by have := h.id_pos; omega
  simp [historyCursorKey, toList_repr hid, toList_repr h.ordinal_nonneg, List.intercalate, List.intersperse]

theorem splitOn_historyCursorKey : (historyCursorKey T time id ordinal).toList.splitOn '|' =
      [['v', '1'], (T.toJsonb time).toList, Nat.toDigits 10 id.toNat, Nat.toDigits 10 ordinal.toNat] := by
  rw [toList_historyCursorKey h]
  apply List.splitOn_intercalate
  · intro l hl
    simp only [List.mem_cons, List.not_mem_nil, or_false] at hl
    rcases hl with rfl | rfl | rfl | rfl
    · decide
    · exact (isInstant_spec h.legible.shape).1
    · exact bar_notMem_toDigits _
    · exact bar_notMem_toDigits _
  · simp

theorem take_historyCursorKey : (historyCursorKey T time id ordinal).toList.take 3 = ['v', '1', '|'] := by
  rw [toList_historyCursorKey h]
  rfl

theorem historyCursor_key : historyCursor T (some (historyCursorKey T time id ordinal)) =
      some ⟨some time, some id, some ordinal⟩ := by
  have hid : 0 ≤ id := by have := h.id_pos; omega
  simp [historyCursor, take_historyCursorKey h, splitPart, splitOn_historyCursorKey h, h.legible.back,
    castInteger_toString hid h.id_le, castInteger_toString h.ordinal_nonneg h.ordinal_le]

theorem trim_historyCursorKey :
    trim (historyCursorKey T time id ordinal) = historyCursorKey T time id ordinal := by
  have hlist := toList_historyCursorKey h
  rw [trim, dropWhile_both, String.ofList_toList]
  · intro c hc
    rw [hlist] at hc
    cases hc
    decide
  · intro c hc
    have hlast : (historyCursorKey T time id ordinal).toList.getLast? =
        (Nat.toDigits 10 ordinal.toNat).getLast? := by
      obtain ⟨d, ds, hcons⟩ :=
        List.exists_cons_of_ne_nil (Nat.toDigits_ne_nil (b := 10) (n := ordinal.toNat))
      have hfront : ['|'].intercalate [['v', '1'], (T.toJsonb time).toList, Nat.toDigits 10 id.toNat,
          d :: ds] = (['v', '1', '|'] ++ (T.toJsonb time).toList ++ ['|'] ++
            Nat.toDigits 10 id.toNat ++ ['|']) ++ d :: ds := by
        simp [List.intercalate, List.intersperse]
      rw [hlist, hcons, hfront, List.getLast?_append, List.getLast?_cons, Option.some_or]
    rw [hlast] at hc
    exact isTrimmed_of_isDigit (Nat.isDigit_of_mem_toDigits (by decide) (by decide) (List.mem_of_getLast? hc))

theorem cursorGroups_key : cursorGroups (historyCursorKey T time id ordinal) =
      some (T.toJsonb time, id.toNat, ordinal.toNat) := by
  have hid : isPositiveDigits 18 (Nat.toDigits 10 id.toNat) = true := by
    have hpos := h.id_pos
    have hle := h.id_le
    rw [maxBigint] at hle
    exact isPositiveDigits_toDigits (by omega) (by omega)
  have hordinal : isDigits 9 (Nat.toDigits 10 ordinal.toNat) = true := by
    have hle := h.ordinal_le
    rw [maxInteger] at hle
    exact isDigits_toDigits (by omega)
  simp [cursorGroups, splitOn_historyCursorKey h, h.legible.shape, hid, hordinal,
    Nat.ofDigitChars_ten_toDigits]

theorem length_historyCursorKey : (historyCursorKey T time id ordinal).length ≤ 128 := by
  have htime := (isInstant_spec h.legible.shape).2
  have hid : (Nat.toDigits 10 id.toNat).length ≤ 19 := by
    have hle := h.id_le
    rw [maxBigint] at hle
    exact (Nat.length_toDigits_le_iff (by decide) (by decide)).mpr (by omega)
  have hordinal : (Nat.toDigits 10 ordinal.toNat).length ≤ 10 := by
    have hle := h.ordinal_le
    rw [maxInteger] at hle
    exact (Nat.length_toDigits_le_iff (by decide) (by decide)).mpr (by omega)
  rw [← String.length_toList, toList_historyCursorKey h]
  simp [List.intercalate, List.intersperse] at htime ⊢
  omega

theorem readTimeCursorParam_key : readTimeCursorParam T (some (historyCursorKey T time id ordinal)) true =
      .ok (some (historyCursorKey T time id ordinal)) := by
  have htake := take_historyCursorKey h
  have hne : historyCursorKey T time id ordinal ≠ "" := by
    intro heq
    rw [heq] at htake
    cases htake
  have hparsed : (T.dateParse (T.toJsonb time)).isNone = false := by
    rw [← Option.not_isSome, h.legible.parsed]
    rfl
  have hid : ¬ ((id.toNat : Int) > maxBigint) := by
    have := h.id_pos
    have := h.id_le
    omega
  have hordinal : ¬ ((ordinal.toNat : Int) > maxInteger) := by
    have := h.ordinal_nonneg
    have := h.ordinal_le
    omega
  rw [readTimeCursorParam]
  simp only [Option.getD_some, trim_historyCursorKey h, hne, if_false, htake, and_self, if_true,
    cursorGroups_key h, length_historyCursorKey h, decide_true, Option.filter_some, hparsed,
    hid, hordinal, or_self, Bool.false_eq_true]

end

end Text

/-! ## One page -/

section Pages

variable {ρ line κ : Type} [LinearOrder κ] {T : TimeText} {V : View ρ line κ}

/-- The three views agree in this: a cursor compares as the lines do, later lines are larger, ids and
    ordinals fit into a cursor, and a line belongs to one row. -/
structure View.Lawful (V : View ρ line κ) (rowId rowTime : ρ → Int) : Prop where
  before_eq : ∀ l c, V.before l (V.time c) (V.id c) (some (V.ordinal c)) = decide (V.key l < V.key c)
  later : ∀ l c, V.time c < V.time l → V.key c < V.key l
  bounded : ∀ rows, ∀ l ∈ V.lines rows,
    1 ≤ V.id l ∧ V.id l ≤ maxBigint ∧ 0 ≤ V.ordinal l ∧ V.ordinal l ≤ maxInteger
  keys_nodup : ∀ rows : List ρ, (rows.map rowId).Nodup → ((V.lines rows).map V.key).Nodup
  mem_lines : ∀ rows l, l ∈ V.lines rows ↔ ∃ r ∈ rows, l ∈ V.lines [r]
  time_eq : ∀ r l, l ∈ V.lines [r] → V.time l = rowTime r

/-- A page shows the first lines of those that are left, from the last one upwards, says whether
    there are more, and if so names the last line it shows. -/
structure Shows (T : TimeText) (V : View ρ line κ) (limit : Nat) (p : Page line) (left : List line) :
    Prop where
  data_eq : p.data.reverse = left.take limit
  more_iff : p.hasMore = true ↔ limit < left.length
  cursor_eq : p.hasMore = true → ∀ c, left[limit - 1]? = some c → p.nextCursor = some (V.time c) ∧
      p.nextCursorKey = some (historyCursorKey T (V.time c) (V.id c) (V.ordinal c))

omit [LinearOrder κ] in
theorem View.limitValue_pos (limit : Option Int) : 1 ≤ V.limitValue limit := by
  rw [View.limitValue]
  omega

variable {left : List line}

theorem shows_pageOf (page : Int) {limit : Int} (hlimit : 1 ≤ limit) (hfall : Falling V.key left) :
    Shows T V limit.toNat (V.pageOf T page limit (left.take (limit + 1).toNat)) left := by
  obtain ⟨n, rfl⟩ : ∃ n : Nat, limit = n + 1 := ⟨(limit - 1).toNat, by omega⟩
  have hraw : descending V.key (left.take (n + 2)) = left.take (n + 2) :=
    descending_eq hfall.take (List.Perm.refl _)
  have hdata : (left.take (n + 2)).take (n + 1) = left.take (n + 1) := by
    rw [List.take_take, Nat.min_eq_left (by omega)]
  have hascending : ascending V.key (left.take (n + 1)) = (left.take (n + 1)).reverse :=
    ascending_eq_reverse hfall.take
  have hmore : ((left.take (n + 2)).length : Int) > n + 1 ↔ n + 1 < left.length := by
    rw [List.length_take]
    omega
  have hone : ((n : Int) + 1 + 1).toNat = n + 2 := by omega
  have htwo : ((n : Int) + 1).toNat = n + 1 := by omega
  rw [hone, htwo]
  constructor
  · simp only [View.pageOf, htwo, hraw, hdata, hascending, List.reverse_reverse]
  · simp only [View.pageOf, decide_eq_true_eq]
    exact hmore
  · intro hm c hc
    simp only [View.pageOf, decide_eq_true_eq] at hm
    have hhead : (left.take (n + 1)).reverse.head? = some c := by
      rw [List.head?_reverse, List.getLast?_eq_getElem?, List.length_take,
        Nat.min_eq_left (le_of_lt (hmore.mp hm)), List.getElem?_take_of_lt (by omega)]
      exact hc
    simp only [View.pageOf, htwo, hraw, hdata, hascending, hm, decide_true, if_true, hhead,
      Option.map_some, and_self]

variable {rows : List ρ}

theorem shows_first (limit : Option Int) (hkeys : ((V.lines rows).map V.key).Nodup) :
    ∃ p, pagedBy T V rows (some 1) limit = some p ∧
      Shows T V (V.limitValue limit).toNat p (descending V.key (V.lines rows)) := by
  refine ⟨_, ?_, shows_pageOf 1 (View.limitValue_pos limit) (falling_descending hkeys)⟩
  simp [pagedBy, View.rawRows, maxInteger]

theorem shows_next {rowId rowTime : ρ → Int} {c : line}
    (hV : V.Lawful rowId rowTime) (limit : Option Int) (hids : (rows.map rowId).Nodup)
    (hsend : Sendable T (V.time c) (V.id c) (V.ordinal c)) (hfall : Falling V.key left)
    (hleft : ∀ x, x ∈ left ↔ x ∈ V.lines rows ∧ V.key x < V.key c) :
    ∃ p, cursorBy T V rows (some (historyCursorKey T (V.time c) (V.id c) (V.ordinal c))) limit = some p ∧
      Shows T V (V.limitValue limit).toNat p left := by
  have hfilter : (V.lines rows).filter (V.beyond ⟨some (V.time c), some (V.id c), some (V.ordinal c)⟩) =
      (V.lines rows).filter (fun x => decide (V.key x < V.key c)) := by
    apply List.filter_congr
    intro x _
    exact hV.before_eq x c
  have hnodup : (V.lines rows).Nodup := List.Nodup.of_map _ (hV.keys_nodup rows hids)
  have hperm : ((V.lines rows).filter (fun x => decide (V.key x < V.key c))).Perm left := by
    rw [List.perm_ext_iff_of_nodup (hnodup.filter _) hfall.nodup]
    intro x
    rw [hleft, List.mem_filter, decide_eq_true_eq]
  refine ⟨_, ?_, shows_pageOf 1 (View.limitValue_pos limit) hfall⟩
  simp [cursorBy, historyCursor_key hsend, View.rawRows, hfilter, descending_eq hfall hperm]

end Pages

/-! ## All pages -/

section Walk

variable {ρ line κ : Type} [LinearOrder κ] {rowId rowTime : ρ → Int} {T : TimeText} {V : View ρ line κ}
  {tables : Nat → Table ρ rowId} {limit : Option Int}

/-- Rows are only added, and what is added before a request is later than the cursor it sends. -/
structure AddedLater (rowTime : ρ → Int) (tables : Nat → Table ρ rowId) (answers : Nat → Reply line) :
    Prop where
  kept : ∀ k, (tables k).rows ⊆ (tables (k + 1)).rows
  later : ∀ k p t, answers k = .page p → p.nextCursor = some t →
    ∀ r ∈ (tables (k + 1)).rows, r ∈ (tables k).rows ∨ t < rowTime r

/-- The answers are pages and then nothing more; read from its last line upwards, one page after the
    other, they show the expected lines from the largest down, each of them once. -/
def ReadsAll (key : line → κ) (answers : Nat → Reply line) (expected : List line) : Prop :=
  ∃ pages : List (Page line), (∀ k, answers k = (pages[k]?).elim .done .page) ∧
    Falling key (pages.flatMap fun p => p.data.reverse) ∧ (pages.flatMap fun p => p.data).Perm expected

variable {k : Nat}

theorem answers_done (h : V.answers T tables limit k = .done) (j : Nat) :
    V.answers T tables limit (k + j) = .done := by
  induction j with
  | zero => exact h
  | succ j ih =>
    rw [View.answers] at ih
    rw [View.answers, ← Nat.add_assoc, answerAt, ih]

variable {p : Page line}

theorem answers_last (h : V.answers T tables limit k = .page p)
    (hmore : p.hasMore = false) : V.answers T tables limit (k + 1) = .done := by
  rw [View.answers] at h ⊢
  simp only [answerAt, h, hmore, Bool.false_eq_true, if_false]

/-- The request after a page that has more. -/
theorem answers_next {q : Page line} {c : line} (h : V.answers T tables limit k = .page p)
    (hmore : p.hasMore = true) (hsend : Sendable T (V.time c) (V.id c) (V.ordinal c))
    (hkey : p.nextCursorKey = some (historyCursorKey T (V.time c) (V.id c) (V.ordinal c)))
    (hq : cursorBy T V (tables (k + 1)).rows
      (some (historyCursorKey T (V.time c) (V.id c) (V.ordinal c))) limit = some q) :
    V.answers T tables limit (k + 1) = .page q := by
  rw [View.answers] at h ⊢
  simp only [answerAt, h, hmore, if_true, requestAfter, hkey, readTimeCursorParam_key hsend, hq,
    Option.elim_some]

/-- What is left at a page: lines of the table, with every line below one of them. -/
structure Rest (V : View ρ line κ) (rows : List ρ) (left : List line) : Prop where
  falling : Falling V.key left
  mem : ∀ x ∈ left, x ∈ V.lines rows
  closed : ∀ x ∈ V.lines rows, ∀ c ∈ left, V.key x < V.key c → x ∈ left

variable {left : List line}

/-- The lines below a cursor stay the same when later rows are added. -/
theorem Rest.drop {rows rows' : List ρ} {n : Nat} {c : line}
    (hV : V.Lawful rowId rowTime) (h : Rest V rows left) (hc : left[n]? = some c)
    (hkept : rows ⊆ rows') (hlater : ∀ r ∈ rows', r ∈ rows ∨ V.time c < rowTime r) (x : line) :
    x ∈ left.drop (n + 1) ↔ x ∈ V.lines rows' ∧ V.key x < V.key c := by
  rw [mem_drop_iff h.falling hc]
  constructor
  · rintro ⟨hx, hlt⟩
    obtain ⟨r, hr, hxr⟩ := (hV.mem_lines rows x).mp (h.mem x hx)
    exact ⟨(hV.mem_lines rows' x).mpr ⟨r, hkept hr, hxr⟩, hlt⟩
  · rintro ⟨hx, hlt⟩
    obtain ⟨r, hr, hxr⟩ := (hV.mem_lines rows' x).mp hx
    rcases hlater r hr with hold | hnew
    · have hline : x ∈ V.lines rows := (hV.mem_lines rows x).mpr ⟨r, hold, hxr⟩
      exact ⟨h.closed x hline c (List.mem_of_getElem? hc) hlt, hlt⟩
    · rw [← hV.time_eq r x hxr] at hnew
      exact absurd (hV.later x c hnew) (lt_asymm hlt)

theorem answers_fit
    (hp : V.answers T tables limit k = .page p) (hshows : Shows T V (V.limitValue limit).toNat p left)
    (hfits : left.length ≤ (V.limitValue limit).toNat) :
    (∀ j, V.answers T tables limit (k + j) = ([p][j]?).elim .done .page) ∧
      ([p].flatMap fun p => p.data.reverse) = left := by
  have hmore : p.hasMore = false := by
    rw [Bool.eq_false_iff]
    intro hmore
    have hlong := hshows.more_iff.mp hmore
    omega
  constructor
  · intro j
    cases j with
    | zero => exact hp
    | succ j =>
      have hdone := answers_done (answers_last hp hmore) j
      rwa [Nat.add_right_comm] at hdone
  · rw [List.flatMap_cons, List.flatMap_nil, List.append_nil, hshows.data_eq, List.take_of_length_le hfits]

theorem answers_from (hV : V.Lawful rowId rowTime)
    (hlegible : ∀ k, ∀ r ∈ (tables k).rows, T.Legible (rowTime r))
    (hadded : AddedLater rowTime tables (V.answers T tables limit)) (n : Nat) :
    ∀ (left : List line) (k : Nat) (p : Page line), left.length ≤ n →
      V.answers T tables limit k = .page p → Shows T V (V.limitValue limit).toNat p left →
      Rest V (tables k).rows left →
      ∃ pages : List (Page line),
        (∀ j, V.answers T tables limit (k + j) = ((p :: pages)[j]?).elim .done .page) ∧
        ((p :: pages).flatMap fun p => p.data.reverse) = left := by
  have hpos : 1 ≤ V.limitValue limit := View.limitValue_pos limit
  obtain ⟨m, hm⟩ : ∃ m, (V.limitValue limit).toNat = m + 1 :=
    ⟨(V.limitValue limit).toNat - 1, by omega⟩
  induction n with
  | zero =>
    intro left k p hlen hp hshows _
    exact ⟨[], answers_fit hp hshows (by omega)⟩
  | succ n ih =>
    intro left k p hlen hp hshows hrest
    by_cases hfits : left.length ≤ (V.limitValue limit).toNat
    · exact ⟨[], answers_fit hp hshows hfits⟩
    · have hmore : p.hasMore = true := hshows.more_iff.mpr (by omega)
      have hlong : m + 1 < left.length := by omega
      obtain ⟨c, hc⟩ : ∃ c, left[m]? = some c := ⟨_, List.getElem?_eq_getElem (by omega)⟩
      obtain ⟨hcursor, hkey⟩ := hshows.cursor_eq hmore c (by rw [hm]; exact hc)
      have hcline : c ∈ V.lines (tables k).rows := hrest.mem c (List.mem_of_getElem? hc)
      have hsend : Sendable T (V.time c) (V.id c) (V.ordinal c) := by
        obtain ⟨hid, hidle, hord, hordle⟩ := hV.bounded _ c hcline
        obtain ⟨r, hr, hcr⟩ := (hV.mem_lines _ c).mp hcline
        have hlegible := hlegible k r hr
        rw [← hV.time_eq r c hcr] at hlegible
        exact ⟨hlegible, hid, hidle, hord, hordle⟩
      have hdrop := hrest.drop hV hc (hadded.kept k) (hadded.later k p _ hp hcursor)
      obtain ⟨q, hq, hqshows⟩ :=
        shows_next hV limit (tables (k + 1)).ids_nodup hsend hrest.falling.drop hdrop
      have hnext := answers_next hp hmore hsend hkey hq
      have hqrest : Rest V (tables (k + 1)).rows (left.drop (m + 1)) := by
        refine ⟨hrest.falling.drop, fun x hx => ((hdrop x).mp hx).1, ?_⟩
        intro x hx d hd hlt
        exact (hdrop x).mpr ⟨hx, lt_trans hlt ((hdrop d).mp hd).2⟩
      have hshort : (left.drop (m + 1)).length ≤ n := by
        rw [List.length_drop]
        omega
      obtain ⟨pages, hpages, hdata⟩ := ih _ (k + 1) q hshort hnext hqshows hqrest
      refine ⟨q :: pages, ?_, ?_⟩
      · intro j
        cases j with
        | zero => exact hp
        | succ j =>
          have hpage := hpages j
          rwa [Nat.add_right_comm] at hpage
      · rw [List.flatMap_cons, hdata, hshows.data_eq, hm, List.take_append_drop]

/-- Following the cursors of a view. -/
theorem reads_all (hV : V.Lawful rowId rowTime) (hlegible : ∀ k, ∀ r ∈ (tables k).rows, T.Legible (rowTime r))
    (hadded : AddedLater rowTime tables (V.answers T tables limit)) :
    ReadsAll V.key (V.answers T tables limit) (V.lines (tables 0).rows) := by
  have hkeys := hV.keys_nodup _ (tables 0).ids_nodup
  obtain ⟨p, hp, hshows⟩ := shows_first (T := T) limit hkeys
  have hfirst : V.answers T tables limit 0 = .page p := by
    simp [View.answers, answerAt, requestAfter, readTimeCursorParam, trim, hp]
  have hrest : Rest V (tables 0).rows (descending V.key (V.lines (tables 0).rows)) := by
    refine ⟨falling_descending hkeys, fun x hx => descending_perm.mem_iff.mp hx, ?_⟩
    intro x hx c _ _
    exact descending_perm.mem_iff.mpr hx
  obtain ⟨pages, hpages, hdata⟩ := answers_from hV hlegible hadded _ _ 0 p le_rfl hfirst hshows hrest
  refine ⟨p :: pages, ?_, ?_, ?_⟩
  · intro k
    have hpage := hpages k
    rwa [Nat.zero_add] at hpage
  · rw [hdata]
    exact falling_descending hkeys
  · have hsame : ((p :: pages).flatMap fun p => p.data).Perm
        ((p :: pages).flatMap fun p => p.data.reverse) :=
      List.Perm.flatMap_left _ fun q _ => (List.reverse_perm q.data).symm
    rw [hdata] at hsame
    exact hsame.trans descending_perm

end Walk

/-! ## The three tables -/

theorem pair_lt_of_time {κ : Type} [LinearOrder κ] {t t' : Int} {x x' : κ} (h : t < t') :
    toLex (t, x) < toLex (t', x') :=
  Prod.Lex.toLex_lt_toLex.mpr (.inl h)

theorem recordsView_lawful (μ : Type) (client : String) (range : TimeRange) :
    (recordsView μ client range).Lawful MonitorRecord.id MonitorRecord.time where
  before_eq _ _ := rfl
  later _ _ h := pair_lt_of_time h
  bounded rows r _ := ⟨r.id_pos, r.id_le, le_rfl, (by decide : (0 : Int) ≤ maxInteger)⟩
  keys_nodup rows h := by
    have hids : ((((recordsView μ client range).lines rows).map (recordsView μ client range).key).map
        fun p => (ofLex p).2).Nodup := by
      rw [List.map_map]
      exact h.sublist (List.filter_sublist.map _)
    exact hids.of_map
  mem_lines rows r := by
    simp only [recordsView, List.mem_filter, List.mem_singleton]
    constructor
    · rintro ⟨hr, hsel⟩
      exact ⟨r, hr, rfl, hsel⟩
    · rintro ⟨r, hr, rfl, hsel⟩
      exact ⟨hr, hsel⟩
  time_eq r l h := by
    simp only [recordsView, List.mem_filter, List.mem_singleton] at h
    rw [← h.1]
    rfl

theorem pingView_lawful (client : String) (taskId : Int) :
    (pingView client taskId).Lawful PingSnapshot.id PingSnapshot.time where
  before_eq _ _ := rfl
  later _ _ h := pair_lt_of_time h
  bounded rows l _ := ⟨l.row.id_pos, l.row.id_le, le_rfl, (by decide : (0 : Int) ≤ maxInteger)⟩
  keys_nodup rows h := by
    have hids : ((((pingView client taskId).lines rows).map (pingView client taskId).key).map
        fun p => (ofLex p).2).Nodup := by
      simp only [pingView, List.map_map]
      exact h.sublist (List.filter_sublist.map _)
    exact hids.of_map
  mem_lines rows l := by
    simp only [pingView, List.mem_map, List.mem_filter, List.mem_singleton]
    constructor
    · rintro ⟨r, ⟨hr, hsel⟩, rfl⟩
      exact ⟨r, hr, r, ⟨rfl, hsel⟩, rfl⟩
    · rintro ⟨r, hr, r', ⟨rfl, hsel⟩, rfl⟩
      exact ⟨r', ⟨hr, hsel⟩, rfl⟩
  time_eq r l h := by
    simp only [pingView, List.mem_map, List.mem_filter, List.mem_singleton] at h
    obtain ⟨r', ⟨rfl, -⟩, rfl⟩ := h
    rfl

/-- A device of a row has the row's id and its own place, counted from one. -/
theorem mem_gpuLines {r : GpuSnapshot} {l : GpuLine} (h : l ∈ gpuLines r) :
    l.row = r ∧ 1 ≤ l.deviceOrdinal ∧ l.deviceOrdinal ≤ maxInteger := by
  rw [gpuLines, List.mem_map] at h
  obtain ⟨⟨device, i⟩, hi, rfl⟩ := h
  have hlo := List.le_snd_of_mem_zipIdx hi
  have hhi := List.snd_lt_add_of_mem_zipIdx hi
  have hlen : ((Json.arr? (some r.devicesJson)).getD []).length < 2 ^ 28 := by
    cases hdevices : r.devicesJson with
    | arr items => exact r.devices_lt items hdevices
    | _ => simp [Json.arr?]
  rw [maxInteger]
  simp only at hlo hhi ⊢
  exact ⟨trivial, by omega, by omega⟩

theorem gpuLines_ordinals (r : GpuSnapshot) : ((gpuLines r).map GpuLine.deviceOrdinal).Nodup := by
  have heq : (gpuLines r).map GpuLine.deviceOrdinal =
      ((((Json.arr? (some r.devicesJson)).getD []).zipIdx 1).map Prod.snd).map Nat.cast := by
    rw [gpuLines, List.map_map, List.map_map]
    rfl
  rw [heq, List.zipIdx_map_snd]
  exact List.Nodup.map (fun _ _ h => Int.ofNat.inj h) List.nodup_range'

theorem gpuView_lawful (client : String) (range : TimeRange) :
    (gpuView client range).Lawful GpuSnapshot.id GpuSnapshot.time where
  before_eq _ _ := rfl
  later _ _ h := pair_lt_of_time h
  bounded rows l h := by
    simp only [gpuView, List.mem_flatMap] at h
    obtain ⟨r, -, hl⟩ := h
    obtain ⟨-, hlo, hhi⟩ := mem_gpuLines hl
    exact ⟨l.row.id_pos, l.row.id_le, Int.le_trans (by decide) hlo, hhi⟩
  keys_nodup rows h := by
    simp only [gpuView, List.map_flatMap]
    apply List.nodup_flatMap.mpr
    constructor
    · intro r _
      have hordinals : (((gpuLines r).map fun l => toLex (l.row.time, toLex (l.row.id, l.deviceOrdinal))).map
          fun p => (ofLex (ofLex p).2).2).Nodup := by
        rw [List.map_map]
        exact gpuLines_ordinals r
      exact hordinals.of_map
    · -- Devices of two rows differ in the ids of their rows.
      have hids := List.pairwise_map.mp h
      refine (hids.sublist List.filter_sublist).imp ?_
      intro r r' hne k hk hk'
      rw [List.mem_map] at hk hk'
      obtain ⟨l, hl, rfl⟩ := hk
      obtain ⟨l', hl', heq⟩ := hk'
      have hid : l'.row.id = l.row.id := congrArg (fun p => (ofLex (ofLex p).2).1) heq
      rw [(mem_gpuLines hl).1, (mem_gpuLines hl').1] at hid
      exact hne hid.symm
  mem_lines rows l := by
    simp only [gpuView, List.mem_flatMap, List.mem_filter, List.mem_singleton]
    constructor
    · rintro ⟨r, ⟨hr, hsel⟩, hl⟩
      exact ⟨r, hr, r, ⟨rfl, hsel⟩, hl⟩
    · rintro ⟨r, hr, r', ⟨rfl, hsel⟩, hl⟩
      exact ⟨r', ⟨hr, hsel⟩, hl⟩
  time_eq r l h := by
    simp only [gpuView, List.mem_flatMap, List.mem_filter, List.mem_singleton] at h
    obtain ⟨r', ⟨rfl, -⟩, hl⟩ := h
    have hrow := (mem_gpuLines hl).1
    rw [← hrow]
    rfl

/-! ## The walk over history -/

/-- Following the cursors of history: for each of the three tables, over any content and with later
    rows added between the requests. -/
theorem history_pages_complete (T : TimeText) (client : String) (range : TimeRange) (taskId : Int)
    (limit : Option Int) :
    (∀ (μ : Type) (tables : Nat → Table (MonitorRecord μ) MonitorRecord.id),
      (∀ k, ∀ r ∈ (tables k).rows, T.Legible r.time) →
      AddedLater MonitorRecord.time tables (recordsAnswers T tables client range limit) →
      ReadsAll (recordsView μ client range).key (recordsAnswers T tables client range limit)
        ((recordsView μ client range).lines (tables 0).rows)) ∧
    (∀ tables : Nat → Table GpuSnapshot GpuSnapshot.id, (∀ k, ∀ r ∈ (tables k).rows, T.Legible r.time) →
      AddedLater GpuSnapshot.time tables (gpuAnswers T tables client range limit) →
      ReadsAll (gpuView client range).key (gpuAnswers T tables client range limit)
        ((gpuView client range).lines (tables 0).rows)) ∧
    (∀ tables : Nat → Table PingSnapshot PingSnapshot.id, (∀ k, ∀ r ∈ (tables k).rows, T.Legible r.time) →
      AddedLater PingSnapshot.time tables (pingAnswers T tables client taskId limit) →
      ReadsAll (pingView client taskId).key (pingAnswers T tables client taskId limit)
        ((pingView client taskId).lines (tables 0).rows)) := by
  refine ⟨?_, ?_, ?_⟩
  · intro μ tables hlegible hadded
    exact reads_all (recordsView_lawful μ client range) hlegible hadded
  · intro tables hlegible hadded
    exact reads_all (gpuView_lawful client range) hlegible hadded
  · intro tables hlegible hadded
    exact reads_all (pingView_lawful client taskId) hlegible hadded

/-- The text of the first microseconds of 1970, as a server in UTC writes it. -/
def epochJsonb (t : Int) : String :=
  if t = 0 then "1970-01-01T00:00:00+00:00" else "1970-01-01T00:00:00.00000" ++ toString t ++ "+00:00"

def epochTimestamptz (text : String) : Option Int :=
  ([0, 1, 2, 3, 4, 5, 6, 7, 8, 9] : List Int).find? fun t => text = epochJsonb t

def epochText : TimeText where
  toJsonb := epochJsonb
  timestamptz := epochTimestamptz
  dateParse text := (epochTimestamptz text).map fun _ => 0
  toISOString _ := "1970-01-01T00:00:00.000Z"

/-- A record of client `a`. -/
def recordAt (id time : Int) (h : 1 ≤ id ∧ id ≤ maxBigint) : MonitorRecord Unit :=
  { id, client := "a", time, metrics := (), id_pos := h.1, id_le := h.2 }

/-- Two records of one instant; a later one is added after the first page. -/
def recordsGrowing : Nat → Table (MonitorRecord Unit) MonitorRecord.id
  | 0 => ⟨[recordAt 1 1 (by decide), recordAt 2 1 (by decide)], by decide⟩
  | _ + 1 => ⟨[recordAt 1 1 (by decide), recordAt 2 1 (by decide), recordAt 3 5 (by decide)], by decide⟩

/-- A snapshot of two devices. -/
def gpuPair : Table GpuSnapshot GpuSnapshot.id :=
  ⟨[⟨maxBigint, "a", 1, .arr [.null, .null], by decide, by decide, by
      intro items h
      obtain rfl := Json.arr.inj h
      decide⟩], by simp⟩

/-- A snapshot of one value under the task 7. -/
def pingAt (id value : Int) (h : 1 ≤ id ∧ id ≤ maxBigint) : PingSnapshot :=
  ⟨id, "a", 1, .obj [("7", .int value)], h.1, h.2⟩

def pingPair : Table PingSnapshot PingSnapshot.id :=
  ⟨[pingAt 1 20 (by decide), pingAt 2 30 (by decide)], by decide⟩

theorem epochText_legible : epochText.Legible 1 ∧ epochText.Legible 5 :=
  ⟨⟨by decide, by decide, by decide⟩, ⟨by decide, by decide, by decide⟩⟩

theorem addedLater_const {ρ line : Type} {rowId : ρ → Int} (rowTime : ρ → Int) (table : Table ρ rowId)
    (answers : Nat → Reply line) : AddedLater rowTime (fun _ => table) answers where
  kept _ := List.Subset.refl _
  later _ _ _ _ _ _ hr := .inl hr

/-- The time of a page's cursor. -/
def Reply.cursorTime {line : Type} : Reply line → Option Int
  | .page p => p.nextCursor
  | _ => none

theorem history_pages_complete_pairs : ReadsAll (recordsView Unit "a" ⟨some 0, some 9⟩).key
        (recordsAnswers epochText recordsGrowing "a" ⟨some 0, some 9⟩ (some 1))
        ((recordsView Unit "a" ⟨some 0, some 9⟩).lines (recordsGrowing 0).rows) ∧
      ReadsAll (gpuView "a" ⟨some 0, some 9⟩).key
        (gpuAnswers epochText (fun _ => gpuPair) "a" ⟨some 0, some 9⟩ (some 1))
        ((gpuView "a" ⟨some 0, some 9⟩).lines gpuPair.rows) ∧
      ReadsAll (pingView "a" 7).key (pingAnswers epochText (fun _ => pingPair) "a" 7 (some 1))
        ((pingView "a" 7).lines pingPair.rows) := by
  obtain ⟨hrecords, hgpu, hping⟩ :=
    history_pages_complete epochText "a" ⟨some 0, some 9⟩ 7 (some 1)
  obtain ⟨hone, hfive⟩ := epochText_legible
  refine ⟨hrecords Unit recordsGrowing ?_ ⟨?_, ?_⟩, hgpu _ ?_ (addedLater_const _ _ _),
    hping _ ?_ (addedLater_const _ _ _)⟩
  · intro k r hr
    cases k with
    | zero =>
      simp only [recordsGrowing, List.mem_cons, List.not_mem_nil, or_false] at hr
      rcases hr with rfl | rfl <;> exact hone
    | succ k =>
      simp only [recordsGrowing, List.mem_cons, List.not_mem_nil, or_false] at hr
      rcases hr with rfl | rfl | rfl
      · exact hone
      · exact hone
      · exact hfive
  · intro k
    cases k with
    | zero => exact List.subset_append_left _ [recordAt 3 5 (by decide)]
    | succ k => exact List.Subset.refl _
  · intro k p t hp ht r hr
    cases k with
    | zero =>
      have hcursor : (recordsAnswers epochText recordsGrowing "a" ⟨some 0, some 9⟩ (some 1) 0).cursorTime =
          some 1 := by decide
      rw [hp, Reply.cursorTime, ht] at hcursor
      cases hcursor
      simp only [recordsGrowing, List.mem_cons, List.not_mem_nil, or_false] at hr ⊢
      rcases hr with rfl | rfl | rfl
      · exact .inl (.inl rfl)
      · exact .inl (.inr rfl)
      · exact .inr (by decide)
    | succ k => exact .inl hr
  · intro k r hr
    obtain rfl := List.mem_singleton.mp hr
    exact hone
  · intro k r hr
    simp only [pingPair, List.mem_cons, List.not_mem_nil, or_false] at hr
    rcases hr with rfl | rfl <;> exact hone

/-- A page lists its lines upwards, so that the pages one after the other do not fall. -/
theorem page_rises : (∀ r ∈ (recordsGrowing 0).rows, epochText.Legible r.time) ∧
      AddedLater MonitorRecord.time (fun _ => recordsGrowing 0)
        (recordsAnswers epochText (fun _ => recordsGrowing 0) "a" ⟨some 0, some 9⟩ (some 2)) ∧
      ¬ ∃ pages : List (Page (MonitorRecord Unit)),
        (∀ k, recordsAnswers epochText (fun _ => recordsGrowing 0) "a" ⟨some 0, some 9⟩ (some 2) k =
          (pages[k]?).elim .done .page) ∧
        Falling (recordsView Unit "a" ⟨some 0, some 9⟩).key (pages.flatMap fun p => p.data) := by
  refine ⟨?_, addedLater_const _ _ _, ?_⟩
  · intro r hr
    simp only [recordsGrowing, List.mem_cons, List.not_mem_nil, or_false] at hr
    rcases hr with rfl | rfl <;> exact epochText_legible.1
  · rintro ⟨pages, hpages, hfall⟩
    obtain ⟨first, hfirst, hdata⟩ :
        ∃ p, recordsAnswers epochText (fun _ => recordsGrowing 0) "a" ⟨some 0, some 9⟩ (some 2) 0 = .page p ∧
          p.data = [recordAt 1 1 (by decide), recordAt 2 1 (by decide)] := ⟨_, rfl, rfl⟩
    have hzero := hpages 0
    rw [hfirst] at hzero
    cases pages with
    | nil => exact absurd hzero (by simp)
    | cons p pages =>
      obtain rfl := Reply.page.inj hzero
      rw [List.flatMap_cons, hdata] at hfall
      have hlt := (List.pairwise_cons.mp hfall).1 _ (List.mem_cons_self ..)
      exact absurd hlt (by decide)

end CfMonitor.Records
