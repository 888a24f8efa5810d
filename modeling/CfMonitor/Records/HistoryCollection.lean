/-
  What a client has collected of its ping history.

  1. **Text** — a time that is written with up to six digits after the second is read to the microsecond
     (`preciseHistoryTime_writes`), and the cursor of a line as the place of the line.

  2. **Map** — the records of a collection are those of certain lines (`Holds`); sorted, they rise by time
     and id, each once (`Shown`).

  3. **Loop** — by induction on the pages: what the map holds and what is left at the cursor are together
     all lines in the range (`collectLoop_shown`).

  4. **Series** (`ping_series_complete`) — a series is what the table holds of a task, within the range.
-/
import CfMonitor.Lib.Split
import CfMonitor.Records.CursorWalk
import CfMonitor.Records.HistoryClient

namespace CfMonitor.Records

open CfMonitor.Lib CfMonitor.Lib.Paging
open List (mem_append mem_cons mem_filter mem_of_mem_take)

/-! ## Text -/

/-- A text for an instant: the digits after the second are up to six, or the second is full; and the
    database and `Date.parse` read it, the one to the microsecond and the other to the millisecond. -/
structure TimeText.Writes (T : TimeText) (text : String) (time : Int) : Prop where
  bar : '|' ∉ text.toList
  back : T.timestamptz text = some time
  parsed : T.dateParse text = some (time / 1000)
  digits : ∃ front zone : List Char, '.' ∉ front ∧ isZone zone = true ∧
    ((text.toList = front ++ zone ∧ time % 1000000 = 0) ∨
      ∃ ds : List Char, ds ≠ [] ∧ ds.length ≤ 6 ∧ (∀ c ∈ ds, c.isDigit = true) ∧
        text.toList = front ++ '.' :: (ds ++ zone) ∧
        time % 1000000 = Nat.ofDigitChars 10 ds 0 * 10 ^ (6 - ds.length))

section Text

variable {T : TimeText} {text : String} {time id : Int}

theorem ne_dot_of_isDigit {c : Char} (h : c.isDigit = true) : c ≠ '.' := by
  rintro rfl
  cases h

variable {cs : List Char}

theorem isMinutes_spec (h : isMinutes cs = true) : '.' ∉ cs := by
  fun_cases isMinutes cs with
  | case1 => simp
  | case2 c d =>
    simp only [isMinutes, Bool.and_eq_true] at h
    simp [(ne_dot_of_isDigit h.1).symm, (ne_dot_of_isDigit h.2).symm]
  | case3 colon c d =>
    simp only [isMinutes, Bool.and_eq_true, beq_iff_eq] at h
    obtain ⟨⟨rfl, hc⟩, hd⟩ := h
    simp [(ne_dot_of_isDigit hc).symm, (ne_dot_of_isDigit hd).symm]
  | case4 => simp [isMinutes, *] at h

theorem isZone_spec (h : isZone cs = true) : '.' ∉ cs ∧ cs ≠ [] ∧ ∀ c ∈ cs.head?, c.isDigit = false := by
  fun_cases isZone cs with
  | case1 => decide
  | case2 => decide
  | case3 sign a b rest =>
    simp only [isZone, Bool.and_eq_true, Bool.or_eq_true, beq_iff_eq] at h
    obtain ⟨⟨⟨hsign, ha⟩, hb⟩, hrest⟩ := h
    have hsignDot : '.' ≠ sign ∧ sign.isDigit = false := by
      rcases hsign with rfl | rfl <;> decide
    refine ⟨?_, by simp, fun c hc => ?_⟩
    · simp [hsignDot.1, (ne_dot_of_isDigit ha).symm, (ne_dot_of_isDigit hb).symm, isMinutes_spec hrest]
    · cases hc
      exact hsignDot.2
  | case4 => simp [isZone, *] at h

theorem fractionDigits_noDot (h : '.' ∉ cs) : fractionDigits cs = [] := by
  induction cs with
  | nil => rfl
  | cons c cs ih =>
    rw [mem_cons, not_or] at h
    rw [fractionDigits, if_neg fun hc => h.1 hc.1.symm]
    exact ih h.2

/-- Nothing before the first dot matters. -/
theorem fractionDigits_append {front rest : List Char} (h : '.' ∉ front) :
    fractionDigits (front ++ rest) = fractionDigits rest := by
  induction front with
  | nil => rfl
  | cons c cs ih =>
    rw [mem_cons, not_or] at h
    rw [List.cons_append, fractionDigits, if_neg fun hc => h.1 hc.1.symm]
    exact ih h.2

variable {ds : List Char}

theorem fractionDigits_dot {zone : List Char} (hne : ds ≠ []) (hds : ∀ c ∈ ds, c.isDigit = true)
    (hzone : isZone zone = true) : fractionDigits ('.' :: (ds ++ zone)) = ds := by
  obtain ⟨-, -, hhead⟩ := isZone_spec hzone
  have htake : (ds ++ zone).takeWhile Char.isDigit = ds := by
    rw [List.takeWhile_append_of_pos hds]
    cases zone with
    | nil => exact List.append_nil ds
    | cons c cs => rw [List.takeWhile_cons_of_neg (by simp [hhead c rfl]), List.append_nil]
  have hdrop : (ds ++ zone).dropWhile Char.isDigit = zone := by
    rw [List.dropWhile_append_of_pos hds]
    cases zone with
    | nil => rfl
    | cons c cs => exact List.dropWhile_cons_of_neg (by simp [hhead c rfl])
  rw [fractionDigits, htake, hdrop, if_pos ⟨rfl, hne, hzone⟩]

theorem ofDigitChars_lt (cs : List Char) (h : ∀ c ∈ cs, c.isDigit = true) :
    Nat.ofDigitChars 10 cs 0 < 10 ^ cs.length := by
  induction cs with
  | nil => simp
  | cons c cs ih =>
    have hrest := ih fun d hd => h d (List.mem_cons_of_mem _ hd)
    obtain ⟨-, hhi⟩ := val_of_isDigit (h c List.mem_cons_self)
    have hdigit : c.toNat - '0'.toNat ≤ 9 := by
      have hzero : '0'.toNat = 48 := rfl
      have hval : c.toNat = c.val.toNat := rfl
      omega
    rw [Nat.ofDigitChars_cons, Nat.ofDigitChars_eq_ofDigitChars_zero, List.length_cons, Nat.pow_succ]
    have hbound : 10 ^ cs.length * (10 * 0 + (c.toNat - '0'.toNat)) ≤ 10 ^ cs.length * 9 :=
      Nat.mul_le_mul_left _ (by omega)
    omega

theorem microDigits_eq (hlen : ds.length ≤ 6) (hds : ∀ c ∈ ds, c.isDigit = true) :
    microDigits ds = Nat.ofDigitChars 10 ds 0 * 10 ^ (6 - ds.length) % 1000 := by
  obtain ⟨padded, hpadded⟩ : ∃ padded, ds ++ List.replicate (6 - ds.length) '0' = padded := ⟨_, rfl⟩
  have hsix : padded.length = 6 := by
    rw [← hpadded, List.length_append, List.length_replicate]
    omega
  have hall : ∀ c ∈ padded, c.isDigit = true := by
    intro c hc
    rw [← hpadded] at hc
    rcases mem_append.mp hc with hc | hc
    · exact hds c hc
    · rw [(List.mem_replicate.mp hc).2]
      rfl
  have hvalue : Nat.ofDigitChars 10 padded 0 = Nat.ofDigitChars 10 ds 0 * 10 ^ (6 - ds.length) := by
    rw [← hpadded, Nat.ofDigitChars_append, Nat.ofDigitChars_replicate_zero, Nat.mul_comm]
  have htail : (padded.drop 3).take 3 = padded.drop 3 :=
    List.take_of_length_le (by rw [List.length_drop]; omega)
  have hsplit : Nat.ofDigitChars 10 padded 0
      = 1000 * Nat.ofDigitChars 10 (padded.take 3) 0 + Nat.ofDigitChars 10 (padded.drop 3) 0 := by
    conv_lhs => rw [← List.take_append_drop 3 padded]
    rw [Nat.ofDigitChars_append, Nat.ofDigitChars_eq_ofDigitChars_zero, List.length_drop, hsix]
  have hsmall : Nat.ofDigitChars 10 (padded.drop 3) 0 < 1000 := by
    have hlt := ofDigitChars_lt (padded.drop 3) fun c hc => hall c (List.mem_of_mem_drop hc)
    rw [List.length_drop, hsix] at hlt
    exact hlt
  rw [microDigits, hpadded, htail, ← hvalue, hsplit]
  omega

/-- **A time is read to the microsecond.** -/
theorem preciseHistoryTime_writes (h : T.Writes text time) : preciseHistoryTime T text = some time := by
  obtain ⟨front, zone, hfront, hzone, hdigits⟩ := h.digits
  have hmicro : (microDigits (fractionDigits text.toList) : Int) = time % 1000 := by
    rcases hdigits with ⟨htext, hfull⟩ | ⟨ds, hne, hlen, hds, htext, hvalue⟩
    · rw [htext, fractionDigits_append hfront, fractionDigits_noDot (isZone_spec hzone).1]
      have hzero : microDigits [] = 0 := rfl
      rw [hzero]
      omega
    · rw [htext, fractionDigits_append hfront, fractionDigits_dot hne hds hzone, microDigits_eq hlen hds]
      have hmod : ((Nat.ofDigitChars 10 ds 0 * 10 ^ (6 - ds.length) : Nat) : Int) = time % 1000000 := by
        rw [hvalue]
        push_cast
        rfl
      omega
  rw [preciseHistoryTime, h.parsed, Option.map_some, hmicro]
  congr 1
  omega

theorem ofDigitChars_toString (hid : 0 ≤ id) : Nat.ofDigitChars 10 (toString id).toList 0 = id.toNat := by
  have hlist : (toString id).toList = Nat.toDigits 10 id.toNat := toList_repr hid
  rw [hlist, Nat.ofDigitChars_ten_toDigits]

theorem isPositiveInteger_toString (hid : 1 ≤ id) : isPositiveInteger (toString id).toList = true := by
  have hlist : (toString id).toList = Nat.toDigits 10 id.toNat := toList_repr (by omega)
  obtain ⟨c, cs, heq, hc⟩ := toDigits_eq_cons (n := id.toNat) (by omega)
  have hall := all_isDigit_toDigits id.toNat
  rw [heq, List.all_cons, Bool.and_eq_true] at hall
  rw [hlist, heq, isPositiveInteger, isPositiveDigits]
  simp [hall.1, hall.2, hc]

/-- **The key of a line is read as the place of the line.** -/
theorem parseHistoryCursor_key (hsend : Sendable T time id 0) (hwrites : T.Writes (T.toJsonb time) time) :
    parseHistoryCursor T (historyCursorKey T time id 0) = some ⟨time, some id.toNat, some 0⟩ := by
  have hpos := hsend.id_pos
  have hid : isPositiveInteger (Nat.toDigits 10 id.toNat) = true := by
    have hstring := isPositiveInteger_toString hpos
    have hlist : (toString id).toList = Nat.toDigits 10 id.toNat := toList_repr (by omega)
    rwa [hlist] at hstring
  have hzero : Nat.toDigits 10 (0 : Int).toNat = ['0'] := rfl
  rw [parseHistoryCursor, splitOn_historyCursorKey hsend, hzero]
  dsimp only
  rw [if_pos ⟨rfl, hid, by simp, rfl⟩, String.ofList_toList, preciseHistoryTime_writes hwrites,
    Nat.ofDigitChars_ten_toDigits]
  rfl

theorem parseHistoryCursor_time (h : T.Writes text time) :
    parseHistoryCursor T text = some ⟨time, none, none⟩ := by
  have hsplit : text.toList.splitOn '|' = [text.toList] := by
    have hone : (['|'].intercalate [text.toList]).splitOn '|' = [text.toList] :=
      List.splitOn_intercalate _ (by simpa using h.bar) (by simp)
    simpa [List.intercalate] using hone
  rw [parseHistoryCursor, hsplit]
  dsimp only
  rw [preciseHistoryTime_writes h]
  rfl

end Text

/-! ## Records -/

/-- The record of a line. -/
def lineRecord (T : TimeText) (l : PingLine) : PingRecord where
  time := T.toJsonb l.row.time
  id := some (toString l.row.id)
  value := match l.value with
    | some (.int value) => value
    | _ => 0

/-- What the collection relies on: ids are distinct, times can be written and read, values are integers. -/
structure Readable (T : TimeText) (rows : List PingSnapshot) (client : String) (taskId : Int) : Prop where
  ids : (rows.map PingSnapshot.id).Nodup
  legible : ∀ r ∈ rows, T.Legible r.time
  writes : ∀ r ∈ rows, T.Writes (T.toJsonb r.time) r.time
  values : ∀ l ∈ (pingView client taskId).lines rows, ∃ value, l.value = some (.int value)

section Records

variable {T : TimeText} {rows : List PingSnapshot} {client : String} {taskId : Int} {l l' : PingLine}

theorem mem_pingLines (h : l ∈ (pingView client taskId).lines rows) :
    l.row ∈ rows ∧ l.taskId = taskId ∧ l.value = fieldOf l.row.valuesJson (toString taskId) := by
  obtain ⟨r, hr, rfl⟩ := List.mem_map.mp h
  exact ⟨(mem_filter.mp hr).1, rfl, rfl⟩

section

variable (hread : Readable T rows client taskId)

include hread

section

variable (h : l ∈ (pingView client taskId).lines rows)

include h

theorem line_ext (h' : l' ∈ (pingView client taskId).lines rows) (hid : l.row.id = l'.row.id) : l = l' := by
  obtain ⟨hrow, htask, hvalue⟩ := mem_pingLines h
  obtain ⟨hrow', htask', hvalue'⟩ := mem_pingLines h'
  have hsame : l.row = l'.row := List.inj_on_of_nodup_map hread.ids hrow hrow' hid
  obtain ⟨row, task, value⟩ := l
  obtain ⟨row', task', value'⟩ := l'
  obtain rfl : row = row' := hsame
  obtain rfl : task = task' := htask.trans htask'.symm
  obtain rfl : value = value' := hvalue.trans hvalue'.symm
  rfl

theorem precise_lineRecord : preciseHistoryTime T (lineRecord T l).time = some l.row.time :=
  preciseHistoryTime_writes (hread.writes _ (mem_pingLines h).1)

theorem parsed_lineRecord : T.dateParse (lineRecord T l).time = some (l.row.time / 1000) :=
  (hread.writes _ (mem_pingLines h).1).parsed

theorem historyKey_lineRecord : historyKey T (lineRecord T l) = toLex (l.row.time, l.row.id.toNat) := by
  have hpos := l.row.id_pos
  rw [historyKey, precise_lineRecord hread h]
  show toLex (l.row.time, Nat.ofDigitChars 10 (toString l.row.id).toList 0) = _
  rw [ofDigitChars_toString (by omega)]

theorem recordIdentity_lineRecord :
    recordIdentity T (lineRecord T l) = (some l.row.time, toString l.row.id) := by
  rw [recordIdentity, precise_lineRecord hread h]
  rfl

theorem identity_inj (h' : l' ∈ (pingView client taskId).lines rows)
    (heq : recordIdentity T (lineRecord T l) = recordIdentity T (lineRecord T l')) : l = l' := by
  rw [recordIdentity_lineRecord hread h, recordIdentity_lineRecord hread h', Prod.mk.injEq] at heq
  have hpos := l.row.id_pos
  have hpos' := l'.row.id_pos
  have hnat : l.row.id.toNat = l'.row.id.toNat := by
    rw [← ofDigitChars_toString (by omega), ← ofDigitChars_toString (by omega), heq.2]
  exact line_ext hread h h' (by omega)

/-- The order of the records is the one of the lines. -/
theorem historyKey_lt_iff (h' : l' ∈ (pingView client taskId).lines rows) :
    historyKey T (lineRecord T l) < historyKey T (lineRecord T l') ↔
      (pingView client taskId).key l < (pingView client taskId).key l' := by
  have hpos := l.row.id_pos
  have hpos' := l'.row.id_pos
  rw [historyKey_lineRecord hread h, historyKey_lineRecord hread h', Prod.Lex.toLex_lt_toLex]
  show _ ↔ toLex (l.row.time, l.row.id) < toLex (l'.row.time, l'.row.id)
  rw [Prod.Lex.toLex_lt_toLex]
  dsimp only
  omega

theorem normalizePingRecord_line : normalizePingRecord T (pingPayload T l) = some (lineRecord T l) := by
  have hparsed : T.dateParse (pingPayload T l).time = some (l.row.time / 1000) := parsed_lineRecord hread h
  obtain ⟨value, hvalue⟩ := hread.values l h
  rw [normalizePingRecord, hparsed, if_neg (by simp), pingPayload, lineRecord, hvalue, normalizeHistoryRecordId,
    if_pos (isPositiveInteger_toString l.row.id_pos)]
  rfl

end

variable {ls : List PingLine}

theorem normalizePingRecords_lines (h : ∀ l ∈ ls, l ∈ (pingView client taskId).lines rows) :
    normalizePingRecords T (ls.map (pingPayload T)) = ls.map (lineRecord T) := by
  rw [normalizePingRecords, List.filterMap_map]
  induction ls with
  | nil => rfl
  | cons l ls ih =>
    have hone := normalizePingRecord_line hread (h l List.mem_cons_self)
    rw [List.filterMap_cons_some (by exact hone), ih fun l hl => h l (List.mem_cons_of_mem _ hl), List.map_cons]

end

/-! ## The map -/

/-- The map holds the records of the lines with `P`. -/
structure Holds (T : TimeText) (rows : List PingSnapshot) (client : String) (taskId : Int)
    (records : List ((Option Int × String) × PingRecord)) (P : PingLine → Prop) : Prop where
  nodup : (Assoc.keys records).Nodup
  mem : ∀ p, p ∈ records ↔ ∃ l ∈ (pingView client taskId).lines rows, P l ∧
    p = (recordIdentity T (lineRecord T l), lineRecord T l)

/-- A list shows the records of the lines with `P`, upwards by time and id, each once. -/
structure Shown (T : TimeText) (rows : List PingSnapshot) (client : String) (taskId : Int)
    (records : List PingRecord) (P : PingLine → Prop) : Prop where
  rising : Rising (historyKey T) records
  mem : ∀ x, x ∈ records ↔ ∃ l ∈ (pingView client taskId).lines rows, P l ∧ x = lineRecord T l

variable {P Q : PingLine → Prop} {records : List ((Option Int × String) × PingRecord)}

theorem Holds.congr (h : Holds T rows client taskId records P)
    (hPQ : ∀ l ∈ (pingView client taskId).lines rows, (P l ↔ Q l)) :
    Holds T rows client taskId records Q := by
  refine ⟨h.nodup, fun p => (h.mem p).trans ?_⟩
  constructor
  · rintro ⟨l, hl, hP, heq⟩
    exact ⟨l, hl, (hPQ l hl).mp hP, heq⟩
  · rintro ⟨l, hl, hQ, heq⟩
    exact ⟨l, hl, (hPQ l hl).mpr hQ, heq⟩

theorem Holds.nil : Holds T rows client taskId [] (fun _ => False) :=
  ⟨List.nodup_nil, fun p => by simp⟩

section

variable (hread : Readable T rows client taskId)

include hread

/-- A record is added to the map, or is there already. -/
theorem Holds.set (h : Holds T rows client taskId records P) (hl : l ∈ (pingView client taskId).lines rows) :
    Holds T rows client taskId
      (Assoc.set records (recordIdentity T (lineRecord T l)) (lineRecord T l)) (fun x => P x ∨ x = l) := by
  refine ⟨Assoc.keys_set_nodup h.nodup, fun p => ?_⟩
  have hsame : ∀ w, (recordIdentity T (lineRecord T l), w) ∈ records → w = lineRecord T l := by
    intro w hw
    obtain ⟨x, hx, -, heq⟩ := (h.mem _).mp hw
    obtain ⟨hid, rfl⟩ := Prod.mk.inj heq
    rw [identity_inj hread hl hx hid]
  rw [Assoc.mem_set_iff hsame, h.mem]
  constructor
  · rintro (rfl | ⟨x, hx, hP, heq⟩)
    · exact ⟨l, hl, .inr rfl, rfl⟩
    · exact ⟨x, hx, .inl hP, heq⟩
  · rintro ⟨x, hx, hP | rfl, heq⟩
    · exact .inr ⟨x, hx, hP, heq⟩
    · exact .inl heq

theorem collectPage_holds (start stop : Int) (ls : List PingLine) :
    ∀ (records : List ((Option Int × String) × PingRecord)) (P : PingLine → Prop),
      Holds T rows client taskId records P → (∀ l ∈ ls, l ∈ (pingView client taskId).lines rows) →
      Holds T rows client taskId (collectPage T start stop records (ls.map (lineRecord T)))
        (fun l => P l ∨ l ∈ ls ∧ start ≤ l.row.time ∧ l.row.time ≤ stop) := by
  induction ls with
  | nil => exact fun records P h _ => h.congr fun l _ => by simp
  | cons l ls ih =>
    intro records P h hls
    have hl := hls l List.mem_cons_self
    have hrest := fun x hx => hls x (List.mem_cons_of_mem _ hx)
    have hstep : collectPage T start stop records ((l :: ls).map (lineRecord T))
        = collectPage T start stop (if start ≤ l.row.time ∧ l.row.time ≤ stop
            then Assoc.set records (recordIdentity T (lineRecord T l)) (lineRecord T l) else records)
          (ls.map (lineRecord T)) := by
      rw [collectPage, List.map_cons, List.foldl_cons, precise_lineRecord hread hl]
      rfl
    rw [hstep]
    split_ifs with hin
    · refine (ih _ _ (h.set hread hl) hrest).congr fun x _ => ?_
      rw [mem_cons]
      constructor
      · rintro ((hP | rfl) | ⟨hx, hbounds⟩)
        · exact .inl hP
        · exact .inr ⟨.inl rfl, hin⟩
        · exact .inr ⟨.inr hx, hbounds⟩
      · rintro (hP | ⟨rfl | hx, hbounds⟩)
        · exact .inl (.inl hP)
        · exact .inl (.inr rfl)
        · exact .inr ⟨hx, hbounds⟩
    · refine (ih _ _ h hrest).congr fun x _ => ?_
      rw [mem_cons]
      constructor
      · rintro (hP | ⟨hx, hbounds⟩)
        · exact .inl hP
        · exact .inr ⟨.inr hx, hbounds⟩
      · rintro (hP | ⟨rfl | hx, hbounds⟩)
        · exact .inl hP
        · exact absurd hbounds hin
        · exact .inr ⟨hx, hbounds⟩

theorem Holds.shown (h : Holds T rows client taskId records P) :
    Shown T rows client taskId (sortedRecords T records) P := by
  constructor
  · apply rising_ascending
    rw [List.map_map]
    -- two records with one key have one identity, and the identities are distinct
    refine List.Nodup.map_on ?_ h.nodup.of_map
    intro p hp q hq heq
    obtain ⟨l, hl, -, rfl⟩ := (h.mem p).mp hp
    obtain ⟨l', hl', -, rfl⟩ := (h.mem q).mp hq
    have hkey : historyKey T (lineRecord T l) = historyKey T (lineRecord T l') := heq
    have hle : ¬ (pingView client taskId).key l < (pingView client taskId).key l' := by
      rw [← historyKey_lt_iff hread hl hl', hkey]
      exact lt_irrefl _
    have hge : ¬ (pingView client taskId).key l' < (pingView client taskId).key l := by
      rw [← historyKey_lt_iff hread hl' hl, hkey]
      exact lt_irrefl _
    have hsame : toLex (l.row.time, l.row.id) = toLex (l'.row.time, l'.row.id) :=
      le_antisymm (not_lt.mp hge) (not_lt.mp hle)
    rw [line_ext hread hl hl' (congrArg (fun p => (ofLex p).2) hsame)]
  · intro x
    rw [sortedRecords, ascending_perm.mem_iff, List.mem_map]
    constructor
    · rintro ⟨p, hp, rfl⟩
      obtain ⟨l, hl, hP, rfl⟩ := (h.mem p).mp hp
      exact ⟨l, hl, hP, rfl⟩
    · rintro ⟨l, hl, hP, rfl⟩
      exact ⟨_, (h.mem _).mpr ⟨l, hl, hP, rfl⟩, rfl⟩

theorem mergeHistoryRecords_shown (list : List PingRecord)
    (hlist : ∀ x, x ∈ list → ∃ l ∈ (pingView client taskId).lines rows, x = lineRecord T l) :
    Shown T rows client taskId (mergeHistoryRecords T list) (fun l => lineRecord T l ∈ list) := by
  have hfold : ∀ (list : List PingRecord) (records : List ((Option Int × String) × PingRecord))
      (P : PingLine → Prop), Holds T rows client taskId records P →
      (∀ x, x ∈ list → ∃ l ∈ (pingView client taskId).lines rows, x = lineRecord T l) →
      Holds T rows client taskId
        (list.foldl (fun map record => Assoc.set map (recordIdentity T record) record) records)
        (fun l => P l ∨ lineRecord T l ∈ list) := by
    intro list
    induction list with
    | nil => exact fun records P h _ => h.congr fun l _ => by simp
    | cons x rest ih =>
      intro records P h hlist
      obtain ⟨l, hl, rfl⟩ := hlist x List.mem_cons_self
      refine (ih _ _ (h.set hread hl) fun y hy => hlist y (List.mem_cons_of_mem _ hy)).congr fun y hy => ?_
      rw [mem_cons, or_assoc]
      refine or_congr_right (or_congr_left ⟨fun heq => by rw [heq], fun heq => ?_⟩)
      exact identity_inj hread hy hl (congrArg (recordIdentity T) heq)
  exact ((hfold list [] _ Holds.nil hlist).congr fun l _ => by simp).shown hread

end

/-! ## The loop -/

/-- The lines that are left at a cursor, from the last one downwards. -/
structure LeftAt (T : TimeText) (rows : List PingSnapshot) (client : String) (taskId : Int) (limit : Nat)
    (cursor : String) (left : List PingLine) : Prop where
  falling : Falling (pingView client taskId).key left
  mem : ∀ l ∈ left, l ∈ (pingView client taskId).lines rows
  closed : ∀ l ∈ (pingView client taskId).lines rows, ∀ c ∈ left,
    (pingView client taskId).key l < (pingView client taskId).key c → l ∈ left
  page : ∃ p, cfmPingRecordsCursor T rows client taskId (some cursor) (some limit) = some p ∧
    Shows T (pingView client taskId) ((pingView client taskId).limitValue (some limit)).toNat p left

section

variable (hread : Readable T rows client taskId)

include hread

theorem sendable_line (h : l ∈ (pingView client taskId).lines rows) : Sendable T l.row.time l.row.id 0 :=
  ⟨hread.legible _ (mem_pingLines h).1, l.row.id_pos, l.row.id_le, le_refl 0, by decide⟩

variable {left : List PingLine}

theorem LeftAt.below (limit : Nat) {c : PingLine} (hc : c ∈ (pingView client taskId).lines rows)
    (hfall : Falling (pingView client taskId).key left)
    (hleft : ∀ x, x ∈ left ↔ x ∈ (pingView client taskId).lines rows ∧
      (pingView client taskId).key x < (pingView client taskId).key c) :
    LeftAt T rows client taskId limit (historyCursorKey T c.row.time c.row.id 0) left where
  falling := hfall
  mem l hl := ((hleft l).mp hl).1
  closed l hl d hd hlt := (hleft l).mpr ⟨hl, lt_trans hlt ((hleft d).mp hd).2⟩
  page := shows_next (pingView_lawful client taskId) (some limit) hread.ids (sendable_line hread hc)
    hfall hleft

theorem LeftAt.before (limit : Nat) {cursor : String} {time : Int} (hwrites : T.Writes cursor time) :
    LeftAt T rows client taskId limit cursor (descending (pingView client taskId).key
      (((pingView client taskId).lines rows).filter fun l => decide (l.row.time < time))) := by
  have hkeys : ((((pingView client taskId).lines rows).filter fun l => decide (l.row.time < time)).map
      (pingView client taskId).key).Nodup :=
    ((pingView_lawful client taskId).keys_nodup rows hread.ids).sublist (List.filter_sublist.map _)
  have hmem : ∀ x, x ∈ descending (pingView client taskId).key
      (((pingView client taskId).lines rows).filter fun l => decide (l.row.time < time)) ↔
      x ∈ (pingView client taskId).lines rows ∧ x.row.time < time := by
    intro x
    rw [descending_perm.mem_iff, mem_filter, decide_eq_true_eq]
  have hboundary : historyCursor T (some cursor) = some ⟨some time, none, none⟩ := by
    have hplain : cursor.toList.take 3 ≠ ['v', '1', '|'] := by
      intro htake
      have hbar : '|' ∈ cursor.toList.take 3 := by rw [htake]; decide
      exact hwrites.bar (mem_of_mem_take hbar)
    have hne : cursor ≠ "" := by
      rintro rfl
      obtain ⟨front, zone, -, hzone, ⟨htext, -⟩ | ⟨ds, -, -, -, htext, -⟩⟩ := hwrites.digits
      · have hnil := (List.append_eq_nil_iff.mp htext.symm).2
        exact (isZone_spec hzone).2.1 hnil
      · exact absurd htext.symm (by simp)
    rw [historyCursor, if_neg hplain, if_neg hne, hwrites.back]
    rfl
  refine ⟨falling_descending hkeys, fun l hl => ((hmem l).mp hl).1, fun l hl c hc hlt => ?_, ?_⟩
  · refine (hmem l).mpr ⟨hl, ?_⟩
    have hbelow := ((hmem c).mp hc).2
    by_contra hlate
    exact absurd hlt (lt_asymm (pair_lt_of_time (by omega)))
  · refine ⟨_, ?_, shows_pageOf 1 (View.limitValue_pos (some limit)) (falling_descending hkeys)⟩
    rw [cfmPingRecordsCursor, cursorBy, hboundary]
    rfl

/-- **The loop**: if it returns, the records are those that the map held, and those of the lines left at
    the cursor that are not before the start. -/
theorem collectLoop_shown (limit : Nat) (batchFails : Bool) (start stop : Int) (more : Nat) :
    ∀ (page : Nat) (cursor : String) (position : CursorPosition)
      (records : List ((Option Int × String) × PingRecord)) (P : PingLine → Prop) (left : List PingLine)
      (result : List PingRecord),
      Holds T rows client taskId records P → LeftAt T rows client taskId limit cursor left →
      (∀ l ∈ left, l.row.time ≤ stop) →
      (collectLoop T ((tableServer T rows client batchFails).page taskId limit) start stop more page cursor
        position records).result = some result →
      Shown T rows client taskId result (fun l => P l ∨ l ∈ left ∧ start ≤ l.row.time) := by
  induction more with
  | zero => exact fun page cursor position records P left result _ _ _ h => absurd h (by simp [collectLoop])
  | succ more ih =>
    intro page cursor position records P left result hholds hleft hstop h
    obtain ⟨p, hp, hshows⟩ := hleft.page
    have hserver : (tableServer T rows client batchFails).page taskId limit page cursor
        = some (historyPage T p) := by
      show (cfmPingRecordsCursor T rows client taskId (some cursor) (some limit)).map (historyPage T) = _
      rw [hp]
      rfl
    -- the lines of the page are those left first
    have hdata : ∀ l, l ∈ p.data ↔ l ∈ left.take
        ((pingView client taskId).limitValue (some limit)).toNat := by
      intro l
      rw [← hshows.data_eq, List.mem_reverse]
    have hlines : ∀ l ∈ p.data, l ∈ (pingView client taskId).lines rows :=
      fun l hl => hleft.mem l (mem_of_mem_take ((hdata l).mp hl))
    have hrecords : (historyPage T p).records = p.data.map (lineRecord T) :=
      normalizePingRecords_lines hread hlines
    have hcollected := collectPage_holds hread start stop p.data records P hholds hlines
    rw [← hrecords] at hcollected
    rw [collectLoop, hserver] at h
    dsimp only at h
    split_ifs at h with hlast
    · -- the last page shows all that is left
      cases h
      have hfits : left.length ≤ ((pingView client taskId).limitValue (some limit)).toNat := by
        by_contra hlong
        have hmore := hshows.more_iff.mpr (by omega)
        simp [historyPage, hmore] at hlast
      refine (hcollected.congr fun l _ => or_congr_right ?_).shown hread
      rw [hdata, List.take_of_length_le hfits]
      exact ⟨fun ⟨hl, hlo, _⟩ => ⟨hl, hlo⟩, fun ⟨hl, hlo⟩ => ⟨hl, hlo, hstop l hl⟩⟩
    · have hmore : p.hasMore = true := by simpa [historyPage] using hlast
      have hlong := hshows.more_iff.mp hmore
      obtain ⟨n, hn⟩ : ∃ n, ((pingView client taskId).limitValue (some limit)).toNat = n + 1 := by
        have hpos := View.limitValue_pos (V := pingView client taskId) (some (limit : Int))
        exact ⟨((pingView client taskId).limitValue (some limit)).toNat - 1, by omega⟩
      rw [hn] at hlong hdata
      obtain ⟨c, hc⟩ : ∃ c, left[n]? = some c := ⟨_, List.getElem?_eq_getElem (by omega)⟩
      have hcleft : c ∈ left := List.mem_of_getElem? hc
      have hcline := hleft.mem c hcleft
      obtain ⟨-, hkey⟩ := hshows.cursor_eq hmore c (by rw [hn]; exact hc)
      have hnext : (historyPage T p).next_cursor_key.getD ((historyPage T p).next_cursor.getD "")
          = historyCursorKey T c.row.time c.row.id 0 := by
        show (p.nextCursorKey).getD _ = _
        rw [hkey]
        rfl
      rw [hnext, parseHistoryCursor_key (sendable_line hread hcline) (hread.writes _ (mem_pingLines hcline).1)]
        at h
      dsimp only at h
      split_ifs at h with hadvances hpast
      · -- what is left behind the page is before the start
        cases h
        refine (hcollected.congr fun l _ => or_congr_right ?_).shown hread
        rw [hdata]
        constructor
        · exact fun ⟨hl, hlo, _⟩ => ⟨mem_of_mem_take hl, hlo⟩
        · rintro ⟨hl, hlo⟩
          refine ⟨?_, hlo, hstop l hl⟩
          rw [← List.take_append_drop (n + 1) left] at hl
          rcases mem_append.mp hl with hl | hl
          · exact hl
          · have hlt := ((mem_drop_iff hleft.falling hc l).mp hl).2
            exact absurd hlt (lt_asymm (pair_lt_of_time (by omega)))
      · have hdrop : ∀ x, x ∈ left.drop (n + 1) ↔ x ∈ (pingView client taskId).lines rows ∧
            (pingView client taskId).key x < (pingView client taskId).key c := by
          intro x
          rw [mem_drop_iff hleft.falling hc]
          exact ⟨fun ⟨hx, hlt⟩ => ⟨hleft.mem x hx, hlt⟩, fun ⟨hx, hlt⟩ => ⟨hleft.closed x hx c hcleft hlt, hlt⟩⟩
        have hrest := LeftAt.below hread limit hcline hleft.falling.drop hdrop
        have hshown := ih _ _ _ _ _ _ result hcollected hrest
          (fun l hl => hstop l (List.mem_of_mem_drop hl)) h
        refine ⟨hshown.rising, fun x => (hshown.mem x).trans (exists_congr fun l => and_congr_right fun _ =>
          and_congr_left fun _ => ?_)⟩
        rw [hdata, or_assoc]
        refine or_congr_right ?_
        constructor
        · rintro (⟨hl, hlo, -⟩ | ⟨hl, hlo⟩)
          · exact ⟨mem_of_mem_take hl, hlo⟩
          · exact ⟨List.mem_of_mem_drop hl, hlo⟩
        · rintro ⟨hl, hlo⟩
          have hl' := hl
          rw [← List.take_append_drop (n + 1) left] at hl
          rcases mem_append.mp hl with hl | hl
          · exact .inl ⟨hl, hlo, hstop l hl'⟩
          · exact .inr ⟨hl, hlo⟩

theorem collectCursorHistory_shown {limit : Nat} {batchFails : Bool}
    {cursor start stop : String} {startTime stopTime : Int} {result : List PingRecord}
    (hleft : LeftAt T rows client taskId limit cursor left) (hstart : T.Writes start startTime)
    (hstop : T.Writes stop stopTime) (hbefore : ∀ l ∈ left, l.row.time ≤ stopTime)
    (h : (collectCursorHistory T ((tableServer T rows client batchFails).page taskId limit) cursor start
      (some stop) none).result = some result) :
    Shown T rows client taskId result (fun l => l ∈ left ∧ startTime ≤ l.row.time) := by
  have hne : stop ≠ "" := by
    rintro rfl
    obtain ⟨front, zone, -, hzone, ⟨htext, -⟩ | ⟨ds, -, -, -, htext, -⟩⟩ := hstop.digits
    · exact (isZone_spec hzone).2.1 (List.append_eq_nil_iff.mp htext.symm).2
    · exact absurd htext.symm (by simp)
  rw [collectCursorHistory] at h
  rw [if_neg hne, preciseHistoryTime_writes hstart, parseHistoryCursor_time hstop] at h
  cases hposition : parseHistoryCursor T cursor with
  | none => rw [hposition] at h; cases h
  | some position =>
    rw [hposition] at h
    dsimp only at h
    split_ifs at h
    have hshown := collectLoop_shown hread limit batchFails startTime stopTime _ 0 cursor position [] _ left
      result Holds.nil hleft hbefore h
    refine ⟨hshown.rising, fun x => (hshown.mem x).trans (exists_congr fun l => ?_)⟩
    simp

end

/-! ## Series -/

theorem Shown.eq {list list' : List PingRecord} (h : Shown T rows client taskId list P)
    (h' : Shown T rows client taskId list' Q)
    (hPQ : ∀ l ∈ (pingView client taskId).lines rows, (P l ↔ Q l)) : list = list' := by
  refine h.rising.eq_of_mem h'.rising fun x => (h.mem x).trans (Iff.trans ?_ (h'.mem x).symm)
  constructor
  · rintro ⟨l, hl, hP, heq⟩
    exact ⟨l, hl, (hPQ l hl).mp hP, heq⟩
  · rintro ⟨l, hl, hQ, heq⟩
    exact ⟨l, hl, (hPQ l hl).mpr hQ, heq⟩

theorem Shown.mem_line (hread : Readable T rows client taskId) {list : List PingRecord}
    (h : Shown T rows client taskId list P) (hl : l ∈ (pingView client taskId).lines rows) :
    lineRecord T l ∈ list ↔ P l := by
  rw [h.mem]
  constructor
  · rintro ⟨x, hx, hP, heq⟩
    rw [identity_inj hread hl hx (congrArg (recordIdentity T) heq)]
    exact hP
  · exact fun hP => ⟨l, hl, hP, rfl⟩

theorem shown_of_rising (hread : Readable T rows client taskId)
    (hls : ∀ l ∈ ls, l ∈ (pingView client taskId).lines rows)
    (hrising : Rising (pingView client taskId).key ls) :
    Shown T rows client taskId (ls.map (lineRecord T)) (· ∈ ls) := by
  constructor
  · refine List.pairwise_map.mpr (hrising.imp_of_mem fun ha hb hlt => ?_)
    exact (historyKey_lt_iff hread (hls _ ha) (hls _ hb)).mpr hlt
  · intro x
    rw [List.mem_map]
    constructor
    · rintro ⟨l, hl, rfl⟩
      exact ⟨l, hls l hl, hl, rfl⟩
    · rintro ⟨l, -, hl, rfl⟩
      exact ⟨l, hl, rfl⟩

theorem requestLimitForTask_bounds (rangeHours : ℚ) (task : NormalizedPingTask) :
    8 ≤ requestLimitForTask rangeHours task ∧ requestLimitForTask rangeHours task ≤ 360 := by
  rw [requestLimitForTask]
  omega

/-- What a series shows, where it matters: of the lines that the range keeps, those before the cursor. -/
def Complete (T : TimeText) (rows : List PingSnapshot) (client : String) (taskId : Int) (cutoff : ℚ)
    (cursorTime : Int) (list : List PingRecord) : Prop :=
  ∃ P, Shown T rows client taskId list P ∧ ∀ l ∈ (pingView client taskId).lines rows,
    cutoff ≤ ((l.row.time / 1000 : Int) : ℚ) → (P l ↔ l.row.time < cursorTime)

theorem start_le_of_cutoff_le {cutoff : ℚ} {time : Int} (h : cutoff ≤ ((time / 1000 : Int) : ℚ)) :
    1000 * truncMs cutoff ≤ time := by
  have hstart := truncMs_le h
  omega

variable {cursor : String} {cursorTime : Int} {cutoff : ℚ} {rangeHours : ℚ} {batchFails : Bool}
  {task : NormalizedPingTask} {list : List PingRecord}

theorem collectTask_complete (hread : Readable T rows client task.id) (hcursor : T.Writes cursor cursorTime)
    (hstart : T.Writes (T.toISOString (truncMs cutoff)) (1000 * truncMs cutoff))
    (h : collectTask T (tableServer T rows client batchFails) rangeHours cursor
      (T.toISOString (truncMs cutoff)) task = some list) :
    Complete T rows client task.id cutoff cursorTime list := by
  have hmem : ∀ l, l ∈ descending (pingView client task.id).key
      (((pingView client task.id).lines rows).filter fun l => decide (l.row.time < cursorTime)) ↔
      l ∈ (pingView client task.id).lines rows ∧ l.row.time < cursorTime := by
    intro l
    rw [descending_perm.mem_iff, mem_filter, decide_eq_true_eq]
  have hshown := collectCursorHistory_shown hread
    (LeftAt.before hread (requestLimitForTask rangeHours task) hcursor) hstart hcursor
    (fun l hl => le_of_lt ((hmem l).mp hl).2) h
  refine ⟨_, hshown, fun l hl hcutoff => ?_⟩
  rw [hmem]
  exact ⟨fun hl => hl.1.2, fun hlt => ⟨⟨hl, hlt⟩, start_le_of_cutoff_le hcutoff⟩⟩

/-- **A first page, completed where it is full.** -/
theorem completeBatchRange_complete (hread : Readable T rows client task.id)
    (hcursor : T.Writes cursor cursorTime)
    (hstart : T.Writes (T.toISOString (truncMs cutoff)) (1000 * truncMs cutoff))
    (h : completeBatchRange T (tableServer T rows client batchFails) rangeHours cursor
      (T.toISOString (truncMs cutoff)) task (normalizePingRecords T
        ((cfmPingRecordsForTask rows client task.id (requestLimitForTask rangeHours task) cursorTime).map
          (pingPayload T))) = some list) :
    Complete T rows client task.id cutoff cursorTime list := by
  obtain ⟨hlo, hhi⟩ := requestLimitForTask_bounds rangeHours task
  obtain ⟨limit, hlimit⟩ : ∃ limit, requestLimitForTask rangeHours task = limit := ⟨_, rfl⟩
  have hleft := LeftAt.before hread limit hcursor
  obtain ⟨left, hdescending⟩ : ∃ left, descending (pingView client task.id).key
    (((pingView client task.id).lines rows).filter fun l => decide (l.row.time < cursorTime)) = left := ⟨_, rfl⟩
  have hmem : ∀ l, l ∈ left ↔ l ∈ (pingView client task.id).lines rows ∧ l.row.time < cursorTime := by
    intro l
    rw [← hdescending, descending_perm.mem_iff, mem_filter, decide_eq_true_eq]
  rw [hdescending] at hleft
  have hclamped : min (max limit 1) 1000 = limit := by omega
  have hbatch : cfmPingRecordsForTask rows client task.id limit cursorTime = (left.take limit).reverse := by
    rw [cfmPingRecordsForTask, hdescending, hclamped]
    exact ascending_eq_reverse hleft.falling.take
  have hlines : ∀ l ∈ (left.take limit).reverse, l ∈ (pingView client task.id).lines rows :=
    fun l hl => hleft.mem l (mem_of_mem_take (List.mem_reverse.mp hl))
  have hshown := shown_of_rising hread hlines hleft.falling.take.reverse
  rw [completeBatchRange, hlimit, hbatch, normalizePingRecords_lines hread hlines] at h
  split_ifs at h with hshort
  · -- the page was not full: it shows all lines before the cursor
    cases h
    have hall : left.take limit = left := by
      rw [List.length_map, List.length_reverse, List.length_take] at hshort
      exact List.take_of_length_le (by omega)
    refine ⟨_, hshown, fun l hl _ => ?_⟩
    rw [List.mem_reverse, hall, hmem]
    exact and_iff_right hl
  · have hlong : limit ≤ left.length := by
      rw [List.length_map, List.length_reverse, List.length_take] at hshort
      omega
    obtain ⟨n, rfl⟩ : ∃ n, limit = n + 1 := ⟨limit - 1, by omega⟩
    obtain ⟨d, hd⟩ : ∃ d, left[n]? = some d := ⟨_, List.getElem?_eq_getElem (by omega)⟩
    have hdline := hleft.mem d (List.mem_of_getElem? hd)
    have hmerged : mergeHistoryRecords T ((left.take (n + 1)).reverse.map (lineRecord T))
        = (left.take (n + 1)).reverse.map (lineRecord T) := by
      refine Shown.eq (mergeHistoryRecords_shown hread _ fun x hx => ?_) hshown fun l hl => ?_
      · obtain ⟨l, hl, -, heq⟩ := (hshown.mem x).mp hx
        exact ⟨l, hl, heq⟩
      · exact hshown.mem_line hread hl
    have hhead : ((left.take (n + 1)).reverse.map (lineRecord T)).head? = some (lineRecord T d) := by
      rw [List.head?_map, List.head?_reverse, List.getLast?_eq_getElem?, List.length_take,
        Nat.min_eq_left hlong, List.getElem?_take_of_lt (by omega)]
      exact congrArg (Option.map (lineRecord T)) hd
    have hparsed : T.dateParse (T.toISOString (truncMs cutoff)) = some (truncMs cutoff) := by
      rw [hstart.parsed]
      congr 1
      omega
    have hdrop : ∀ x, x ∈ left.drop (n + 1) ↔ x ∈ (pingView client task.id).lines rows ∧
        (pingView client task.id).key x < (pingView client task.id).key d := by
      intro x
      rw [mem_drop_iff hleft.falling hd]
      exact ⟨fun ⟨hx, hlt⟩ => ⟨hleft.mem x hx, hlt⟩,
        fun ⟨hx, hlt⟩ => ⟨hleft.closed x hx d (List.mem_of_getElem? hd) hlt, hlt⟩⟩
    rw [hmerged, hhead] at h
    dsimp only at h
    rw [parsed_lineRecord hread hdline, hparsed] at h
    dsimp only at h
    split_ifs at h with hpast
    · -- the page reaches behind the start: nothing that the range keeps is below it
      cases h
      have hpast : d.row.time / 1000 < truncMs cutoff := of_decide_eq_true hpast
      refine ⟨_, hshown, fun l hl hcutoff => ?_⟩
      rw [List.mem_reverse]
      constructor
      · exact fun hin => ((hmem l).mp (mem_of_mem_take hin)).2
      · intro hlt
        have hin := (hmem l).mpr ⟨hl, hlt⟩
        rw [← List.take_append_drop (n + 1) left] at hin
        rcases mem_append.mp hin with hin | hin
        · exact hin
        · have hkey := ((hdrop l).mp hin).2
          have htime : l.row.time ≤ d.row.time := by
            by_contra hlater
            exact absurd hkey (lt_asymm (pair_lt_of_time (by omega)))
          have hbelow := lt_of_lt_truncMs (x := cutoff) (m := l.row.time / 1000) (by omega)
          exact absurd hcutoff (not_le.mpr hbelow)
    · obtain ⟨older, holder, rfl⟩ := Option.map_eq_some_iff.mp h
      have hcursorKey : historyCursorFromRecord (lineRecord T d) = historyCursorKey T d.row.time d.row.id 0 :=
        rfl
      rw [hcursorKey] at holder
      have hbelow := LeftAt.below hread (n + 1) hdline hleft.falling.drop hdrop
      have holderShown := collectCursorHistory_shown hread hbelow hstart hcursor
        (fun l hl => le_of_lt ((hmem l).mp (List.mem_of_mem_drop hl)).2) holder
      have hmergedShown := mergeHistoryRecords_shown hread
        (older ++ (left.take (n + 1)).reverse.map (lineRecord T)) fun x hx => by
          rcases mem_append.mp hx with hx | hx
          · obtain ⟨l, hl, -, heq⟩ := (holderShown.mem x).mp hx
            exact ⟨l, hl, heq⟩
          · obtain ⟨l, hl, -, heq⟩ := (hshown.mem x).mp hx
            exact ⟨l, hl, heq⟩
      refine ⟨_, hmergedShown, fun l hl hcutoff => ?_⟩
      rw [mem_append, holderShown.mem_line hread hl, hshown.mem_line hread hl, List.mem_reverse]
      constructor
      · rintro (⟨hin, -⟩ | hin)
        · exact ((hmem l).mp (List.mem_of_mem_drop hin)).2
        · exact ((hmem l).mp (mem_of_mem_take hin)).2
      · intro hlt
        have hin := (hmem l).mpr ⟨hl, hlt⟩
        rw [← List.take_append_drop (n + 1) left] at hin
        rcases mem_append.mp hin with hin | hin
        · exact .inr hin
        · exact .inl ⟨hin, start_le_of_cutoff_le hcutoff⟩

/-- The records are those of the lines with `P`, upwards by time and id, each once. -/
def Exactly (T : TimeText) (rows : List PingSnapshot) (client : String) (taskId : Int)
    (P : PingLine → Prop) (list : List PingRecord) : Prop :=
  ∃ ls : List PingLine, Rising (pingView client taskId).key ls ∧
    (∀ l, l ∈ ls ↔ l ∈ (pingView client taskId).lines rows ∧ P l) ∧ list = ls.map (lineRecord T)

theorem Shown.filter (h : Shown T rows client taskId list P) (p : PingRecord → Bool) :
    Shown T rows client taskId (list.filter p) (fun l => P l ∧ p (lineRecord T l) = true) := by
  refine ⟨h.rising.filter p, fun x => ?_⟩
  rw [mem_filter, h.mem]
  constructor
  · rintro ⟨⟨l, hl, hP, rfl⟩, hp⟩
    exact ⟨l, hl, ⟨hP, hp⟩, rfl⟩
  · rintro ⟨l, hl, ⟨hP, hp⟩, rfl⟩
    exact ⟨⟨l, hl, hP, rfl⟩, hp⟩

theorem Shown.exactly (hread : Readable T rows client taskId) (h : Shown T rows client taskId list P) :
    Exactly T rows client taskId P list := by
  classical
  have hkeys : ((((pingView client taskId).lines rows).filter fun l => decide (P l)).map
      (pingView client taskId).key).Nodup :=
    ((pingView_lawful client taskId).keys_nodup rows hread.ids).sublist (List.filter_sublist.map _)
  have hmem : ∀ l, l ∈ ascending (pingView client taskId).key
      (((pingView client taskId).lines rows).filter fun l => decide (P l)) ↔
      l ∈ (pingView client taskId).lines rows ∧ P l := by
    intro l
    rw [ascending_perm.mem_iff, mem_filter, decide_eq_true_eq]
  refine ⟨_, rising_ascending hkeys, hmem, ?_⟩
  refine h.eq (shown_of_rising hread (fun l hl => ((hmem l).mp hl).1) (rising_ascending hkeys)) fun l hl => ?_
  rw [hmem]
  exact (and_iff_right hl).symm

theorem Exactly.congr (h : Exactly T rows client taskId P list)
    (hPQ : ∀ l ∈ (pingView client taskId).lines rows, (P l ↔ Q l)) :
    Exactly T rows client taskId Q list := by
  obtain ⟨ls, hrising, hmem, heq⟩ := h
  exact ⟨ls, hrising, fun l => (hmem l).trans (and_congr_right (hPQ l)), heq⟩

theorem Complete.limited (hread : Readable T rows client taskId)
    (h : Complete T rows client taskId (((cursorTime / 1000 : Int) : ℚ) - rangeHours * 3600000) cursorTime list) :
    Exactly T rows client taskId
      (fun l => ((cursorTime / 1000 : Int) : ℚ) - rangeHours * 3600000 ≤ ((l.row.time / 1000 : Int) : ℚ) ∧
        l.row.time < cursorTime)
      (limitPingSeriesToRecentRange T rangeHours (cursorTime / 1000) list) := by
  obtain ⟨P, hshown, hP⟩ := h
  refine ((hshown.filter _).exactly hread).congr fun l hl => ?_
  rw [parsed_lineRecord hread hl, Bool.and_eq_true, decide_eq_true_eq, decide_eq_true_eq]
  constructor
  · rintro ⟨hPl, hcutoff, -⟩
    exact ⟨hcutoff, (hP l hl hcutoff).mp hPl⟩
  · rintro ⟨hcutoff, hlt⟩
    refine ⟨(hP l hl hcutoff).mpr hlt, hcutoff, ?_⟩
    -- what is before the cursor is not behind its millisecond
    have hms : l.row.time / 1000 ≤ cursorTime / 1000 := Int.ediv_le_ediv (by decide) (le_of_lt hlt)
    exact hms

theorem taskRecords_complete (hread : Readable T rows client task.id) (hcursor : T.Writes cursor cursorTime)
    (hstart : T.Writes (T.toISOString (truncMs cutoff)) (1000 * truncMs cutoff))
    (h : taskRecords T (tableServer T rows client batchFails) rangeHours cursor
      (T.toISOString (truncMs cutoff)) task = some list) :
    Complete T rows client task.id cutoff cursorTime list := by
  rw [taskRecords] at h
  cases batchFails with
  | true => exact collectTask_complete hread hcursor hstart h
  | false =>
    have hbatch : (tableServer T rows client false).batch cursor = some fun taskId limit =>
        (cfmPingRecordsForTask rows client taskId limit cursorTime).map (pingPayload T) := by
      show (T.timestamptz cursor).map _ = _
      rw [hcursor.back]
      rfl
    rw [hbatch] at h
    exact completeBatchRange_complete hread hcursor hstart h

end Records

/-! ## All tasks -/

/-- What holds of each result of a list holds along the list. -/
theorem forall₂_of_mapM {α β : Type} {f : α → Option β} {R : α → β → Prop} {xs : List α} {ys : List β}
    (hf : ∀ x ∈ xs, ∀ y, f x = some y → R x y) (h : xs.mapM f = some ys) : List.Forall₂ R xs ys := by
  induction xs generalizing ys with
  | nil =>
    cases h
    exact List.Forall₂.nil
  | cons x xs ih =>
    rw [List.mapM_cons] at h
    obtain ⟨y, hy, h⟩ := Option.bind_eq_some_iff.mp h
    obtain ⟨rest, hrest, h⟩ := Option.bind_eq_some_iff.mp h
    cases h
    exact List.Forall₂.cons (hf x List.mem_cons_self y hy)
      (ih (fun z hz => hf z (List.mem_cons_of_mem _ hz)) hrest)

theorem collectLoop_requests (T : TimeText) (fetchPage : Nat → String → Option HistoryPage)
    (start stop : Int) (more : Nat) :
    ∀ (page : Nat) (cursor : String) (position : CursorPosition)
      (records : List ((Option Int × String) × PingRecord)),
      (collectLoop T fetchPage start stop more page cursor position records).requests ≤ page + more := by
  induction more with
  | zero => exact fun page cursor position records => le_refl page
  | succ more ih =>
    intro page cursor position records
    rw [collectLoop]
    cases fetchPage page cursor with
    | none =>
      dsimp only
      omega
    | some payload =>
      dsimp only
      split_ifs
      · dsimp only
        omega
      · cases parseHistoryCursor T (payload.next_cursor_key.getD (payload.next_cursor.getD "")) with
        | none =>
          dsimp only
          omega
        | some next =>
          dsimp only
          split_ifs
          · dsimp only
            omega
          · dsimp only
            omega
          · have hrest := ih (page + 1) (payload.next_cursor_key.getD (payload.next_cursor.getD "")) next
              (collectPage T start stop records payload.records)
            omega

/-- **A collection ends** after at most 32 pages, whatever it is answered. -/
theorem collectCursorHistory_requests (T : TimeText) (fetchPage : Nat → String → Option HistoryPage)
    (cursor start : String) (stop : Option String) (maxPages : Option Nat) :
    (collectCursorHistory T fetchPage cursor start stop maxPages).requests ≤ 32 := by
  unfold collectCursorHistory
  dsimp only
  split
  · split_ifs
    · exact Nat.zero_le 32
    · refine le_trans (collectLoop_requests T fetchPage _ _ _ 0 cursor _ []) ?_
      omega
  · exact Nat.zero_le 32

/-- Where a range begins, in milliseconds: `Date.parse(cursor) - rangeHours * 3600000`. -/
def rangeCutoff (rangeHours : ℚ) (cursorTime : Int) : ℚ :=
  ((cursorTime / 1000 : Int) : ℚ) - rangeHours * 3600000

/-- From a whole number of milliseconds on, a time and its milliseconds are the same. -/
theorem rangeCutoff_le_iff {rangeHours : ℚ} {ms cursorTime time : Int} (hwhole : rangeHours * 3600000 = ms) :
    rangeCutoff rangeHours cursorTime ≤ ((time / 1000 : Int) : ℚ) ↔
      1000 * truncMs (rangeCutoff rangeHours cursorTime) ≤ time := by
  have hcutoff : rangeCutoff rangeHours cursorTime = ((cursorTime / 1000 - ms : Int) : ℚ) := by
    rw [rangeCutoff, hwhole]
    push_cast
    rfl
  rw [hcutoff, truncMs_intCast, Int.cast_le]
  omega

/-- **A series is complete**, with whatever first page it began: it shows the lines whose milliseconds are
    in the range and that are before the cursor.  For a range of whole milliseconds these are the lines
    from its start to the cursor.  And no server keeps a collection going. -/
theorem ping_series_complete (T : TimeText) (rows : List PingSnapshot) (client : String) (batchFails : Bool)
    (tasks : List NormalizedPingTask) (rangeHours : ℚ) (cursor : String) (cursorTime : Int)
    (hread : ∀ task ∈ tasks, Readable T rows client task.id) (hcursor : T.Writes cursor cursorTime)
    (hstart : T.Writes (T.toISOString (truncMs (rangeCutoff rangeHours cursorTime)))
      (1000 * truncMs (rangeCutoff rangeHours cursorTime))) :
    (∀ series, fetchPingTaskSeries T (tableServer T rows client batchFails) tasks rangeHours cursor = some series →
      List.Forall₂ (fun task item => item.1 = task ∧
        Exactly T rows client task.id (fun l =>
          rangeCutoff rangeHours cursorTime ≤ ((l.row.time / 1000 : Int) : ℚ) ∧ l.row.time < cursorTime) item.2 ∧
        ∀ ms : Int, rangeHours * 3600000 = ms → Exactly T rows client task.id (fun l =>
          1000 * truncMs (rangeCutoff rangeHours cursorTime) ≤ l.row.time ∧ l.row.time < cursorTime) item.2)
        tasks series) ∧
    ∀ (fetchPage : Nat → String → Option HistoryPage) (cursor start : String) (stop : Option String)
      (maxPages : Option Nat), (collectCursorHistory T fetchPage cursor start stop maxPages).requests ≤ 32 := by
  refine ⟨fun series h => ?_, collectCursorHistory_requests T⟩
  rw [fetchPingTaskSeries, hcursor.parsed] at h
  refine forall₂_of_mapM (fun task htask item hitem => ?_) h
  obtain ⟨list, hlist, rfl⟩ := Option.map_eq_some_iff.mp hitem
  have hexactly := (taskRecords_complete (hread task htask) hcursor hstart hlist).limited (hread task htask)
  refine ⟨rfl, hexactly, fun ms hwhole => hexactly.congr fun l _ => and_congr_left fun _ => ?_⟩
  exact rangeCutoff_le_iff hwhole

/-- Some texts of the first milliseconds of 1970. -/
def stamps : List (Int × String) :=
  [(500, "1970-01-01T00:00:00.0005+00:00"), (1000, "1970-01-01T00:00:00.001+00:00"),
    (1000, "1970-01-01T00:00:00.001Z"), (2000, "1970-01-01T00:00:00.002Z")]

def stampText : TimeText where
  toJsonb time := if time = 500 then "1970-01-01T00:00:00.0005+00:00" else "1970-01-01T00:00:00.001+00:00"
  timestamptz text := (stamps.find? fun p => p.2 = text).map Prod.fst
  dateParse text := (stamps.find? fun p => p.2 = text).map fun p => p.1 / 1000
  toISOString ms := if ms = 2 then "1970-01-01T00:00:00.002Z" else "1970-01-01T00:00:00.001Z"

/-- A snapshot of client `a`, with a value under the task 7. -/
def stampedRow (id time value : Int) (h : 0 < id ∧ id ≤ maxBigint) : PingSnapshot :=
  ⟨id, "a", time, .obj [("7", .int value)], h.1, h.2⟩

/-- Two snapshots of one instant, and one before. -/
def stampedRows : List PingSnapshot :=
  [stampedRow 1 500 20 (by decide), stampedRow 2 1000 30 (by decide), stampedRow 3 1000 40 (by decide)]

def stampedTask : NormalizedPingTask := ⟨7, 60, by norm_num⟩

theorem stampText_early : stampText.Writes "1970-01-01T00:00:00.0005+00:00" 500 where
  bar := by decide
  back := by decide
  parsed := by decide
  digits := ⟨"1970-01-01T00:00:00".toList, "+00:00".toList, by decide, by decide,
    .inr ⟨"0005".toList, by decide⟩⟩

theorem stampText_first : stampText.Writes "1970-01-01T00:00:00.001+00:00" 1000 where
  bar := by decide
  back := by decide
  parsed := by decide
  digits := ⟨"1970-01-01T00:00:00".toList, "+00:00".toList, by decide, by decide,
    .inr ⟨"001".toList, by decide⟩⟩

theorem stampText_start : stampText.Writes "1970-01-01T00:00:00.001Z" 1000 where
  bar := by decide
  back := by decide
  parsed := by decide
  digits := ⟨"1970-01-01T00:00:00".toList, "Z".toList, by decide, by decide,
    .inr ⟨"001".toList, by decide⟩⟩

theorem stampText_cursor : stampText.Writes "1970-01-01T00:00:00.002Z" 2000 where
  bar := by decide
  back := by decide
  parsed := by decide
  digits := ⟨"1970-01-01T00:00:00".toList, "Z".toList, by decide, by decide,
    .inr ⟨"002".toList, by decide⟩⟩

theorem stampedRows_readable : Readable stampText stampedRows "a" 7 where
  ids := by decide
  legible := by
    intro r hr
    simp only [stampedRows, mem_cons, List.not_mem_nil, or_false] at hr
    rcases hr with rfl | rfl | rfl <;> exact ⟨by decide, by decide, by decide⟩
  writes := by
    intro r hr
    simp only [stampedRows, mem_cons, List.not_mem_nil, or_false] at hr
    rcases hr with rfl | rfl | rfl
    · exact stampText_early
    · exact stampText_first
    · exact stampText_first
  values := by
    intro l hl
    obtain ⟨hrow, -, hvalue⟩ := mem_pingLines hl
    rw [hvalue]
    simp only [stampedRows, mem_cons, List.not_mem_nil, or_false] at hrow
    rcases hrow with h | h | h <;> rw [h]
    · exact ⟨20, rfl⟩
    · exact ⟨30, rfl⟩
    · exact ⟨40, rfl⟩

/-- The last millisecond of a range holds both snapshots of its start. -/
theorem millisecond_series_complete :
    ∃ series, fetchPingTaskSeries stampText (tableServer stampText stampedRows "a" false) [stampedTask]
      (1 / 3600000) "1970-01-01T00:00:00.002Z" = some series ∧
      ∃ item ∈ series, item.2.map PingRecord.id = [some "2", some "3"] ∧
        Exactly stampText stampedRows "a" 7 (fun l => 1000 ≤ l.row.time ∧ l.row.time < 2000) item.2 := by
  have hcutoff : rangeCutoff (1 / 3600000) 2000 = ((1 : Int) : ℚ) := by norm_num [rangeCutoff]
  have hstart : truncMs (rangeCutoff (1 / 3600000) 2000) = 1 := by rw [hcutoff, truncMs_intCast]
  have hsome : (fetchPingTaskSeries stampText (tableServer stampText stampedRows "a" false) [stampedTask]
      (1 / 3600000) "1970-01-01T00:00:00.002Z").map (fun series => series.map fun item =>
        item.2.map PingRecord.id) = some [[some "2", some "3"]] := by decide +kernel
  obtain ⟨series, hseries, hids⟩ := Option.map_eq_some_iff.mp hsome
  refine ⟨series, hseries, ?_⟩
  obtain ⟨hall, -⟩ := ping_series_complete stampText stampedRows "a" false [stampedTask] (1 / 3600000)
    "1970-01-01T00:00:00.002Z" 2000 (fun task htask => by
      obtain rfl := List.mem_singleton.mp htask
      exact stampedRows_readable) stampText_cursor (by rw [hstart]; exact stampText_start)
  cases hall series hseries with
  | cons hitem hnil =>
    cases hnil
    obtain ⟨-, -, hexactly⟩ := hitem
    have hrange := hexactly 1 (by norm_num)
    rw [hstart] at hrange
    exact ⟨_, List.mem_singleton_self _, List.singleton_inj.mp hids, hrange⟩

/-- **A range with a fraction of a millisecond** loses what lies in its first millisecond. -/
theorem half_millisecond_lost :
    ¬ ∀ (rangeHours : ℚ) (series : List (NormalizedPingTask × List PingRecord)), 0 < rangeHours →
      stampText.Writes (stampText.toISOString (truncMs (rangeCutoff rangeHours 2000)))
        (1000 * truncMs (rangeCutoff rangeHours 2000)) →
      fetchPingTaskSeries stampText (tableServer stampText stampedRows "a" false) [stampedTask] rangeHours
        "1970-01-01T00:00:00.002Z" = some series →
      ∀ item ∈ series, Exactly stampText stampedRows "a" 7 (fun l =>
        1000 * truncMs (rangeCutoff rangeHours 2000) ≤ l.row.time ∧ l.row.time < 2000) item.2 := by
  intro h
  have hstart : truncMs (rangeCutoff (1 / 7200000) 2000) = 1 := by decide +kernel
  have hsome : (fetchPingTaskSeries stampText (tableServer stampText stampedRows "a" false) [stampedTask]
      (1 / 7200000) "1970-01-01T00:00:00.002Z").map (fun series => series.map Prod.snd) = some [[]] := by
    decide +kernel
  obtain ⟨series, hseries, hnone⟩ := Option.map_eq_some_iff.mp hsome
  obtain ⟨item, rfl⟩ : ∃ item, series = [item] := by
    cases series with
    | nil => cases hnone
    | cons item rest =>
      have hrest : rest = [] := List.map_eq_nil_iff.mp (List.cons.inj hnone).2
      exact ⟨item, by rw [hrest]⟩
  obtain ⟨ls, -, hmem, heq⟩ := h (1 / 7200000) [item] (by norm_num)
    (by rw [hstart]; exact stampText_start) hseries item (List.mem_singleton_self item)
  rw [show item.2 = [] from (List.cons.inj hnone).1] at heq
  obtain rfl := List.map_eq_nil_iff.mp heq.symm
  rw [hstart] at hmem
  have hline : (⟨stampedRow 2 1000 30 (by decide), 7, some (.int 30)⟩ : PingLine)
      ∈ (pingView "a" 7).lines stampedRows :=
    List.mem_of_getElem? (show _[1]? = _ from rfl)
  exact absurd ((hmem _).mpr ⟨hline, by decide, by decide⟩) List.not_mem_nil

end CfMonitor.Records
