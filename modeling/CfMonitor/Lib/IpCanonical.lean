/-
  IPv6 addresses in canonical form, as a URL serialises them, and read from any spelling.

  * `Ipv6.text`   — groups without leading zeros; the first of the longest runs of two or more zeros
                    becomes `::`;
  * `text_starts` — a first group other than zero stands at the front;
  * `readIpv6`    — the groups of a text; a valid text gives its own (`readIpv6_text`), so no text
                    spells two addresses;
  * `spelling`    — the canonical text is one of the spellings of its address.
-/
import CfMonitor.Lib.IpText

namespace CfMonitor.Lib

open Ipv6Text (parts parts_none plain_parts values)

/-! ## Canonical form -/

/-- The zeros from an index on. -/
def zeroRun (groups : List Nat) (i : Nat) : Nat := ((groups.drop i).takeWhile (· == 0)).length

/-- The start and the length of the first longest run of at least two zeros. -/
def longestRun (groups : List Nat) : Option (Nat × Nat) :=
  (List.range groups.length).foldl
    (fun best i => if best.elim 1 Prod.snd < zeroRun groups i then some (i, zeroRun groups i) else best) none

def canonicalText (groups : List Nat) : List Char :=
  match longestRun groups with
  | none => joinWith ':' (groups.map hexText)
  | some (start, length) =>
    joinWith ':' ((groups.take start).map hexText) ++ [':', ':'] ++ joinWith ':' ((groups.drop (start + length)).map hexText)

/-- The text of an address. -/
def Ipv6.text (x : Ipv6) : List Char := canonicalText x.groups

theorem zeroRun_pos {groups : List Nat} {i : Nat} (h : 0 < zeroRun groups i) : groups.getD i 1 = 0 := by
  rw [zeroRun] at h
  cases hdrop : groups.drop i with
  | nil => simp [hdrop] at h
  | cons g rest =>
    have hg : groups.getD i 1 = g := by
      have hhead : (groups.drop i).head? = some g := by rw [hdrop]; rfl
      rw [List.head?_drop] at hhead
      rw [List.getD_eq_getElem?_getD, hhead, Option.getD_some]
    rw [hdrop] at h
    by_cases hzero : g = 0
    · rw [hg, hzero]
    · simp [hzero] at h

theorem longestRun_some {groups : List Nat} {start length : Nat} (h : longestRun groups = some (start, length)) :
    length = zeroRun groups start ∧ 2 ≤ length := by
  have hstep : ∀ (indices : List Nat) (best : Option (Nat × Nat)),
      (∀ run ∈ best, run.2 = zeroRun groups run.1 ∧ 2 ≤ run.2) →
      ∀ run ∈ indices.foldl (fun best i => if best.elim 1 Prod.snd < zeroRun groups i then
        some (i, zeroRun groups i) else best) best, run.2 = zeroRun groups run.1 ∧ 2 ≤ run.2 := by
    intro indices
    induction indices with
    | nil => exact fun _ h => h
    | cons i rest ih =>
      intro best hbest
      rw [List.foldl_cons]
      refine ih _ fun run hrun => ?_
      split_ifs at hrun with hlonger
      · obtain rfl := Option.mem_some_iff.mp hrun
        refine ⟨rfl, ?_⟩
        cases best with
        | none => exact hlonger
        | some run' =>
          have htwo := (hbest run' rfl).2
          have hlonger : run'.2 < zeroRun groups i := hlonger
          exact htwo.trans (Nat.le_of_lt hlonger)
      · exact hbest run hrun
  exact hstep _ none nofun (start, length) (by rw [← longestRun, h]; rfl)

theorem mem_canonicalText {groups : List Nat} {c : Char} (h : c ∈ canonicalText groups) :
    (isHexDigitChar c = true ∨ c = ':') ∧ c.toLower = c := by
  have hcolon : (isHexDigitChar ':' = true ∨ ':' = ':') ∧ ':'.toLower = ':' := ⟨.inr rfl, by decide⟩
  have hjoin : ∀ groups : List Nat, c ∈ joinWith ':' (groups.map hexText) →
      (isHexDigitChar c = true ∨ c = ':') ∧ c.toLower = c := by
    intro groups h
    rcases mem_joinWith h with rfl | ⟨part, hpart, h⟩
    · exact hcolon
    · obtain ⟨g, -, rfl⟩ := List.mem_map.mp hpart
      exact ⟨.inl (isHexDigitChar_of_mem_hexText h), toLower_of_mem_hexText h⟩
  rw [canonicalText] at h
  split at h
  · exact hjoin _ h
  · rcases List.mem_append.mp h with h | h
    · rcases List.mem_append.mp h with h | h
      · exact hjoin _ h
      · rcases List.mem_pair.mp h with rfl | rfl
        · exact hcolon
        · exact hcolon
    · exact hjoin _ h

/-- There are eight groups, or `::`. -/
theorem colon_mem_canonicalText {groups : List Nat} (h : 2 ≤ groups.length) : ':' ∈ canonicalText groups := by
  rw [canonicalText]
  cases longestRun groups with
  | some run => simp
  | none =>
    match groups, h with
    | g :: g' :: rest, _ =>
      simp only [List.map_cons]
      rw [joinWith_cons ':' _ (List.cons_ne_nil _ _)]
      simp

variable {rest : List Nat}

/-- **A first group** other than zero stands at the front. -/
theorem text_starts {g : Nat} (hg : g ≠ 0) (hrest : rest ≠ []) :
    ∃ more, canonicalText (g :: rest) = hexText g ++ ':' :: more := by
  rw [canonicalText]
  cases hrun : longestRun (g :: rest) with
  | none => exact ⟨_, joinWith_cons ':' _ (by simp [hrest])⟩
  | some run =>
    obtain ⟨start, length⟩ := run
    obtain ⟨hlength, htwo⟩ := longestRun_some hrun
    have hzero := zeroRun_pos (by omega : 0 < zeroRun (g :: rest) start)
    cases start with
    | zero => exact absurd hzero hg
    | succ start =>
      simp only [List.take_succ_cons, List.map_cons]
      by_cases hfront : (rest.take start).map hexText = []
      · rw [hfront, joinWith_singleton]
        exact ⟨_, by simp; rfl⟩
      · rw [joinWith_cons ':' _ hfront]
        exact ⟨_, by simp; rfl⟩

theorem text_starts_two {g g' : Nat} (hg : g ≠ 0) (hg' : g' ≠ 0) (hrest : rest ≠ []) :
    ∃ more, canonicalText (g :: g' :: rest) = hexText g ++ ':' :: (hexText g' ++ ':' :: more) := by
  rw [canonicalText]
  cases hrun : longestRun (g :: g' :: rest) with
  | none =>
    simp only [List.map_cons]
    rw [joinWith_cons ':' _ (List.cons_ne_nil _ _), joinWith_cons ':' _ (by simp [hrest])]
    exact ⟨_, rfl⟩
  | some run =>
    obtain ⟨start, length⟩ := run
    obtain ⟨hlength, htwo⟩ := longestRun_some hrun
    have hzero := zeroRun_pos (by omega : 0 < zeroRun (g :: g' :: rest) start)
    match start, hzero with
    | 0, hzero => exact absurd hzero hg
    | 1, hzero => exact absurd hzero hg'
    | start + 2, _ =>
      simp only [List.take_succ_cons, List.map_cons]
      rw [joinWith_cons ':' _ (List.cons_ne_nil _ _)]
      by_cases hfront : (rest.take start).map hexText = []
      · rw [hfront, joinWith_singleton]
        exact ⟨_, by simp; rfl⟩
      · rw [joinWith_cons ':' _ hfront]
        exact ⟨_, by simp; rfl⟩

theorem text_mapped (a b : Nat) : ∃ more, canonicalText [0, 0, 0, 0, 0, 0xffff, a, b] = "::ffff:".toList ++ more := by
  have hrun : longestRun [0, 0, 0, 0, 0, 0xffff, a, b] = some (0, 5) := by
    by_cases ha : a = 0
    · by_cases hb : b = 0
      · subst ha hb
        decide
      · subst ha
        simp [longestRun, zeroRun, List.range_succ, hb]
    · by_cases hb : b = 0
      · subst hb
        simp [longestRun, zeroRun, List.range_succ, ha]
      · simp [longestRun, zeroRun, List.range_succ, ha, hb]
  rw [canonicalText, hrun]
  refine ⟨joinWith ':' [hexText a, hexText b], ?_⟩
  simp only [List.take_zero, List.map_nil, List.drop_succ_cons, List.drop_zero, List.map_cons, Nat.zero_add]
  rw [joinWith_cons ':' (hexText 0xffff) (List.cons_ne_nil _ _)]
  rfl

/-! ## Reading a text -/

/-- The groups of a part: one, or the two of an IPv4 address. -/
def partGroups (part : List Char) : List Nat :=
  match part.splitOn '.' with
  | [a, b, c, d] =>
    [Nat.ofDigitChars 10 a 0 * 256 + Nat.ofDigitChars 10 b 0, Nat.ofDigitChars 10 c 0 * 256 + Nat.ofDigitChars 10 d 0]
  | _ => [hexValue part]

/-- The groups of the parts between colons. -/
def joinedGroups (text : List Char) : List Nat :=
  ((text.splitOn ':').filter fun part => !part.isEmpty).flatMap partGroups

/-- The groups of a text. -/
def readIpv6 (text : List Char) : List Nat :=
  match splitAtText [':', ':'] text with
  | [front, back] =>
    joinedGroups front ++ List.replicate (8 - (joinedGroups front).length - (joinedGroups back).length) 0 ++
      joinedGroups back
  | _ => joinedGroups text

theorem partGroups_hextet (g : Hextet) : partGroups g.digits = [hexValue g.digits] := by
  have hdot : '.' ∉ g.digits := fun h => absurd (g.hex _ h) (by decide)
  rw [partGroups, List.splitOn_eq_singleton hdot]

theorem partGroups_ipv4 (x : Ipv4) : partGroups x.text = x.groups := by
  rw [partGroups, x.splitOn_text]
  simp only [decimalText, Nat.ofDigitChars_ten_toDigits]
  rfl

theorem joinedGroups_parts (groups : List Hextet) (tail : Option Ipv4) :
    joinedGroups (joinWith ':' (parts groups tail)) = values groups ++ (tail.map Ipv4.groups).getD [] := by
  rw [joinedGroups, (plain_parts groups tail).filter_splitOn, parts, List.flatMap_append,
    List.flatMap_map, values]
  congr 1
  · rw [List.flatMap_congr fun g _ => partGroups_hextet g]
    exact List.map_eq_flatMap.symm
  · cases tail with
    | none => rfl
    | some x => simp [partGroups_ipv4]

/-- **A text** gives the groups that it spells. -/
theorem readIpv6_text (t : Ipv6Text) : readIpv6 t.text = t.groups := by
  rw [Ipv6Text.text, Ipv6Text.groups, Ipv6Text.tailGroups]
  cases hback : t.back with
  | none =>
    simp only [readIpv6, single_join (plain_parts t.front t.tail), joinedGroups_parts]
  | some back =>
    have hfront : joinedGroups (joinWith ':' (t.front.map Hextet.digits)) = values t.front := by
      rw [← parts_none, joinedGroups_parts]
      exact List.append_nil _
    rw [readIpv6, doubled_joins (Hextet.plain t.front) (plain_parts back t.tail)]
    simp only [hfront, joinedGroups_parts, List.length_append, Ipv6Text.length_values, Nat.sub_sub, Nat.add_assoc, List.append_assoc]

/-! ## A text is a spelling -/

theorem around_zeroRun (groups : List Nat) (start : Nat) : groups =
    groups.take start ++ List.replicate (zeroRun groups start) 0 ++ groups.drop (start + zeroRun groups start) := by
  have hzeros : (groups.drop start).takeWhile (· == 0) = List.replicate (zeroRun groups start) 0 := by
    refine List.eq_replicate_iff.mpr ⟨rfl, fun g hg => ?_⟩
    simpa using List.mem_takeWhile_imp hg
  have hrest : (groups.drop start).dropWhile (· == 0) = groups.drop (start + zeroRun groups start) := by
    have hdrop := @List.drop_left Nat ((groups.drop start).takeWhile (· == 0)) ((groups.drop start).dropWhile (· == 0))
    rw [List.takeWhile_append_dropWhile] at hdrop
    rw [← List.drop_drop, zeroRun, hdrop]
  rw [List.append_assoc, ← hzeros, ← hrest, List.takeWhile_append_dropWhile, List.take_append_drop]

/-- A group in the digits of its canonical text. -/
def hextetOfGroup (g : Nat) (h : g < 65536) : Hextet where
  digits := hexText g
  hex := fun _ hc => isHexDigitChar_of_mem_hexText hc
  length := ⟨List.length_pos_of_ne_nil (hexText_ne_nil g), (Nat.length_toDigits_le_iff (by decide) (by decide)).mpr h⟩

/-- Groups as canonical texts have them. -/
def hextetsOf (groups : List Nat) (h : ∀ g ∈ groups, g < 65536) : List Hextet :=
  groups.attach.map fun g => hextetOfGroup g.1 (h g.1 g.2)

theorem digits_hextetsOf {groups : List Nat} (h : ∀ g ∈ groups, g < 65536) :
    (hextetsOf groups h).map Hextet.digits = groups.map hexText := by
  rw [hextetsOf, List.map_map]
  show groups.attach.map (fun g => hexText g.1) = groups.map hexText
  exact List.attach_map_val

theorem values_hextetsOf {groups : List Nat} (h : ∀ g ∈ groups, g < 65536) :
    values (hextetsOf groups h) = groups := by
  rw [values, hextetsOf, List.map_map]
  have hvalue : ∀ g : { g // g ∈ groups }, ((fun g => hexValue g.digits) ∘ fun g : { g // g ∈ groups } =>
      hextetOfGroup g.1 (h g.1 g.2)) g = g.1 := fun g => hexValue_hexText g.1
  rw [List.map_congr_left fun g _ => hvalue g, List.attach_map_subtype_val]

theorem length_hextetsOf {groups : List Nat} (h : ∀ g ∈ groups, g < 65536) : (hextetsOf groups h).length = groups.length := by
  rw [hextetsOf, List.length_map, List.length_attach]

/-- **The canonical text** is one of the spellings of the address. -/
theorem Ipv6.spelling (x : Ipv6) : ∃ (t : Ipv6Text) (h : t.Valid), t.address h = x ∧ t.text = x.text := by
  cases hrun : longestRun x.groups with
  | none =>
    have hvalid : Ipv6Text.Valid ⟨hextetsOf x.groups x.bounds, none, none⟩ := by
      rw [Ipv6Text.Valid]
      exact (Nat.add_zero _).trans ((length_hextetsOf x.bounds).trans x.length)
    refine ⟨_, hvalid, Ipv6.ext' ?_, ?_⟩
    · show values _ ++ [] = x.groups
      rw [values_hextetsOf, List.append_nil]
    · show joinWith ':' (parts _ none) = x.text
      rw [parts_none, digits_hextetsOf, Ipv6.text, canonicalText, hrun]
  | some run =>
    obtain ⟨start, length⟩ := run
    obtain ⟨rfl, htwo⟩ := longestRun_some hrun
    have haround := around_zeroRun x.groups start
    have hfront : ∀ g ∈ x.groups.take start, g < 65536 := fun g hg => x.bounds g (List.mem_of_mem_take hg)
    have hback : ∀ g ∈ x.groups.drop (start + zeroRun x.groups start), g < 65536 :=
      fun g hg => x.bounds g (List.mem_of_mem_drop hg)
    have hlength := congrArg List.length haround
    rw [List.length_append, List.length_append, List.length_replicate, x.length] at hlength
    have hvalid : Ipv6Text.Valid ⟨hextetsOf _ hfront, some (hextetsOf _ hback), none⟩ := by
      simp only [Ipv6Text.Valid, length_hextetsOf, Ipv6Text.tailGroups, Option.map_none, Option.getD_none, List.length_nil]
      omega
    refine ⟨_, hvalid, Ipv6.ext' ?_, ?_⟩
    · show values _ ++ List.replicate (8 - _ - _ - 0) 0 ++ values _ ++ [] = x.groups
      rw [values_hextetsOf, values_hextetsOf, length_hextetsOf, length_hextetsOf, List.append_nil]
      have hzeros : 8 - (x.groups.take start).length - (x.groups.drop (start + zeroRun x.groups start)).length - 0 =
          zeroRun x.groups start := by omega
      rw [hzeros]
      exact haround.symm
    · show joinWith ':' _ ++ [':', ':'] ++ joinWith ':' (parts _ none) = x.text
      rw [parts_none, digits_hextetsOf, digits_hextetsOf, Ipv6.text, canonicalText, hrun]

end CfMonitor.Lib
