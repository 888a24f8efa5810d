/-
  The Base32 texts of authenticator secrets (`totp.ts`).

  1. **Program** — both directions shift bits through a 32-bit word that is never masked.

  2. **Specification** — the encoding of RFC 4648: the bits of the bytes in groups of five, one character for
     each, without padding.

  3. **Result** — decoding gives the bytes back (`base32_round_trip`).
-/
import CfMonitor.Lib.BitGroups
import CfMonitor.Lib.HostPort
import CfMonitor.Lib.Json
import Mathlib

namespace CfMonitor.Auth

open CfMonitor.Lib

/-! ## Program -/

def BASE32_ALPHABET : List Char := "ABCDEFGHIJKLMNOPQRSTUVWXYZ234567".toList

/-- `BASE32_ALPHABET[value & 31]`. -/
def base32Char (value : BitVec 32) : Char := BASE32_ALPHABET.getD (value.toNat % 32) 'A'

/-- `while (bits >= 5)`. -/
def emitGroups (value : BitVec 32) (bits : Nat) (output : List Char) : Nat × List Char :=
  if 5 ≤ bits then emitGroups value (bits - 5) (output ++ [base32Char (value >>> (bits - 5))]) else (bits, output)
termination_by bits

structure EncodeState where
  bits : Nat
  value : BitVec 32
  output : List Char

def encodeStep (s : EncodeState) (byte : UInt8) : EncodeState :=
  let value := s.value <<< 8 ||| BitVec.ofNat 32 byte.toNat
  let emitted := emitGroups value (s.bits + 8) s.output
  ⟨emitted.1, value, emitted.2⟩

def base32Encode (bytes : List UInt8) : List Char :=
  let s := bytes.foldl encodeStep ⟨0, 0, []⟩
  if 0 < s.bits then s.output ++ [base32Char (s.value <<< (5 - s.bits))] else s.output

/-- What decoding uses from elsewhere: `toUpperCase` of a character. -/
structure CaseRules where
  upper : Char → List Char

/-- What is documented of it. -/
structure CaseRules.Lawful (rules : CaseRules) : Prop where
  ascii : ∀ c, c.toNat < 128 → rules.upper c = [c.toUpper]
  /-- A blank is the capital of no other character. -/
  blank : ∀ c d, rules.upper c = rules.upper d → isTrimmed c = isTrimmed d

structure DecodeState where
  bits : Nat
  value : BitVec 32
  output : List UInt8

def decodeStep (s : DecodeState) (index : Nat) : DecodeState :=
  let value := s.value <<< 5 ||| BitVec.ofNat 32 index
  let bits := s.bits + 5
  if 8 ≤ bits then ⟨bits - 8, value, s.output ++ [UInt8.ofNat ((value >>> (bits - 8)).toNat % 256)]⟩
  else ⟨bits, value, s.output⟩

/-- `input.trim().toUpperCase().replace(/=+$/g, '')`. -/
def normalizeBase32 (rules : CaseRules) (input : List Char) : List Char :=
  ((((trimWhere isTrimmed input).flatMap rules.upper).reverse.dropWhile (· == '='))).reverse

/-- `none` where the program throws. -/
def base32Decode (rules : CaseRules) (input : List Char) : Option (List UInt8) :=
  let normalized := normalizeBase32 rules input
  if normalized = [] then none
  else (normalized.mapM (BASE32_ALPHABET.idxOf? ·)).map fun indices => (indices.foldl decodeStep ⟨0, 0, []⟩).output

/-! ## Specification -/

/-- The bits of bytes. -/
def byteBits (bytes : List UInt8) : List Bool := bytes.flatMap fun byte => bitsOf 8 byte.toNat

/-- RFC 4648, without padding. -/
def rfc4648Base32 (bytes : List UInt8) : List Char :=
  (groups 5 (byteBits bytes)).map fun group => BASE32_ALPHABET.getD (ofBits group) 'A'

/-! ## Encoding -/

theorem base32Char_eq (value : BitVec 32) {group rest : List Bool} (hgroup : group.length = 5) (h : Low value (group ++ rest)) :
    base32Char (value >>> rest.length) = BASE32_ALPHABET.getD (ofBits group) 'A' := by
  have hpop := h.pop.1
  rw [hgroup] at hpop
  rw [base32Char, BitVec.toNat_ushiftRight]
  exact congrArg (BASE32_ALPHABET.getD · 'A') hpop

/-- The inner loop cuts what is pending. -/
theorem emitGroups_eq (value : BitVec 32) (pending : List Bool) (output : List Char) (h : Low value pending) :
    emitGroups value pending.length output = ((cut 5 pending).2.length,
      output ++ (cut 5 pending).1.map fun group => BASE32_ALPHABET.getD (ofBits group) 'A') ∧ Low value (cut 5 pending).2 := by
  induction pending using cut.induct 5 generalizing output with
  | case1 pending hlong ih =>
    have hgroup : (pending.take 5).length = 5 := List.length_take_of_le hlong.2
    have hsplit := h
    rw [← List.take_append_drop 5 pending] at hsplit
    have hchar := base32Char_eq value hgroup hsplit
    rw [List.length_drop] at hchar
    obtain ⟨hrest, hlow⟩ := ih (output ++ [base32Char (value >>> (pending.length - 5))]) hsplit.pop.2
    rw [List.length_drop] at hrest
    rw [emitGroups, if_pos hlong.2, cut, if_pos hlong]
    refine ⟨?_, hlow⟩
    rw [hrest, hchar, List.append_assoc]
    rfl
  | case2 pending hshort =>
    rw [emitGroups, cut, if_neg hshort, if_neg fun hle => hshort ⟨by decide, hle⟩, List.map_nil, List.append_nil]
    exact ⟨rfl, h⟩

/-- The state after some bytes: what is left of their bits is pending. -/
structure EncodeState.After (s : EncodeState) (stream : List Bool) : Prop where
  bits : s.bits = (cut 5 stream).2.length
  low : Low s.value (cut 5 stream).2
  output : s.output = (cut 5 stream).1.map fun group => BASE32_ALPHABET.getD (ofBits group) 'A'

theorem EncodeState.After.step {s : EncodeState} {stream : List Bool} (h : s.After stream) (byte : UInt8) :
    (encodeStep s byte).After (stream ++ bitsOf 8 byte.toNat) := by
  have hleft := cut_left_lt (w := 5) (by decide) stream
  have hlength := length_bitsOf 8 byte.toNat
  have hroom : (cut 5 stream).2.length + (bitsOf 8 byte.toNat).length ≤ 32 := by omega
  have hpush := h.low.push hroom
  rw [hlength, ofBits_bitsOf byte.toNat_lt] at hpush
  have hemit := emitGroups_eq _ _ s.output hpush
  rw [List.length_append, hlength, ← h.bits] at hemit
  have hcut := cut_append (w := 5) stream (bitsOf 8 byte.toNat)
  refine ⟨?_, ?_, ?_⟩
  · rw [encodeStep, hemit.1, hcut]
  · rw [encodeStep, hcut]
    exact hemit.2
  · rw [encodeStep, hemit.1, hcut, h.output, List.map_append]

theorem encode_after (bytes : List UInt8) : (bytes.foldl encodeStep ⟨0, 0, []⟩).After (byteBits bytes) := by
  induction bytes using List.reverseRecOn with
  | nil =>
    have hnil : cut 5 (byteBits []) = ([], []) := cut_short (by decide)
    exact ⟨by rw [hnil]; rfl, by rw [hnil]; exact Low.nil 0, by rw [hnil]; rfl⟩
  | append_singleton bytes byte ih =>
    rw [List.foldl_append, byteBits, List.flatMap_append, List.flatMap_singleton]
    exact ih.step byte

/-- **Encoding** is that of the specification. -/
theorem base32Encode_eq (bytes : List UInt8) : base32Encode bytes = rfc4648Base32 bytes := by
  obtain ⟨hbits, hlow, houtput⟩ := encode_after bytes
  have hlt := cut_left_lt (w := 5) (by decide) (byteBits bytes)
  rw [base32Encode, rfc4648Base32, groups, List.map_append, houtput]
  generalize (cut 5 (byteBits bytes)).2 = left at hbits hlow hlt ⊢
  by_cases hleft : left = []
  · rw [if_neg (by rw [hbits, hleft]; decide), if_pos hleft, List.map_nil, List.append_nil]
  · have hpos := List.length_pos_iff.mpr hleft
    have hfill : (List.replicate (5 - left.length) false).length = 5 - left.length := List.length_replicate
    have hroom : left.length + (List.replicate (5 - left.length) false).length ≤ 32 := by omega
    have hpush := hlow.push hroom
    rw [ofBits_zeros, hfill, ← List.append_nil (left ++ _)] at hpush
    have hchar := base32Char_eq _ (by rw [List.length_append]; omega) hpush
    rw [if_pos (by omega), if_neg hleft, List.map_singleton, ← hchar, hbits]
    simp

/-! ## Decoding -/

/-- The state after some characters: what is left of their bits is pending. -/
structure DecodeState.After (s : DecodeState) (stream : List Bool) : Prop where
  bits : s.bits = (cut 8 stream).2.length
  low : Low s.value (cut 8 stream).2
  output : s.output = (cut 8 stream).1.map fun group => UInt8.ofNat (ofBits group)

theorem DecodeState.After.step {s : DecodeState} {stream : List Bool} (h : s.After stream) {index : Nat} (hindex : index < 32) :
    (decodeStep s index).After (stream ++ bitsOf 5 index) := by
  obtain ⟨hbits, hlow, houtput⟩ := h
  have hleft := cut_left_lt (w := 8) (by decide) stream
  have hlength := length_bitsOf 5 index
  have hroom : (cut 8 stream).2.length + (bitsOf 5 index).length ≤ 32 := by omega
  have hpush := hlow.push hroom
  rw [hlength, ofBits_bitsOf hindex] at hpush
  have hcut := cut_append (w := 8) stream (bitsOf 5 index)
  have hbuffer : s.bits + 5 = ((cut 8 stream).2 ++ bitsOf 5 index).length := by rw [List.length_append, hlength, hbits]
  generalize (cut 8 stream).2 ++ bitsOf 5 index = buffer at hpush hcut hbuffer
  by_cases hfull : 8 ≤ s.bits + 5
  · -- One byte at most becomes whole.
    have hgroup : (buffer.take 8).length = 8 := List.length_take_of_le (by omega)
    have hrest : (buffer.drop 8).length = s.bits + 5 - 8 := by rw [List.length_drop, hbuffer]
    have hwhole : cut 8 buffer = ([buffer.take 8], buffer.drop 8) := by
      conv_lhs => rw [← List.take_append_drop 8 buffer]
      rw [cut_group (by decide) hgroup, cut_short (by omega)]
    rw [hwhole] at hcut
    rw [← List.take_append_drop 8 buffer] at hpush
    obtain ⟨hbyte, hlow'⟩ := hpush.pop
    rw [hgroup, hrest, ← BitVec.toNat_ushiftRight] at hbyte
    refine ⟨?_, ?_, ?_⟩ <;> rw [decodeStep, hcut, if_pos hfull]
    · exact hrest.symm
    · exact hlow'
    · rw [houtput, List.map_append]
      exact congrArg (fun n => _ ++ [UInt8.ofNat n]) hbyte
  · have hwhole : cut 8 buffer = ([], buffer) := cut_short (by omega)
    rw [hwhole, List.append_nil] at hcut
    refine ⟨?_, ?_, ?_⟩ <;> rw [decodeStep, hcut, if_neg hfull]
    · exact hbuffer
    · exact hpush
    · exact houtput

variable {indices : List Nat}

theorem decode_after (h : ∀ index ∈ indices, index < 32) :
    (indices.foldl decodeStep ⟨0, 0, []⟩).After (indices.flatMap (bitsOf 5)) := by
  induction indices using List.reverseRecOn with
  | nil =>
    have hnil : cut 8 (List.flatMap (bitsOf 5) []) = ([], []) := cut_short (by decide)
    exact ⟨by rw [hnil]; rfl, by rw [hnil]; exact Low.nil 0, by rw [hnil]; rfl⟩
  | append_singleton indices index ih =>
    rw [List.foldl_append, List.flatMap_append, List.flatMap_singleton]
    exact (ih fun i hi => h i (List.mem_append_left _ hi)).step (h index (List.mem_append_right _ List.mem_cons_self))

theorem alphabet_char {n : Nat} (h : n < 32) : BASE32_ALPHABET.idxOf? (BASE32_ALPHABET.getD n 'A') = some n ∧
    isTrimmed (BASE32_ALPHABET.getD n 'A') = false ∧ (BASE32_ALPHABET.getD n 'A').toNat < 128 ∧
    (BASE32_ALPHABET.getD n 'A').toUpper = BASE32_ALPHABET.getD n 'A' ∧ BASE32_ALPHABET.getD n 'A' ≠ '=' := by
  have hall : ∀ i : Fin 32, BASE32_ALPHABET.idxOf? (BASE32_ALPHABET.getD i 'A') = some i.val ∧
      isTrimmed (BASE32_ALPHABET.getD i 'A') = false ∧ (BASE32_ALPHABET.getD i 'A').toNat < 128 ∧
      (BASE32_ALPHABET.getD i 'A').toUpper = BASE32_ALPHABET.getD i 'A' ∧ BASE32_ALPHABET.getD i 'A' ≠ '=' := by
    decide +kernel
  exact hall ⟨n, h⟩

theorem mapM_alphabet (h : ∀ index ∈ indices, index < 32) :
    (indices.map (BASE32_ALPHABET.getD · 'A')).mapM (BASE32_ALPHABET.idxOf? ·) = some indices := by
  induction indices with
  | nil => rfl
  | cons index rest ih =>
    rw [List.map_cons, List.mapM_cons, (alphabet_char (h index List.mem_cons_self)).1,
      ih fun i hi => h i (List.mem_cons_of_mem _ hi)]
    rfl

/-! ## Letter case, blanks and padding -/

theorem trimWhere_outer {p : Char → Bool} {front text back : List Char} (hfront : ∀ c ∈ front, p c = true)
    (hback : ∀ c ∈ back, p c = true) (hhead : ∀ c ∈ text.head?, p c = false) (hlast : ∀ c ∈ text.getLast?, p c = false) :
    trimWhere p (front ++ text ++ back) = text := by
  rw [trimWhere, List.append_assoc, List.dropWhile_append_of_pos hfront]
  cases text with
  | nil =>
    have hall : back.dropWhile p = [] := List.dropWhile_eq_nil_iff.mpr hback
    rw [List.nil_append, hall]
    rfl
  | cons c rest =>
    have hc : ¬ p c = true := by rw [hhead c rfl]; exact Bool.false_ne_true
    rw [List.cons_append, List.dropWhile_cons_of_neg hc, ← List.cons_append, List.reverse_append,
      List.dropWhile_append_of_pos fun c hc => hback c (List.mem_reverse.mp hc)]
    have hne : (c :: rest).reverse ≠ [] := by simp
    have hself : (c :: rest).reverse.dropWhile p = (c :: rest).reverse := by
      rw [List.dropWhile_eq_self_iff]
      intro hpos
      have hget := hlast ((c :: rest).reverse.get ⟨0, hpos⟩) (by
        rw [← List.head?_reverse, List.get_eq_getElem, ← List.head_eq_getElem hne]
        exact List.head?_eq_some_head hne)
      rw [List.get_eq_getElem] at hget
      rw [hget]
      exact Bool.false_ne_true
    rw [hself, List.reverse_reverse]

section

variable {rules : CaseRules} {R : Char → Char → Prop}

variable {text' : List Char}

theorem dropWhile_forall₂ {p : Char → Bool} (hp : ∀ c d, R c d → p c = p d) {text : List Char}
    (h : List.Forall₂ R text text') : List.Forall₂ R (text.dropWhile p) (text'.dropWhile p) := by
  induction h with
  | nil => exact .nil
  | @cons c d _ _ hcd hrest ih =>
    by_cases hc : p c = true
    · rwa [List.dropWhile_cons_of_pos hc, List.dropWhile_cons_of_pos (hp c d hcd ▸ hc)]
    · rw [List.dropWhile_cons_of_neg hc, List.dropWhile_cons_of_neg (hp c d hcd ▸ hc)]
      exact .cons hcd hrest

theorem normalizeBase32_case (hrules : rules.Lawful) {text : List Char}
    (h : List.Forall₂ (fun c d => rules.upper c = rules.upper d) text text') :
    normalizeBase32 rules text = normalizeBase32 rules text' := by
  have htrim : List.Forall₂ (fun c d => rules.upper c = rules.upper d) (trimWhere isTrimmed text) (trimWhere isTrimmed text') :=
    List.rel_reverse (dropWhile_forall₂ hrules.blank (List.rel_reverse (dropWhile_forall₂ hrules.blank h)))
  have hupper : (trimWhere isTrimmed text).flatMap rules.upper = (trimWhere isTrimmed text').flatMap rules.upper := by
    generalize trimWhere isTrimmed text = left, trimWhere isTrimmed text' = right at htrim
    induction htrim with
    | nil => rfl
    | cons hcd _ ih => rw [List.flatMap_cons, List.flatMap_cons, hcd, ih]
  rw [normalizeBase32, normalizeBase32, hupper]

/-- Blanks at the ends and padding are not seen. -/
theorem normalizeBase32_outer (hrules : rules.Lawful) {front text back : List Char} (k : Nat)
    (hfront : ∀ c ∈ front, isTrimmed c = true) (hback : ∀ c ∈ back, isTrimmed c = true)
    (hhead : ∀ c ∈ text.head?, isTrimmed c = false) (hlast : ∀ c ∈ text.getLast?, isTrimmed c = false) :
    normalizeBase32 rules (front ++ (text ++ List.replicate k '=') ++ back) = normalizeBase32 rules text := by
  have hpad : rules.upper '=' = ['='] := hrules.ascii '=' (by decide)
  have hpads : (List.replicate k '=').flatMap rules.upper = List.replicate k '=' := by
    induction k with
    | zero => rfl
    | succ k ih => rw [List.replicate_succ, List.flatMap_cons, hpad, ih]; rfl
  have hself : trimWhere isTrimmed text = text := by
    have h : trimWhere isTrimmed ([] ++ text ++ []) = text := trimWhere_outer nofun nofun hhead hlast
    rwa [List.nil_append, List.append_nil] at h
  have hinner : trimWhere isTrimmed (front ++ (text ++ List.replicate k '=') ++ back) = text ++ List.replicate k '=' := by
    refine trimWhere_outer hfront hback ?_ ?_
    · cases text with
      | nil =>
        intro c hc
        rw [List.eq_of_mem_replicate (List.mem_of_head? hc)]
        rfl
      | cons c rest => exact hhead
    · cases k with
      | zero => rwa [List.replicate_zero, List.append_nil]
      | succ k =>
        rw [List.replicate_succ', ← List.append_assoc, List.getLast?_concat]
        intro c hc
        rw [← Option.some.inj hc]
        rfl
  rw [normalizeBase32, normalizeBase32, hinner, hself, List.flatMap_append, hpads, List.reverse_append, List.reverse_replicate,
    List.dropWhile_append_of_pos]
  intro c hc
  rw [List.eq_of_mem_replicate hc]
  rfl

end

/-! ## Result -/

variable {rules : CaseRules}

theorem normalizeBase32_encoded (hrules : rules.Lawful) (h : ∀ index ∈ indices, index < 32) :
    normalizeBase32 rules (indices.map (BASE32_ALPHABET.getD · 'A')) = indices.map (BASE32_ALPHABET.getD · 'A') := by
  have hplain : ∀ c ∈ indices.map (BASE32_ALPHABET.getD · 'A'), isTrimmed c = false ∧ c.toNat < 128 ∧ c.toUpper = c ∧ c ≠ '=' := by
    intro c hc
    obtain ⟨index, hindex, rfl⟩ := List.mem_map.mp hc
    exact (alphabet_char (h index hindex)).2
  generalize indices.map (BASE32_ALPHABET.getD · 'A') = text at hplain
  have htrim : trimWhere isTrimmed text = text := trimWhere_eq_self fun c hc => (hplain c hc).1
  have hupper : text.flatMap rules.upper = text := by
    refine (List.flatMap_congr fun c hc => ?_).trans (List.flatMap_singleton' text)
    rw [hrules.ascii c (hplain c hc).2.1, (hplain c hc).2.2.1]
  have hpad : text.reverse.dropWhile (· == '=') = text.reverse := by
    rw [List.dropWhile_eq_self_iff]
    intro hpos heq
    exact (hplain _ (List.mem_reverse.mp (List.getElem_mem hpos))).2.2.2 (by simpa using heq)
  rw [normalizeBase32, htrim, hupper, hpad, List.reverse_reverse]

/-- **Encoded bytes** are decoded. -/
theorem base32Decode_encode (hrules : rules.Lawful) {bytes : List UInt8} (hne : bytes ≠ []) :
    base32Decode rules (base32Encode bytes) = some bytes := by
  have hlength : ∀ group ∈ groups 5 (byteBits bytes), group.length = 5 := fun group hg => length_of_mem_groups (by decide) hg
  have hsmall : ∀ index ∈ (groups 5 (byteBits bytes)).map ofBits, index < 32 := by
    intro index hindex
    obtain ⟨group, hgroup, rfl⟩ := List.mem_map.mp hindex
    have hlt := ofBits_lt group
    rwa [hlength group hgroup] at hlt
  have htext : base32Encode bytes = ((groups 5 (byteBits bytes)).map ofBits).map (BASE32_ALPHABET.getD · 'A') := by
    rw [base32Encode_eq, rfc4648Base32, List.map_map]
    rfl
  have hstream : ((groups 5 (byteBits bytes)).map ofBits).flatMap (bitsOf 5) = (groups 5 (byteBits bytes)).flatten := by
    rw [List.flatMap_map, ← List.flatMap_id]
    refine List.flatMap_congr fun group hg => ?_
    have hself := bitsOf_ofBits group
    rwa [hlength group hg] at hself
  obtain ⟨k, hk, hflat⟩ := flatten_groups (w := 5) (by decide) (byteBits bytes)
  -- The bits of the bytes are whole groups of eight, and the zeros behind them fill no byte.
  have hcut : cut 8 (byteBits bytes ++ List.replicate k false) =
      (bytes.map fun byte => bitsOf 8 byte.toNat, List.replicate k false) := by
    rw [byteBits, List.flatMap_def]
    refine cut_flatten (by decide) (fun group hg => ?_) (by rw [List.length_replicate]; omega)
    obtain ⟨byte, -, rfl⟩ := List.mem_map.mp hg
    exact length_bitsOf 8 byte.toNat
  have hne' : ((groups 5 (byteBits bytes)).map ofBits).map (BASE32_ALPHABET.getD · 'A') ≠ [] := by
    intro hnil
    rw [List.map_eq_nil_iff, List.map_eq_nil_iff] at hnil
    rw [hnil] at hflat
    have hbits := congrArg Prod.fst hcut
    rw [← hflat] at hbits
    exact hne (List.map_eq_nil_iff.mp (hbits.symm.trans (congrArg Prod.fst (cut_short (by decide)))))
  have houtput := (decode_after hsmall).output
  rw [hstream, hflat, hcut, List.map_map] at houtput
  rw [base32Decode, htext, normalizeBase32_encoded hrules hsmall, if_neg hne', mapM_alphabet hsmall, Option.map_some, houtput]
  refine congrArg some ((List.map_congr_left fun byte _ => ?_).trans (List.map_id _))
  show UInt8.ofNat (ofBits (bitsOf 8 byte.toNat)) = byte
  rw [ofBits_bitsOf byte.toNat_lt, UInt8.ofNat_toNat]

/-- **Base32.**  Bytes are encoded as RFC 4648 has it and decoded again; letter case, blanks at the ends and
    padding make no difference to decoding. -/
theorem base32_round_trip {rules : CaseRules} (hrules : rules.Lawful) :
    (∀ bytes : List UInt8, bytes ≠ [] → base32Decode rules (base32Encode bytes) = some bytes ∧
      base32Encode bytes = rfc4648Base32 bytes) ∧
    (∀ text text', List.Forall₂ (fun c d => rules.upper c = rules.upper d) text text' →
      base32Decode rules text = base32Decode rules text') ∧
    ∀ front text back k, (∀ c ∈ front, isTrimmed c = true) → (∀ c ∈ back, isTrimmed c = true) →
      (∀ c ∈ text.head?, isTrimmed c = false) → (∀ c ∈ text.getLast?, isTrimmed c = false) →
      base32Decode rules (front ++ (text ++ List.replicate k '=') ++ back) = base32Decode rules text := by
  refine ⟨fun bytes hne => ⟨base32Decode_encode hrules hne, base32Encode_eq bytes⟩, fun text text' h => ?_, ?_⟩
  · rw [base32Decode, base32Decode, normalizeBase32_case hrules h]
  · intro front text back k hfront hback hhead hlast
    rw [base32Decode, base32Decode, normalizeBase32_outer hrules k hfront hback hhead hlast]

/-- Capitals of ASCII letters. -/
def asciiCase : CaseRules := ⟨fun c => [c.toUpper]⟩

theorem asciiCase_lawful : asciiCase.Lawful where
  ascii := fun _ _ => rfl
  blank := by
    have hupper : ∀ c : Char, isTrimmed c.toUpper = isTrimmed c := by
      intro c
      by_cases hascii : c.toNat < 128
      · have hall : ∀ n : Fin 128, isTrimmed (Char.ofNat n.val).toUpper = isTrimmed (Char.ofNat n.val) := by decide +kernel
        have hc := hall ⟨c.toNat, hascii⟩
        rwa [Char.ofNat_toNat] at hc
      · have hletter : ¬ ('a'.val ≤ c.val ∧ c.val ≤ 'z'.val) := fun h => hascii (Nat.lt_of_le_of_lt h.2 (by decide))
        rw [Char.toUpper, dif_neg hletter]
    intro c d h
    rw [← hupper c, ← hupper d, List.head_eq_of_cons_eq h]

/-- Twenty bytes `0` to `19` and back. -/
theorem base32_counting : base32Decode asciiCase (base32Encode ((List.range 20).map UInt8.ofNat)) =
    some ((List.range 20).map UInt8.ofNat) :=
  ((base32_round_trip asciiCase_lawful).1 _ (by decide)).1

end CfMonitor.Auth
