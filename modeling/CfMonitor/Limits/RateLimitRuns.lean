/-
  What a run of the request counter answers to one pair of a bucket and an address.

  1. **Comparison** — `alone` has the answers to the requests of the pair when nothing else is counted.  Storage
     and comparison need to agree on active counters only: a counter whose window is over is as good as none.

  2. **Condition** — the storage may lose an active counter of the pair to other pairs in two ways.  Another pair
     may have the same key, and the compaction takes out the oldest active counters beyond 5000.

  3. **Result** — where neither happens, the answers to the pair are those of `alone`, and a window allows no
     more than its maximum.
-/
import CfMonitor.Limits.RateLimit
import Mathlib.Tactic.SplitIfs

namespace CfMonitor.Limits

open CfMonitor.Lib
open Assoc (get? keys_filter_nodup)

/-! ## Active counters -/

variable {now : Int}

theorem isActive_mono {later : Int} (h : now ≤ later) {state : RateState}
    (hactive : isActive later state = true) : isActive now state = true := by
  simp only [isActive, decide_eq_true_eq] at hactive ⊢
  omega

/-- Two entries that a request from `now` on cannot tell apart. -/
def ActiveSame (now : Int) (a b : Option RateState) : Prop :=
  ∀ t, now ≤ t → a.filter (isActive t) = b.filter (isActive t)

theorem ActiveSame.refl (now : Int) (a : Option RateState) : ActiveSame now a a := fun _ _ => rfl

variable {a b : Option RateState}

theorem ActiveSame.trans {c : Option RateState} (hab : ActiveSame now a b) (hbc : ActiveSame now b c) :
    ActiveSame now a c := fun t ht => (hab t ht).trans (hbc t ht)

theorem ActiveSame.later {later : Int} (h : ActiveSame now a b) (hle : now ≤ later) :
    ActiveSame later a b := fun t ht => h t (by omega)

/-- Taking out what is over changes nothing. -/
theorem activeSame_filter (now : Int) (a : Option RateState) : ActiveSame now (a.filter (isActive now)) a := by
  intro t ht
  cases a with
  | none => rfl
  | some state =>
    by_cases hactive : isActive t state = true
    · rw [Option.filter_some, if_pos (isActive_mono ht hactive)]
    · rw [Option.filter_some]
      split_ifs
      · rfl
      · rw [Option.filter_none, Option.filter_some, if_neg hactive]

theorem countRequest_congr (windowMs : Int) (h : ActiveSame now a b) :
    countRequest a now windowMs = countRequest b now windowMs := by
  rw [countRequest, countRequest, h now (le_refl now)]

variable {storage : RateStorage}

theorem get?_cleanup (hkeys : (Assoc.keys storage).Nodup) (now : Int) (key : String) :
    ActiveSame now (get? (cleanupExpiredBuckets storage now) key) (get? storage key) := by
  rw [cleanupExpiredBuckets, Assoc.get?_filter _ hkeys]
  exact activeSame_filter now _

/-! ## Compaction -/

/-- The active entries that come after an entry in the order of the compaction. -/
def laterBuckets (storage : RateStorage) (now : Int) (entry : String × RateState) : RateStorage :=
  storage.filter fun other => isActive now other.2 && !olderOrSame other entry

/-- The active counter under the key is not among the oldest ones beyond the limit. -/
def OutlastsCompaction (storage : RateStorage) (now : Int) (key : String) : Prop :=
  ∀ state, Assoc.get? storage key = some state → isActive now state = true →
    (laterBuckets storage now (key, state)).length < RATE_LIMIT_MAX_BUCKETS

theorem olderOrSame_trans (a b c : String × RateState) (hab : olderOrSame a b = true) (hbc : olderOrSame b c = true) :
    olderOrSame a c = true := by
  simp only [olderOrSame, decide_eq_true_eq] at hab hbc ⊢
  rcases hab with hlt | ⟨heq, hkey⟩ <;> rcases hbc with hlt' | ⟨heq', hkey'⟩
  · left; omega
  · left; omega
  · left; omega
  · right
    exact ⟨by omega, String.le_trans hkey hkey'⟩

theorem olderOrSame_total (a b : String × RateState) : (olderOrSame a b || olderOrSame b a) = true := by
  rw [Bool.or_eq_true]
  simp only [olderOrSame, decide_eq_true_eq]
  rcases lt_trichotomy a.2.resetAt b.2.resetAt with hlt | heq | hlt
  · exact .inl (.inl hlt)
  · rcases String.le_total a.1 b.1 with hle | hle
    · exact .inl (.inr ⟨heq, hle⟩)
    · exact .inr (.inr ⟨heq.symm, hle⟩)
  · exact .inr (.inl hlt)

theorem olderOrSame_key {a b : String × RateState} (hab : olderOrSame a b = true) (hba : olderOrSame b a = true) :
    a.1 = b.1 := by
  simp only [olderOrSame, decide_eq_true_eq] at hab hba
  rcases hab with hlt | ⟨heq, hkey⟩ <;> rcases hba with hlt' | ⟨heq', hkey'⟩
  · omega
  · omega
  · omega
  · exact String.le_antisymm hkey hkey'

/-- The order of the compaction: the first part is taken out, and its entries come before the rest. -/
theorem sorted_split (storage : RateStorage) (now : Int) :
    ∃ kept, (oldestBuckets storage now ++ kept).Perm (storage.filter fun entry => isActive now entry.2) ∧
      (∀ a ∈ oldestBuckets storage now, ∀ b ∈ kept, olderOrSame a b = true) ∧
      (oldestBuckets storage now ≠ [] → kept.length = RATE_LIMIT_MAX_BUCKETS) := by
  rw [oldestBuckets]
  generalize storage.filter (fun entry => isActive now entry.2) = active
  generalize hoverflow : active.length - RATE_LIMIT_MAX_BUCKETS = overflow
  have hsorted : (active.mergeSort olderOrSame).Pairwise fun a b => olderOrSame a b = true :=
    List.pairwise_mergeSort olderOrSame_trans olderOrSame_total active
  rw [← List.take_append_drop overflow (active.mergeSort olderOrSame), List.pairwise_append] at hsorted
  refine ⟨(active.mergeSort olderOrSame).drop overflow, ?_, hsorted.2.2, ?_⟩
  · rw [List.take_append_drop]
    exact List.mergeSort_perm active olderOrSame
  · intro hne
    have hpos : overflow ≠ 0 := by
      rintro rfl
      exact hne List.take_zero
    rw [List.length_drop, List.length_mergeSort]
    omega

theorem later_of_oldest (hkeys : (Assoc.keys storage).Nodup)
    {entry : String × RateState} (hmem : entry ∈ oldestBuckets storage now) :
    RATE_LIMIT_MAX_BUCKETS ≤ (laterBuckets storage now entry).length := by
  obtain ⟨kept, hperm, horder, hlength⟩ := sorted_split storage now
  have hnodup : (Assoc.keys (oldestBuckets storage now ++ kept)).Nodup :=
    (hperm.map Prod.fst).nodup_iff.mpr (keys_filter_nodup _ hkeys)
  rw [Assoc.keys, List.map_append, List.nodup_append] at hnodup
  have hlater : kept.filter (fun other => !olderOrSame other entry) = kept := by
    rw [List.filter_eq_self]
    intro other hother
    have hnot : ¬ olderOrSame other entry = true := by
      intro hback
      have hkey := olderOrSame_key (horder entry hmem other hother) hback
      exact hnodup.2.2 entry.1 (List.mem_map_of_mem hmem) other.1 (List.mem_map_of_mem hother) hkey
    simpa using hnot
  have hcount := (hperm.filter fun other => !olderOrSame other entry).length_eq
  rw [List.filter_append, hlater, List.length_append, hlength (List.ne_nil_of_mem hmem), List.filter_filter] at hcount
  have hsame : laterBuckets storage now entry =
      storage.filter fun other => !olderOrSame other entry && isActive now other.2 := by
    rw [laterBuckets]
    exact List.filter_congr fun other _ => Bool.and_comm _ _
  rw [hsame, ← hcount]
  omega

/-- A counter that outlasts the compaction is there afterwards. -/
theorem get?_enforce (hkeys : (Assoc.keys storage).Nodup) {key : String}
    (houtlasts : OutlastsCompaction storage now key) :
    ActiveSame now (get? (enforceBucketLimit storage now) key) (get? storage key) := by
  rw [enforceBucketLimit]
  split_ifs
  · exact ActiveSame.refl now _
  · have hkept : (get? storage key).filter
        (fun state => isActive now state && !(Assoc.keys (oldestBuckets storage now)).contains key) =
          (get? storage key).filter (isActive now) := by
      cases hget : get? storage key with
      | none => rfl
      | some state =>
        by_cases hactive : isActive now state = true
        · have hstays : key ∉ Assoc.keys (oldestBuckets storage now) := by
            intro hmem
            obtain ⟨⟨k, old⟩, hold, rfl⟩ := List.mem_map.mp hmem
            obtain ⟨kept, hperm, -, -⟩ := sorted_split storage now
            have hstored := (List.mem_filter.mp (hperm.subset (List.mem_append_left _ hold))).1
            obtain rfl : old = state := by
              have hold' := Assoc.get?_of_mem hkeys hstored
              rw [hget] at hold'
              exact (Option.some.inj hold').symm
            have hmany : RATE_LIMIT_MAX_BUCKETS ≤ (laterBuckets storage now (k, old)).length :=
              later_of_oldest hkeys hold
            have hfew : (laterBuckets storage now (k, old)).length < RATE_LIMIT_MAX_BUCKETS :=
              houtlasts old hget hactive
            omega
          simp [Option.filter_some, hactive, hstays]
        · simp [Option.filter_some, hactive]
    rw [Assoc.get?_filter _ hkeys, hkept]
    exact activeSame_filter now _

/-! ## The comparison -/

section Alone

variable (bucket ip : String) (max windowMs : Int)

/-- The counter of the comparison after some requests. -/
def counterAfter (windowMs : Int) (current : Option RateState) (times : List Int) : Option RateState :=
  times.foldl (fun current now => some (countRequest current now windowMs)) current

theorem alone_concat (current : Option RateState) (times : List Int) (now : Int) :
    alone bucket ip max windowMs current (times ++ [now]) = alone bucket ip max windowMs current times ++
        alone bucket ip max windowMs (counterAfter windowMs current times) [now] := by
  induction times generalizing current with
  | nil => rfl
  | cons t rest ih =>
    rw [List.cons_append, alone, alone, List.cons_append, ih]
    rfl

theorem alone_times (current : Option RateState) (times : List Int) :
    (alone bucket ip max windowMs current times).map Answered.now = times := by
  induction times generalizing current with
  | nil => rfl
  | cons t rest ih =>
    rw [alone, List.map_cons, ih]

variable {times : List Int}

/-- The comparison from one of its requests on is the comparison from the counter there. -/
theorem alone_suffix {current : Option RateState} {before after : List Answered} {e : Answered}
    (h : alone bucket ip max windowMs current times = before ++ e :: after) :
    ∃ counter, e :: after = alone bucket ip max windowMs counter ((e :: after).map Answered.now) := by
  induction before generalizing current times with
  | nil =>
    refine ⟨current, ?_⟩
    rw [List.nil_append] at h
    rw [← h, alone_times]
  | cons b rest ih =>
    cases times with
    | nil => simp [alone] at h
    | cons t times =>
      rw [alone, List.cons_append] at h
      exact ih (List.cons.inj h).2

/-- The requests that are allowed before a time. -/
def allowedBefore (bound : Int) (entries : List Answered) : List Answered :=
  entries.filter fun a => decide (a.now < bound) && a.answer.allowed

theorem allowedBefore_nil_of_late {bound : Int} {entries : List Answered} (h : ∀ a ∈ entries, bound ≤ a.now) :
    allowedBefore bound entries = [] := by
  rw [allowedBefore, List.filter_eq_nil_iff]
  intro a ha hcontra
  rw [Bool.and_eq_true, decide_eq_true_eq] at hcontra
  have hlate := h a ha
  omega

theorem window_left (state : RateState) (times : List Int) (hsorted : times.Pairwise (· ≤ ·)) :
    ((allowedBefore state.resetAt (alone bucket ip max windowMs (some state) times)).length : Int) ≤
      Max.max 0 (max - state.count) := by
  induction times generalizing state with
  | nil => exact le_max_left _ _
  | cons now rest ih =>
    obtain ⟨hfirst, hrest⟩ := List.pairwise_cons.mp hsorted
    by_cases hopen : now < state.resetAt
    · have hcount : countRequest (some state) now windowMs = ⟨state.count + 1, state.resetAt⟩ := by
        rw [countRequest, Option.filter_some, if_pos (by simpa [isActive] using hopen)]
      have hleft := ih ⟨state.count + 1, state.resetAt⟩ hrest
      rw [alone, hcount, allowedBefore, List.filter_cons]
      rw [allowedBefore] at hleft
      show ((if (decide (now < state.resetAt) && decide (((state.count + 1 : Nat) : Int) ≤ max)) = true then _ else _ :
        List Answered).length : Int) ≤ _
      split_ifs with hallowed
      · rw [Bool.and_eq_true, decide_eq_true_eq, decide_eq_true_eq] at hallowed
        rw [List.length_cons]
        push_cast at hleft hallowed ⊢
        omega
      · push_cast at hleft ⊢
        omega
    · have hlate : ∀ a ∈ alone bucket ip max windowMs (some state) (now :: rest), state.resetAt ≤ a.now := by
        intro a ha
        have htime : a.now ∈ now :: rest := by
          rw [← alone_times bucket ip max windowMs (some state) (now :: rest)]
          exact List.mem_map_of_mem ha
        rcases List.mem_cons.mp htime with heq | hmem
        · omega
        · have hle := hfirst _ hmem
          omega
      rw [allowedBefore_nil_of_late hlate]
      exact le_max_left _ _

/-- **One window** of the comparison allows no more than the maximum. -/
theorem alone_window (hsorted : times.Pairwise (· ≤ ·)) (hmax : 0 < max)
    {before after : List Answered} {e : Answered}
    (h : alone bucket ip max windowMs none times = before ++ e :: after) (hfresh : e.fresh = true) :
    ((allowedBefore (e.now + windowMs) (e :: after)).length : Int) ≤ max := by
  obtain ⟨counter, hsuffix⟩ := alone_suffix bucket ip max windowMs h
  have htimes : times = before.map Answered.now ++ (e :: after).map Answered.now := by
    rw [← alone_times bucket ip max windowMs none times, h, List.map_append]
  rw [htimes, List.pairwise_append] at hsorted
  have hrest := (List.pairwise_cons.mp hsorted.2.1).2
  rw [List.map_cons, alone] at hsuffix
  obtain ⟨hhead, htail⟩ := List.cons.inj hsuffix
  have hnone : counter.filter (isActive e.now) = none := by
    rw [hhead] at hfresh
    exact Option.isNone_iff_eq_none.mp hfresh
  have hcount : countRequest counter e.now windowMs = ⟨1, e.now + windowMs⟩ := by
    rw [countRequest, hnone]
  rw [hcount] at htail
  have hleft := window_left bucket ip max windowMs ⟨1, e.now + windowMs⟩ _ hrest
  rw [← htail] at hleft
  rw [allowedBefore, List.filter_cons]
  rw [allowedBefore] at hleft
  push_cast at hleft
  split_ifs
  · rw [List.length_cons]
    push_cast
    omega
  · omega

end Alone

/-! ## Runs -/

/-- The answers to the requests of a pair. -/
def ofPair (bucket ip : String) (log : List Answered) : List Answered :=
  log.filter fun a => decide (a.bucket = some bucket ∧ a.ip = some ip)

/-- The key of a pair. -/
def pairKey (bucket ip : String) : String := storageKey (Live.sliceUnits 96 bucket) (Live.sliceUnits 128 ip)

example : pairKey "login" "2001:db8::1" = pairKey "login:2001" "db8::1" := rfl

/-- Every request of the pair carries the same maximum and window. -/
def FixedLimits (bucket ip : String) (max windowMs : Int) : RateLimitEvent → Prop
  | .request (some body) _ => body.bucket = some bucket → body.ip = some ip → ∀ r, body.request = some r →
      r.max = max ∧ r.windowMs = windowMs
  | _ => True

/-- The step takes no active counter of the pair: no other pair has its key, and the compaction leaves it. -/
def KeepsCounter (bucket ip : String) (s : RateLimitDO) (event : RateLimitEvent) (_ : RateLimitDO) : Prop :=
  match event with
  | .request (some body) now => ∀ r, body.request = some r →
      (storageKey r.bucket r.ip = pairKey bucket ip → body.bucket = some bucket ∧ body.ip = some ip) ∧
      ((s.sweepCounter + 1) % 1024 = 0 → OutlastsCompaction (s.written r now) now (pairKey bucket ip))
  | .alarm now => OutlastsCompaction (cleanupExpiredBuckets s.storage now) now (pairKey bucket ip)
  | _ => True

/-- The times of the requests of a pair. -/
def pairTimes (bucket ip : String) (s : RateLimitDO) : List Int := (ofPair bucket ip s.log).map Answered.now

/-- The storage has the counter of the comparison, as far as it is active. -/
structure CountsAlone (bucket ip : String) (max windowMs : Int) (s : RateLimitDO) : Prop where
  keys : (Assoc.keys s.storage).Nodup
  counter : ActiveSame s.clock (Assoc.get? s.storage (pairKey bucket ip))
    (counterAfter windowMs none (pairTimes bucket ip s))
  answers : ofPair bucket ip s.log = alone bucket ip max windowMs none (pairTimes bucket ip s)
  sorted : (pairTimes bucket ip s).Pairwise (· ≤ ·)
  past : ∀ t ∈ pairTimes bucket ip s, t ≤ s.clock
  positive : pairTimes bucket ip s ≠ [] → 0 < max

theorem RateLimitBody.request_eq {body : RateLimitBody} {r : RateLimitRequest} (h : body.request = some r) :
    r.bucket = Live.sliceUnits 96 (body.bucket.getD "") ∧ r.ip = Live.sliceUnits 128 (body.ip.getD "") ∧
      body.max = some r.max ∧ body.windowMs = some r.windowMs ∧ 0 < r.max := by
  rw [RateLimitBody.request] at h
  cases hmax : body.max with
  | none => rw [hmax] at h; cases h
  | some max =>
    cases hwindow : body.windowMs with
    | none => rw [hmax, hwindow] at h; cases h
    | some windowMs =>
      rw [hmax, hwindow] at h
      simp only [Option.bind_eq_bind, Option.bind_some] at h
      split_ifs at h with hinvalid
      cases h
      push Not at hinvalid
      exact ⟨rfl, rfl, rfl, rfl, hinvalid.2.2.1⟩

variable {s : RateLimitDO}

theorem RateLimitDO.swept_keys (h : (Assoc.keys s.storage).Nodup) (now : Int) :
    (Assoc.keys (s.swept now)).Nodup := by
  rw [RateLimitDO.swept, cleanupExpiredBuckets]
  split_ifs
  · exact keys_filter_nodup _ h
  · exact h

theorem RateLimitDO.get?_swept (h : (Assoc.keys s.storage).Nodup) (now : Int) (key : String) :
    ActiveSame now (get? (s.swept now) key) (get? s.storage key) := by
  rw [RateLimitDO.swept]
  split_ifs
  · exact get?_cleanup h now key
  · exact ActiveSame.refl now _

theorem enforce_keys (h : (Assoc.keys storage).Nodup) (now : Int) :
    (Assoc.keys (enforceBucketLimit storage now)).Nodup := by
  rw [enforceBucketLimit]
  split_ifs
  · exact h
  · exact keys_filter_nodup _ h

section Steps

variable {bucket ip : String} {max windowMs : Int} {s : RateLimitDO}

variable {r : RateLimitRequest} {now : Int}

/-- What `checkRateLimit` leaves under the key of the pair. -/
theorem get?_checkRateLimit (body : RateLimitBody) (hkeys : (Assoc.keys s.storage).Nodup)
    (houtlasts : (s.sweepCounter + 1) % 1024 = 0 → OutlastsCompaction (s.written r now) now (pairKey bucket ip)) :
    (Assoc.keys (s.checkRateLimit body r now).storage).Nodup ∧
      ActiveSame now (get? (s.checkRateLimit body r now).storage (pairKey bucket ip))
        (get? (s.written r now) (pairKey bucket ip)) := by
  have hwritten : (Assoc.keys (s.written r now)).Nodup := Assoc.keys_set_nodup (s.swept_keys hkeys now)
  rw [RateLimitDO.checkRateLimit]
  by_cases hsweep : (s.sweepCounter + 1) % 1024 = 0
  · simp only [if_pos hsweep]
    exact ⟨enforce_keys hwritten now, get?_enforce hwritten (houtlasts hsweep)⟩
  · simp only [if_neg hsweep]
    exact ⟨hwritten, ActiveSame.refl now _⟩

variable {body : RateLimitBody}

theorem CountsAlone.other (h : CountsAlone bucket ip max windowMs s)
    (hclock : s.clock ≤ now) (hother : ¬ (body.bucket = some bucket ∧ body.ip = some ip))
    (hkey : storageKey r.bucket r.ip ≠ pairKey bucket ip)
    (houtlasts : (s.sweepCounter + 1) % 1024 = 0 → OutlastsCompaction (s.written r now) now (pairKey bucket ip)) :
    CountsAlone bucket ip max windowMs (s.checkRateLimit body r now) := by
  obtain ⟨hnodup, hstorage⟩ := get?_checkRateLimit body h.keys houtlasts
  have hlog : ofPair bucket ip (s.checkRateLimit body r now).log = ofPair bucket ip s.log := by
    show ofPair bucket ip (s.log ++ [_]) = _
    rw [ofPair, List.filter_append, List.filter_cons_of_neg (by simpa using hother), List.filter_nil, List.append_nil]
    rfl
  have htimes : pairTimes bucket ip (s.checkRateLimit body r now) = pairTimes bucket ip s := by
    rw [pairTimes, hlog, pairTimes]
  constructor
  · exact hnodup
  · rw [htimes]
    show ActiveSame now _ _
    have hwritten : get? (s.written r now) (pairKey bucket ip) = get? (s.swept now) (pairKey bucket ip) := by
      rw [RateLimitDO.written, Assoc.get?_set, if_neg (Ne.symm hkey)]
    rw [hwritten] at hstorage
    exact (hstorage.trans (s.get?_swept h.keys now _)).trans (h.counter.later hclock)
  · rw [hlog, htimes]
    exact h.answers
  · rw [htimes]
    exact h.sorted
  · rw [htimes]
    intro t ht
    exact le_trans (h.past t ht) hclock
  · rw [htimes]
    exact h.positive

theorem CountsAlone.own (h : CountsAlone bucket ip max windowMs s)
    (hclock : s.clock ≤ now) (hbucket : body.bucket = some bucket) (hip : body.ip = some ip)
    (hrequest : body.request = some r) (hmax : r.max = max) (hwindow : r.windowMs = windowMs)
    (houtlasts : (s.sweepCounter + 1) % 1024 = 0 → OutlastsCompaction (s.written r now) now (pairKey bucket ip)) :
    CountsAlone bucket ip max windowMs (s.checkRateLimit body r now) := by
  obtain ⟨hnodup, hstorage⟩ := get?_checkRateLimit body h.keys houtlasts
  obtain ⟨hb, hi, -, -, hpositive⟩ := RateLimitBody.request_eq hrequest
  rw [hbucket, Option.getD_some] at hb
  rw [hip, Option.getD_some] at hi
  have hkey : storageKey r.bucket r.ip = pairKey bucket ip := by
    rw [hb, hi, pairKey]
  -- the counter that the request reads is the one of the comparison
  have hread : ActiveSame now (get? (s.swept now) (pairKey bucket ip))
      (counterAfter windowMs none (pairTimes bucket ip s)) :=
    (s.get?_swept h.keys now _).trans (h.counter.later hclock)
  have hcount := countRequest_congr windowMs hread
  have hlog : ofPair bucket ip (s.checkRateLimit body r now).log =
      ofPair bucket ip s.log ++ alone bucket ip max windowMs (counterAfter windowMs none (pairTimes bucket ip s)) [now] := by
    show ofPair bucket ip (s.log ++ [_]) = _
    rw [ofPair, List.filter_append, List.filter_cons_of_pos (by simp [hbucket, hip]), List.filter_nil, alone, alone,
      hkey, hwindow, hmax, hcount, hread now (le_refl now), hbucket, hip]
    rfl
  have htimes : pairTimes bucket ip (s.checkRateLimit body r now) = pairTimes bucket ip s ++ [now] := by
    rw [pairTimes, hlog, List.map_append, alone_times]
    rfl
  have hpast : ∀ t ∈ pairTimes bucket ip s, t ≤ now := fun t ht => le_trans (h.past t ht) hclock
  constructor
  · exact hnodup
  · rw [htimes, counterAfter, List.foldl_append, ← counterAfter]
    show ActiveSame now _ (some (countRequest _ now windowMs))
    rw [RateLimitDO.written, hkey, Assoc.get?_set, if_pos rfl, hwindow, hcount] at hstorage
    exact hstorage
  · rw [hlog, htimes, alone_concat, ← h.answers]
  · rw [htimes, List.pairwise_append]
    refine ⟨h.sorted, List.pairwise_singleton _ now, ?_⟩
    intro a ha b hb
    rw [List.mem_singleton.mp hb]
    exact hpast a ha
  · rw [htimes]
    show ∀ t ∈ _, t ≤ now
    intro t ht
    rcases List.mem_append.mp ht with hold | hnew
    · exact hpast t hold
    · rw [List.mem_singleton.mp hnew]
  · intro _
    omega

theorem CountsAlone.alarm (h : CountsAlone bucket ip max windowMs s) (hclock : s.clock ≤ now)
    (houtlasts : OutlastsCompaction (cleanupExpiredBuckets s.storage now) now (pairKey bucket ip)) :
    CountsAlone bucket ip max windowMs (s.runAlarm now) := by
  have hkeys : (Assoc.keys (cleanupExpiredBuckets s.storage now)).Nodup := keys_filter_nodup _ h.keys
  constructor
  · exact enforce_keys hkeys now
  · show ActiveSame now (get? (enforceBucketLimit _ now) _) _
    have hclean := (get?_enforce hkeys houtlasts).trans (get?_cleanup h.keys now _)
    exact hclean.trans (h.counter.later hclock)
  · exact h.answers
  · exact h.sorted
  · intro t ht
    exact le_trans (h.past t ht) hclock
  · exact h.positive

end Steps

theorem countsAlone_start (bucket ip : String) (max windowMs : Int) :
    CountsAlone bucket ip max windowMs RateLimitDO.start := by
  constructor
  · exact List.nodup_nil
  · exact ActiveSame.refl _ _
  · rfl
  · exact List.Pairwise.nil
  · exact nofun
  · exact fun hne => absurd rfl hne

theorem CountsAlone.step {bucket ip : String} {max windowMs : Int} (s : RateLimitDO) (event : RateLimitEvent)
    (s' : RateLimitDO) (h : CountsAlone bucket ip max windowMs s)
    (hgood : FixedLimits bucket ip max windowMs event ∧ KeepsCounter bucket ip s event s')
    (hstep : rateLimitMachine.step s event = some s') : CountsAlone bucket ip max windowMs s' := by
  obtain ⟨hfixed, hkeeps⟩ := hgood
  cases event with
  | request body? now =>
    cases body? with
    | none =>
      cases hstep
      exact h
    | some body =>
      replace hstep : (if s.clock ≤ now then _ else none) = some s' := hstep
      split_ifs at hstep with hclock
      cases hrequest : body.request with
      | none =>
        rw [hrequest] at hstep
        cases hstep
        exact h
      | some r =>
        rw [hrequest] at hstep
        cases hstep
        obtain ⟨hkey, houtlasts⟩ := hkeeps r hrequest
        by_cases hpair : body.bucket = some bucket ∧ body.ip = some ip
        · obtain ⟨hmax, hwindow⟩ := hfixed hpair.1 hpair.2 r hrequest
          exact h.own hclock hpair.1 hpair.2 hrequest hmax hwindow houtlasts
        · exact h.other hclock hpair (fun heq => hpair (hkey heq)) houtlasts
  | alarm now =>
    replace hstep : (if _ then some (s.runAlarm now) else none) = some s' := hstep
    split_ifs at hstep with hdue
    cases hstep
    exact h.alarm hdue.1 hkeeps
  | restart =>
    cases hstep
    exact ⟨h.keys, h.counter, h.answers, h.sorted, h.past, h.positive⟩

/-- **The rate limit holds** for a pair in every run whose steps keep its active counter: it is answered as if it
    were alone, and a window allows no more than the maximum. -/
theorem rate_limit_holds {bucket ip : String} {max windowMs : Int} {events : List RateLimitEvent} {s : RateLimitDO}
    (hrun : rateLimitMachine.run RateLimitDO.start events = some s)
    (hfixed : ∀ event ∈ events, FixedLimits bucket ip max windowMs event)
    (hkeeps : rateLimitMachine.Along (KeepsCounter bucket ip) RateLimitDO.start events) :
    ofPair bucket ip s.log = alone bucket ip max windowMs none (pairTimes bucket ip s) ∧
      ∀ before e after, ofPair bucket ip s.log = before ++ e :: after → e.fresh = true →
        ((allowedBefore (e.now + windowMs) (e :: after)).length : Int) ≤ max := by
  have h : CountsAlone bucket ip max windowMs s :=
    rateLimitMachine.run_inv_along CountsAlone.step events RateLimitDO.start s (countsAlone_start bucket ip max windowMs)
      (rateLimitMachine.along_and_labels events RateLimitDO.start hfixed hkeeps) hrun
  refine ⟨h.answers, ?_⟩
  intro before e after hsplit hfresh
  have hpositive : 0 < max := by
    apply h.positive
    rw [pairTimes, hsplit]
    simp
  rw [h.answers] at hsplit
  exact alone_window bucket ip max windowMs h.sorted hpositive hsplit hfresh

/-- A body of the kind that `login` sends: one request an hour. -/
def loginBody (ip : String) : RateLimitBody := ⟨some "login", some ip, some 1, some 3600000⟩

theorem fixedLimits_login {ip other : String} :
    FixedLimits "login" ip 1 3600000 (.request (some (loginBody other)) now) := by
  intro _ _ r hr
  obtain ⟨-, -, hmax, hwindow, -⟩ := RateLimitBody.request_eq hr
  exact ⟨(Option.some.inj hmax).symm, (Option.some.inj hwindow).symm⟩

/-- A pair is allowed once and then refused. -/
theorem second_request_refused : ∃ s : RateLimitDO,
    ofPair "login" "192.0.2.1" s.log = alone "login" "192.0.2.1" 1 3600000 none (pairTimes "login" "192.0.2.1" s) ∧
      ∀ before e after, ofPair "login" "192.0.2.1" s.log = before ++ e :: after → e.fresh = true →
        ((allowedBefore (e.now + 3600000) (e :: after)).length : Int) ≤ 1 := by
  obtain ⟨s, hrun⟩ : ∃ s, rateLimitMachine.run RateLimitDO.start
      [.request (some (loginBody "192.0.2.1")) 0, .request (some (loginBody "192.0.2.1")) 1] = some s := ⟨_, rfl⟩
  refine ⟨s, rate_limit_holds hrun ?_ ?_⟩
  · intro event hmem
    rcases List.mem_cons.mp hmem with rfl | hmem
    · exact fixedLimits_login
    · rw [List.mem_singleton.mp hmem]
      exact fixedLimits_login
  · refine And.intro ?_ (And.intro ?_ trivial)
    · exact fun r _ => ⟨fun _ => ⟨rfl, rfl⟩, nofun⟩
    · exact fun r _ => ⟨fun _ => ⟨rfl, rfl⟩, nofun⟩

/-! ## Where the limit fails

One address makes its request, 5000 others follow within its window, and the alarm finds 5001 active counters and
takes out the oldest one. -/

section Flood

def floodNetwork : List Char := ['2', '0', '0', '1', ':', 'd', 'b', '8', ':', ':']

def floodAddress (i : Nat) : String := String.ofList (floodNetwork ++ Nat.toDigits 10 i)

/-- The requests of the address and of the first others. -/
def floodRequests (n : Nat) : List RateLimitEvent :=
  .request (some (loginBody "192.0.2.1")) 0 :: (List.range n).map fun i => .request (some (loginBody (floodAddress i))) 1

def floodEvents : List RateLimitEvent :=
  floodRequests 5000 ++ [.alarm 300000, .request (some (loginBody "192.0.2.1")) 300001]

/-- The storage that they leave. -/
def floodStorage (n : Nat) : RateStorage :=
  (pairKey "login" "192.0.2.1", ⟨1, 3600000⟩) ::
    (List.range n).map fun i => (pairKey "login" (floodAddress i), ⟨1, 3600001⟩)

variable {n : Nat}

theorem takeUnits_of_short {cs : List Char} (h : 2 * cs.length ≤ n) : Live.takeUnits n cs = cs := by
  induction cs generalizing n with
  | nil => rfl
  | cons c cs ih =>
    have hsize : Live.utf16Size c ≤ 2 := by
      rw [Live.utf16Size]
      split_ifs <;> omega
    rw [List.length_cons] at h
    rw [Live.takeUnits, if_pos (by omega), ih (by omega)]

variable {i : Nat}

theorem floodAddress_fits (hi : i < 5000) : Live.sliceUnits 128 (floodAddress i) = floodAddress i := by
  rw [Live.sliceUnits_eq_iff, floodAddress, String.toList_ofList]
  apply takeUnits_of_short
  have hdigits : (Nat.toDigits 10 i).length ≤ 4 := (Nat.length_toDigits_le_iff (by decide) (by decide)).mpr (by omega)
  have hnetwork : floodNetwork.length = 10 := rfl
  rw [List.length_append, hnetwork]
  omega

theorem pairKey_login {ip : String} (hip : Live.sliceUnits 128 ip = ip) :
    pairKey "login" ip = RATE_LIMIT_STORAGE_PREFIX ++ "login" ++ ":" ++ ip := by
  rw [pairKey, hip, storageKey]
  rfl

theorem floodKey_injective {j : Nat} (hi : i < 5000) (hj : j < 5000)
    (h : pairKey "login" (floodAddress i) = pairKey "login" (floodAddress j)) : i = j := by
  rw [pairKey_login (floodAddress_fits hi), pairKey_login (floodAddress_fits hj), String.append_right_inj] at h
  have hlist := congrArg String.toList h
  rw [floodAddress, floodAddress, String.toList_ofList, String.toList_ofList] at hlist
  have hdigits := List.append_cancel_left hlist
  rw [← Nat.ofDigitChars_ten_toDigits (n := i), hdigits, Nat.ofDigitChars_ten_toDigits]

theorem floodKey_ne (hi : i < 5000) : pairKey "login" (floodAddress i) ≠ pairKey "login" "192.0.2.1" := by
  intro h
  rw [pairKey_login (floodAddress_fits hi), pairKey_login rfl, String.append_right_inj] at h
  have hlist := congrArg (fun s => s.toList.head?) h
  have hhead : (floodAddress i).toList.head? = some '2' := by
    rw [floodAddress, String.toList_ofList]
    rfl
  replace hlist : (floodAddress i).toList.head? = some '1' := hlist
  rw [hhead] at hlist
  cases hlist

theorem mem_floodStorage {entry : String × RateState} (h : entry ∈ floodStorage n) :
    entry = (pairKey "login" "192.0.2.1", ⟨1, 3600000⟩) ∨
      ∃ i < n, entry = (pairKey "login" (floodAddress i), ⟨1, 3600001⟩) := by
  rcases List.mem_cons.mp h with heq | hmem
  · exact .inl heq
  · obtain ⟨i, hi, rfl⟩ := List.mem_map.mp hmem
    exact .inr ⟨i, List.mem_range.mp hi, rfl⟩

theorem loginBody_request {ip : String} (hfits : Live.sliceUnits 128 ip = ip) (hne : ip ≠ "") :
    (loginBody ip).request = some ⟨"login", ip, 1, 3600000⟩ := by
  have hlogin : Live.sliceUnits 96 "login" = "login" := rfl
  simp only [RateLimitBody.request, loginBody, Option.bind_eq_bind, Option.bind_some, Option.getD_some, hfits, hlogin]
  rw [if_neg]
  rintro (h | h | h | h)
  · exact absurd h (by decide)
  · exact hne h
  · omega
  · omega

theorem floodStorage_succ (hn : n < 5000) : get? (floodStorage n) (pairKey "login" (floodAddress n)) = none ∧
      Assoc.set (floodStorage n) (pairKey "login" (floodAddress n)) ⟨1, 3600001⟩ = floodStorage (n + 1) := by
  have hnew : pairKey "login" (floodAddress n) ∉ Assoc.keys (floodStorage n) := by
    intro hmem
    obtain ⟨entry, hentry, hkey⟩ := List.mem_map.mp hmem
    rcases mem_floodStorage hentry with rfl | ⟨i, hi, rfl⟩
    · exact floodKey_ne hn hkey.symm
    · have heq := floodKey_injective (by omega) hn hkey
      omega
  constructor
  · rw [← Option.not_isSome_iff_eq_none, Assoc.get?_isSome]
    exact hnew
  · rw [Assoc.set_new hnew, floodStorage, floodStorage, List.range_succ, List.map_append, List.cons_append]
    rfl

theorem floodStorage_active {now : Int} (hnow : now < 3600000) :
    (floodStorage n).filter (fun entry => isActive now entry.2) = floodStorage n := by
  rw [List.filter_eq_self]
  intro entry hentry
  rcases mem_floodStorage hentry with rfl | ⟨i, -, rfl⟩
  · simpa [isActive] using hnow
  · rw [isActive, decide_eq_true_eq]
    show now < 3600001
    omega

theorem floodStorage_length (n : Nat) : (floodStorage n).length = n + 1 := by
  rw [floodStorage, List.length_cons, List.length_map, List.length_range]

def firstAnswer : Answered := ⟨some "login", some "192.0.2.1", 0, true, answerOf ⟨1, 3600000⟩ 1 0⟩

/-- The state after the requests of the address and of the first others. -/
structure Flooded (n : Nat) (s : RateLimitDO) : Prop where
  storage : s.storage = floodStorage n
  alarm : s.alarm = some 300000
  counted : s.sweepCounter = n + 1
  clock : s.clock ≤ 1
  log : ofPair "login" "192.0.2.1" s.log = [firstAnswer]

theorem Flooded.next {s : RateLimitDO} (h : Flooded n s) (hn : n < 5000) :
    ∃ s', rateLimitStep s (.request (some (loginBody (floodAddress n))) 1) = some s' ∧ Flooded (n + 1) s' := by
  have hne : floodAddress n ≠ "" := by
    intro hempty
    have hlist := congrArg String.toList hempty
    rw [floodAddress, String.toList_ofList] at hlist
    simp [floodNetwork] at hlist
  have hrequest := loginBody_request (floodAddress_fits hn) hne
  obtain ⟨hnone, hset⟩ := floodStorage_succ hn
  have hkey : storageKey "login" (floodAddress n) = pairKey "login" (floodAddress n) := by
    rw [pairKey, floodAddress_fits hn]
    rfl
  have hswept : s.swept 1 = floodStorage n := by
    rw [RateLimitDO.swept, cleanupExpiredBuckets, h.storage, floodStorage_active (by omega), ite_self]
  have hwritten : s.written ⟨"login", floodAddress n, 1, 3600000⟩ 1 = floodStorage (n + 1) := by
    rw [RateLimitDO.written, hswept, hkey, hnone]
    exact hset
  refine ⟨s.checkRateLimit (loginBody (floodAddress n)) ⟨"login", floodAddress n, 1, 3600000⟩ 1, ?_, ?_⟩
  · rw [rateLimitStep, if_pos h.clock, hrequest]
  · constructor
    · show (if (s.sweepCounter + 1) % 1024 = 0 then _ else _) = _
      rw [hwritten]
      split_ifs with hsweep
      · -- at the 1024th, 2048th, 3072th and 4096th request there are not yet 5000 counters
        rw [enforceBucketLimit, floodStorage_length, if_pos]
        have hcounted := h.counted
        show n + 1 + 1 ≤ 5000
        omega
      · rfl
    · show s.alarm.or _ = _
      rw [h.alarm]
      rfl
    · show s.sweepCounter + 1 = _
      rw [h.counted]
    · exact le_refl (1 : Int)
    · show ofPair "login" "192.0.2.1" (s.log ++ [_]) = _
      have hother : some (floodAddress n) ≠ some "192.0.2.1" := by
        intro heq
        have hsame : floodAddress n = "192.0.2.1" := Option.some.inj heq
        exact floodKey_ne hn (congrArg (pairKey "login") hsame)
      rw [ofPair, List.filter_append, List.filter_cons_of_neg (by simpa [loginBody] using hother),
        List.filter_nil, List.append_nil]
      exact h.log

theorem flooded : ∀ n, n ≤ 5000 →
    ∃ s, rateLimitMachine.run RateLimitDO.start (floodRequests n) = some s ∧ Flooded n s
  | 0, _ => ⟨_, rfl, rfl, rfl, rfl, by decide, rfl⟩
  | n + 1, hn => by
    obtain ⟨s, hrun, h⟩ := flooded n (by omega)
    obtain ⟨s', hstep, h'⟩ := h.next (by omega)
    refine ⟨s', ?_, h'⟩
    rw [floodRequests, List.range_succ, List.map_append, ← List.cons_append]
    exact (rateLimitMachine.run_concat).mpr ⟨s, hrun, hstep⟩

theorem first_oldest : pairKey "login" "192.0.2.1" ∈ Assoc.keys (oldestBuckets (floodStorage 5000) 300000) := by
  have hactive := floodStorage_active (n := 5000) (show (300000 : Int) < 3600000 by decide)
  obtain ⟨kept, hperm, horder, -⟩ := sorted_split (floodStorage 5000) 300000
  have hone : (oldestBuckets (floodStorage 5000) 300000).length = 1 := by
    rw [oldestBuckets, hactive, List.length_take, List.length_mergeSort, floodStorage_length]
    rfl
  rw [hactive] at hperm
  obtain ⟨x, hx⟩ := List.length_eq_one_iff.mp hone
  rw [hx] at hperm horder ⊢
  have hfirst : (pairKey "login" "192.0.2.1", (⟨1, 3600000⟩ : RateState)) ∈ [x] ++ kept :=
    hperm.mem_iff.mpr List.mem_cons_self
  rcases List.mem_append.mp hfirst with hmem | hkept
  · exact List.mem_map_of_mem hmem
  · have hback := horder x List.mem_cons_self _ hkept
    rcases mem_floodStorage (hperm.subset (List.mem_append_left _ List.mem_cons_self)) with rfl | ⟨i, -, rfl⟩
    · exact List.mem_cons_self
    · simp only [olderOrSame, decide_eq_true_eq] at hback
      omega

theorem oldest_taken : get? (enforceBucketLimit (cleanupExpiredBuckets (floodStorage 5000) 300000) 300000)
    (pairKey "login" "192.0.2.1") = none := by
  have hactive := floodStorage_active (n := 5000) (show (300000 : Int) < 3600000 by decide)
  rw [cleanupExpiredBuckets, hactive, enforceBucketLimit, floodStorage_length, if_neg (by decide),
    ← Option.not_isSome_iff_eq_none, Assoc.get?_isSome]
  intro hmem
  obtain ⟨entry, hentry, hkey⟩ := List.mem_map.mp hmem
  have htaken := (List.mem_filter.mp hentry).2
  rw [hkey] at htaken
  have hin := List.contains_iff_mem.mpr first_oldest
  rw [hin] at htaken
  simp at htaken

/-- **The limit fails**: the address is allowed twice in the hour for which it may be allowed once. -/
theorem allowed_after_compaction : ∃ events s, rateLimitMachine.run RateLimitDO.start events = some s ∧
    (∀ event ∈ events, FixedLimits "login" "192.0.2.1" 1 3600000 event) ∧
    ¬ ∀ before e after, ofPair "login" "192.0.2.1" s.log = before ++ e :: after → e.fresh = true →
      ((allowedBefore (e.now + 3600000) (e :: after)).length : Int) ≤ 1 := by
  obtain ⟨s, hrun, h⟩ := flooded 5000 (le_refl _)
  let s' := s.runAlarm 300000
  have halarm : rateLimitStep s (.alarm 300000) = some s' := by
    rw [rateLimitStep, if_pos]
    rw [h.alarm]
    exact ⟨by have hclock := h.clock; omega, by decide⟩
  have hswept : Assoc.get? (s'.swept 300001) (pairKey "login" "192.0.2.1") = none := by
    have hcounted : s'.sweepCounter = 5001 := h.counted
    rw [RateLimitDO.swept, hcounted, if_neg (by decide)]
    show Assoc.get? (enforceBucketLimit (cleanupExpiredBuckets s.storage 300000) 300000) _ = none
    rw [h.storage]
    exact oldest_taken
  have hrequest := loginBody_request (show Live.sliceUnits 128 "192.0.2.1" = "192.0.2.1" from rfl) (by decide)
  let again : Answered := ⟨some "login", some "192.0.2.1", 300001, true, answerOf ⟨1, 3900001⟩ 1 300001⟩
  refine ⟨floodEvents, s'.checkRateLimit (loginBody "192.0.2.1") ⟨"login", "192.0.2.1", 1, 3600000⟩ 300001, ?_, ?_, ?_⟩
  · rw [floodEvents, rateLimitMachine.run_append]
    refine ⟨s, hrun, rateLimitMachine.run_cons.mpr ⟨s', halarm, rateLimitMachine.run_cons.mpr ⟨_, ?_, rfl⟩⟩⟩
    show rateLimitStep s' (.request (some (loginBody "192.0.2.1")) 300001) = _
    have hclock : s'.clock ≤ 300001 := show (300000 : Int) ≤ 300001 by decide
    rw [rateLimitStep, if_pos hclock, hrequest]
  · intro event hmem
    rw [floodEvents, floodRequests] at hmem
    rcases List.mem_append.mp hmem with hmem | hmem
    · rcases List.mem_cons.mp hmem with rfl | hmem
      · exact fixedLimits_login
      · obtain ⟨i, -, rfl⟩ := List.mem_map.mp hmem
        exact fixedLimits_login
    · rcases List.mem_cons.mp hmem with rfl | hmem
      · trivial
      · rw [List.mem_singleton.mp hmem]
        exact fixedLimits_login
  · intro hlimit
    have hadded : (s'.checkRateLimit (loginBody "192.0.2.1") ⟨"login", "192.0.2.1", 1, 3600000⟩ 300001).log =
        s.log ++ [again] := by
      have hkey : storageKey "login" "192.0.2.1" = pairKey "login" "192.0.2.1" := rfl
      rw [RateLimitDO.checkRateLimit, hkey, hswept]
      rfl
    have hlog : ofPair "login" "192.0.2.1"
        (s'.checkRateLimit (loginBody "192.0.2.1") ⟨"login", "192.0.2.1", 1, 3600000⟩ 300001).log =
          [] ++ firstAnswer :: [again] := by
      rw [hadded, ofPair, List.filter_append, ← ofPair, h.log]
      rfl
    have htwo := hlimit [] firstAnswer [again] hlog rfl
    cases htwo

end Flood

end CfMonitor.Limits
