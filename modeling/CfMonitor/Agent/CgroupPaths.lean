/-
  The directories of a control group (`cgroup_memory.go`).

  1. **Program** — `/proc/self/cgroup` and `mountinfo` give mount points and leaves, and the walk goes from a
     leaf up to its mount point.  Its loop has no bound, so it is given fuel.

  2. **Walk** — below the mount point it takes one step for each part (`walk_chain`).

  3. **Result** — the leaves that are found are below their mount points, and each walk ends
     (`cgroup_walk_ends`).
-/
import CfMonitor.Lib.HostPort
import CfMonitor.Lib.SlashPath

namespace CfMonitor.Agent

open CfMonitor.Lib CfMonitor.Lib.SlashPath

/-! ## Program -/

structure CgroupMemoryPath where
  root : List Char
  leaf : List Char
  v2 : Bool
deriving DecidableEq

inductive CgroupReadError where
  | notExist
  | other

/-- The files, and which paths are directories. -/
structure CgroupHost where
  readFile : List Char → Except CgroupReadError (List Char)
  isDir : List Char → Bool

/-- The loop, with fuel. -/
def ancestorLoop (root : List Char) : Nat → List Char → Option (List (List Char))
  | 0, _ => none
  | fuel + 1, path => if path = root then some [path] else (ancestorLoop root fuel (dir path)).map (path :: ·)

def cgroupAncestorPaths (fuel : Nat) (root leaf : List Char) : Option (List (List Char)) :=
  let root := clean root
  let leaf := clean leaf
  match rel root leaf with
  | none => some []
  | some way =>
    if way = dotDot ∨ dotDot ++ ['/'] <+: way ∨ isAbs way = true then some [] else ancestorLoop root fuel leaf

/-- `strings.SplitN` into two. -/
def splitFirst (sep : List Char) : List Char → Option (List Char × List Char)
  | [] => none
  | c :: rest =>
    if sep.isPrefixOf (c :: rest) then some ([], (c :: rest).drop sep.length)
    else (splitFirst sep rest).map fun p => (c :: p.1, p.2)

/-- `strings.Fields`. -/
def goFields (text : List Char) : List (List Char) := (text.splitOnP isGoSpace).filter fun part => part ≠ []

def unescape : List Char → List Char
  | '\\' :: '0' :: '4' :: '0' :: rest => ' ' :: unescape rest
  | '\\' :: '0' :: '1' :: '1' :: rest => '\t' :: unescape rest
  | '\\' :: '0' :: '1' :: '2' :: rest => '\n' :: unescape rest
  | '\\' :: '1' :: '3' :: '4' :: rest => '\\' :: unescape rest
  | c :: rest => c :: unescape rest
  | [] => []

def trimPrefix (front text : List Char) : List Char := if front.isPrefixOf text then text.drop front.length else text

def trimSlash (text : List Char) : List Char := if text.getLast? = some '/' then text.dropLast else text

/-- The controller is in a list with commas. -/
def listed (controllers controller : List Char) : Bool := decide (',' :: controller ++ [','] <:+: ',' :: controllers ++ [','])

/-- The kind and the options of a mount are those of the controller. -/
def isCgroupMount (v2 : Bool) (kind options controller : List Char) : Bool :=
  if v2 then kind == "cgroup2".toList else kind == "cgroup".toList && listed options controller

/-- A line of `mountinfo`: the group, and the depth of what is mounted. -/
def mountCandidate (host : CgroupHost) (processPath : List Char) (v2 : Bool) (controller line : List Char) :
    Option (CgroupMemoryPath × Nat) :=
  match splitFirst " - ".toList line with
  | none => none
  | some (front, back) =>
    match goFields front, goFields back with
    | _ :: _ :: _ :: root :: point :: _ :: _, kind :: _ :: options :: _ =>
      if isCgroupMount v2 kind options controller = false then none
      else
        let mountRoot := unescape root
        let mountPoint := unescape point
        if isAbs mountPoint = false ∨ (processPath ≠ mountRoot ∧ ¬ trimSlash mountRoot ++ ['/'] <+: processPath) then none
        else
          let leaf := joinPath mountPoint (trimPrefix ['/'] (trimPrefix mountRoot processPath))
          if host.isDir leaf then some (⟨mountPoint, leaf, v2⟩, (mountRoot.map Char.utf8Size).sum) else none
    | _, _ => none

def mountedControllerCgroups (host : CgroupHost) (mountinfo processPath : List Char) (v2 : Bool) (controller : List Char) :
    List CgroupMemoryPath :=
  let candidates := (mountinfo.splitOn '\n').filterMap (mountCandidate host processPath v2 controller)
  (candidates.mergeSort fun a b => a.2 ≤ b.2).map Prod.fst

/-- Where groups are without `mountinfo`. -/
def usualRoots (v2 : Bool) (cgroupRoot controllers controller : List Char) : List (List Char) :=
  if v2 then [cgroupRoot] else [joinPath cgroupRoot controllers, joinPath cgroupRoot controller, cgroupRoot]

/-- A line of `/proc/self/cgroup`.  Without `mountinfo` the usual places are tried. -/
def cgroupLine (host : CgroupHost) (mountData : Option (List Char)) (cgroupRoot controller line : List Char) :
    List CgroupMemoryPath :=
  match (splitFirst [':'] line).bind fun p => splitFirst [':'] p.2 with
  | none => []
  | some (controllers, processPath) =>
    let v2 := decide (controllers = [])
    if isAbs processPath = false ∨ (v2 = false ∧ listed controllers controller = false) then []
    else if '/' :: dotDot ++ ['/'] <:+: '/' :: (processPath ++ ['/']) then []
    else match mountData with
      | some mountinfo => mountedControllerCgroups host mountinfo processPath v2 controller
      | none =>
        (usualRoots v2 cgroupRoot controllers controller).filterMap fun root =>
          let leaf := joinPath root (trimPrefix ['/'] processPath)
          if host.isDir leaf then some ⟨root, leaf, v2⟩ else none

def controllerCgroupPaths (host : CgroupHost) (cgroupRoot procSelfCgroup controller : List Char) : List CgroupMemoryPath :=
  match host.readFile procSelfCgroup, host.readFile (joinPath (dir procSelfCgroup) "mountinfo".toList) with
  | .error _, _ => []
  | _, .error .other => []
  | .ok data, .error .notExist => (data.splitOn '\n').flatMap (cgroupLine host none cgroupRoot controller)
  | .ok data, .ok mountinfo => (data.splitOn '\n').flatMap (cgroupLine host (some mountinfo) cgroupRoot controller)

/-! ## Walk -/

/-- **The chain** from a leaf up to its mount point. -/
structure Chain (root leaf : List Char) (chain : List (List Char)) : Prop where
  first : chain.head? = some (clean leaf)
  last : chain.getLast? = some (clean root)
  steps : chain.IsChain fun path next => next = dir path
  below : ∀ path ∈ chain, SlashPath.Below root path
  nodup : chain.Nodup

/-- The walk ends with the chain. -/
def Walks (root leaf : List Char) : Prop :=
  ∃ chain, Chain root leaf chain ∧ ∀ fuel, chain.length ≤ fuel → cgroupAncestorPaths fuel root leaf = some chain

/-- The paths from some parts behind the root, the last one first, up to the root. -/
def upward (rs : List (List Char)) (sr : List (List Char)) : List (List Char) :=
  sr.tails.map fun tail => render true (rs ++ tail.reverse)

variable {rs sr : List (List Char)}

theorem upward_cons (p : List Char) : upward rs (p :: sr) = render true (rs ++ (p :: sr).reverse) :: upward rs sr := by
  rw [upward, List.tails_cons]
  rfl

theorem head_upward (rs sr : List (List Char)) : (upward rs sr).head? = some (render true (rs ++ sr.reverse)) := by
  cases sr <;> rfl

theorem mem_upward {path : List Char} (h : path ∈ upward rs sr) : ∃ tail, tail <:+ sr ∧ path = render true (rs ++ tail.reverse) := by
  obtain ⟨tail, htail, rfl⟩ := List.mem_map.mp h
  exact ⟨tail, (List.mem_tails tail sr).mp htail, rfl⟩

theorem length_upward : (upward rs sr).length = sr.length + 1 := by
  rw [upward, List.length_map, List.length_tails]

theorem isPart_of_suffix {tail : List (List Char)} (hparts : ∀ part ∈ rs ++ sr.reverse, IsPart part) (htail : tail <:+ sr) :
    ∀ part ∈ rs ++ tail.reverse, IsPart part := by
  intro part hpart
  refine hparts part ?_
  rcases List.mem_append.mp hpart with hpart | hpart
  · exact List.mem_append_left _ hpart
  · exact List.mem_append_right _ (List.mem_reverse.mpr (htail.subset (List.mem_reverse.mp hpart)))

/-- **The loop** takes one step for each part behind the root. -/
theorem walk_chain (hparts : ∀ part ∈ rs ++ sr.reverse, IsPart part) :
    (upward rs sr).getLast? = some (render true rs) ∧ (upward rs sr).IsChain (fun path next => next = dir path) ∧
    (upward rs sr).Nodup ∧
    ∀ fuel, (upward rs sr).length ≤ fuel →
      ancestorLoop (render true rs) fuel (render true (rs ++ sr.reverse)) = some (upward rs sr) := by
  have hroot : ∀ part ∈ rs, IsPart part := fun part hpart => hparts part (List.mem_append_left _ hpart)
  induction sr with
  | nil =>
    have hupward : upward rs [] = [render true rs] := congrArg (fun parts => [render true parts]) (List.append_nil rs)
    rw [hupward]
    refine ⟨rfl, .singleton _, List.pairwise_singleton _ _, fun fuel hfuel => ?_⟩
    obtain ⟨n, rfl⟩ := Nat.exists_eq_succ_of_ne_zero (Nat.one_le_iff_ne_zero.mp hfuel)
    rw [ancestorLoop, List.reverse_nil, List.append_nil, if_pos rfl]
  | cons p sr ih =>
    have htail : ∀ part ∈ rs ++ sr.reverse, IsPart part := isPart_of_suffix hparts (List.suffix_cons p sr)
    obtain ⟨hlast, hsteps, hnodup, hwalk⟩ := ih htail
    -- one part less behind the root
    have hdir : dir (render true (rs ++ (p :: sr).reverse)) = render true (rs ++ sr.reverse) := by
      rw [List.reverse_cons, ← List.append_assoc] at hparts ⊢
      exact dir_render hparts
    have hlonger : ∀ tail, tail <:+ sr → render true (rs ++ (p :: sr).reverse) ≠ render true (rs ++ tail.reverse) := by
      intro tail hsuffix heq
      have hsame := congrArg cleanParts heq
      rw [cleanParts_render hparts, cleanParts_render (isPart_of_suffix htail hsuffix)] at hsame
      have hlength := congrArg List.length hsame
      have hle := hsuffix.length_le
      simp only [List.length_append, List.length_reverse, List.length_cons] at hlength
      omega
    have hne : upward rs sr ≠ [] := List.ne_nil_of_length_pos (by rw [length_upward]; omega)
    rw [upward_cons]
    refine ⟨?_, ?_, ?_, fun fuel hfuel => ?_⟩
    · rw [List.getLast?_cons_of_ne_nil hne]
      exact hlast
    · obtain ⟨next, rest, hrest⟩ := List.exists_cons_of_ne_nil hne
      have hnext := head_upward rs sr
      rw [hrest, List.head?_cons, Option.some.injEq] at hnext
      rw [hrest] at hsteps ⊢
      exact .cons_cons (hnext.trans hdir.symm) hsteps
    · refine List.nodup_cons.mpr ⟨fun hmem => ?_, hnodup⟩
      obtain ⟨tail, hsuffix, heq⟩ := mem_upward hmem
      exact hlonger tail hsuffix heq
    · obtain ⟨n, rfl⟩ := Nat.exists_eq_succ_of_ne_zero (Nat.one_le_iff_ne_zero.mp (Nat.le_trans (Nat.le_add_left 1 _) hfuel))
      have hstop := hlonger [] List.nil_suffix
      rw [List.reverse_nil, List.append_nil] at hstop
      rw [ancestorLoop, if_neg hstop, hdir, hwalk n (by rw [List.length_cons] at hfuel; omega)]
      rfl

/-- **Below the root** the walk ends. -/
theorem walks_of_below {root leaf : List Char} (hroot : isAbs root = true) (hleaf : isAbs leaf = true) (h : SlashPath.Below root leaf) :
    Walks root leaf := by
  obtain ⟨hrootAbs, hrootParts⟩ := cleanParts_clean hroot
  obtain ⟨hleafAbs, hleafParts⟩ := cleanParts_clean hleaf
  obtain ⟨way, hrel, hup, habs⟩ := rel_below hrootAbs hleafAbs (by unfold SlashPath.Below; rw [hrootParts, hleafParts]; exact h)
  obtain ⟨suffix, hsuffix⟩ := h
  have hparts : ∀ part ∈ cleanParts root ++ suffix.reverse.reverse, IsPart part := by
    rw [List.reverse_reverse, hsuffix]
    exact cleanParts_isPart hleaf
  have hclean : clean leaf = render true (cleanParts root ++ suffix.reverse.reverse) := by
    rw [List.reverse_reverse, hsuffix, clean_of_isAbs hleaf]
  obtain ⟨hlast, hsteps, hnodup, hwalk⟩ := walk_chain hparts
  refine ⟨upward (cleanParts root) suffix.reverse, ⟨?_, ?_, hsteps, fun path hpath => ?_, hnodup⟩, fun fuel hfuel => ?_⟩
  · rw [head_upward, hclean]
  · rw [hlast, clean_of_isAbs hroot]
  · obtain ⟨tail, htail, rfl⟩ := mem_upward hpath
    exact ⟨tail.reverse, (cleanParts_render (isPart_of_suffix hparts htail)).symm⟩
  · rw [cgroupAncestorPaths, hrel]
    dsimp only
    rw [if_neg (by rw [← or_assoc]; exact fun hor => hor.elim hup fun hway => by rw [habs] at hway; cases hway), hclean,
      clean_of_isAbs hroot]
    exact hwalk fuel hfuel

/-! ## Groups -/

/-- A group is below its root, an absolute path. -/
structure CgroupMemoryPath.Proper (group : CgroupMemoryPath) : Prop where
  root : isAbs group.root = true
  leaf : isAbs group.leaf = true
  below : SlashPath.Below group.root group.leaf

/-- What is behind a root has no `..` if the path has none. -/
theorem dotDot_not_mem_trim {text : List Char} (h : dotDot ∉ text.splitOn '/') : dotDot ∉ (trimPrefix ['/'] text).splitOn '/' := by
  rw [trimPrefix]
  split_ifs with hslash
  · obtain ⟨rest, rfl⟩ := List.isPrefixOf_iff_prefix.mp hslash
    intro hmem
    exact h (by rw [List.singleton_append, ← List.nil_append ('/' :: rest), List.splitOn_append_cons_self]; exact List.mem_append_right _ hmem)
  · exact h

theorem dotDot_not_mem_rel {mountRoot processPath : List Char} (h : dotDot ∉ processPath.splitOn '/')
    (hroot : processPath = mountRoot ∨ trimSlash mountRoot ++ ['/'] <+: processPath) :
    dotDot ∉ (trimPrefix ['/'] (trimPrefix mountRoot processPath)).splitOn '/' := by
  have hbehind : ∀ front rest : List Char, processPath = front ++ '/' :: rest → dotDot ∉ rest.splitOn '/' := by
    intro front rest heq hmem
    rw [heq, List.splitOn_append_cons_self] at h
    exact h (List.mem_append_right _ hmem)
  refine dotDot_not_mem_trim ?_
  rcases hroot with rfl | ⟨rest, heq⟩
  · rw [trimPrefix, if_pos (List.isPrefixOf_iff_prefix.mpr List.prefix_rfl), List.drop_length]
    decide
  · rw [List.append_assoc, List.singleton_append] at heq
    rw [trimSlash] at heq
    split_ifs at heq with hslash
    · -- the slash belongs to the root
      have hwhole : mountRoot ++ rest = processPath := by
        rw [← heq]
        obtain ⟨front, rfl⟩ := List.getLast?_eq_some_iff.mp hslash
        simp
      rw [trimPrefix, if_pos (List.isPrefixOf_iff_prefix.mpr ⟨rest, hwhole⟩), ← hwhole, List.drop_left]
      exact hbehind _ rest heq.symm
    · rw [trimPrefix, if_pos (List.isPrefixOf_iff_prefix.mpr ⟨'/' :: rest, heq⟩), ← heq, List.drop_left,
        ← List.nil_append ('/' :: rest), List.splitOn_append_cons_self]
      exact fun hmem => (List.mem_append.mp hmem).elim (by decide) (hbehind mountRoot rest heq.symm)

theorem proper_join {root more : List Char} (v2 : Bool) (hroot : isAbs root = true) (hmore : dotDot ∉ more.splitOn '/') :
    CgroupMemoryPath.Proper ⟨root, joinPath root more, v2⟩ :=
  ⟨hroot, (below_join hroot hmore).1, (below_join hroot hmore).2⟩

theorem mounted_proper {host : CgroupHost} {mountinfo processPath controller : List Char} {v2 : Bool}
    (h : dotDot ∉ processPath.splitOn '/') :
    ∀ group ∈ mountedControllerCgroups host mountinfo processPath v2 controller, group.Proper := by
  intro group hgroup
  obtain ⟨⟨_, depth⟩, hcandidate, rfl⟩ := List.mem_map.mp hgroup
  obtain ⟨line, -, hline⟩ := List.mem_filterMap.mp (List.mem_mergeSort.mp hcandidate)
  rw [mountCandidate] at hline
  split at hline
  · cases hline
  · split at hline
    · dsimp only at hline
      split_ifs at hline with hkind hroot hdir
      cases hline
      rw [not_or, Bool.not_eq_false, not_and_or, not_not, not_not] at hroot
      exact proper_join v2 hroot.1 (dotDot_not_mem_rel h hroot.2)
    · cases hline

/-- The check of `controllerCgroupPaths` finds every `..`. -/
theorem dotDot_not_mem_of_check {path : List Char} (h : ¬ '/' :: dotDot ++ ['/'] <:+: '/' :: (path ++ ['/'])) :
    dotDot ∉ path.splitOn '/' := by
  intro hmem
  obtain ⟨front, back, hsplit⟩ := List.append_of_mem hmem
  have hbehind : ∃ more, slashed back ++ ['/'] = '/' :: more := by
    cases back with
    | nil => exact ⟨[], rfl⟩
    | cons p ps => exact ⟨p ++ slashed ps ++ ['/'], rfl⟩
  obtain ⟨more, hmore⟩ := hbehind
  refine h ⟨slashed front, more, ?_⟩
  have hwhole := slashed_splitOn path
  rw [hsplit, slashed, List.flatMap_append, List.flatMap_cons] at hwhole
  rw [← List.cons_append, ← hwhole]
  show _ = slashed front ++ ('/' :: dotDot ++ slashed back) ++ ['/']
  simp only [List.append_assoc, hmore, List.singleton_append]

theorem isAbs_usualRoots {v2 : Bool} {cgroupRoot controllers controller : List Char} (hroot : isAbs cgroupRoot = true) :
    ∀ root ∈ usualRoots v2 cgroupRoot controllers controller, isAbs root = true := by
  intro root hmem
  rw [usualRoots] at hmem
  split_ifs at hmem
  · exact List.mem_singleton.mp hmem ▸ hroot
  · simp only [List.mem_cons, List.not_mem_nil, or_false] at hmem
    rcases hmem with rfl | rfl | rfl
    · exact isAbs_joinPath hroot _
    · exact isAbs_joinPath hroot _
    · exact hroot

theorem controller_proper {host : CgroupHost} {cgroupRoot procSelfCgroup controller : List Char} (hroot : isAbs cgroupRoot = true) :
    ∀ group ∈ controllerCgroupPaths host cgroupRoot procSelfCgroup controller, group.Proper := by
  have hlines : ∀ mountData line, ∀ group ∈ cgroupLine host mountData cgroupRoot controller line, group.Proper := by
    intro mountData line group hgroup
    rw [cgroupLine] at hgroup
    split at hgroup
    · cases hgroup
    · rename_i controllers processPath _
      dsimp only at hgroup
      split_ifs at hgroup with hwanted hcheck
      · cases hgroup
      · cases hgroup
      · have hpath := dotDot_not_mem_of_check hcheck
        split at hgroup
        · exact mounted_proper hpath group hgroup
        · obtain ⟨root, hmem, hgroup⟩ := List.mem_filterMap.mp hgroup
          split_ifs at hgroup with hdir
          cases hgroup
          refine proper_join _ ?_ (dotDot_not_mem_trim hpath)
          exact isAbs_usualRoots hroot root hmem
  intro group hgroup
  rw [controllerCgroupPaths] at hgroup
  split at hgroup
  · cases hgroup
  · cases hgroup
  · obtain ⟨line, -, hline⟩ := List.mem_flatMap.mp hgroup
    exact hlines _ line group hline
  · obtain ⟨line, -, hline⟩ := List.mem_flatMap.mp hgroup
    exact hlines _ line group hline

/-- **The walk ends** inside its mount for each group that is found, and for every leaf below an absolute root; from
    any other leaf there is none. -/
theorem cgroup_walk_ends (host : CgroupHost) :
    (∀ mountinfo processPath v2 controller, dotDot ∉ processPath.splitOn '/' →
      ∀ group ∈ mountedControllerCgroups host mountinfo processPath v2 controller, Walks group.root group.leaf) ∧
    (∀ cgroupRoot procSelfCgroup controller, isAbs cgroupRoot = true →
      ∀ group ∈ controllerCgroupPaths host cgroupRoot procSelfCgroup controller, Walks group.root group.leaf) ∧
    ∀ root leaf, isAbs root = true → isAbs leaf = true →
      (SlashPath.Below root leaf → Walks root leaf) ∧ (¬ SlashPath.Below root leaf → ∀ fuel, cgroupAncestorPaths fuel root leaf = some []) := by
  have hproper : ∀ {group : CgroupMemoryPath}, group.Proper → Walks group.root group.leaf := fun h =>
    walks_of_below h.root h.leaf h.below
  refine ⟨fun _ _ _ _ h group hgroup => hproper (mounted_proper h group hgroup),
    fun _ _ _ h group hgroup => hproper (controller_proper h group hgroup), fun root leaf hroot hleaf => ?_⟩
  refine ⟨walks_of_below hroot hleaf, fun hbelow fuel => ?_⟩
  obtain ⟨hrootAbs, hrootParts⟩ := cleanParts_clean hroot
  obtain ⟨hleafAbs, hleafParts⟩ := cleanParts_clean hleaf
  obtain ⟨way, hrel, hup⟩ := rel_not_below hrootAbs hleafAbs (by unfold SlashPath.Below; rw [hrootParts, hleafParts]; exact hbelow)
  rw [cgroupAncestorPaths, hrel]
  exact if_pos (or_assoc.mp (.inl hup))

/-- A host with one group and no `mountinfo`. -/
def plainHost : CgroupHost where
  readFile path := if path = "/proc/self/cgroup".toList then .ok "0::/a".toList else .error .notExist
  isDir _ := true

theorem cgroup_walk_ends_plain : Walks "/sys/fs/cgroup".toList "/sys/fs/cgroup/a".toList :=
  (cgroup_walk_ends plainHost).2.1 "/sys/fs/cgroup".toList "/proc/self/cgroup".toList "memory".toList (by decide)
    ⟨_, _, true⟩ (by decide +kernel)

end CfMonitor.Agent
