import Mathlib.Data.List.DropRight
import ScriptHost.Proofs.Guard.Verdict
import ScriptHost.Proofs.Text.Capitals

/-!
# Paths under a root

A path is a list of segments, however its slashes and capitals are written: the normal form of a
path holds the segments and nothing else, so a path lies under a root of its kind just when its
segments start with the root's. A segment that stays where it is counts like any other.
-/

namespace ScriptHost.Guard

/-! ## Segments -/

def isSlash (c : Char) : Bool := c == '/' || c == '\\'

def lowerEach (cs : List Char) : List Char := cs.flatMap Text.lowerChar

/-- The pieces with something in them, in lower case. -/
def segmentsOf (pieces : List (List Char)) : List (List Char) :=
  (pieces.filter (!·.isEmpty)).map lowerEach

/-- The segments of a path, between slashes of either kind. -/
def segments (path : List Char) : List (List Char) := segmentsOf (path.splitOnP isSlash)

/-- Segments put together with single slashes. -/
def joined (segs : List (List Char)) : List Char := ['/'].intercalate segs

theorem joined_cons (s : List Char) (segs : List (List Char)) :
    joined (s :: segs) = s ++ segs.flatMap ('/' :: ·) := by
  induction segs generalizing s with
  | nil => simp [joined]
  | cons t segs ih =>
      rw [joined, List.intercalate_cons_cons, ← joined, ih t, List.flatMap_cons]
      simp

/-- A segment with something in it, and no slash. -/
structure IsSegment (s : List Char) : Prop where
  ne_nil : s ≠ []
  no_slash : '/' ∉ s

theorem ofNat_ne_of_lt {n : Nat} {x : Char} (hpos : 0 < x.toNat) (h : x.toNat < n) :
    Char.ofNat n ≠ x := by
  rintro rfl
  by_cases hvalid : n.isValidChar
  · rw [Char.ofNat, dif_pos hvalid] at h
    exact Nat.lt_irrefl n h
  · rw [Char.ofNat, dif_neg hvalid] at hpos
    exact absurd hpos (by decide)

/-- No capital beyond ASCII has a sign from before the letters for its lower-case form. -/
theorem ne_of_lowerInRuns {c d x : Char} (hpos : 0 < x.toNat) (hx : x.toNat < 'A'.toNat)
    (h : Text.lowerInRuns Text.lowerRuns c = some d) : d ≠ x := by
  have habove : ∀ run ∈ Text.lowerRuns, 'A'.toNat ≤ run.2.2.2 := by decide +kernel
  obtain ⟨⟨first, last, step, target⟩, hrun, hd⟩ := List.exists_of_findSome?_eq_some h
  have htarget := habove _ hrun
  dsimp only at hd htarget
  split at hd
  · cases hd
    apply ofNat_ne_of_lt hpos
    omega
  · cases hd

/-- A sign from before the letters is the lower-case form of itself alone. -/
theorem eq_of_mem_lowerChar {c x : Char} (hpos : 0 < x.toNat) (hx : x.toNat < 'A'.toNat)
    (h : x ∈ Text.lowerChar c) : c = x := by
  have hsign : x.isAlpha = false := by
    have hbelow : x.val.toNat < 65 := hx
    rw [Bool.eq_false_iff, Ne, Text.isAlpha_iff]
    omega
  unfold Text.lowerChar at h
  split at h
  · rwa [List.mem_singleton, eq_comm, Text.toLower_eq_iff hsign] at h
  · split at h
    · rcases List.mem_pair.1 h with rfl | rfl
      · exact absurd hx (by decide)
      · exact absurd hx (by decide)
    · rw [List.mem_singleton] at h
      cases hlower : Text.lowerInRuns Text.lowerRuns c with
      | none =>
          rw [hlower] at h
          exact h.symm
      | some d =>
          rw [hlower] at h
          exact absurd h.symm (ne_of_lowerInRuns hpos hx hlower)

theorem lowerChar_ne_nil (c : Char) : Text.lowerChar c ≠ [] := by
  unfold Text.lowerChar
  split
  · exact List.cons_ne_nil _ _
  · split
    · exact List.cons_ne_nil _ _
    · exact List.cons_ne_nil _ _

theorem isSegment_lowerChar {c : Char} (hc : isSlash c = false) : IsSegment (Text.lowerChar c) := by
  refine ⟨lowerChar_ne_nil c, ?_⟩
  intro hslash
  rw [eq_of_mem_lowerChar (by decide) (by decide) hslash] at hc
  cases hc

theorem slash_not_mem_lowerEach {cs : List Char} (h : ∀ c ∈ cs, isSlash c = false) :
    '/' ∉ lowerEach cs := by
  intro hslash
  obtain ⟨c, hc, hmem⟩ := List.mem_flatMap.1 hslash
  exact (isSegment_lowerChar (h c hc)).no_slash hmem

theorem isSegment_lowerEach {cs : List Char} (hne : cs ≠ []) (h : ∀ c ∈ cs, isSlash c = false) :
    IsSegment (lowerEach cs) := by
  refine ⟨?_, slash_not_mem_lowerEach h⟩
  intro hnil
  obtain ⟨c, rest, rfl⟩ := List.exists_cons_of_ne_nil hne
  exact (isSegment_lowerChar (h c (List.mem_cons_self ..))).ne_nil
    (List.flatMap_eq_nil_iff.1 hnil c (List.mem_cons_self ..))

theorem isSlash_of_mem_splitOnP {cs piece : List Char} (h : piece ∈ cs.splitOnP isSlash) :
    ∀ c ∈ piece, isSlash c = false := by
  induction cs generalizing piece with
  | nil =>
      rw [List.splitOnP_nil, List.mem_singleton] at h
      rw [h]
      exact fun c hc => absurd hc List.not_mem_nil
  | cons c cs ih =>
      rw [List.splitOnP_cons_eq_if_modifyHead] at h
      split at h
      · rcases List.mem_cons.1 h with rfl | h
        · exact fun c hc => absurd hc List.not_mem_nil
        · exact ih h
      · rename_i hslash
        obtain ⟨first, others, hsplit⟩ := List.exists_cons_of_ne_nil (List.splitOnP_ne_nil isSlash cs)
        rw [hsplit] at h ih
        rcases List.mem_cons.1 h with rfl | h
        · rw [List.forall_mem_cons]
          exact ⟨Bool.eq_false_iff.2 hslash, ih (List.mem_cons_self ..)⟩
        · exact ih (List.mem_cons_of_mem _ h)

theorem isSegment_of_mem {cs s : List Char} (h : s ∈ segments cs) : IsSegment s := by
  obtain ⟨piece, hpiece, rfl⟩ := List.mem_map.1 h
  obtain ⟨hmem, hne⟩ := List.mem_filter.1 hpiece
  exact isSegment_lowerEach (by simpa using hne) (isSlash_of_mem_splitOnP hmem)

theorem joined_ne_nil {segs : List (List Char)} (hne : segs ≠ [])
    (h : ∀ s ∈ segs, IsSegment s) : joined segs ≠ [] := by
  obtain ⟨s, others, rfl⟩ := List.exists_cons_of_ne_nil hne
  rw [joined_cons]
  exact List.append_ne_nil_of_left_ne_nil (h s (List.mem_cons_self ..)).ne_nil _

theorem joined_ne_slash {segs : List (List Char)} (hne : segs ≠ [])
    (h : ∀ s ∈ segs, IsSegment s) : joined segs ≠ ['/'] := by
  obtain ⟨s, others, rfl⟩ := List.exists_cons_of_ne_nil hne
  have hs := h s (List.mem_cons_self ..)
  have hmem : s.head hs.ne_nil ∈ joined (s :: others) := by
    rw [joined_cons]
    exact List.mem_append_left _ (List.head_mem _)
  intro hslash
  rw [hslash, List.mem_singleton] at hmem
  exact hs.no_slash (hmem ▸ List.head_mem _)

/-! ## Normal forms -/

/-- The characters without the slashes at their end. -/
def dropEnd (cs : List Char) : List Char := cs.rdropWhile (· == '/')

theorem dropEnd_append (xs ys : List Char) :
    dropEnd (xs ++ ys) = if (dropEnd ys).isEmpty then dropEnd xs else xs ++ dropEnd ys := by
  rw [dropEnd, dropEnd, dropEnd, List.rdropWhile, List.reverse_append, List.dropWhile_append,
    List.rdropWhile, List.rdropWhile, List.isEmpty_reverse]
  split
  · rfl
  · rw [List.reverse_append, List.reverse_reverse]

theorem dropEnd_append_of_not_mem {xs : List Char} (h : '/' ∉ xs) (ys : List Char) :
    dropEnd (xs ++ ys) = xs ++ dropEnd ys := by
  have hself : dropEnd xs = xs := by
    rw [dropEnd, List.rdropWhile_eq_self_iff]
    intro hne hlast
    exact h (beq_iff_eq.1 hlast ▸ List.getLast_mem hne)
  rw [dropEnd_append, hself]
  split
  · rename_i hnil
    rw [List.isEmpty_iff.1 hnil, List.append_nil]
  · rfl

/-- A slash in front goes with the first segment, and goes away where there is none. -/
theorem dropEnd_slash_cons {cs : List Char} {segs : List (List Char)}
    (hsegs : ∀ s ∈ segs, IsSegment s) (h : dropEnd cs = joined segs) :
    dropEnd ('/' :: cs) = segs.flatMap ('/' :: ·) := by
  rw [← List.singleton_append, dropEnd_append, h]
  cases segs with
  | nil => rfl
  | cons s segs =>
      rw [if_neg, joined_cons]
      · rfl
      · rw [List.isEmpty_iff]
        exact joined_ne_nil (List.cons_ne_nil _ _) hsegs

theorem isSlash_iff {c : Char} : isSlash c = true ↔ c = '/' ∨ c = '\\' := by
  rw [isSlash, Bool.or_eq_true, beq_iff_eq, beq_iff_eq]

/-- The normal form behind a slash and behind anything else, from the pieces of a path. -/
theorem dropEnd_singleSlashes {cs piece : List Char} {pieces : List (List Char)}
    (h : cs.splitOnP isSlash = piece :: pieces) :
    dropEnd (lowerEach (singleSlashes true cs)) = joined (segmentsOf (piece :: pieces)) ∧
      dropEnd (lowerEach (singleSlashes false cs)) =
        lowerEach piece ++ (segmentsOf pieces).flatMap ('/' :: ·) := by
  -- both forms at once: at a slash the second goes on as the first
  induction cs generalizing piece pieces with
  | nil =>
      cases h
      exact ⟨rfl, rfl⟩
  | cons c cs ih =>
      obtain ⟨first, others, hsplit⟩ := List.exists_cons_of_ne_nil (List.splitOnP_ne_nil isSlash cs)
      obtain ⟨hbehind, hinside⟩ := ih hsplit
      rw [List.splitOnP_cons_eq_if_modifyHead, hsplit] at h
      by_cases hslash : isSlash c = true
      · rw [if_pos hslash] at h
        cases h
        rw [singleSlashes, singleSlashes, if_pos (isSlash_iff.1 hslash),
          if_pos (isSlash_iff.1 hslash)]
        have hsegs : ∀ s ∈ segmentsOf (first :: others), IsSegment s := by
          rw [← hsplit]
          exact fun s hs => isSegment_of_mem hs
        exact ⟨hbehind, dropEnd_slash_cons hsegs hbehind⟩
      · rw [if_neg hslash] at h
        cases h
        have hsingle : ∀ b, singleSlashes b (c :: cs) = c :: singleSlashes false cs := by
          intro b
          rw [singleSlashes, if_neg (mt isSlash_iff.2 hslash)]
        have hc := isSegment_lowerChar (Bool.eq_false_iff.2 hslash)
        have hform : dropEnd (lowerEach (c :: singleSlashes false cs)) =
            lowerEach (c :: first) ++ (segmentsOf pieces).flatMap ('/' :: ·) := by
          rw [lowerEach, List.flatMap_cons, dropEnd_append_of_not_mem hc.no_slash, ← lowerEach,
            hinside, ← List.append_assoc]
          rfl
        rw [hsingle, hsingle]
        refine ⟨?_, hform⟩
        rw [hform, ← joined_cons]
        rfl

/-! ## Absolute paths -/

/-- The path starts with a slash of either kind. -/
def startsWithSlash : List Char → Bool
  | c :: _ => isSlash c
  | [] => false

/-- Absolute paths of one kind: both from the root, or both from a drive. -/
def SameKind (path root : List Char) : Prop :=
  (startsWithSlash path = true ∧ startsWithSlash root = true) ∨
    (startsWithDrive path = true ∧ startsWithDrive root = true)

theorem dropScheme_of_slash {cs : List Char} (h : startsWithSlash cs = true) :
    dropScheme cs = cs := by
  cases cs with
  | nil => cases h
  | cons c cs =>
      rcases isSlash_iff.1 h with rfl | rfl
      · rfl
      · rfl

theorem dropEndSlashes_of_ne_nil {cs : List Char} (h : dropEnd cs ≠ []) :
    dropEndSlashes cs = dropEnd cs :=
  if_neg fun hnil => h (List.isEmpty_iff.1 hnil)

/-- The normal form of a path from the root: its segments, each behind one slash. -/
theorem normalizePath_of_slash {path : String}
    (h : startsWithSlash (Text.trimChars path.toList) = true) :
    normalizePath path = '/' :: joined (segments (Text.trimChars path.toList)) := by
  rw [normalizePath, dropScheme_of_slash h]
  generalize Text.trimChars path.toList = cs at h
  cases cs with
  | nil => cases h
  | cons c cs =>
      have hall : (c :: cs).splitOnP isSlash = [] :: cs.splitOnP isSlash := by
        rw [List.splitOnP_cons_eq_if_modifyHead]
        exact if_pos h
      have hsegments : segments (c :: cs) = segments cs := by
        rw [segments, hall]
        rfl
      have hform : dropEnd (lowerEach (singleSlashes false (c :: cs))) =
          (segments cs).flatMap ('/' :: ·) := (dropEnd_singleSlashes hall).2
      rw [← lowerEach, hsegments]
      cases hsegs : segments cs with
      | nil =>
          have hnil : (dropEnd (lowerEach (singleSlashes false (c :: cs)))).isEmpty = true := by
            rw [hform, hsegs]
            rfl
          have hfront : singleSlashes false (c :: cs) = '/' :: singleSlashes true cs := by
            rw [singleSlashes, if_pos (isSlash_iff.1 h)]
            rfl
          rw [dropEndSlashes]
          refine (if_pos hnil).trans ?_
          rw [hfront]
          rfl
      | cons s segs =>
          rw [hsegs] at hform
          rw [dropEndSlashes_of_ne_nil, hform, joined_cons]
          · rfl
          · rw [hform]
            exact List.cons_ne_nil _ _

theorem exists_of_startsWithDrive {path : List Char} (h : startsWithDrive path = true) :
    ∃ letter slash rest, letter.isAlpha = true ∧ isSlash slash = true ∧
      path = letter :: ':' :: slash :: rest := by
  unfold startsWithDrive at h
  split at h
  · rename_i letter slash rest
    obtain ⟨hletter, hslash⟩ := Bool.and_eq_true_iff.1 h
    exact ⟨letter, slash, rest, hletter, by rwa [isSlash, Bool.or_comm], rfl⟩
  · cases h

theorem dropScheme_of_drive {cs : List Char} (h : startsWithDrive cs = true) :
    dropScheme cs = cs := by
  obtain ⟨letter, slash, rest, -, -, rfl⟩ := exists_of_startsWithDrive h
  simp [dropScheme, behind?, List.isPrefixOf]

/-- The first piece of a path from a drive is the drive. -/
theorem splitOnP_of_drive {cs : List Char} (h : startsWithDrive cs = true) :
    ∃ letter pieces, letter.isAlpha = true ∧ cs.splitOnP isSlash = [letter, ':'] :: pieces := by
  obtain ⟨letter, slash, rest, hletter, hslash, rfl⟩ := exists_of_startsWithDrive h
  have hplain : isSlash letter = false := by
    rw [Bool.eq_false_iff, Ne, isSlash_iff]
    rintro (rfl | rfl)
    · cases hletter
    · cases hletter
  have hdrive : ∀ c ∈ [letter, ':'], isSlash c = false := by
    rw [List.forall_mem_cons, List.forall_mem_singleton]
    exact ⟨hplain, rfl⟩
  exact ⟨letter, rest.splitOnP isSlash, hletter,
    List.splitOnP_append_cons_of_forall_mem hdrive slash hslash rest⟩

/-- The first segment of a path from a drive is the drive. -/
theorem segments_of_drive {cs : List Char} (h : startsWithDrive cs = true) :
    ∃ letter segs, letter.isAlpha = true ∧ segments cs = lowerEach [letter, ':'] :: segs := by
  obtain ⟨letter, pieces, hletter, hsplit⟩ := splitOnP_of_drive h
  refine ⟨letter, segmentsOf pieces, hletter, ?_⟩
  rw [segments, hsplit]
  rfl

/-- The normal form of a path from a drive: its segments, with single slashes between them. -/
theorem normalizePath_of_drive {path : String}
    (h : startsWithDrive (Text.trimChars path.toList) = true) :
    segments (Text.trimChars path.toList) ≠ [] ∧
      normalizePath path = joined (segments (Text.trimChars path.toList)) := by
  rw [normalizePath, dropScheme_of_drive h]
  generalize Text.trimChars path.toList = cs at h
  obtain ⟨letter, pieces, -, hsplit⟩ := splitOnP_of_drive h
  have hsegments : segments cs = lowerEach [letter, ':'] :: segmentsOf pieces := by
    rw [segments, hsplit]
    rfl
  have hfirst : lowerEach [letter, ':'] ∈ segments cs := by
    rw [hsegments]
    exact List.mem_cons_self ..
  have hform : dropEnd (lowerEach (singleSlashes false cs)) = joined (segments cs) := by
    rw [(dropEnd_singleSlashes hsplit).2, hsegments, joined_cons]
  refine ⟨by rw [hsegments]; exact List.cons_ne_nil _ _, ?_⟩
  rw [← lowerEach, dropEndSlashes_of_ne_nil, hform]
  rw [hform, hsegments, joined_cons]
  simp [(isSegment_of_mem hfirst).ne_nil]

theorem splitOn_joined {segs : List (List Char)} (hne : segs ≠ [])
    (h : ∀ s ∈ segs, IsSegment s) : (joined segs).splitOn '/' = segs :=
  List.splitOn_intercalate '/' (fun s hs => (h s hs).no_slash) hne

/-- Segments put together are known apart again: one path is another or goes on behind it just
when its segments start with the other's. -/
theorem joined_under_iff {path root : List (List Char)} (hpath : ∀ s ∈ path, IsSegment s)
    (hroot : ∀ s ∈ root, IsSegment s) (hne : root ≠ []) :
    joined path = joined root ∨ joined root ++ ['/'] <+: joined path ↔ root <+: path := by
  constructor
  · intro h
    have hstart : joined root <+: joined path := by
      rcases h with h | h
      · exact h ▸ List.prefix_rfl
      · exact (List.prefix_append _ _).trans h
    have hnonempty : path ≠ [] := by
      rintro rfl
      exact joined_ne_nil hne hroot (List.prefix_nil.1 hstart)
    have hsplit := splitOn_joined hnonempty hpath
    rcases h with h | ⟨more, h⟩
    · rw [h, splitOn_joined hne hroot] at hsplit
      exact hsplit ▸ List.prefix_rfl
    · rw [← h, List.append_assoc, List.singleton_append, List.splitOn_append_cons_self,
        splitOn_joined hne hroot] at hsplit
      exact hsplit ▸ List.prefix_append _ _
  · rintro ⟨more, rfl⟩
    obtain ⟨r, rs, rfl⟩ := List.exists_cons_of_ne_nil hne
    rw [List.cons_append, joined_cons, joined_cons, List.flatMap_append, ← List.append_assoc]
    cases more with
    | nil => exact Or.inl (List.append_nil _)
    | cons s more =>
        refine Or.inr ⟨s ++ more.flatMap ('/' :: ·), ?_⟩
        rw [List.flatMap_cons, List.append_assoc _ ['/']]
        rfl

theorem isUnder_iff {path root : List Char} (h : root ≠ ['/']) :
    isUnder path root = true ↔ path = root ∨ root ++ ['/'] <+: path := by
  rw [isUnder, if_neg h, Bool.or_eq_true, beq_iff_eq, List.isPrefixOf_iff_prefix]

/-- A path lies under a root of its kind just when its segments start with the root's. -/
theorem isUnder_normalizePath_iff {path root : String}
    (h : SameKind (Text.trimChars path.toList) (Text.trimChars root.toList)) :
    isUnder (normalizePath path) (normalizePath root) = true ↔
      segments (Text.trimChars root.toList) <+: segments (Text.trimChars path.toList) := by
  have hroot : ∀ s ∈ segments (Text.trimChars root.toList), IsSegment s :=
    fun s hs => isSegment_of_mem hs
  rcases h with ⟨hpath, hslash⟩ | ⟨hpath, hdrive⟩
  · rw [normalizePath_of_slash hpath, normalizePath_of_slash hslash]
    by_cases hnil : segments (Text.trimChars root.toList) = []
    · rw [hnil]
      exact iff_of_true rfl List.nil_prefix
    · rw [← joined_under_iff (fun s hs => isSegment_of_mem hs) hroot hnil, isUnder_iff,
        List.cons_append, List.cons_prefix_cons, List.cons.injEq, and_iff_right rfl,
        and_iff_right rfl]
      exact fun h => joined_ne_nil hnil hroot (List.cons.inj h).2
  · obtain ⟨hne, hform⟩ := normalizePath_of_drive hdrive
    rw [(normalizePath_of_drive hpath).2, hform,
      ← joined_under_iff (fun s hs => isSegment_of_mem hs) hroot hne, isUnder_iff]
    exact joined_ne_slash hne hroot

/-! ## Blocked roots -/

theorem readsAsPath_of_sameKind {path root : List Char} (h : SameKind path root) :
    readsAsPath path = true := by
  rcases h with ⟨hslash, -⟩ | ⟨hdrive, -⟩
  · have hstart : pathStarts.any (·.toList.isPrefixOf path) = true := by
      cases path with
      | nil => cases hslash
      | cons c cs =>
          rcases isSlash_iff.1 hslash with rfl | rfl
          · rfl
          · rfl
    rw [readsAsPath, hstart, Bool.or_true, Bool.true_or]
  · rw [readsAsPath, hdrive, Bool.true_or, Bool.true_or]

theorem mem_blockedRoots {p : Policy} {root : String} (h : root ∈ p.blockedPaths) :
    (root, normalizePath root) ∈ (Rules.ofPolicy p).blockedRoots :=
  List.mem_map.2 ⟨root, h, rfl⟩

/-- A text that is a path under a blocked root spoils the source, whatever slashes, capitals and
blanks it is written with. -/
theorem checkSource_of_under {source : String} {p : Policy} {items : List (Placed Item)}
    {value root : String} {loc : Location} (hrestrict : p.restrictApis = true)
    (hscan : scan source = .ok items) (hitem : ⟨.text value, loc⟩ ∈ items)
    (hroot : root ∈ p.blockedPaths)
    (hkind : SameKind (Text.trimChars value.toList) (Text.trimChars root.toList))
    (hunder : segments (Text.trimChars root.toList) <+: segments (Text.trimChars value.toList)) :
    ∃ violation, checkSource source p = .error violation := by
  apply checkSource_of_item hrestrict hscan hitem
  intro hok
  have hpath : pathOfText? value = some (normalizePath value) :=
    if_pos (readsAsPath_of_sameKind hkind)
  have hpass := (Rules.checkText_eq_ok_iff.1 hok).2 _ hpath
  obtain ⟨-, -, hblocked, -⟩ := Rules.checkPath_eq_ok_iff.1 hpass
  have hclear := hblocked _ (mem_blockedRoots hroot)
  dsimp only at hclear
  rw [(isUnder_normalizePath_iff hkind).2 hunder] at hclear
  cases hclear

/-- Mixed and repeated slashes, capitals and blanks. -/
theorem checkSource_of_under_windows :
    ∃ violation, checkSource "f(\" c:/\\\\WINDOWS//system32/ \")" Policy.production =
      .error violation := by
  have hscan : scan "f(\" c:/\\\\WINDOWS//system32/ \")" =
      .ok [⟨.name ["f"], ⟨1, 1⟩⟩, ⟨.text " c:/\\WINDOWS//system32/ ", ⟨1, 3⟩⟩] := by
    decide +kernel
  have hroot : "C:\\Windows" ∈ Policy.production.blockedPaths.names := by decide +kernel
  refine checkSource_of_under rfl hscan (List.mem_cons_of_mem _ (List.mem_cons_self ..)) hroot
    (Or.inr ?_) ?_
  · decide +kernel
  · decide +kernel

/-- The segments that lead anywhere: a dot stays where it is. -/
def plainSegments (path : List Char) : List (List Char) := (segments path).filter (· ≠ ['.'])

/-- With the dots left out it would not hold: one in front of the root hides it. -/
theorem not_checkSource_of_plainSegments :
    ¬ ∀ (source : String) (p : Policy) (items : List (Placed Item)) (value root : String)
        (loc : Location), p.restrictApis = true → scan source = .ok items →
          ⟨.text value, loc⟩ ∈ items → root ∈ p.blockedPaths → Text.trim root = root →
          SameKind (Text.trimChars value.toList) root.toList →
          plainSegments root.toList <+: plainSegments (Text.trimChars value.toList) →
          ∃ violation, checkSource source p = .error violation := by
  intro h
  have hscan : scan "\"/./etc/passwd\"" = .ok [⟨.text "/./etc/passwd", ⟨1, 1⟩⟩] := by
    decide +kernel
  have hroot : "/etc" ∈ Policy.production.blockedPaths.names := by decide +kernel
  have haccepted : checkSource "\"/./etc/passwd\"" Policy.production = .ok () := by decide +kernel
  obtain ⟨violation, hviolation⟩ := h _ _ _ _ _ _ rfl hscan (List.mem_cons_self ..) hroot
    (by decide +kernel) (Or.inl (by decide +kernel)) (by decide +kernel)
  rw [haccepted] at hviolation
  cases hviolation

end ScriptHost.Guard
