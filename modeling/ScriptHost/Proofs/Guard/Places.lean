import ScriptHost.Proofs.Guard.Roots
import ScriptHost.Proofs.Text.Trimming

/-!
# The verdict on a place

An absolute path that never goes up is judged by its segments alone: by the blocked roots of its
kind that they start with, and where there is none by the allowed ones. Such a text is never taken
for a name, and the signs for home and for the way up never come in.
-/

namespace ScriptHost.Guard

/-! ## Signs that no word holds -/

/-- A sign in front of the first comma that no word holds. -/
theorem Rules.not_readsAsName {value : String} {front back : List Char} {c : Char}
    (hfront : ',' ∉ front) (hc : c = ':' ∨ isSlash c = true)
    (h : Text.trimChars value.toList = front ++ c :: back) :
    readsAsName (nameCandidate value) = false := by
  have hsign : Text.isBlank c = false ∧ (Text.isWordPart c || c == '.') = false ∧ c ≠ ',' := by
    rcases hc with rfl | hc
    · decide
    · rcases isSlash_iff.1 hc with rfl | rfl
      · decide
      · decide
  obtain ⟨hblank, hword, hcomma⟩ := hsign
  have hmem : c ∈ nameCandidate value := by
    obtain ⟨blanks, rest, hblanks, -, hvalue⟩ := Text.pads_trimChars value.toList
    have hplain : ∀ d ∈ blanks ++ front ++ [c], (d != ',') = true := by
      intro d hd
      rw [bne_iff_ne]
      rintro rfl
      simp only [List.mem_append, List.mem_singleton] at hd
      rcases hd with (hd | hd) | hd
      · exact absurd (hblanks _ hd) (by decide)
      · exact hfront hd
      · exact hcomma hd.symm
    have hsplit : value.toList = (blanks ++ front ++ [c]) ++ (back ++ rest) := by
      rw [hvalue, h]
      simp
    rw [nameCandidate, (Text.pads_trimChars _).mem_iff hblank, hsplit,
      List.takeWhile_append_of_pos hplain]
    simp
  rw [readsAsName, Bool.and_eq_false_iff]
  right
  rw [List.all_eq_false]
  exact ⟨c, hmem, Bool.eq_false_iff.1 hword⟩

/-! ## Absolute paths -/

/-- The path starts from the root or from a drive. -/
def IsAbsolute (path : List Char) : Prop :=
  startsWithSlash path = true ∨ startsWithDrive path = true

instance (path : List Char) : Decidable (IsAbsolute path) :=
  inferInstanceAs (Decidable (_ ∨ _))

theorem readsAsPath_of_isAbsolute {path : List Char} (h : IsAbsolute path) :
    readsAsPath path = true := by
  rcases h with hslash | hdrive
  · exact readsAsPath_of_sameKind (Or.inl ⟨hslash, hslash⟩)
  · exact readsAsPath_of_sameKind (Or.inr ⟨hdrive, hdrive⟩)

/-- An absolute path is not taken for a name: its first slash, or the colon behind its drive, is
in the part where the name would stand. -/
theorem Rules.not_readsAsName_of_isAbsolute {value : String}
    (h : IsAbsolute (Text.trimChars value.toList)) :
    Rules.readsAsName (Rules.nameCandidate value) = false := by
  rcases h with hslash | hdrive
  · cases hpath : Text.trimChars value.toList with
    | nil =>
        rw [hpath] at hslash
        cases hslash
    | cons c cs =>
        rw [hpath] at hslash
        rw [← List.nil_append (c :: cs)] at hpath
        exact not_readsAsName List.not_mem_nil (Or.inr hslash) hpath
  · obtain ⟨letter, slash, rest, hletter, -, hpath⟩ := exists_of_startsWithDrive hdrive
    have hfront : ',' ∉ [letter] := by
      rw [List.mem_singleton]
      rintro rfl
      cases hletter
    rw [← List.singleton_append] at hpath
    exact not_readsAsName hfront (Or.inl rfl) hpath

/-- The check of an absolute path is the check of its normal form. -/
theorem Rules.checkText_of_isAbsolute {r : Rules} {value : String} {loc : Location}
    (h : IsAbsolute (Text.trimChars value.toList)) :
    r.checkText value loc = r.checkPath value (normalizePath value) loc := by
  have hpath : pathOfText? value = some (normalizePath value) :=
    if_pos (readsAsPath_of_isAbsolute h)
  unfold Rules.checkText
  dsimp only
  rw [not_readsAsName_of_isAbsolute h, hpath, if_neg Bool.false_ne_true]

/-! ## Roots of the other kind -/

/-- The normal form of a path from a drive starts with the drive. -/
theorem not_slash_isPrefix_joined {segs : List (List Char)} (hne : segs ≠ [])
    (h : ∀ s ∈ segs, IsSegment s) : ¬ ['/'] <+: joined segs := by
  obtain ⟨s, others, rfl⟩ := List.exists_cons_of_ne_nil hne
  have hs := h s (List.mem_cons_self ..)
  obtain ⟨c, cs, rfl⟩ := List.exists_cons_of_ne_nil hs.ne_nil
  rw [joined_cons, List.cons_append, List.cons_prefix_cons]
  rintro ⟨rfl, -⟩
  exact hs.no_slash (List.mem_cons_self ..)

theorem isPrefix_of_isUnder {path root : List Char} (h : isUnder path root = true) :
    root <+: path := by
  unfold isUnder at h
  split at h
  · rename_i hroot
    rw [hroot]
    exact List.isPrefixOf_iff_prefix.1 h
  · rw [Bool.or_eq_true, beq_iff_eq, List.isPrefixOf_iff_prefix] at h
    rcases h with rfl | h
    · exact List.prefix_rfl
    · exact (List.prefix_append _ _).trans h

/-- The root is of the path's kind, and its segments are the first ones of the path. -/
def Encloses (root path : String) : Prop :=
  SameKind (Text.trimChars path.toList) (Text.trimChars root.toList) ∧
    segments (Text.trimChars root.toList) <+: segments (Text.trimChars path.toList)

instance (root path : String) : Decidable (Encloses root path) :=
  inferInstanceAs (Decidable (((_ ∧ _) ∨ (_ ∧ _)) ∧ _))

/-- An absolute path lies under an absolute root just when the root encloses it: a path from a drive
is under no root that starts with a slash, nor the other way around. -/
theorem isUnder_normalizePath_iff_encloses {path root : String}
    (hpath : IsAbsolute (Text.trimChars path.toList))
    (hroot : IsAbsolute (Text.trimChars root.toList)) :
    isUnder (normalizePath path) (normalizePath root) = true ↔ Encloses root path := by
  by_cases hkind : SameKind (Text.trimChars path.toList) (Text.trimChars root.toList)
  · rw [Encloses, and_iff_right hkind, isUnder_normalizePath_iff hkind]
  · refine iff_of_false ?_ fun h => hkind h.1
    intro hunder
    have hstart := isPrefix_of_isUnder hunder
    rcases hpath with hslash | hdrive
    · rcases hroot with hslash' | hdrive'
      · exact hkind (Or.inl ⟨hslash, hslash'⟩)
      · obtain ⟨hne, hform⟩ := normalizePath_of_drive hdrive'
        rw [normalizePath_of_slash hslash, hform] at hstart
        have hsegments : ∀ s ∈ segments (Text.trimChars root.toList), IsSegment s :=
          fun s hs => isSegment_of_mem hs
        refine not_slash_isPrefix_joined hne hsegments ?_
        obtain ⟨c, cs, hcons⟩ := List.exists_cons_of_ne_nil (joined_ne_nil hne hsegments)
        rw [hcons, List.cons_prefix_cons] at hstart
        rw [hcons, hstart.1]
        exact List.cons_prefix_cons.2 ⟨rfl, List.nil_prefix⟩
    · rcases hroot with hslash' | hdrive'
      · obtain ⟨hne, hform⟩ := normalizePath_of_drive hdrive
        rw [normalizePath_of_slash hslash', hform] at hstart
        refine not_slash_isPrefix_joined hne (fun s hs => isSegment_of_mem hs) ?_
        exact (List.cons_prefix_cons.2 ⟨rfl, List.nil_prefix⟩).trans hstart
      · exact hkind (Or.inr ⟨hdrive, hdrive'⟩)

/-! ## The way home and the way up -/

/-- The path has no segment that goes up. -/
def StaysDown (path : List Char) : Prop := ['.', '.'] ∉ path.splitOnP isSlash

instance (path : List Char) : Decidable (StaysDown path) :=
  inferInstanceAs (Decidable (_ ∉ _))

theorem eq_of_lowerEach_dots {cs : List Char} (h : ∀ d ∈ lowerEach cs, d = '.') :
    lowerEach cs = cs := by
  induction cs with
  | nil => rfl
  | cons c cs ih =>
      rw [lowerEach, List.flatMap_cons, ← lowerEach] at h ⊢
      rw [List.forall_mem_append] at h
      obtain ⟨d, ds, hform⟩ := List.exists_cons_of_ne_nil (lowerChar_ne_nil c)
      have hd : d ∈ Text.lowerChar c := by
        rw [hform]
        exact List.mem_cons_self ..
      have hdot : c = '.' := by
        apply eq_of_mem_lowerChar (by decide) (by decide)
        rw [← h.1 d hd]
        exact hd
      have hform : Text.lowerChar '.' = ['.'] := by decide
      rw [ih h.2, hdot, hform, List.singleton_append]

/-- Small letters make no segment go up that did not before. -/
theorem StaysDown.not_mem_segments {path : List Char} (h : StaysDown path) :
    ['.', '.'] ∉ segments path := by
  intro hup
  obtain ⟨piece, hpiece, hdots⟩ := List.mem_map.1 hup
  have hsame : lowerEach piece = piece := by
    apply eq_of_lowerEach_dots
    rw [hdots]
    exact fun d hd => (List.mem_pair.1 hd).elim id id
  rw [hsame] at hdots
  exact h (hdots ▸ (List.mem_filter.1 hpiece).1)

theorem splitOn_slash_cons (cs : List Char) : ('/' :: cs).splitOn '/' = [] :: cs.splitOn '/' :=
  List.splitOn_append_cons_self [] cs

theorem goesUp_of_staysDown {path : String} (hpath : IsAbsolute (Text.trimChars path.toList))
    (hstays : StaysDown (Text.trimChars path.toList)) : goesUp (normalizePath path) = false := by
  have hdown := hstays.not_mem_segments
  have hsegments : ∀ s ∈ segments (Text.trimChars path.toList), IsSegment s :=
    fun s hs => isSegment_of_mem hs
  rw [goesUp, List.contains_eq_mem, decide_eq_false_iff_not]
  rcases hpath with hslash | hdrive
  · rw [normalizePath_of_slash hslash]
    by_cases hnil : segments (Text.trimChars path.toList) = []
    · rw [hnil, splitOn_slash_cons]
      exact fun h => by simp [joined] at h
    · rw [splitOn_slash_cons, splitOn_joined hnil hsegments, List.mem_cons]
      rintro (h | h)
      · cases h
      · exact hdown h
  · obtain ⟨hne, hform⟩ := normalizePath_of_drive hdrive
    rw [hform, splitOn_joined hne hsegments]
    exact hdown

/-! ## The verdict -/

/-- The first root of the set, in its order, that encloses the path. -/
def Foremost (roots : NameSet) (path root : String) : Prop :=
  root ∈ roots ∧ Encloses root path ∧ ∀ other ∈ roots, Encloses other path → root ≤ other

instance (roots : NameSet) (path root : String) : Decidable (Foremost roots path root) :=
  inferInstanceAs (Decidable (root ∈ roots.names ∧ _ ∧ ∀ other ∈ roots.names, _))

/-- No root of the set encloses the path. -/
def LiesOutside (roots : NameSet) (path : String) : Prop :=
  ∀ root ∈ roots, ¬ Encloses root path

instance (roots : NameSet) (path : String) : Decidable (LiesOutside roots path) :=
  inferInstanceAs (Decidable (∀ root ∈ roots.names, _))

/-- A search through an ascending list finds the least name that passes the test. -/
theorem find?_eq_some_iff_least {names : List String} (hascending : names.Pairwise (· < ·))
    {test : String → Bool} {name : String} :
    names.find? test = some name ↔
      name ∈ names ∧ test name = true ∧ ∀ other ∈ names, test other = true → name ≤ other := by
  induction names with
  | nil => simp
  | cons first names ih =>
      rw [List.pairwise_cons] at hascending
      by_cases htest : test first = true
      · rw [List.find?_cons_of_pos htest, Option.some.injEq]
        constructor
        · rintro rfl
          refine ⟨List.mem_cons_self, htest, ?_⟩
          intro other hother _
          rcases List.mem_cons.1 hother with rfl | hother
          · exact Std.le_refl _
          · exact Std.le_of_lt (hascending.1 other hother)
        · rintro ⟨hmem, -, hleast⟩
          rcases List.mem_cons.1 hmem with rfl | hmem
          · rfl
          · exact absurd (hascending.1 name hmem)
              (Std.not_lt.2 (hleast first List.mem_cons_self htest))
      · rw [List.find?_cons_of_neg htest, ih hascending.2]
        constructor
        · rintro ⟨hmem, hname, hleast⟩
          refine ⟨List.mem_cons_of_mem _ hmem, hname, ?_⟩
          intro other hother hpasses
          rcases List.mem_cons.1 hother with rfl | hother
          · exact absurd hpasses htest
          · exact hleast other hother hpasses
        · rintro ⟨hmem, hname, hleast⟩
          rcases List.mem_cons.1 hmem with rfl | hmem
          · exact absurd hname htest
          · exact ⟨hmem, hname, fun other hother => hleast other (List.mem_cons_of_mem _ hother)⟩

section

variable {value : String} {roots : NameSet}
  (hvalue : IsAbsolute (Text.trimChars value.toList))
  (hroots : ∀ root ∈ roots, IsAbsolute (Text.trimChars root.toList))

include hvalue hroots

theorem find?_eq_some_iff_foremost (root : String) :
    roots.names.find? (fun root => isUnder (normalizePath value) (normalizePath root)) = some root ↔
      Foremost roots value root := by
  have hencloses : ∀ other ∈ roots.names,
      (isUnder (normalizePath value) (normalizePath other) = true ↔ Encloses other value) :=
    fun other hother => isUnder_normalizePath_iff_encloses hvalue (hroots other hother)
  rw [find?_eq_some_iff_least roots.ascending]
  constructor
  · rintro ⟨hmem, hunder, hleast⟩
    exact ⟨hmem, (hencloses root hmem).1 hunder,
      fun other hother h => hleast other hother ((hencloses other hother).2 h)⟩
  · rintro ⟨hmem, hinside, hleast⟩
    exact ⟨hmem, (hencloses root hmem).2 hinside,
      fun other hother h => hleast other hother ((hencloses other hother).1 h)⟩

theorem find?_eq_none_iff_liesOutside :
    roots.names.find? (fun root => isUnder (normalizePath value) (normalizePath root)) = none ↔
      LiesOutside roots value := by
  rw [List.find?_eq_none]
  exact forall₂_congr fun root hroot =>
    not_congr (isUnder_normalizePath_iff_encloses hvalue (hroots root hroot))

theorem any_isUnder_iff_encloses :
    (roots.names.map normalizePath).any (isUnder (normalizePath value)) = true ↔
      ∃ root ∈ roots, Encloses root value := by
  rw [List.any_eq_true]
  constructor
  · rintro ⟨form, hform, hunder⟩
    obtain ⟨root, hroot, rfl⟩ := List.mem_map.1 hform
    exact ⟨root, hroot, (isUnder_normalizePath_iff_encloses hvalue (hroots root hroot)).1 hunder⟩
  · rintro ⟨root, hroot, hinside⟩
    exact ⟨normalizePath root, List.mem_map_of_mem hroot,
      (isUnder_normalizePath_iff_encloses hvalue (hroots root hroot)).2 hinside⟩

end

theorem lowerChar_of_isAlpha {c : Char} (h : c.isAlpha = true) :
    Text.lowerChar c = [c.toLower] := by
  have hrange := Text.isAlpha_iff.1 h
  exact if_pos (UInt32.lt_iff_toNat_lt.2 (show c.val.toNat < 128 by omega))

theorem not_home_of_isAbsolute {path : String} (h : IsAbsolute (Text.trimChars path.toList)) :
    ['~'].isPrefixOf (normalizePath path) = false := by
  rw [Bool.eq_false_iff, Ne, List.isPrefixOf_iff_prefix]
  rcases h with hslash | hdrive
  · rw [normalizePath_of_slash hslash, List.cons_prefix_cons]
    rintro ⟨h, -⟩
    exact absurd h (by decide)
  · obtain ⟨letter, segs, hletter, hsegments⟩ := segments_of_drive hdrive
    rw [(normalizePath_of_drive hdrive).2, hsegments, joined_cons, lowerEach, List.flatMap_cons,
      lowerChar_of_isAlpha hletter, List.append_assoc, List.singleton_append,
      List.cons_prefix_cons]
    rintro ⟨h, -⟩
    rw [eq_comm, Text.toLower_eq_iff (by decide)] at h
    rw [h] at hletter
    cases hletter

/-- A path that goes neither home nor up is checked against the roots alone. -/
theorem Rules.checkPath_of_down {r : Rules} {value : String} {path : List Char} {loc : Location}
    (hhome : ['~'].isPrefixOf path = false) (hup : goesUp path = false) :
    r.checkPath value path loc =
      match r.blockedRoots.find? (fun root => isUnder path root.2) with
      | some (rule, _) => .error (.blockedPath value rule loc)
      | none =>
        if r.allowedRoots.isEmpty || r.allowedRoots.any (isUnder path) then .ok ()
        else .error (.pathNotAllowed value loc) := by
  have hstays : ¬ ['~'].isPrefixOf path = true := Bool.eq_false_iff.1 hhome
  have hdown : ¬ goesUp path = true := Bool.eq_false_iff.1 hup
  rw [checkPath]
  exact (if_neg hstays).trans (if_neg hdown)

theorem find?_blockedRoots (p : Policy) (path : List Char) :
    (Rules.ofPolicy p).blockedRoots.find? (fun root => isUnder path root.2) =
      (p.blockedPaths.names.find? fun root => isUnder path (normalizePath root)).map
        fun root => (root, normalizePath root) := by
  rw [Rules.ofPolicy, List.find?_map, Function.comp_def]

/-- A path that is absolute and never goes up is refused for the foremost blocked root that encloses
it; else for lying outside the allowed ones, if there are any; else it passes. -/
theorem checkText_of_absolute {p : Policy} {value : String} {loc : Location}
    (hvalue : IsAbsolute (Text.trimChars value.toList))
    (hstays : StaysDown (Text.trimChars value.toList))
    (hblocked : ∀ root ∈ p.blockedPaths, IsAbsolute (Text.trimChars root.toList))
    (hallowed : ∀ root ∈ p.allowedPaths, IsAbsolute (Text.trimChars root.toList)) :
    (∀ root, (Rules.ofPolicy p).checkText value loc = .error (.blockedPath value root loc) ↔
        Foremost p.blockedPaths value root) ∧
      ((Rules.ofPolicy p).checkText value loc = .error (.pathNotAllowed value loc) ↔
        LiesOutside p.blockedPaths value ∧ p.allowedPaths.names ≠ [] ∧
          LiesOutside p.allowedPaths value) ∧
      ((Rules.ofPolicy p).checkText value loc = .ok () ↔
        LiesOutside p.blockedPaths value ∧
          (p.allowedPaths.names = [] ∨ ∃ root ∈ p.allowedPaths, Encloses root value)) := by
  have hforemost := find?_eq_some_iff_foremost hvalue hblocked
  have hclear := find?_eq_none_iff_liesOutside hvalue hblocked
  rw [Rules.checkText_of_isAbsolute hvalue,
    Rules.checkPath_of_down (not_home_of_isAbsolute hvalue) (goesUp_of_staysDown hvalue hstays),
    find?_blockedRoots]
  cases hfound : p.blockedPaths.names.find?
      (fun root => isUnder (normalizePath value) (normalizePath root)) with
  | some rule =>
      rw [hfound] at hforemost hclear
      have hinside : ¬ LiesOutside p.blockedPaths value := fun h => nomatch hclear.2 h
      refine ⟨fun root => ?_, ?_, ?_⟩
      · rw [← hforemost root, Option.map_some]
        simp
      · exact iff_of_false nofun fun h => hinside h.1
      · exact iff_of_false nofun fun h => hinside h.1
  | none =>
      rw [hfound] at hforemost hclear
      have hnone : ∀ root, ¬ Foremost p.blockedPaths value root :=
        fun root h => nomatch (hforemost root).2 h
      have hfree : ((Rules.ofPolicy p).allowedRoots.isEmpty ||
          (Rules.ofPolicy p).allowedRoots.any (isUnder (normalizePath value))) = true ↔
            p.allowedPaths.names = [] ∨ ∃ root ∈ p.allowedPaths, Encloses root value := by
        rw [Bool.or_eq_true, List.isEmpty_iff, Rules.ofPolicy, List.map_eq_nil_iff,
          any_isUnder_iff_encloses hvalue hallowed]
      rw [and_iff_right (hclear.1 rfl), and_iff_right (hclear.1 rfl), Option.map_none, ← hfree]
      dsimp only
      have hoff : p.allowedPaths.names ≠ [] ∧ LiesOutside p.allowedPaths value ↔
          ¬ (p.allowedPaths.names = [] ∨ ∃ root ∈ p.allowedPaths, Encloses root value) := by
        rw [not_or, LiesOutside]
        simp only [not_exists, not_and]
      rw [hoff, ← hfree]
      split
      · rename_i hpass
        exact ⟨fun root => iff_of_false nofun (hnone root), iff_of_false nofun (not_not_intro hpass),
          iff_of_true rfl hpass⟩
      · rename_i hpass
        exact ⟨fun root => iff_of_false nofun (hnone root), iff_of_true rfl hpass,
          iff_of_false nofun hpass⟩

/-- Under a root however it is written, and beside one that only looks alike. -/
theorem checkText_of_absolute_lookalike :
    (Rules.ofPolicy Policy.production).checkText " c:/WINDOWS\\\\Temp/ " ⟨1, 1⟩ =
        .error (.blockedPath " c:/WINDOWS\\\\Temp/ " "C:\\Windows" ⟨1, 1⟩) ∧
      (Rules.ofPolicy Policy.production).checkText "/etcetera/hosts" ⟨1, 1⟩ = .ok () := by
  have hblocked : ∀ root ∈ Policy.production.blockedPaths.names,
      IsAbsolute (Text.trimChars root.toList) := by decide +kernel
  have hallowed : ∀ root ∈ Policy.production.allowedPaths.names,
      IsAbsolute (Text.trimChars root.toList) := by decide +kernel
  constructor
  · exact ((checkText_of_absolute (by decide +kernel) (by decide +kernel) hblocked hallowed).1
      "C:\\Windows").2 (by decide +kernel)
  · exact (checkText_of_absolute (by decide +kernel) (by decide +kernel) hblocked hallowed).2.2.2
      ⟨by decide +kernel, Or.inl rfl⟩

end ScriptHost.Guard
