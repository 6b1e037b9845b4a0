import ScriptHost.Package.Reference
import ScriptHost.Proofs.Text.Capitals
import ScriptHost.Proofs.Text.Trimming

/-!
# Specs of packages

A spec is a name, or a name and a version with an `@` between them, and blanks around either. It is
read as exactly the reference that it spells. So only a spec with a blank name is refused, the
written form of what was read is read as the same again, and what can be read are the references
that are proper: a version may hold a further `@` and the name may not.
-/

namespace ScriptHost

namespace Reference

variable {spec : String} {r : Reference} {name core cs : List Char} {version : Option (List Char)}

/-! ## References and their spellings -/

/-- A version that can be asked for. -/
structure IsVersion (version : String) : Prop where
  ne_empty : version ≠ ""
  isTrimmed : Text.IsTrimmed version.toList
  not_latest : ¬ Text.IsCaseOf "latest" version

/-- A reference that a spec can ask for. -/
structure IsProper (r : Reference) : Prop where
  name_ne_empty : r.name ≠ ""
  isTrimmed : Text.IsTrimmed r.name.toList
  at_notMem : '@' ∉ r.name.toList
  isVersion : ∀ version ∈ r.version, IsVersion version

/-- What a spec says of the version: nothing, blanks or the word for the latest mean the latest, and
anything else means itself. -/
inductive SpellsVersion : Option String → Option (List Char) → Prop
  | unsaid : SpellsVersion none none
  | blank {cs : List Char} (hblank : ∀ c ∈ cs, Text.isBlank c = true) : SpellsVersion none (some cs)
  | latest {word : String} {cs : List Char} (hword : Text.IsCaseOf "latest" word)
      (hpads : Text.Pads word.toList cs) : SpellsVersion none (some cs)
  | pinned {version : String} {cs : List Char} (hpads : Text.Pads version.toList cs) :
      SpellsVersion (some version) (some cs)

/-- The specs of a reference. -/
inductive Spells (r : Reference) : List Char → Prop
  | alone {name : List Char} (hname : Text.Pads r.name.toList name)
      (hversion : SpellsVersion r.version none) : Spells r name
  | versioned {name version : List Char} (hname : Text.Pads r.name.toList name)
      (hversion : SpellsVersion r.version (some version)) : Spells r (name ++ '@' :: version)

/-! ## Reading -/

theorem isCaseOf_latest_iff {text : String} :
    Text.IsCaseOf "latest" text ↔ Text.sameAsciiFold text "latest" = true :=
  (Text.sameAsciiFold_iff_isCaseOf (by simp)).symm

theorem isPinning_iff (version : String) :
    isPinning version.toList = true ↔ version ≠ "" ∧ ¬ Text.IsCaseOf "latest" version := by
  rw [isPinning, String.ofList_toList, Bool.and_eq_true, Bool.not_eq_true', Bool.not_eq_true',
    List.isEmpty_eq_false_iff, isCaseOf_latest_iff, Bool.not_eq_true, Ne, String.toList_eq_nil_iff]

/-- The reference with a name and a version, both with blanks around them. -/
def ofParts? (name : List Char) (version : Option (List Char)) : Option Reference :=
  if Text.trimChars name = [] then none
  else
    some ⟨String.ofList (Text.trimChars name),
      ((version.map Text.trimChars).filter isPinning).map String.ofList⟩

theorem at_notMem_iff (h : Text.Pads core cs) : '@' ∉ core ↔ '@' ∉ cs :=
  not_congr (h.mem_iff (by decide))

theorem parse?_of_notMem (h : '@' ∉ spec.toList) : parse? spec = ofParts? spec.toList none := by
  have hat := (at_notMem_iff (Text.pads_trimChars spec.toList)).2 h
  rw [parse?, Text.splitOnce_eq_none_iff.2 hat, ofParts?]
  simp only [List.isEmpty_iff, Option.map_none]

theorem parse?_of_at {version : List Char} (h : spec.toList = name ++ '@' :: version)
    (hname : '@' ∉ name) : parse? spec = ofParts? name (some version) := by
  have hsplit : Text.splitOnce '@' (Text.trimChars spec.toList) =
      some (name.dropWhile Text.isBlank, Text.trimRight version) := by
    rw [Text.splitOnce_eq_some_iff, h]
    exact ⟨Text.trimChars_append_cons (by decide) name version,
      (at_notMem_iff (Text.pads_dropWhile name)).2 hname⟩
  rw [parse?, hsplit, ofParts?]
  simp only [List.isEmpty_iff, Option.map_some, ← (Text.pads_dropWhile name).trimChars_eq,
    ← (Text.pads_trimRight version).trimChars_eq]

/-- The word for the latest has no blanks, in whatever case. -/
theorem isTrimmed_of_isCaseOf {word : String} (h : Text.IsCaseOf "latest" word) :
    Text.IsTrimmed word.toList := by
  rw [isCaseOf_latest_iff, Text.sameAsciiFold, beq_iff_eq, Text.foldAscii] at h
  have hsmall : ∀ letter ∈ Text.foldAscii "latest", Text.isBlank letter = false := by
    simp [Text.foldAscii, Text.isBlank]
  refine Text.isTrimmed_of_forall fun c hc => ?_
  rw [← Text.isBlank_toLower]
  exact hsmall _ (h ▸ List.mem_map_of_mem hc)

theorem isVersion_trimChars (h : isPinning (Text.trimChars cs) = true) :
    IsVersion (String.ofList (Text.trimChars cs)) := by
  rw [← String.toList_ofList (l := Text.trimChars cs), isPinning_iff] at h
  refine ⟨h.1, ?_, h.2⟩
  rw [String.toList_ofList]
  exact Text.isTrimmed_trimChars cs

theorem spellsVersion_none (h : ¬ isPinning (Text.trimChars cs) = true) :
    SpellsVersion none (some cs) := by
  rw [← String.toList_ofList (l := Text.trimChars cs), isPinning_iff, not_and_not_right] at h
  by_cases hblank : String.ofList (Text.trimChars cs) = ""
  · rw [← String.toList_eq_nil_iff, String.toList_ofList, Text.trimChars_eq_nil_iff] at hblank
    exact .blank hblank
  · refine .latest (h hblank) ?_
    rw [String.toList_ofList]
    exact Text.pads_trimChars cs

/-- The version that is read is one that can be asked for and that the text spells. -/
theorem spellsVersion_iff {v : Option String} :
    ((version.map Text.trimChars).filter isPinning).map String.ofList = v ↔
      (∀ version ∈ v, IsVersion version) ∧ SpellsVersion v version := by
  constructor
  · rintro rfl
    cases version with
    | none => exact ⟨nofun, .unsaid⟩
    | some cs =>
        rw [Option.map_some]
        by_cases hpin : isPinning (Text.trimChars cs) = true
        · rw [Option.filter_some_pos hpin, Option.map_some]
          refine ⟨fun version hmem => ?_, .pinned ?_⟩
          · cases hmem
            exact isVersion_trimChars hpin
          · rw [String.toList_ofList]
            exact Text.pads_trimChars cs
        · rw [Option.filter_some_neg (Bool.eq_false_iff.2 hpin), Option.map_none]
          exact ⟨nofun, spellsVersion_none hpin⟩
  · rintro ⟨hversion, hspells⟩
    cases hspells with
    | unsaid => rfl
    | blank hblank =>
        rw [Option.map_some, Text.trimChars_eq_nil_iff.2 hblank]
        rfl
    | @latest word cs hword hpads =>
        have hpin : ¬ isPinning word.toList = true := fun h => ((isPinning_iff word).1 h).2 hword
        rw [Option.map_some, Text.trimChars_of_pads (isTrimmed_of_isCaseOf hword) hpads,
          Option.filter_some_neg (Bool.eq_false_iff.2 hpin), Option.map_none]
    | @pinned version cs hpads =>
        obtain ⟨hne, htrimmed, hlatest⟩ := hversion version rfl
        have hpin : isPinning version.toList = true := (isPinning_iff version).2 ⟨hne, hlatest⟩
        rw [Option.map_some, Text.trimChars_of_pads htrimmed hpads, Option.filter_some_pos hpin,
          Option.map_some, String.ofList_toList]

theorem ofParts?_eq_some_iff (hname : '@' ∉ name) :
    ofParts? name version = some r ↔
      r.IsProper ∧ Text.Pads r.name.toList name ∧ SpellsVersion r.version version := by
  have hat := (at_notMem_iff (Text.pads_trimChars name)).2 hname
  rw [ofParts?]
  constructor
  · intro h
    split at h
    · cases h
    · rename_i hne
      cases h
      obtain ⟨hversion, hspells⟩ := spellsVersion_iff.1 rfl
      refine ⟨⟨?_, ?_, ?_, hversion⟩, ?_, hspells⟩
      · rwa [Ne, ← String.toList_eq_nil_iff, String.toList_ofList]
      · rw [String.toList_ofList]
        exact Text.isTrimmed_trimChars name
      · rwa [String.toList_ofList]
      · rw [String.toList_ofList]
        exact Text.pads_trimChars name
  · rintro ⟨hproper, hpads, hspells⟩
    rw [Text.trimChars_of_pads hproper.isTrimmed hpads,
      if_neg (fun h => hproper.name_ne_empty (String.toList_eq_nil_iff.1 h)),
      spellsVersion_iff.2 ⟨hproper.isVersion, hspells⟩, String.ofList_toList]

/-- A spec is read as the proper reference that it spells. -/
theorem parse?_eq_some_iff : parse? spec = some r ↔ r.IsProper ∧ r.Spells spec.toList := by
  constructor
  · intro h
    cases hsplit : Text.splitOnce '@' spec.toList with
    | none =>
        have hat := Text.splitOnce_eq_none_iff.1 hsplit
        rw [parse?_of_notMem hat, ofParts?_eq_some_iff hat] at h
        exact ⟨h.1, .alone h.2.1 h.2.2⟩
    | some parts =>
        obtain ⟨hspec, hname⟩ := Text.splitOnce_eq_some_iff.1 hsplit
        rw [parse?_of_at hspec hname, ofParts?_eq_some_iff hname] at h
        rw [hspec]
        exact ⟨h.1, .versioned h.2.1 h.2.2⟩
  · rintro ⟨hproper, hspells⟩
    generalize hspec : spec.toList = cs at hspells
    cases hspells with
    | alone hname hversion =>
        have hat := (at_notMem_iff hname).1 hproper.at_notMem
        rw [← hspec] at hat hname
        rw [parse?_of_notMem hat, ofParts?_eq_some_iff hat]
        exact ⟨hproper, hname, hversion⟩
    | @versioned name version hname hversion =>
        have hat := (at_notMem_iff hname).1 hproper.at_notMem
        rw [parse?_of_at hspec hat, ofParts?_eq_some_iff hat]
        exact ⟨hproper, hname, hversion⟩

/-! ## Writing and reading again -/

/-- The name in a spec: what stands before the first `@`, or all of it. -/
def nameText (spec : String) : List Char := spec.toList.takeWhile (· != '@')

/-- A spec is refused when its name is blank, and only then. -/
theorem parse?_eq_none_iff :
    parse? spec = none ↔ ∀ c ∈ nameText spec, Text.isBlank c = true := by
  have hparts : ∀ (name : List Char) (version : Option (List Char)),
      ofParts? name version = none ↔ ∀ c ∈ name, Text.isBlank c = true := by
    intro name version
    rw [← Text.trimChars_eq_nil_iff, ofParts?]
    split
    · rename_i hnil
      exact iff_of_true rfl hnil
    · rename_i hne
      exact iff_of_false nofun hne
  have hplain : ∀ {name : List Char}, '@' ∉ name → ∀ c ∈ name, (c != '@') = true :=
    fun hname c hc => bne_iff_ne.2 fun hat => hname (hat ▸ hc)
  rw [nameText]
  cases hsplit : Text.splitOnce '@' spec.toList with
  | none =>
      have hat := Text.splitOnce_eq_none_iff.1 hsplit
      rw [parse?_of_notMem hat, hparts, List.takeWhile_eq_self_iff.2 (hplain hat)]
  | some parts =>
      obtain ⟨hspec, hname⟩ := Text.splitOnce_eq_some_iff.1 hsplit
      rw [parse?_of_at hspec hname, hparts, hspec,
        List.takeWhile_append_of_pos (hplain hname), List.takeWhile_cons_of_neg (by decide),
        List.append_nil]

/-- The written form is a spelling, in which the word stands for the latest. -/
theorem spells_render (r : Reference) : r.Spells r.render.toList := by
  rw [render, versionLabel, String.toList_append, String.toList_append, List.append_assoc]
  refine .versioned (.refl _) ?_
  cases r.version with
  | none => exact .latest (List.forall₂_same.2 fun _ _ => .inl rfl) (.refl _)
  | some version => exact .pinned (.refl _)

theorem parse?_render_iff : parse? r.render = some r ↔ r.IsProper := by
  rw [parse?_eq_some_iff, and_iff_left (spells_render r)]

/-- A spec is refused exactly when its name is blank, the references that specs are read as are the
proper ones, and exactly those are read again from their written form. -/
theorem specs_round_trip :
    (∀ spec, parse? spec = none ↔ ∀ c ∈ nameText spec, Text.isBlank c = true) ∧
    (∀ r : Reference, (∃ spec, parse? spec = some r) ↔ r.IsProper) ∧
    ∀ r : Reference, parse? r.render = some r ↔ r.IsProper := by
  refine ⟨fun spec => parse?_eq_none_iff, fun r => ⟨?_, ?_⟩, fun r => parse?_render_iff⟩
  · rintro ⟨spec, hspec⟩
    exact (parse?_eq_some_iff.1 hspec).1
  · exact fun hproper => ⟨r.render, parse?_render_iff.2 hproper⟩

example : parse? " Contoso.Json @ 1.0@2 " = some ⟨"Contoso.Json", some "1.0@2"⟩ := by decide

end Reference

end ScriptHost
