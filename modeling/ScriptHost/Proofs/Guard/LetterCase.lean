import ScriptHost.Proofs.Guard.Verdict
import ScriptHost.Proofs.Text.Capitals

/-!
# Verdicts and letter case

Sources whose items differ in the case of ASCII letters only are both accepted or both refused,
as long as the scheme of a file address is written in one case. A scheme in mixed case makes a
text read as a path, yet it stays in the path.
-/

namespace ScriptHost.Guard

/-- The item with each ASCII capital made small. -/
def Item.fold : Item → Item
  | .name words => .name (words.map Text.foldText)
  | .text value => .text (Text.foldText value)

/-- The scheme of a file address, if there is one, is written in one case. -/
def SchemeInOneCase (cs : List Char) : Prop :=
  "file://".toList <+: cs.map Char.toLower → "file://".toList <+: cs ∨ "FILE://".toList <+: cs

/-- No text of the item has a scheme in mixed case. -/
def Item.SchemeInOneCase : Item → Prop
  | .name _ => True
  | .text value => Guard.SchemeInOneCase (Text.trimChars value.toList)

instance (cs : List Char) : Decidable (SchemeInOneCase cs) :=
  inferInstanceAs (Decidable (_ <+: _ → _ <+: _ ∨ _ <+: _))

instance : DecidablePred Item.SchemeInOneCase
  | .name _ => .isTrue trivial
  | .text _ => inferInstanceAs (Decidable (Guard.SchemeInOneCase _))

/-! ## Names -/

namespace Rules

variable {r : Rules} {loc loc' : Location}

theorem checkName_congr {words words' : List String}
    (h : words.map Text.lowercase = words'.map Text.lowercase) :
    r.checkName words loc = .ok () ↔ r.checkName words' loc' = .ok () := by
  rw [checkName_eq_ok_iff, checkName_eq_ok_iff, h]

theorem checkName_map_foldText (words : List String) :
    r.checkName (words.map Text.foldText) loc = .ok () ↔ r.checkName words loc' = .ok () := by
  apply checkName_congr
  rw [List.map_map]
  exact List.map_congr_left fun word _ => Text.lowercase_foldText word

theorem nameCandidate_foldText (value : String) :
    nameCandidate (Text.foldText value) = (nameCandidate value).map Char.toLower := by
  have hcomma : (fun c : Char => c != ',') ∘ Char.toLower = fun c => c != ',' := by
    funext c
    exact congrArg (!·) (Text.toLower_beq (by decide) c)
  rw [nameCandidate, nameCandidate, Text.toList_foldText, List.takeWhile_map, hcomma,
    Text.trimChars_map_toLower]

theorem readsAsName_map_toLower (cs : List Char) :
    readsAsName (cs.map Char.toLower) = readsAsName cs := by
  rw [readsAsName, readsAsName, List.isEmpty_map, List.all_map]
  congr 2
  funext c
  rw [Function.comp_apply, Text.isWordPart_toLower, Text.toLower_beq (by decide)]

end Rules

/-! ## Paths -/

theorem isPrefixOf_map_toLower {start : List Char} (h : ∀ d ∈ start, d.isAlpha = false)
    (cs : List Char) : start.isPrefixOf (cs.map Char.toLower) = start.isPrefixOf cs := by
  induction start generalizing cs with
  | nil => rfl
  | cons d start ih =>
      cases cs with
      | nil => rfl
      | cons c cs =>
          obtain ⟨hd, hstart⟩ := List.forall_mem_cons.1 h
          rw [List.map_cons, List.isPrefixOf_cons_cons, List.isPrefixOf_cons_cons, ih hstart,
            Bool.beq_comm, Text.toLower_beq hd, Bool.beq_comm]

theorem startsWithDrive_cons (letter colon slash : Char) (cs : List Char) :
    startsWithDrive (letter :: colon :: slash :: cs) =
      (colon == ':' && (letter.isAlpha && (slash == '\\' || slash == '/'))) := by
  unfold startsWithDrive
  split
  · rename_i heq
    cases heq
    rfl
  · rename_i hne
    have hcolon : (colon == ':') = false := by
      rw [beq_eq_false_iff_ne]
      rintro rfl
      exact hne letter slash cs rfl
    rw [hcolon, Bool.false_and]

theorem startsWithDrive_map_toLower (cs : List Char) :
    startsWithDrive (cs.map Char.toLower) = startsWithDrive cs := by
  match cs with
  | [] | [_] | [_, _] => simp [startsWithDrive]
  | letter :: colon :: slash :: cs =>
      rw [List.map_cons, List.map_cons, List.map_cons, startsWithDrive_cons, startsWithDrive_cons,
        Text.isAlpha_toLower, Text.toLower_beq (by decide), Text.toLower_beq (by decide),
        Text.toLower_beq (by decide)]

theorem readsAsPath_map_toLower (cs : List Char) :
    readsAsPath (cs.map Char.toLower) = readsAsPath cs := by
  have hplain : ∀ start ∈ pathStarts, ∀ d ∈ start.toList, d.isAlpha = false := by
    simp [pathStarts]
  have hstart : pathStarts.any (·.toList.isPrefixOf (cs.map Char.toLower)) =
      pathStarts.any (·.toList.isPrefixOf cs) := by
    rw [Bool.eq_iff_iff, List.any_eq_true, List.any_eq_true]
    exact exists_congr fun start => and_congr_right fun hmem => by
      rw [isPrefixOf_map_toLower (hplain start hmem)]
  rw [readsAsPath, readsAsPath, startsWithDrive_map_toLower, hstart]
  exact congrArg (_ || "file://".toList.isPrefixOf ·) (Text.lowerAfter_map_toLower [] cs)

theorem dropScheme_eq (cs : List Char) :
    dropScheme cs = if "file://".toList <+: cs ∨ "FILE://".toList <+: cs then cs.drop 7 else cs := by
  rw [dropScheme, behind?, behind?]
  simp only [List.isPrefixOf_iff_prefix]
  by_cases hsmall : "file://".toList <+: cs
  · rw [if_pos hsmall, if_pos (Or.inl hsmall)]
    rfl
  · rw [if_neg hsmall, Option.none_or]
    by_cases hlarge : "FILE://".toList <+: cs
    · rw [if_pos hlarge, if_pos (Or.inr hlarge)]
      rfl
    · rw [if_neg hlarge, if_neg (not_or.2 ⟨hsmall, hlarge⟩)]
      rfl

theorem dropScheme_map_toLower {cs : List Char} (h : SchemeInOneCase cs) :
    dropScheme (cs.map Char.toLower) = (dropScheme cs).map Char.toLower := by
  have hcase : "file://".toList <+: cs ∨ "FILE://".toList <+: cs ↔
      "file://".toList <+: cs.map Char.toLower := by
    refine ⟨?_, h⟩
    rintro (hstart | hstart)
    · exact hstart.map Char.toLower
    · exact hstart.map Char.toLower
  have hlarge : ¬ "FILE://".toList <+: cs.map Char.toLower := by
    intro hstart
    have hletter : 'F' ∈ cs.map Char.toLower := hstart.subset (by decide)
    obtain ⟨c, -, hc⟩ := List.mem_map.1 hletter
    have hfolded : c.toLower.toLower = c.toLower := Text.toLower_invariant (by decide) c
    rw [hc] at hfolded
    exact absurd hfolded (by decide)
  rw [dropScheme_eq, dropScheme_eq, if_congr ((or_iff_left hlarge).trans hcase.symm) rfl rfl]
  split
  · exact (List.map_drop ..).symm
  · rfl

theorem singleSlashes_map_toLower (b : Bool) (cs : List Char) :
    singleSlashes b (cs.map Char.toLower) = (singleSlashes b cs).map Char.toLower := by
  induction cs generalizing b with
  | nil => rfl
  | cons c cs ih =>
      have hslash : c.toLower = '/' ∨ c.toLower = '\\' ↔ c = '/' ∨ c = '\\' :=
        or_congr (Text.toLower_eq_iff (by decide)) (Text.toLower_eq_iff (by decide))
      rw [List.map_cons, singleSlashes, singleSlashes, ih, ih, if_congr hslash rfl rfl]
      split
      · split
        · rfl
        · rfl
      · rfl

/-- The normal form of a path has no capitals to begin with. -/
theorem normalizePath_foldText {value : String}
    (h : SchemeInOneCase (Text.trimChars value.toList)) :
    normalizePath (Text.foldText value) = normalizePath value := by
  rw [normalizePath, normalizePath, Text.toList_foldText, Text.trimChars_map_toLower,
    dropScheme_map_toLower h, singleSlashes_map_toLower, List.flatMap_map]
  exact congrArg (fun lower => dropEndSlashes (List.flatMap lower _)) (funext Text.lowerChar_toLower)

theorem pathOfText?_foldText {value : String}
    (h : SchemeInOneCase (Text.trimChars value.toList)) :
    pathOfText? (Text.foldText value) = pathOfText? value := by
  rw [pathOfText?, pathOfText?, normalizePath_foldText h, Text.toList_foldText,
    Text.trimChars_map_toLower, readsAsPath_map_toLower]

/-! ## Items and sources -/

namespace Rules

variable {r : Rules} {loc loc' : Location}

theorem checkText_foldText {value : String}
    (h : SchemeInOneCase (Text.trimChars value.toList)) :
    r.checkText (Text.foldText value) loc = .ok () ↔ r.checkText value loc' = .ok () := by
  have hwords : Text.splitAt '.' (String.ofList ((nameCandidate value).map Char.toLower)) =
      (Text.splitAt '.' (String.ofList (nameCandidate value))).map Text.foldText := by
    rw [← Text.splitAt_foldText (by decide), Text.foldText, Text.foldAscii, String.toList_ofList]
  have hname : r.checkName
      (Text.splitAt '.' (String.ofList ((nameCandidate value).map Char.toLower))) loc = .ok () ↔
      r.checkName (Text.splitAt '.' (String.ofList (nameCandidate value))) loc' = .ok () := by
    rw [hwords]
    exact checkName_map_foldText _
  rw [checkText_eq_ok_iff, checkText_eq_ok_iff, nameCandidate_foldText, readsAsName_map_toLower,
    hname, pathOfText?_foldText h]
  simp only [checkPath_eq_ok_iff]

theorem checkItem_fold {item : Item} (h : item.SchemeInOneCase) :
    r.checkItem ⟨item.fold, loc⟩ = .ok () ↔ r.checkItem ⟨item, loc'⟩ = .ok () := by
  cases item with
  | name words => exact checkName_map_foldText words
  | text value =>
      show r.checkText (Text.foldText value) loc = .ok () ↔ r.checkText value loc' = .ok ()
      exact checkText_foldText h

end Rules

/-- A source within its size is accepted just when its items pass without their capitals, wherever
they stand. -/
theorem checkSource_eq_ok_iff_fold {source : String} {p : Policy} {items : List (Placed Item)}
    (hsize : source.utf8ByteSize ≤ p.maxSourceBytes) (hscan : scan source = .ok items)
    (hscheme : ∀ item ∈ items, item.val.SchemeInOneCase) (loc : Location) :
    checkSource source p = .ok () ↔ (p.restrictApis = true →
      ∀ item ∈ items.map (·.val.fold), (Rules.ofPolicy p).checkItem ⟨item, loc⟩ = .ok ()) := by
  rw [checkSource_eq_ok_iff, and_iff_right hsize, hscan, List.forall_mem_map]
  refine imp_congr_right fun _ => ?_
  constructor
  · rintro ⟨_, ⟨⟩, hpass⟩ item hitem
    exact (Rules.checkItem_fold (hscheme item hitem)).2 (hpass item hitem)
  · intro hpass
    refine ⟨items, rfl, fun item hitem => ?_⟩
    exact (Rules.checkItem_fold (hscheme item hitem)).1 (hpass item hitem)

/-- Sources that differ in the case of ASCII letters only are both accepted or both refused. -/
theorem checkSource_of_fold {source source' : String} {p : Policy}
    {items items' : List (Placed Item)} (hsize : source.utf8ByteSize ≤ p.maxSourceBytes)
    (hsize' : source'.utf8ByteSize ≤ p.maxSourceBytes) (hscan : scan source = .ok items)
    (hscan' : scan source' = .ok items')
    (hfold : items.map (·.val.fold) = items'.map (·.val.fold))
    (hscheme : ∀ item ∈ items ++ items', item.val.SchemeInOneCase) :
    checkSource source p = .ok () ↔ checkSource source' p = .ok () := by
  obtain ⟨hscheme, hscheme'⟩ := List.forall_mem_append.1 hscheme
  rw [checkSource_eq_ok_iff_fold hsize hscan hscheme Location.first, hfold,
    ← checkSource_eq_ok_iff_fold hsize' hscan' hscheme' Location.first]

/-- A name and a file address in capitals, and in small letters. -/
theorem checkSource_of_fold_address :
    checkSource "FILE.Read(\" FILE:///Etc/X\")" Policy.production = .ok () ↔
      checkSource "File.READ(\" file:///eTC/x\")" Policy.production = .ok () := by
  have hlarge : scan "FILE.Read(\" FILE:///Etc/X\")" =
      .ok [⟨.name ["FILE", "Read"], ⟨1, 1⟩⟩, ⟨.text " FILE:///Etc/X", ⟨1, 11⟩⟩] := by
    decide +kernel
  have hsmall : scan "File.READ(\" file:///eTC/x\")" =
      .ok [⟨.name ["File", "READ"], ⟨1, 1⟩⟩, ⟨.text " file:///eTC/x", ⟨1, 11⟩⟩] := by
    decide +kernel
  exact checkSource_of_fold (by decide +kernel) (by decide +kernel) hlarge hsmall
    (by decide +kernel) (by decide +kernel)

/-- With a scheme in mixed case it would not hold. -/
theorem not_checkSource_of_fold :
    ¬ ∀ (source source' : String) (p : Policy) (items items' : List (Placed Item)),
        source.utf8ByteSize ≤ p.maxSourceBytes → source'.utf8ByteSize ≤ p.maxSourceBytes →
        scan source = .ok items → scan source' = .ok items' →
        items.map (·.val.fold) = items'.map (·.val.fold) →
        (checkSource source p = .ok () ↔ checkSource source' p = .ok ()) := by
  intro h
  have hmixed : scan "\"File:///etc/passwd\"" = .ok [⟨.text "File:///etc/passwd", ⟨1, 1⟩⟩] := by
    decide +kernel
  have hsmall : scan "\"file:///etc/passwd\"" = .ok [⟨.text "file:///etc/passwd", ⟨1, 1⟩⟩] := by
    decide +kernel
  have haccepted : checkSource "\"File:///etc/passwd\"" Policy.production = .ok () := by
    decide +kernel
  have hrefused : checkSource "\"file:///etc/passwd\"" Policy.production ≠ .ok () := by
    decide +kernel
  exact hrefused ((h _ _ Policy.production _ _ (by decide +kernel) (by decide +kernel) hmixed hsmall
    (by decide +kernel)).1 haccepted)

end ScriptHost.Guard
