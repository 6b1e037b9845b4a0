import Mathlib.Data.List.Forall2
import Mathlib.Data.List.TakeWhile
import ScriptHost.Text.Blank
import ScriptHost.Text.Case
import ScriptHost.Text.Numeral
import ScriptHost.Text.Split

/-!
# ASCII capitals

What making the ASCII capitals of a text small leaves as it is. Nothing but the letters changes,
so blanks, separators and the bounds of words stay where they are, and a lower-case form is the
same with the capitals made small first. What becomes a given word is the word in any case.
-/

namespace ScriptHost.Text

/-- The text with each ASCII capital made small. -/
def foldText (s : String) : String := String.ofList (foldAscii s)

@[simp] theorem toList_foldText (s : String) : (foldText s).toList = s.toList.map Char.toLower :=
  String.toList_ofList

/-! ## Characters -/

theorem isAlpha_iff {c : Char} : c.isAlpha = true ↔
    (65 ≤ c.val.toNat ∧ c.val.toNat ≤ 90) ∨ (97 ≤ c.val.toNat ∧ c.val.toNat ≤ 122) := by
  have hdef : c.isAlpha = (decide ('A'.val ≤ c.val ∧ c.val ≤ 'Z'.val) ||
      (decide ('a'.val ≤ c.val) && decide (c.val ≤ 'z'.val))) := rfl
  simp only [hdef, Bool.or_eq_true, Bool.and_eq_true, decide_eq_true_eq, UInt32.le_iff_toNat_le]
  exact Iff.rfl

theorem toLower_of_not_capital {c : Char} (hc : ¬ (65 ≤ c.toNat ∧ c.toNat ≤ 90)) : c.toLower = c :=
  dif_neg fun h => hc (by simpa [UInt32.le_iff_toNat_le] using h)

/-- What is the same for each capital and its small letter is the same for every character and
its small form. -/
theorem toLower_invariant {α : Type} {f : Char → α}
    (h : ∀ n < 26, f (Char.ofNat (65 + n)).toLower = f (Char.ofNat (65 + n))) (c : Char) :
    f c.toLower = f c := by
  by_cases hc : 65 ≤ c.toNat ∧ c.toNat ≤ 90
  · have hcapital : Char.ofNat (65 + (c.toNat - 65)) = c := by
      rw [Nat.add_sub_cancel' hc.1, Char.ofNat_toNat]
    have hletter := h (c.toNat - 65) (by omega)
    rwa [hcapital] at hletter
  · rw [toLower_of_not_capital hc]

@[simp] theorem isBlank_toLower (c : Char) : isBlank c.toLower = isBlank c :=
  toLower_invariant (by decide) c

@[simp] theorem isWordPart_toLower (c : Char) : isWordPart c.toLower = isWordPart c :=
  toLower_invariant (by decide) c

@[simp] theorem isCased_toLower (c : Char) : isCased c.toLower = isCased c :=
  toLower_invariant (by decide) c

@[simp] theorem isCaseIgnorable_toLower (c : Char) : isCaseIgnorable c.toLower = isCaseIgnorable c :=
  toLower_invariant (by decide) c

@[simp] theorem lowerChar_toLower (c : Char) : lowerChar c.toLower = lowerChar c :=
  toLower_invariant (by decide) c

@[simp] theorem isAlpha_toLower (c : Char) : c.toLower.isAlpha = c.isAlpha :=
  toLower_invariant (by decide) c

/-- A character that is no letter is the small form of itself only. -/
theorem toLower_beq {d : Char} (hd : d.isAlpha = false) (c : Char) :
    (c.toLower == d) = (c == d) := by
  refine toLower_invariant (f := (· == d)) (fun n hn => ?_) c
  have hletters : ∀ n < 26, (Char.ofNat (65 + n)).isAlpha = true := by decide
  have hcapital : Char.ofNat (65 + n) ≠ d := by
    rintro rfl
    exact Bool.false_ne_true (hd.symm.trans (hletters n hn))
  have hsmall : (Char.ofNat (65 + n)).toLower ≠ d := by
    rintro rfl
    rw [isAlpha_toLower, hletters n hn] at hd
    cases hd
  rw [beq_false_of_ne hcapital, beq_false_of_ne hsmall]

theorem toLower_eq_iff {c d : Char} (hd : d.isAlpha = false) : c.toLower = d ↔ c = d := by
  rw [← beq_iff_eq, toLower_beq hd, beq_iff_eq]

/-! ## Texts -/

theorem trimRight_map_toLower (cs : List Char) :
    trimRight (cs.map Char.toLower) = (trimRight cs).map Char.toLower := by
  have hblank : isBlank ∘ Char.toLower = isBlank := funext isBlank_toLower
  rw [trimRight, trimRight, ← List.map_reverse, List.dropWhile_map, hblank, List.map_reverse]

theorem trimChars_map_toLower (cs : List Char) :
    trimChars (cs.map Char.toLower) = (trimChars cs).map Char.toLower := by
  have hblank : isBlank ∘ Char.toLower = isBlank := funext isBlank_toLower
  rw [trimChars, trimChars, List.dropWhile_map, hblank, trimRight_map_toLower]

theorem meetsCased_map_toLower (cs : List Char) :
    meetsCased (cs.map Char.toLower) = meetsCased cs := by
  have hignorable : isCaseIgnorable ∘ Char.toLower = isCaseIgnorable :=
    funext isCaseIgnorable_toLower
  rw [meetsCased, meetsCased, List.dropWhile_map, hignorable]
  cases cs.dropWhile isCaseIgnorable with
  | nil => rfl
  | cons c cs => exact isCased_toLower c

/-- Capitals made small first change no lower-case form, for what stands before them neither. -/
theorem lowerAfter_map_toLower (before cs : List Char) :
    lowerAfter (before.map Char.toLower) (cs.map Char.toLower) = lowerAfter before cs := by
  induction cs generalizing before with
  | nil => rfl
  | cons c cs ih =>
      have hrest := ih (c :: before)
      rw [List.map_cons] at hrest
      rw [List.map_cons, lowerAfter, lowerAfter, hrest, meetsCased_map_toLower,
        meetsCased_map_toLower, toLower_beq (by decide), lowerChar_toLower]

@[simp] theorem lowercase_foldText (s : String) : lowercase (foldText s) = lowercase s := by
  rw [lowercase, lowercase, toList_foldText]
  exact congrArg String.ofList (lowerAfter_map_toLower [] s.toList)

theorem splitOn_map_toLower {sep : Char} (hsep : sep.isAlpha = false) (cs : List Char) :
    (cs.map Char.toLower).splitOn sep = (cs.splitOn sep).map (·.map Char.toLower) := by
  induction cs with
  | nil => simp
  | cons c cs ih =>
      rw [List.map_cons, List.splitOn_cons_eq_if_modifyHead, List.splitOn_cons_eq_if_modifyHead,
        toLower_beq hsep, ih]
      split
      · rfl
      · cases cs.splitOn sep <;> rfl

theorem splitAt_foldText {sep : Char} (hsep : sep.isAlpha = false) (s : String) :
    splitAt sep (foldText s) = (splitAt sep s).map foldText := by
  rw [splitAt, splitAt, toList_foldText, splitOn_map_toLower hsep, List.map_map, List.map_map]
  refine List.map_congr_left fun word _ => ?_
  simp [foldText, foldAscii]

/-! ## Words in any case -/

/-- The text is the word with some of its letters made capitals. -/
def IsCaseOf (word text : String) : Prop :=
  List.Forall₂ (fun c letter => c = letter ∨ c = letter.toUpper) text.toList word.toList

/-- A small letter is the small form of itself and of its capital. -/
theorem toLower_eq_small_iff {c letter : Char} (hletter : 97 ≤ letter.toNat ∧ letter.toNat ≤ 122) :
    c.toLower = letter ↔ c = letter ∨ c = letter.toUpper := by
  constructor
  · rintro rfl
    by_cases hc : 65 ≤ c.toNat ∧ c.toNat ≤ 90
    · have hback : ∀ n < 26, (Char.ofNat (65 + n)).toLower.toUpper = Char.ofNat (65 + n) := by
        decide
      have hcapital := hback (c.toNat - 65) (by omega)
      rw [Nat.add_sub_cancel' hc.1, Char.ofNat_toNat] at hcapital
      exact .inr hcapital.symm
    · exact .inl (toLower_of_not_capital hc).symm
  · rintro (rfl | rfl)
    · exact toLower_of_not_capital (by omega)
    · have hback : ∀ n < 26, (Char.ofNat (97 + n)).toUpper.toLower = Char.ofNat (97 + n) := by
        decide
      have hsmall := hback (letter.toNat - 97) (by omega)
      rwa [Nat.add_sub_cancel' hletter.1, Char.ofNat_toNat] at hsmall

/-- A word of small letters is the small form of its own spellings. -/
theorem map_toLower_eq_iff {word cs : List Char}
    (hword : ∀ letter ∈ word, 97 ≤ letter.toNat ∧ letter.toNat ≤ 122) :
    cs.map Char.toLower = word ↔
      List.Forall₂ (fun c letter => c = letter ∨ c = letter.toUpper) cs word := by
  induction word generalizing cs with
  | nil => rw [List.map_eq_nil_iff, List.forall₂_nil_right_iff]
  | cons letter word ih =>
      obtain ⟨hletter, hword⟩ := List.forall_mem_cons.1 hword
      cases cs with
      | nil => exact iff_of_false nofun nofun
      | cons c cs =>
          rw [List.map_cons, List.cons.injEq, List.forall₂_cons, toLower_eq_small_iff hletter,
            ih hword]

theorem sameAsciiFold_iff_isCaseOf {word text : String}
    (hword : ∀ letter ∈ word.toList, 97 ≤ letter.toNat ∧ letter.toNat ≤ 122) :
    sameAsciiFold text word = true ↔ IsCaseOf word text := by
  have hself : word.toList.map Char.toLower = word.toList :=
    (map_toLower_eq_iff hword).2 (List.forall₂_same.2 fun _ _ => .inl rfl)
  rw [sameAsciiFold, beq_iff_eq, foldAscii, foldAscii, hself]
  exact map_toLower_eq_iff hword

end ScriptHost.Text
