import Mathlib.Data.List.DropRight
import ScriptHost.Text.Blank

/-!
# Trimmed texts

To trim a text is to take the blanks off either end: what is left is the only trimmed text that the
text pads with blanks. So a text is trimmed to nothing exactly when it is blank, and one that is
trimmed stays as it is.
-/

namespace ScriptHost.Text

variable {c : Char} {cs core front back : List Char}

/-- Neither the first character nor the last one is a blank. -/
def IsTrimmed (cs : List Char) : Prop :=
  (∀ c ∈ cs.head?, isBlank c = false) ∧ ∀ c ∈ cs.getLast?, isBlank c = false

/-- The text is its core with nothing but blanks on either side. -/
def Pads (core cs : List Char) : Prop :=
  ∃ front back, (∀ c ∈ front, isBlank c = true) ∧ (∀ c ∈ back, isBlank c = true) ∧
    cs = front ++ (core ++ back)

theorem Pads.refl (cs : List Char) : Pads cs cs :=
  ⟨[], [], List.forall_mem_nil _, List.forall_mem_nil _, (List.append_nil cs).symm⟩

theorem Pads.trans {ds : List Char} (h : Pads core cs) (h' : Pads cs ds) : Pads core ds := by
  obtain ⟨front, back, hfront, hback, rfl⟩ := h
  obtain ⟨front', back', hfront', hback', rfl⟩ := h'
  refine ⟨front' ++ front, back ++ back', List.forall_mem_append.2 ⟨hfront', hfront⟩,
    List.forall_mem_append.2 ⟨hback, hback'⟩, ?_⟩
  simp only [List.append_assoc]

/-- Padding adds nothing but blanks. -/
theorem Pads.mem_iff (h : Pads core cs) (hc : isBlank c = false) : c ∈ core ↔ c ∈ cs := by
  obtain ⟨front, back, hfront, hback, rfl⟩ := h
  have hnot : ∀ blanks : List Char, (∀ c ∈ blanks, isBlank c = true) → c ∉ blanks :=
    fun blanks hblanks hmem => Bool.false_ne_true (hc.symm.trans (hblanks c hmem))
  simp only [List.mem_append, hnot front hfront, hnot back hback, false_or, or_false]

/-! ## What trimming leaves -/

theorem pads_dropWhile (cs : List Char) : Pads (cs.dropWhile isBlank) cs := by
  refine ⟨cs.takeWhile isBlank, [], fun c hc => List.mem_takeWhile_imp hc,
    List.forall_mem_nil _, ?_⟩
  rw [List.append_nil, List.takeWhile_append_dropWhile]

theorem pads_trimRight (cs : List Char) : Pads (trimRight cs) cs :=
  ⟨[], cs.rtakeWhile isBlank, List.forall_mem_nil _, fun _ hc => List.mem_rtakeWhile_imp hc,
    List.rdropWhile_append_rtakeWhile.symm⟩

theorem pads_trimChars (cs : List Char) : Pads (trimChars cs) cs :=
  (pads_trimRight _).trans (pads_dropWhile cs)

theorem not_blank_of_mem_head? (hc : c ∈ (cs.dropWhile isBlank).head?) : isBlank c = false := by
  have hhead := List.head?_dropWhile_not isBlank cs
  rwa [Option.mem_def.1 hc] at hhead

theorem isTrimmed_trimChars (cs : List Char) : IsTrimmed (trimChars cs) := by
  constructor
  · intro c hc
    obtain ⟨rest, hrest⟩ : trimChars cs <+: cs.dropWhile isBlank := List.rdropWhile_prefix isBlank _
    have hhead : c ∈ (trimChars cs ++ rest).head? := List.mem_head?_append_of_mem_head? hc
    rw [hrest] at hhead
    exact not_blank_of_mem_head? hhead
  · intro c hc
    rw [trimChars, trimRight, List.getLast?_reverse] at hc
    exact not_blank_of_mem_head? hc

theorem dropWhile_append_of_blank (hfront : ∀ c ∈ front, isBlank c = true)
    (hcs : ∀ c ∈ cs.head?, isBlank c = false) : (front ++ cs).dropWhile isBlank = cs := by
  rw [List.dropWhile_append_of_pos hfront]
  cases cs with
  | nil => rfl
  | cons c cs => exact List.dropWhile_cons_of_neg (Bool.eq_false_iff.1 (hcs c rfl))

theorem trimRight_append_of_blank (hback : ∀ c ∈ back, isBlank c = true)
    (hcs : ∀ c ∈ cs.getLast?, isBlank c = false) : trimRight (cs ++ back) = cs := by
  rw [trimRight, List.reverse_append, dropWhile_append_of_blank, List.reverse_reverse]
  · exact fun c hc => hback c (List.mem_reverse.1 hc)
  · rwa [List.head?_reverse]

/-- Trimming finds the core that a text pads. -/
theorem trimChars_of_pads (hcore : IsTrimmed core) (h : Pads core cs) : trimChars cs = core := by
  obtain ⟨front, back, hfront, hback, rfl⟩ := h
  rw [trimChars]
  cases core with
  | nil =>
      have hblank : ∀ c ∈ front ++ ([] ++ back), isBlank c = true := by
        rw [List.nil_append, List.forall_mem_append]
        exact ⟨hfront, hback⟩
      rw [List.dropWhile_eq_nil_iff.2 hblank]
      rfl
  | cons c core =>
      have hhead : ∀ d ∈ (c :: core ++ back).head?, isBlank d = false := hcore.1
      rw [dropWhile_append_of_blank hfront hhead, trimRight_append_of_blank hback hcore.2]

theorem trimChars_eq_iff : trimChars cs = core ↔ IsTrimmed core ∧ Pads core cs := by
  constructor
  · rintro rfl
    exact ⟨isTrimmed_trimChars cs, pads_trimChars cs⟩
  · exact fun h => trimChars_of_pads h.1 h.2

theorem trimChars_of_isTrimmed (h : IsTrimmed cs) : trimChars cs = cs :=
  trimChars_of_pads h (.refl cs)

theorem isTrimmed_nil : IsTrimmed [] := ⟨nofun, nofun⟩

theorem isTrimmed_of_forall (h : ∀ c ∈ cs, isBlank c = false) : IsTrimmed cs :=
  ⟨fun c hc => h c (List.mem_of_mem_head? hc), fun c hc => h c (List.mem_of_mem_getLast? hc)⟩

/-- A text is trimmed to nothing exactly when it is blank. -/
theorem trimChars_eq_nil_iff : trimChars cs = [] ↔ ∀ c ∈ cs, isBlank c = true := by
  rw [trimChars_eq_iff, and_iff_right isTrimmed_nil]
  constructor
  · rintro ⟨front, back, hfront, hback, rfl⟩
    rw [List.nil_append, List.forall_mem_append]
    exact ⟨hfront, hback⟩
  · exact fun h => ⟨cs, [], h, List.forall_mem_nil _, (List.append_nil cs).symm⟩

/-- A text and what pads it are trimmed to the same. -/
theorem Pads.trimChars_eq (h : Pads core cs) : trimChars cs = trimChars core :=
  trimChars_of_pads (isTrimmed_trimChars core) ((pads_trimChars core).trans h)

/-- Around a character that is no blank, trimming takes the blanks in front of what precedes it and
those behind what follows it. -/
theorem trimChars_append_cons (hc : isBlank c = false) (front back : List Char) :
    trimChars (front ++ c :: back) = front.dropWhile isBlank ++ c :: trimRight back := by
  have hdrop : ∀ front back : List Char,
      (front ++ c :: back).dropWhile isBlank = front.dropWhile isBlank ++ c :: back := by
    intro front back
    rw [List.dropWhile_append]
    split
    · rename_i hempty
      rw [List.isEmpty_iff.1 hempty, List.dropWhile_cons_of_neg (Bool.eq_false_iff.1 hc)]
      rfl
    · rfl
  rw [trimChars, hdrop, trimRight, List.reverse_append, List.reverse_cons, List.append_assoc,
    List.singleton_append, hdrop, List.reverse_append, List.reverse_cons, List.reverse_reverse,
    List.append_assoc, List.singleton_append, trimRight]

end ScriptHost.Text
