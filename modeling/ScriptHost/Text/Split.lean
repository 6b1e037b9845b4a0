/-!
# Splitting

A text cut at a separator: the pieces and the separators between them make up the text
again.
-/

namespace ScriptHost.Text

theorem length_dropWhile_le {α : Type} (p : α → Bool) (xs : List α) :
    (xs.dropWhile p).length ≤ xs.length :=
  (List.dropWhile_suffix p).length_le

/-- The pieces of a text between the separator characters. -/
def splitAt (sep : Char) (s : String) : List String :=
  (s.toList.splitOn sep).map String.ofList

theorem intercalate_splitAt (sep : Char) (s : String) :
    (String.singleton sep).intercalate (splitAt sep s) = s := by
  rw [← String.toList_inj, String.toList_intercalate]
  simp [splitAt, Function.comp_def]

/-- The text before the first separator and the text after it. -/
def splitOnce (sep : Char) : List Char → Option (List Char × List Char)
  | [] => none
  | c :: cs =>
    if c = sep then some ([], cs)
    else (splitOnce sep cs).map fun (before, after) => (c :: before, after)

/-- A text cut once is what stands before the first separator, the separator, and the rest. -/
theorem splitOnce_eq_some_iff {sep : Char} {cs before after : List Char} :
    splitOnce sep cs = some (before, after) ↔ cs = before ++ sep :: after ∧ sep ∉ before := by
  induction cs generalizing before with
  | nil => simp [splitOnce]
  | cons c cs ih =>
    rw [splitOnce]
    by_cases h : c = sep
    · subst h
      cases before <;> simp +contextual
    · rw [if_neg h, Option.map_eq_some_iff]
      constructor
      · rintro ⟨⟨first, rest⟩, hsplit, hpair⟩
        cases hpair
        obtain ⟨hcs, hnot⟩ := ih.1 hsplit
        refine ⟨by rw [hcs, List.cons_append], ?_⟩
        rw [List.mem_cons]
        rintro (e | hmem)
        · exact h e.symm
        · exact hnot hmem
      · rintro ⟨hcs, hnot⟩
        cases before with
        | nil => exact absurd (List.cons.inj hcs).1 h
        | cons b before =>
          obtain ⟨rfl, hrest⟩ := List.cons.inj hcs
          exact ⟨(before, after), ih.2 ⟨hrest, fun hmem => hnot (List.mem_cons_of_mem _ hmem)⟩, rfl⟩

theorem splitOnce_eq_none_iff {sep : Char} {cs : List Char} :
    splitOnce sep cs = none ↔ sep ∉ cs := by
  induction cs with
  | nil => simp [splitOnce]
  | cons c cs ih =>
    rw [splitOnce]
    by_cases h : c = sep
    · simp [h]
    · rw [if_neg h, Option.map_eq_none_iff, ih, List.mem_cons, not_or]
      exact ⟨fun hnot => ⟨fun e => h e.symm, hnot⟩, And.right⟩

end ScriptHost.Text
