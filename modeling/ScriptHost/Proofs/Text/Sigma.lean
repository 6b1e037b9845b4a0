import ScriptHost.Text.Case

/-!
# Lower-case forms in context

The lower-case form of the first part of a text depends on the rest of it through one question:
whether a cased character comes next. Where a full stop follows, the answer matters only to a
capital sigma at the end of a word.
-/

namespace ScriptHost.Text

/-- The lower-case form of `c` standing after `before`, which is given backwards. A cased
character comes next or does not. -/
def lowerAt (before : List Char) (c : Char) (followed : Bool) : List Char :=
  if c == 'Σ' then if meetsCased before && !followed then ['ς'] else ['σ'] else lowerChar c

/-- The lower-case form of `cs` standing after `before`. A cased character comes next behind it
or does not. -/
def lowerBetween (before : List Char) (followed : Bool) : List Char → List Char
  | [] => []
  | c :: cs =>
    lowerAt before c (meetsCased cs || cs.all isCaseIgnorable && followed) ++
      lowerBetween (c :: before) followed cs

/-- The text, standing after `before`, ends in a capital sigma that is the end of a word. -/
def endsInSigma (before : List Char) : List Char → Bool
  | [] => false
  | c :: cs =>
    c == 'Σ' && meetsCased before && cs.all isCaseIgnorable || endsInSigma (c :: before) cs

/-! ## Appending -/

variable {before cs after : List Char}

theorem meetsCased_cons (c : Char) (cs : List Char) :
    meetsCased (c :: cs) = if isCaseIgnorable c then meetsCased cs else isCased c := by
  rw [meetsCased, List.dropWhile_cons]
  cases isCaseIgnorable c <;> rfl

theorem meetsCased_append (cs after : List Char) :
    meetsCased (cs ++ after) = (meetsCased cs || cs.all isCaseIgnorable && meetsCased after) := by
  induction cs with
  | nil => simp [meetsCased]
  | cons c cs ih =>
      rw [List.cons_append, meetsCased_cons, meetsCased_cons, List.all_cons, ih]
      cases isCaseIgnorable c <;> simp

theorem meetsCased_of_all (h : cs.all isCaseIgnorable = true) : meetsCased cs = false := by
  induction cs with
  | nil => rfl
  | cons c cs ih =>
      rw [List.all_cons, Bool.and_eq_true] at h
      rw [meetsCased_cons, if_pos h.1, ih h.2]

theorem lowerAfter_cons (before : List Char) (c : Char) (cs : List Char) :
    lowerAfter before (c :: cs) =
      lowerAt before c (meetsCased cs) ++ lowerAfter (c :: before) cs := rfl

/-- What comes behind a text matters to its lower-case form by what is met first. -/
theorem lowerAfter_append (before cs after : List Char) :
    lowerAfter before (cs ++ after) =
      lowerBetween before (meetsCased after) cs ++ lowerAfter (cs.reverse ++ before) after := by
  induction cs generalizing before with
  | nil => rfl
  | cons c cs ih =>
      rw [List.cons_append, lowerAfter_cons, lowerBetween, meetsCased_append, ih,
        List.reverse_cons, List.append_assoc, List.append_assoc, List.singleton_append]

theorem lowerAfter_eq_lowerBetween (before cs : List Char) :
    lowerAfter before cs = lowerBetween before false cs := by
  have happend := lowerAfter_append before cs []
  rwa [List.append_nil, lowerAfter, List.append_nil] at happend

/-! ## Final forms -/

theorem length_lowerAt (before : List Char) (c : Char) (followed : Bool) :
    (lowerAt before c followed).length = (lowerAt before c false).length := by
  rw [lowerAt, lowerAt]
  split
  · cases followed <;> cases meetsCased before <;> rfl
  · rfl

theorem length_lowerBetween (before : List Char) (followed : Bool) (cs : List Char) :
    (lowerBetween before followed cs).length = (lowerBetween before false cs).length := by
  induction cs generalizing before with
  | nil => rfl
  | cons c cs ih =>
      rw [lowerBetween, lowerBetween, List.length_append, List.length_append, ih, length_lowerAt,
        length_lowerAt before c (_ || _)]

theorem lowerAt_true_eq_iff (before : List Char) (c : Char) :
    lowerAt before c true = lowerAt before c false ↔ (c == 'Σ' && meetsCased before) = false := by
  rw [lowerAt, lowerAt]
  cases c == 'Σ' <;> cases meetsCased before <;> simp

/-- A cased character behind a text changes its lower-case form when the text ends in a capital
sigma, and only then. -/
theorem lowerBetween_true_eq_iff (before cs : List Char) :
    lowerBetween before true cs = lowerBetween before false cs ↔
      endsInSigma before cs = false := by
  induction cs generalizing before with
  | nil => exact iff_of_true rfl rfl
  | cons c cs ih =>
      have hhead : lowerAt before c (meetsCased cs || cs.all isCaseIgnorable && true) =
            lowerAt before c (meetsCased cs || cs.all isCaseIgnorable && false) ↔
          (c == 'Σ' && meetsCased before && cs.all isCaseIgnorable) = false := by
        cases hall : cs.all isCaseIgnorable with
        | false => simp
        | true => simpa [meetsCased_of_all hall] using lowerAt_true_eq_iff before c
      rw [lowerBetween, lowerBetween, endsInSigma, Bool.or_eq_false_iff, ← ih, ← hhead]
      constructor
      · intro h
        refine List.append_inj h ?_
        rw [length_lowerAt, length_lowerAt before c (_ || _ && false)]
      · rintro ⟨hfirst, hrest⟩
        rw [hfirst, hrest]

/-! ## Full stops -/

theorem toList_lowercase (s : String) :
    (lowercase s).toList = lowerBetween [] false s.toList := by
  rw [lowercase, String.toList_ofList, lowerAfter_eq_lowerBetween]

theorem toList_lowercase_stop (start rest : String) :
    (lowercase (start ++ "." ++ rest)).toList =
      lowerBetween [] (meetsCased rest.toList) start.toList ++
        '.' :: lowerAfter ('.' :: start.toList.reverse) rest.toList := by
  have happend := lowerAfter_append [] start.toList ('.' :: rest.toList)
  have hstop (before cs : List Char) :
      lowerAfter before ('.' :: cs) = '.' :: lowerAfter ('.' :: before) cs := rfl
  rw [hstop, meetsCased_cons, if_pos (by decide), List.append_nil] at happend
  rw [lowercase, String.toList_ofList, String.toList_append, String.toList_append,
    List.append_assoc]
  exact happend

theorem lowercase_stop_ne (start rest : String) :
    lowercase (start ++ "." ++ rest) ≠ lowercase start := by
  intro heq
  have hlist := congrArg String.toList heq
  rw [toList_lowercase_stop, toList_lowercase] at hlist
  have hlength := congrArg List.length hlist
  rw [List.length_append, length_lowerBetween, List.length_cons] at hlength
  omega

/-- The lower-case form of a text before a full stop begins as that of the text and ends with
the full stop, unless the text ends in a capital sigma and a cased character comes next. -/
theorem lowercase_isPrefix_iff (start rest : String) :
    (lowercase start).toList ++ ['.'] <+: (lowercase (start ++ "." ++ rest)).toList ↔
      (endsInSigma [] start.toList = true → meetsCased rest.toList = false) := by
  have hlength := length_lowerBetween [] (meetsCased rest.toList) start.toList
  have hsame : lowerBetween [] (meetsCased rest.toList) start.toList =
        lowerBetween [] false start.toList ↔
      (endsInSigma [] start.toList = true → meetsCased rest.toList = false) := by
    cases meetsCased rest.toList with
    | false => simp
    | true => simpa using lowerBetween_true_eq_iff [] start.toList
  rw [toList_lowercase, toList_lowercase_stop, ← hsame]
  constructor
  · rintro ⟨tail, htail⟩
    rw [List.append_assoc] at htail
    exact (List.append_inj htail hlength.symm).1.symm
  · intro heq
    rw [heq]
    exact ⟨_, List.append_assoc _ _ _⟩

end ScriptHost.Text
