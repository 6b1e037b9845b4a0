import ScriptHost.Guard.Check

/-!
# Verdicts

What it takes to be accepted: a chain of words in which no pattern occurs, a path that goes
neither home nor up and lies where the policy lets it, a text that passes both as a name and as a
path, a source within its size whose items all pass. A verdict does not depend on where in the
source something stands.
-/

namespace ScriptHost.Guard

/-- Checks one after the other pass when each of them passes. -/
theorem forM_eq_ok_iff {ε α : Type} {check : α → Except ε Unit} {xs : List α} :
    xs.forM check = .ok () ↔ ∀ x ∈ xs, check x = .ok () := by
  induction xs with
  | nil => simp [pure, Except.pure]
  | cons x xs ih =>
      show (check x >>= fun _ => xs.forM check) = .ok () ↔ _
      rw [List.forall_mem_cons, ← ih]
      cases check x with
      | error e => exact ⟨nofun, fun h => nomatch h.1⟩
      | ok u => exact (and_iff_right rfl).symm

/-- Checks that do not all pass end with the error of one of them. -/
theorem exists_error_of_forM {ε α : Type} {check : α → Except ε Unit} {xs : List α} {e : ε}
    (h : xs.forM check = .error e) : ∃ x ∈ xs, check x = .error e := by
  induction xs with
  | nil => cases h
  | cons x xs ih =>
      change (check x >>= fun _ => xs.forM check) = .error e at h
      cases hx : check x with
      | error e' =>
          rw [hx] at h
          cases h
          exact ⟨x, List.mem_cons_self, hx⟩
      | ok u =>
          rw [hx] at h
          obtain ⟨y, hy, herror⟩ := ih h
          exact ⟨y, List.mem_cons_of_mem x hy, herror⟩

theorem eq_error_of_ne_ok {ε : Type} {verdict : Except ε Unit} (h : verdict ≠ .ok ()) :
    ∃ e, verdict = .error e := by
  cases verdict with
  | error e => exact ⟨e, rfl⟩
  | ok u => exact absurd rfl h

namespace Rules

variable {r : Rules} {loc : Location}

theorem checkName_eq_ok_iff {words : List String} :
    r.checkName words loc = .ok () ↔
      (∀ pattern ∈ r.forbidden, pattern.occurs (words.map Text.lowercase) = false) ∧
        ∀ library ∈ r.libraries, library.occurs (words.map Text.lowercase) = false ∧
          library.tailOccurs (words.map Text.lowercase) = false := by
  unfold checkName
  dsimp only
  split
  · rename_i pattern hfound
    have hoccurs := List.find?_some hfound
    constructor
    · rintro ⟨⟩
    · rintro ⟨hforbidden, -⟩
      rw [hforbidden pattern (List.mem_of_find?_eq_some hfound)] at hoccurs
      cases hoccurs
  · rename_i hforbidden
    rw [List.find?_eq_none] at hforbidden
    split
    · rename_i library hfound
      have hoccurs := List.find?_some hfound
      constructor
      · rintro ⟨⟩
      · rintro ⟨-, hlibraries⟩
        obtain ⟨hwhole, htail⟩ := hlibraries library (List.mem_of_find?_eq_some hfound)
        rw [hwhole, htail] at hoccurs
        cases hoccurs
    · rename_i hlibraries
      rw [List.find?_eq_none] at hlibraries
      refine iff_of_true rfl ⟨?_, ?_⟩
      · intro pattern hpattern
        exact Bool.eq_false_iff.2 (hforbidden pattern hpattern)
      · intro library hlibrary
        simpa using hlibraries library hlibrary

theorem checkPath_eq_ok_iff {value : String} {path : List Char} :
    r.checkPath value path loc = .ok () ↔
      ['~'].isPrefixOf path = false ∧ goesUp path = false ∧
        (∀ root ∈ r.blockedRoots, isUnder path root.2 = false) ∧
          (r.allowedRoots = [] ∨ ∃ root ∈ r.allowedRoots, isUnder path root = true) := by
  unfold checkPath
  split
  · rename_i hhome
    simp [hhome]
  · rename_i hhome
    split
    · rename_i hup
      simp [hup]
    · rename_i hup
      split
      · rename_i rule root hfound
        have hunder := List.find?_some hfound
        have hroot := List.mem_of_find?_eq_some hfound
        constructor
        · rintro ⟨⟩
        · rintro ⟨-, -, hblocked, -⟩
          rw [hblocked _ hroot] at hunder
          cases hunder
      · rename_i hblocked
        have hroots : ∀ root ∈ r.blockedRoots, isUnder path root.2 = false := by
          intro root hroot
          exact Bool.eq_false_iff.2 (List.find?_eq_none.1 hblocked root hroot)
        have hallowed : (r.allowedRoots.isEmpty || r.allowedRoots.any (isUnder path)) = true ↔
            r.allowedRoots = [] ∨ ∃ root ∈ r.allowedRoots, isUnder path root = true := by
          rw [Bool.or_eq_true, List.isEmpty_iff, List.any_eq_true]
        rw [← hallowed, and_iff_right (Bool.eq_false_iff.2 hhome),
          and_iff_right (Bool.eq_false_iff.2 hup), and_iff_right hroots]
        split
        · exact iff_of_true rfl ‹_›
        · exact iff_of_false nofun ‹_›

theorem checkFound_eq_ok_iff {value : String} {found : Option (List Char)} :
    (match found with
      | none => (pure () : Except Violation Unit)
      | some path => r.checkPath value path loc) = .ok () ↔
        ∀ path, found = some path → r.checkPath value path loc = .ok () := by
  cases found with
  | none =>
      apply iff_of_true rfl
      rintro _ ⟨⟩
  | some path => simp

theorem checkText_eq_ok_iff {value : String} :
    r.checkText value loc = .ok () ↔
      (readsAsName (nameCandidate value) = true →
        r.checkName (Text.splitAt '.' (String.ofList (nameCandidate value))) loc = .ok ()) ∧
          ∀ path, pathOfText? value = some path → r.checkPath value path loc = .ok () := by
  rw [← checkFound_eq_ok_iff]
  unfold checkText
  dsimp only
  split
  · rename_i hname
    rw [hname]
    cases r.checkName (Text.splitAt '.' (String.ofList (nameCandidate value))) loc with
    | error e =>
        constructor
        · rintro ⟨⟩
        · rintro ⟨h, -⟩
          cases h rfl
    | ok u => exact (and_iff_right fun _ => rfl).symm
  · rename_i hname
    exact (and_iff_right fun h => absurd h hname).symm

end Rules

/-- A source is accepted when it is within the limit on its size and, where names are restricted,
can be scanned into items that all pass. -/
theorem checkSource_eq_ok_iff {source : String} {p : Policy} :
    checkSource source p = .ok () ↔
      source.utf8ByteSize ≤ p.maxSourceBytes ∧
        (p.restrictApis = true → ∃ items, scan source = .ok items ∧
          ∀ item ∈ items, (Rules.ofPolicy p).checkItem item = .ok ()) := by
  unfold checkSource
  by_cases hsize : p.maxSourceBytes < source.utf8ByteSize
  · rw [if_pos hsize]
    exact ⟨nofun, fun h => absurd h.1 (Nat.not_le.2 hsize)⟩
  · rw [if_neg hsize, and_iff_right (Nat.not_lt.1 hsize)]
    by_cases hrestrict : p.restrictApis = true
    · rw [if_pos hrestrict]
      cases scan source with
      | error e => exact ⟨nofun, fun h => nomatch h hrestrict⟩
      | ok items =>
          refine forM_eq_ok_iff.trans ⟨fun h _ => ⟨items, rfl, h⟩, fun h => ?_⟩
          obtain ⟨_, ⟨⟩, hitems⟩ := h hrestrict
          exact hitems
    · rw [if_neg hrestrict]
      exact iff_of_true rfl fun h => absurd h hrestrict

/-- An item that does not pass spoils the source. -/
theorem checkSource_of_item {source : String} {p : Policy} {items : List (Placed Item)}
    {item : Placed Item} (hrestrict : p.restrictApis = true) (hscan : scan source = .ok items)
    (hitem : item ∈ items) (hfail : (Rules.ofPolicy p).checkItem item ≠ .ok ()) :
    ∃ violation, checkSource source p = .error violation := by
  apply eq_error_of_ne_ok
  intro hok
  obtain ⟨items', hscan', hpass⟩ := (checkSource_eq_ok_iff.1 hok).2 hrestrict
  rw [hscan] at hscan'
  cases hscan'
  exact hfail (hpass item hitem)

end ScriptHost.Guard
