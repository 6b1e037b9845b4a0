import ScriptHost.Proofs.Session.Contents
import ScriptHost.Proofs.Session.Operations

/-!
# Packages attached to sessions

A batch of resolved references adds to a session those that it does not have yet, each once. If
there are any, what earlier runs left is dropped; what a run leaves then is stored beside them.
-/

namespace ScriptHost

/-- What a batch of references adds to those that are attached. -/
structure Newly (attached batch added : List Resolved) : Prop where
  sublist : added.Sublist batch
  absent : ∀ r ∈ added, Session.hasReference attached r = false
  once : added.Pairwise fun a b => a.reference.sameAs b.reference = false
  covered : ∀ r ∈ batch, Session.hasReference (attached ++ added) r = true

theorem Reference.sameAs_refl (r : Reference) : r.sameAs r = true := by
  simp [sameAs, Text.sameAsciiFold]

namespace Session

variable {attached batch added : List Resolved} {r : Resolved}

theorem hasReference_append (attached added : List Resolved) (r : Resolved) :
    hasReference (attached ++ added) r = (hasReference attached r || hasReference added r) :=
  List.any_append

theorem hasReference_singleton (a r : Resolved) :
    hasReference [a] r = a.reference.sameAs r.reference := by
  rw [hasReference, List.any_cons, List.any_nil, Bool.or_false]

theorem newly_skip (h : hasReference attached r = true) (hn : Newly attached batch added) :
    Newly attached (r :: batch) added where
  sublist := hn.sublist.cons r
  absent := hn.absent
  once := hn.once
  covered := by
    intro a ha
    rcases List.mem_cons.1 ha with rfl | ha
    · rw [hasReference_append, h, Bool.true_or]
    · exact hn.covered a ha

theorem newly_add (h : hasReference attached r = false)
    (hn : Newly (attached ++ [r]) batch added) : Newly attached (r :: batch) (r :: added) := by
  have hlater : ∀ a ∈ added,
      hasReference attached a = false ∧ r.reference.sameAs a.reference = false := by
    intro a ha
    have habsent := hn.absent a ha
    rwa [hasReference_append, hasReference_singleton, Bool.or_eq_false_iff] at habsent
  have hsplit : attached ++ r :: added = (attached ++ [r]) ++ added := by
    rw [List.append_assoc, List.singleton_append]
  refine ⟨hn.sublist.cons_cons r, ?_, ?_, ?_⟩
  · intro a ha
    rcases List.mem_cons.1 ha with rfl | ha
    · exact h
    · exact (hlater a ha).1
  · exact List.pairwise_cons.2 ⟨fun a ha => (hlater a ha).2, hn.once⟩
  · intro a ha
    rw [hsplit]
    rcases List.mem_cons.1 ha with rfl | ha
    · rw [hasReference_append, hasReference_append, hasReference_singleton,
        Reference.sameAs_refl, Bool.or_true, Bool.true_or]
    · exact hn.covered a ha

theorem newly_addReferences (attached batch : List Resolved) :
    Newly attached batch (addReferences attached batch).2 := by
  induction batch generalizing attached with
  | nil => exact ⟨.slnil, fun _ h => absurd h List.not_mem_nil, .nil,
      fun _ h => absurd h List.not_mem_nil⟩
  | cons r batch ih =>
      rw [addReferences]
      split
      · rename_i hpresent
        exact newly_skip hpresent (ih attached)
      · rename_i habsent
        exact newly_add (Bool.eq_false_iff.2 habsent) (ih (attached ++ [r]))

end Session

/-- References that are all there add nothing. -/
theorem Newly.eq_nil {attached batch added : List Resolved} (hn : Newly attached batch added)
    (hall : ∀ r ∈ batch, Session.hasReference attached r = true) : added = [] := by
  apply List.eq_nil_iff_forall_not_mem.2
  intro r hr
  cases (hn.absent r hr).symm.trans (hall r (hn.sublist.subset hr))

namespace Contents

/-- What a batch adds. -/
def added (c : Contents) (batch : List Resolved) : List Resolved :=
  (Session.addReferences c.references batch).2

/-- References to add make what earlier runs left useless. -/
def discards (c : Contents) (added : List Resolved) : Bool :=
  !added.isEmpty && c.continuation.isSome

/-- The contents with references added. -/
def attach (c : Contents) (added : List Resolved) : Contents :=
  { c with
    references := c.references ++ added
    continuation := if c.discards added then none else c.continuation
    initialized := if c.discards added then false else c.initialized }

/-- The contents with what a finished run left. -/
def store (c : Contents) (left : Script.Continuation) : Contents :=
  { c with
    continuation := some left
    executions := c.executions + 1
    initialized := true }

@[simp] theorem discards_nil (c : Contents) : c.discards [] = false := rfl

@[simp] theorem attach_nil (c : Contents) : c.attach [] = c := by
  simp [attach]

@[simp] theorem added_nil (c : Contents) : c.added [] = [] := rfl

/-- All of the references are attached. -/
def Has (c : Contents) (rs : List Resolved) : Prop :=
  ∀ r ∈ rs, Session.hasReference c.references r = true

variable {c c' : Contents} {rs : List Resolved}

theorem Has.added (hc : c.Has rs) : c.added rs = [] :=
  (Session.newly_addReferences c.references rs).eq_nil hc

theorem Has.of_prefix (hc : c.Has rs) (hmore : c.references <+: c'.references) : c'.Has rs := by
  obtain ⟨more, hmore⟩ := hmore
  intro r hr
  rw [← hmore, Session.hasReference_append, hc r hr, Bool.true_or]

end Contents


namespace Registry

variable {r r' : Registry} {id : String} {now : Instant}

theorem contents?_of_use? {s : Session} (h : r.use? id = .ok s) :
    r.contents? id = some s.contents := by
  rw [contents?, find?_of_use? h]
  rfl

/-- A session that cannot be used is not there, unless its id is blank. -/
theorem contents?_of_use?_error {e : NotFound} (hb : Text.isBlankText id = false)
    (h : r.use? id = .error e) : r.contents? id = none := by
  rw [use?, hb, if_neg Bool.false_ne_true] at h
  split at h
  · cases h
  · rename_i hn
    exact contents?_eq_none_iff.2 hn

theorem contents?_of_merge {rs : List Resolved} {m : Merge} (h : r.merge id rs now = .ok (r', m)) :
    ∃ c, r.contents? id = some c ∧ r'.contents? id = some (c.attach (c.added rs)) ∧
      m = ⟨(c.added rs).map (·.reference), c.discards (c.added rs)⟩ := by
  rw [merge_eq] at h
  obtain ⟨s, hs, heq⟩ := Computation.except_map_eq_ok_iff.1 h
  cases heq
  refine ⟨s.contents, contents?_of_use? hs, ?_, rfl⟩
  have hmerged : (s.merge rs now).1.contents = s.contents.attach (s.contents.added rs) := by
    simp only [Session.merge, Session.contents, Session.addReferences_eq s.references rs]
    rfl
  rw [contents?_put, if_pos rfl, hmerged]

theorem contents?_of_updateState {left : Script.Continuation}
    (h : r.updateState id left now = .ok r') :
    ∃ c, r.contents? id = some c ∧ r'.contents? id = some (c.store left) := by
  rw [updateState_eq] at h
  obtain ⟨s, hs, rfl⟩ := Computation.except_map_eq_ok_iff.1 h
  refine ⟨s.contents, contents?_of_use? hs, ?_⟩
  rw [contents?_put, if_pos rfl]
  rfl

end Registry

end ScriptHost
