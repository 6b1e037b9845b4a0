import ScriptHost.Proofs.Session.Edits

/-!
# Contents of a session

What runs have left in a session, without the times of access. Two registries with the same
contents under an id answer the requests in that session alike, whatever else they hold.
-/

namespace ScriptHost

/-- What runs have left in a session. -/
structure Contents where
  executions : Nat
  initialized : Bool
  continuation : Option Script.Continuation
  references : List Resolved
deriving DecidableEq

namespace Session

def contents (s : Session) : Contents :=
  ⟨s.executions, s.initialized, s.continuation, s.references⟩

variable {s t : Session}

theorem contents_store (h : s.contents = t.contents) (c : Script.Continuation)
    (now later : Instant) : (s.store c now).contents = (t.store c later).contents := by
  simp only [contents, Contents.mk.injEq] at h
  simp only [contents, store, h]

/-- What attaching references does depends on the contents only. -/
theorem contents_merge (h : s.contents = t.contents) (rs : List Resolved)
    (now later : Instant) :
    (s.merge rs now).1.contents = (t.merge rs later).1.contents ∧
      (s.merge rs now).2 = (t.merge rs later).2 := by
  simp only [contents, Contents.mk.injEq] at h
  simp only [merge, contents, h, and_self]

end Session

namespace Registry

variable {r r' q : Registry} {id : String}

/-- The contents of the session under an id. -/
def contents? (r : Registry) (id : String) : Option Contents :=
  (r.find? id).map Session.contents

theorem Edit.contents?_of_ne (h : Edit id r r') {other : String} (hne : other ≠ id) :
    r'.contents? other = r.contents? other := by
  rw [contents?, contents?, h.find?_of_ne hne]

theorem contents?_eq_none_iff : r.contents? id = none ↔ r.find? id = none :=
  Option.map_eq_none_iff

theorem find?_ne_none {c : Contents} (hc : r.contents? id = some c) : r.find? id ≠ none :=
  fun hn => Option.some_ne_none c (hc.symm.trans (contents?_eq_none_iff.2 hn))

theorem contents?_put (r : Registry) (id other : String) (s : Session) :
    (r.put id s).contents? other = if other = id then some s.contents else r.contents? other := by
  rw [contents?, find?_put]
  split
  · rfl
  · rfl

/-- To refresh the time of access changes no contents. -/
theorem contents?_put_touch {s : Session} (h : r.find? id = some s) (now : Instant)
    (other : String) : (r.put id (s.touch now)).contents? other = r.contents? other := by
  rw [contents?_put]
  split
  · rename_i heq
    rw [heq, contents?, h]
    rfl
  · rfl

@[simp] theorem contents?_touch (r : Registry) (id other : String) (now : Instant) :
    (r.touch id now).1.contents? other = r.contents? other := by
  rw [touch]
  split
  · rename_i s hs
    exact contents?_put_touch hs now other
  · rfl

theorem contents?_state {now : Instant} {c : Option Script.Continuation}
    (h : r.state id now = .ok (r', c)) (other : String) :
    r'.contents? other = r.contents? other := by
  rw [state_eq] at h
  obtain ⟨s, hs, heq⟩ := Computation.except_map_eq_ok_iff.1 h
  cases heq
  exact contents?_put_touch (find?_of_use? hs) now other

/-- Both registries have the session, with the same contents, or neither has. -/
theorem find?_agree (h : r.contents? id = q.contents? id) :
    (r.find? id = none ∧ q.find? id = none) ∨
      ∃ s t, r.find? id = some s ∧ q.find? id = some t ∧ s.contents = t.contents := by
  simp only [contents?] at h
  cases hr : r.find? id with
  | none =>
      rw [hr, Option.map_none] at h
      exact Or.inl ⟨rfl, Option.map_eq_none_iff.1 h.symm⟩
  | some s =>
      rw [hr, Option.map_some] at h
      obtain ⟨t, ht, hc⟩ := Option.map_eq_some_iff.1 h.symm
      exact Or.inr ⟨s, t, rfl, ht, hc.symm⟩

/-- What is done with the session is done in both registries, or refused in both. -/
theorem use?_map_agree {α β : Type} (h : r.contents? id = q.contents? id) (f : Session → α)
    (g : Session → β) :
    (∃ e, (r.use? id).map f = .error e ∧ (q.use? id).map g = .error e) ∨
      ∃ s t, (r.use? id).map f = .ok (f s) ∧ (q.use? id).map g = .ok (g t) ∧
        s.contents = t.contents := by
  simp only [use?]
  split
  · exact Or.inl ⟨_, rfl, rfl⟩
  · rcases find?_agree h with ⟨hr, hq⟩ | ⟨s, t, hr, hq, hc⟩
    · rw [hr, hq]
      exact Or.inl ⟨_, rfl, rfl⟩
    · rw [hr, hq]
      exact Or.inr ⟨s, t, rfl, rfl, hc⟩

theorem references_agree (h : r.contents? id = q.contents? id) :
    r.references id = q.references id := by
  simp only [references]
  rcases find?_agree h with ⟨hr, hq⟩ | ⟨s, t, hr, hq, hc⟩
  · rw [hr, hq]
  · rw [hr, hq]
    exact congrArg (fun c => Except.ok c.references) hc

theorem state_agree (h : r.contents? id = q.contents? id) (now later : Instant) :
    (∃ e, r.state id now = .error e ∧ q.state id later = .error e) ∨
      ∃ r' q' c, r.state id now = .ok (r', c) ∧ q.state id later = .ok (q', c) := by
  rw [state_eq, state_eq]
  rcases use?_map_agree h _ _ with herror | ⟨s, t, hr, hq, hc⟩
  · exact Or.inl herror
  · have hcont : s.continuation = t.continuation := congrArg Contents.continuation hc
    rw [← hcont] at hq
    exact Or.inr ⟨_, _, _, hr, hq⟩

theorem updateState_agree (h : r.contents? id = q.contents? id) (c : Script.Continuation)
    (now later : Instant) :
    (∃ e, r.updateState id c now = .error e ∧ q.updateState id c later = .error e) ∨
      ∃ r' q', r.updateState id c now = .ok r' ∧ q.updateState id c later = .ok q' ∧
        r'.contents? id = q'.contents? id := by
  rw [updateState_eq, updateState_eq]
  rcases use?_map_agree h _ _ with herror | ⟨s, t, hr, hq, hc⟩
  · exact Or.inl herror
  · refine Or.inr ⟨_, _, hr, hq, ?_⟩
    rw [contents?_put, contents?_put, if_pos rfl, if_pos rfl,
      Session.contents_store hc c now later]

theorem merge_agree (h : r.contents? id = q.contents? id) (rs : List Resolved)
    (now later : Instant) :
    (∃ e, r.merge id rs now = .error e ∧ q.merge id rs later = .error e) ∨
      ∃ r' q' m, r.merge id rs now = .ok (r', m) ∧ q.merge id rs later = .ok (q', m) ∧
        r'.contents? id = q'.contents? id := by
  rw [merge_eq, merge_eq]
  rcases use?_map_agree h _ _ with herror | ⟨s, t, hr, hq, hc⟩
  · exact Or.inl herror
  · obtain ⟨hcont, hrest⟩ := Session.contents_merge hc rs now later
    simp only [← hrest] at hq
    refine Or.inr ⟨_, _, _, hr, hq, ?_⟩
    rw [contents?_put, contents?_put, if_pos rfl, if_pos rfl, hcont]

end Registry

end ScriptHost
