import ScriptHost.Proofs.Computation
import ScriptHost.Session.Store

/-!
# Edits of a registry

What is done on behalf of one session replaces or removes what the registry holds under its
id, and nothing else. Such edits leave the other sessions as they are, bring no session back
that is gone, and hold no id twice.
-/

namespace ScriptHost

namespace Registry

variable {r r' r'' : Registry} {id other : String}

theorem find?_put (r : Registry) (id other : String) (s : Session) :
    (r.put id s).find? other = if other = id then some s else r.find? other :=
  Table.get?_set r.sessions id other s

theorem find?_remove (r : Registry) (id other : String) :
    (r.remove id).1.find? other = if other = id then none else r.find? other :=
  Table.get?_erase r.sessions id other

theorem find?_clear (r : Registry) (id : String) : r.clear.1.find? id = none := rfl

/-- A sweep brings no session back. -/
theorem find?_sweep_of_none (h : r.find? id = none) (now : Instant) (ttl : Int) :
    (r.sweep now ttl).1.find? id = none :=
  Table.get?_keep_of_none h _

/-- A session that a sweep leaves is as it was. -/
theorem find?_of_find?_sweep (hd : r.ids.Nodup) {now : Instant} {ttl : Int} {s : Session}
    (h : (r.sweep now ttl).1.find? id = some s) : r.find? id = some s :=
  Table.get?_of_get?_keep hd h

theorem find?_of_use? {s : Session} (h : r.use? id = .ok s) : r.find? id = some s := by
  simp only [use?] at h
  split at h
  · cases h
  · split at h
    · rename_i t ht
      cases h
      exact ht
    · cases h

/-- The registry changes by what is done on behalf of one session. -/
inductive Edit (id : String) : Registry → Registry → Prop
  | refl (r : Registry) : Edit id r r
  | put {r : Registry} {s : Session} (h : r.find? id = some s) (t : Session) :
      Edit id r (r.put id t)
  | remove (r : Registry) : Edit id r (r.remove id).1
  | trans {r r' r'' : Registry} (h : Edit id r r') (h' : Edit id r' r'') : Edit id r r''

/-- The other sessions stay as they are. -/
theorem Edit.find?_of_ne (h : Edit id r r') (hne : other ≠ id) :
    r'.find? other = r.find? other := by
  induction h with
  | refl => rfl
  | put => rw [find?_put, if_neg hne]
  | remove => rw [find?_remove, if_neg hne]
  | trans _ _ ih ih' => rw [ih', ih]

/-- A session that is gone stays away. -/
theorem Edit.find?_of_none (h : Edit id r r') (hn : r.find? other = none) :
    r'.find? other = none := by
  by_cases hne : other = id
  · subst hne
    induction h with
    | refl => exact hn
    | put hs => exact nomatch hn.symm.trans hs
    | remove => rw [find?_remove, if_pos rfl]
    | trans _ _ ih ih' => exact ih' (ih hn)
  · rw [h.find?_of_ne hne, hn]

theorem Edit.nodup (h : Edit id r r') (hd : r.ids.Nodup) : r'.ids.Nodup := by
  induction h with
  | refl => exact hd
  | put => exact Table.nodup_keys_set hd _ _
  | remove => exact Table.nodup_keys_erase hd _
  | trans _ _ ih ih' => exact ih' (ih hd)

theorem state_eq (r : Registry) (id : String) (now : Instant) :
    r.state id now = (r.use? id).map fun s => (r.put id (s.touch now), s.continuation) := by
  rw [state]
  cases r.use? id with
  | error e => rfl
  | ok s => rfl

theorem updateState_eq (r : Registry) (id : String) (c : Script.Continuation) (now : Instant) :
    r.updateState id c now = (r.use? id).map fun s => r.put id (s.store c now) := by
  rw [updateState]
  cases r.use? id with
  | error e => rfl
  | ok s => rfl

theorem merge_eq (r : Registry) (id : String) (rs : List Resolved) (now : Instant) :
    r.merge id rs now = (r.use? id).map fun s =>
      (r.put id (s.merge rs now).1, ⟨(s.merge rs now).2.1, (s.merge rs now).2.2⟩) := by
  rw [merge]
  cases r.use? id with
  | error e => rfl
  | ok s => rfl

theorem edit_of_state {now : Instant} {c : Option Script.Continuation}
    (h : r.state id now = .ok (r', c)) : Edit id r r' := by
  rw [state_eq] at h
  obtain ⟨s, hs, heq⟩ := Computation.except_map_eq_ok_iff.1 h
  cases heq
  exact .put (find?_of_use? hs) _

theorem edit_of_updateState {c : Script.Continuation} {now : Instant}
    (h : r.updateState id c now = .ok r') : Edit id r r' := by
  rw [updateState_eq] at h
  obtain ⟨s, hs, rfl⟩ := Computation.except_map_eq_ok_iff.1 h
  exact .put (find?_of_use? hs) _

theorem edit_of_merge {rs : List Resolved} {now : Instant} {m : Merge}
    (h : r.merge id rs now = .ok (r', m)) : Edit id r r' := by
  rw [merge_eq] at h
  obtain ⟨s, hs, heq⟩ := Computation.except_map_eq_ok_iff.1 h
  cases heq
  exact .put (find?_of_use? hs) _

theorem edit_touch (r : Registry) (id : String) (now : Instant) :
    Edit id r (r.touch id now).1 := by
  rw [touch]
  split
  · rename_i s hs
    exact .put hs _
  · exact .refl r

end Registry

namespace SessionStore

theorem state_eq (s : SessionStore) (id : String) :
    s.state id = (s.registry.state id s.now).map fun (r, c) => (s.withRegistry r, c) := by
  rw [state]
  cases s.registry.state id s.now with
  | error e => rfl
  | ok found => rfl

theorem updateState_eq (s : SessionStore) (id : String) (c : Script.Continuation) :
    s.updateState id c = (s.registry.updateState id c s.now).map s.withRegistry := by
  rw [updateState]
  cases s.registry.updateState id c s.now with
  | error e => rfl
  | ok r => rfl

theorem merge_eq (s : SessionStore) (id : String) (rs : List Resolved) :
    s.merge id rs = (s.registry.merge id rs s.now).map fun (r, m) => (s.withRegistry r, m) := by
  rw [merge]
  cases s.registry.merge id rs s.now with
  | error e => rfl
  | ok merged => rfl

/-- A created session is fresh, and has an id that was drawn for it and named no session. -/
theorem createWithin_eq_some {limit : Nat} {s s' : SessionStore} {id : String}
    (h : s.createWithin limit = some (s', id)) :
    ∃ n now, s.drawn ≤ n ∧ s.ids n = id ∧ s.registry.find? id = none ∧
      s' = { s with registry := s.registry.put id (.fresh now), clock := now, drawn := n + 1 } := by
  induction limit generalizing s with
  | zero => cases h
  | succ limit ih =>
      simp only [createWithin, Registry.create?] at h
      by_cases hc : s.registry.sessions.contains (s.ids s.drawn) = true
      · rw [if_pos hc] at h
        obtain ⟨n, now, hn, hid, hnone, rfl⟩ := ih h
        exact ⟨n, now, Nat.le_of_succ_le hn, hid, hnone, rfl⟩
      · rw [if_neg hc] at h
        cases h
        have hnone : s.registry.find? (s.ids s.drawn) = none :=
          Option.not_isSome_iff_eq_none.1 hc
        exact ⟨s.drawn, _, Nat.le_refl _, rfl, hnone, rfl⟩

/-- Where no session is created, all ids that were drawn are those of live sessions. -/
theorem mem_ids_of_createWithin_eq_none {limit : Nat} {s : SessionStore}
    (h : s.createWithin limit = none) :
    ∀ n, s.drawn ≤ n → n < s.drawn + limit → s.ids n ∈ s.registry.ids := by
  induction limit generalizing s with
  | zero => exact fun n hle hlt => absurd hlt (Nat.not_lt.2 hle)
  | succ limit ih =>
      simp only [createWithin, Registry.create?] at h
      by_cases hc : s.registry.sessions.contains (s.ids s.drawn) = true
      · rw [if_pos hc] at h
        intro n hle hlt
        rcases Nat.eq_or_lt_of_le hle with rfl | hnext
        · exact Table.mem_keys_iff.2 (Option.isSome_iff_ne_none.1 hc)
        · exact ih h n hnext (Nat.lt_of_lt_of_eq hlt (Nat.add_right_comm _ limit 1))
      · rw [if_neg hc] at h
        cases h

end SessionStore

end ScriptHost
