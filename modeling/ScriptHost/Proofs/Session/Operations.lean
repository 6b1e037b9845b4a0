import ScriptHost.Proofs.Session.Edits

/-!
# Operations of a session store

What one operation, whatever its arguments, can do to what the store holds under an id: leave it,
remove it, refresh its time of access, store what a run left, attach references, or put a fresh
session where there was none. Every invariant of the sessions is read off these cases.
-/

namespace ScriptHost

theorem Reference.sameAs_comm (a b : Reference) : a.sameAs b = b.sameAs a := by
  rw [sameAs, sameAs, Text.sameAsciiFold, Text.sameAsciiFold, Bool.beq_comm,
    Bool.beq_comm (a := a.version)]

namespace Session

variable {attached rs : List Resolved} {s : Session}

/-- References go to the end, and those added are the ones that callers are told of. -/
theorem addReferences_eq (attached rs : List Resolved) :
    (addReferences attached rs).1 = attached ++ (addReferences attached rs).2 := by
  induction rs generalizing attached with
  | nil => exact (List.append_nil _).symm
  | cons r rs ih =>
      rw [addReferences]
      split
      · exact ih attached
      · have hrest := ih (attached ++ [r])
        rw [List.append_assoc] at hrest
        exact hrest

/-- No reference is attached that is there already, nor one twice from the same batch. -/
theorem pairwise_addReferences
    (h : attached.Pairwise fun a b => a.reference.sameAs b.reference = false) (rs : List Resolved) :
    (addReferences attached rs).1.Pairwise fun a b => a.reference.sameAs b.reference = false := by
  induction rs generalizing attached with
  | nil => exact h
  | cons r rs ih =>
      rw [addReferences]
      split
      · exact ih h
      · rename_i habsent
        refine ih (List.pairwise_append.2 ⟨h, List.pairwise_singleton _ r, ?_⟩)
        intro a ha b hb
        rw [List.mem_singleton.1 hb]
        rw [hasReference, List.any_eq_true, not_exists] at habsent
        exact Bool.eq_false_iff.2 fun hsame => habsent a ⟨ha, hsame⟩

/-- A merge that discards the continuation also makes the session uninitialized. -/
theorem initialized_merge (h : s.initialized = s.continuation.isSome) (rs : List Resolved)
    (now : Instant) :
    (s.merge rs now).1.initialized = (s.merge rs now).1.continuation.isSome := by
  unfold merge
  dsimp only
  split
  · rfl
  · exact h

end Session

namespace SessionStore

/-- What can be asked of a store. To create a session, at most `limit` ids are drawn; a request
without a session of its own creates one and removes it when it ends. The clock may show anything
between two operations. -/
inductive Operation where
  | create (limit : Nat)
  | state (id : String)
  | updateState (id : String) (c : Script.Continuation)
  | touch (id : String)
  | merge (id : String) (rs : List Resolved)
  | remove (id : String)
  | clear
  | sweep (ttl : Int)
  | sweepAt (now : Instant) (ttl : Int)
  | setClock (now : Instant)

/-- The session that an operation is addressed to. -/
def Operation.target? : Operation → Option String
  | state id | updateState id _ | touch id | merge id _ | remove id => some id
  | create _ | clear | sweep _ | sweepAt _ _ | setClock _ => none

/-- What is counted: sessions created, and runs whose outcome was stored. -/
inductive Event where
  | created (id : String)
  | stored (id : String)
deriving DecidableEq

def Event.id : Event → String
  | created id | stored id => id

/-- The store after an operation, and what is counted of it; an operation that is refused leaves
the store as it is. -/
def perform (s : SessionStore) : Operation → SessionStore × List Event
  | .create limit =>
    match s.createWithin limit with
    | some (s', id) => (s', [.created id])
    | none => (s, [])
  | .state id =>
    match s.state id with
    | .ok (s', _) => (s', [])
    | .error _ => (s, [])
  | .updateState id c =>
    match s.updateState id c with
    | .ok s' => (s', [.stored id])
    | .error _ => (s, [])
  | .touch id => ((s.touch id).1, [])
  | .merge id rs =>
    match s.merge id rs with
    | .ok (s', _) => (s', [])
    | .error _ => (s, [])
  | .remove id => ((s.remove id).1, [])
  | .clear => (s.clear.1, [])
  | .sweep ttl => ((s.sweep ttl).1, [])
  | .sweepAt now ttl => ((s.sweepAt now ttl).1, [])
  | .setClock now => ({ s with clock := now }, [])

/-- The session under an id. -/
def find? (s : SessionStore) (id : String) : Option Session := s.registry.find? id

/-- What an operation does to what a store holds under an id, with what is counted of it. -/
inductive Change (id : String) : Option Session → Option Session → List Event → Prop
  | same {held : Option Session} {events : List Event} (h : ∀ e ∈ events, e.id ≠ id) :
      Change id held held events
  | gone {held : Option Session} : Change id held none []
  | created (now : Instant) : Change id none (some (.fresh now)) [.created id]
  | accessed (t : Session) (now : Instant) : Change id (some t) (some (t.touch now)) []
  | stored (t : Session) (c : Script.Continuation) (now : Instant) :
      Change id (some t) (some (t.store c now)) [.stored id]
  | merged (t : Session) (rs : List Resolved) (now : Instant) :
      Change id (some t) (some (t.merge rs now).1) []

/-- All that an operation can leave of a registry, with what is counted of it: the registry as it
was, a fresh session under an id that was free, another session in place of the one it is addressed
to, or fewer sessions. -/
inductive Outcome (s : SessionStore) : Operation → Registry → List Event → Prop
  | stays {op : Operation} : Outcome s op s.registry []
  | created {limit n : Nat} {now : Instant} (hfree : s.find? (s.ids n) = none) :
      Outcome s (.create limit) (s.registry.put (s.ids n) (.fresh now)) [.created (s.ids n)]
  | replaced {op : Operation} {id : String} {t t' : Session} {events : List Event}
      (htarget : op.target? = some id) (hlive : s.find? id = some t)
      (hchange : Change id (some t) (some t') events) (hevents : ∀ e ∈ events, e = .stored id) :
      Outcome s op (s.registry.put id t') events
  | removed {id : String} : Outcome s (.remove id) (s.registry.remove id).1 []
  | cleared : Outcome s .clear .empty []
  | swept {op : Operation} (now : Instant) (ttl : Int) (htarget : op.target? = none) :
      Outcome s op (s.registry.sweep now ttl).1 []

variable {s : SessionStore} {id : String} {op : Operation}

theorem outcome_perform (s : SessionStore) (op : Operation) :
    Outcome s op (s.perform op).1.registry (s.perform op).2 := by
  cases op with
  | create limit =>
      rw [perform]
      split
      · rename_i s' id hcreate
        obtain ⟨n, now, -, rfl, hfree, rfl⟩ := createWithin_eq_some hcreate
        exact .created hfree
      · exact .stays
  | state id =>
      rw [perform, state_eq, Registry.state_eq]
      cases huse : s.registry.use? id with
      | error e => exact .stays
      | ok t =>
          exact .replaced rfl (Registry.find?_of_use? huse) (.accessed t s.now)
            (List.forall_mem_nil _)
  | updateState id c =>
      rw [perform, updateState_eq, Registry.updateState_eq]
      cases huse : s.registry.use? id with
      | error e => exact .stays
      | ok t =>
          exact .replaced rfl (Registry.find?_of_use? huse) (.stored t c s.now)
            fun e => List.mem_singleton.1
  | touch id =>
      show Outcome s (.touch id) (s.registry.touch id s.now).1 []
      rw [Registry.touch]
      split
      · rename_i t hlive
        exact .replaced rfl hlive (.accessed t s.now) (List.forall_mem_nil _)
      · exact .stays
  | merge id rs =>
      rw [perform, merge_eq, Registry.merge_eq]
      cases huse : s.registry.use? id with
      | error e => exact .stays
      | ok t =>
          exact .replaced rfl (Registry.find?_of_use? huse) (.merged t rs s.now)
            (List.forall_mem_nil _)
  | remove id => exact .removed
  | clear => exact .cleared
  | sweep ttl => exact .swept s.now ttl rfl
  | sweepAt now ttl => exact .swept now ttl rfl
  | setClock now => exact .stays

namespace Outcome

variable {r : Registry} {events : List Event}

/-- What an operation does under each id. -/
theorem change (h : Outcome s op r events) (hd : s.registry.ids.Nodup) (other : String) :
    Change other (s.find? other) (r.find? other) events := by
  cases h with
  | stays => exact .same nofun
  | @created limit n now hfree =>
      rw [Registry.find?_put]
      by_cases hother : other = s.ids n
      · rw [if_pos hother, hother, hfree]
        exact .created now
      · rw [if_neg hother]
        refine .same fun e he => ?_
        rw [List.mem_singleton.1 he]
        exact fun h => hother h.symm
  | @replaced _ id t t' events htarget hlive hchange hevents =>
      rw [Registry.find?_put]
      by_cases hother : other = id
      · rw [if_pos hother, hother, hlive]
        exact hchange
      · rw [if_neg hother]
        refine .same fun e he => ?_
        rw [hevents e he]
        exact fun h => hother h.symm
  | removed =>
      rw [Registry.find?_remove]
      split
      · exact .gone
      · exact .same nofun
  | cleared => exact .gone
  | swept now ttl =>
      cases hkept : (s.registry.sweep now ttl).1.find? other with
      | none => exact .gone
      | some t =>
          rw [find?, Registry.find?_of_find?_sweep hd hkept]
          exact .same nofun

/-- An operation addressed to a session is done on its behalf. -/
theorem edit (h : Outcome s op r events) (htarget : op.target? = some id) :
    Registry.Edit id s.registry r := by
  cases h with
  | stays => exact .refl _
  | created => cases htarget
  | @replaced _ id' t t' _ htarget' hlive =>
      cases htarget.symm.trans htarget'
      exact .put hlive t'
  | removed =>
      cases htarget
      exact .remove _
  | cleared => cases htarget
  | swept now ttl hnone => cases htarget.symm.trans hnone

theorem nodup (h : Outcome s op r events) (hd : s.registry.ids.Nodup) : r.ids.Nodup := by
  cases h with
  | stays => exact hd
  | created | replaced => exact Table.nodup_keys_set hd _ _
  | removed => exact Table.nodup_keys_erase hd _
  | cleared => exact List.nodup_nil
  | swept => exact Table.nodup_keys_keep hd _

/-- A session is created under an id that was drawn. -/
theorem drawn (h : Outcome s op r events) (hcreated : .created id ∈ events) :
    ∃ n, s.ids n = id := by
  cases h with
  | @created limit n =>
      cases List.mem_singleton.1 hcreated
      exact ⟨n, rfl⟩
  | replaced htarget hlive hchange hevents => cases hevents _ hcreated
  | stays | removed | cleared | swept => cases hcreated

end Outcome

/-- The source of ids stays the same. -/
theorem ids_perform (s : SessionStore) (op : Operation) : (s.perform op).1.ids = s.ids := by
  cases op with
  | create limit =>
      rw [perform]
      split
      · rename_i s' id hcreate
        obtain ⟨n, now, -, -, -, rfl⟩ := createWithin_eq_some hcreate
        rfl
      · rfl
  | state id =>
      rw [perform, state_eq]
      cases s.registry.state id s.now with
      | error e => rfl
      | ok found => rfl
  | updateState id c =>
      rw [perform, updateState_eq]
      cases s.registry.updateState id c s.now with
      | error e => rfl
      | ok r => rfl
  | merge id rs =>
      rw [perform, merge_eq]
      cases s.registry.merge id rs s.now with
      | error e => rfl
      | ok merged => rfl
  | touch | remove | clear | sweep | sweepAt | setClock => rfl

end SessionStore

end ScriptHost
