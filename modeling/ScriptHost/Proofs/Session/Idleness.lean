import Mathlib.Data.List.Basic
import ScriptHost.Proofs.Session.Operations
import ScriptHost.Session.Id

/-!
# Idle sessions

How long a session has been idle is read off its history: off the clock readings at which it was
used. To look at a store, to queue at a gate, or to use another session is no use of it. A sweep
removes the sessions whose last use lies back too far, whatever the clock has shown in between,
counts them, and leaves the others as they were.
-/

namespace ScriptHost

namespace Registry

variable {r : Registry} {id : String}

/-- A sweep leaves what has not expired, as it was. -/
theorem find?_sweep (hd : r.ids.Nodup) (now : Instant) (ttl : Int) (id : String) :
    (r.sweep now ttl).1.find? id = (r.find? id).filter fun s => !s.isExpired now ttl :=
  Table.get?_keep hd _ id

/-- The number that a sweep gives is that of the sessions that it removes. -/
theorem count_sweep (hd : r.ids.Nodup) (now : Instant) (ttl : Int) :
    (r.sweep now ttl).2 =
      (r.ids.filter fun id => ((r.sweep now ttl).1.find? id).isNone).length := by
  have hgone : ∀ e ∈ r.sessions.entries,
      ((r.sweep now ttl).1.find? e.1).isNone = !(!e.2.isExpired now ttl) := by
    intro e he
    have hfind : r.find? e.1 = some e.2 := Table.get?_of_mem hd he
    rw [find?_sweep hd, hfind, Option.filter_some]
    cases e.2.isExpired now ttl with
    | false => rfl
    | true => rfl
  have hsplit := List.length_eq_length_filter_add (l := r.sessions.entries)
    fun e => !e.2.isExpired now ttl
  have hkept : (r.sweep now ttl).2 = r.sessions.entries.length -
      (r.sessions.entries.filter fun e => !e.2.isExpired now ttl).length := rfl
  rw [ids, Table.keys, List.filter_map, List.length_map, Function.comp_def,
    List.filter_congr hgone, hkept]
  omega

/-- Nothing is left for a second sweep. -/
theorem sweep_sweep (r : Registry) (now : Instant) (ttl : Int) :
    (r.sweep now ttl).1.sweep now ttl = ((r.sweep now ttl).1, 0) := by
  have hkept : (r.sessions.keep fun _ s => !s.isExpired now ttl).keep
      (fun _ s => !s.isExpired now ttl) = r.sessions.keep fun _ s => !s.isExpired now ttl := by
    simp only [Table.keep, List.filter_filter, Bool.and_self]
  simp only [sweep, hkept, Nat.sub_self]

end Registry

namespace SessionStore

variable {s : SessionStore} {op : Operation} {id : String} {t : Session}

/-! ## Uses -/

/-- The session that an operation uses, unless it is refused. -/
def used? (s : SessionStore) : Operation → Option String
  | .create limit => (s.createWithin limit).map (·.2)
  | .state id => if (s.state id).isOk then some id else none
  | .updateState id c => if (s.updateState id c).isOk then some id else none
  | .touch id => if (s.touch id).2 then some id else none
  | .merge id rs => if (s.merge id rs).isOk then some id else none
  | .remove _ | .clear | .sweep _ | .sweepAt _ _ | .setClock _ => none

/-- A session is created at the next clock reading, however many ids are drawn for it. -/
theorem registry_of_createWithin {limit : Nat} {s' : SessionStore}
    (h : s.createWithin limit = some (s', id)) :
    s'.registry = s.registry.put id (.fresh s.now) := by
  induction limit generalizing s with
  | zero => cases h
  | succ limit ih =>
      simp only [createWithin, Registry.create?] at h
      by_cases htaken : s.registry.sessions.contains (s.ids s.drawn) = true
      · rw [if_pos htaken] at h
        exact ih (s := { s with drawn := s.drawn + 1 }) h
      · rw [if_neg htaken] at h
        cases h
        rfl

/-- What a store holds under an id after an operation: a session that the operation has used, at the
next clock reading, or the session that was there. -/
inductive Dating (s : SessionStore) (op : Operation) (id : String) (t : Session) : Prop
  | used (huse : s.used? op = some id) (hnow : t.lastAccess = s.now)
  | kept (huse : s.used? op ≠ some id) (hheld : s.find? id = some t)

/-- A session is put into its place, with the next clock reading. -/
theorem dating_of_put (other : String) (u : Session) (huse : s.used? op = some other)
    (hput : (s.perform op).1.registry = s.registry.put other u) (hnow : u.lastAccess = s.now)
    (h : (s.perform op).1.find? id = some t) : Dating s op id t := by
  rw [find?, hput, Registry.find?_put] at h
  split at h
  · rename_i heq
    cases h
    exact .used (heq ▸ huse) hnow
  · rename_i hne
    refine .kept ?_ h
    rw [huse]
    rintro ⟨⟩
    exact hne rfl

/-- No session is used, and none is new. -/
theorem dating_of_none (huse : s.used? op = none)
    (h : (s.perform op).1.find? id = some t → s.find? id = some t)
    (ht : (s.perform op).1.find? id = some t) : Dating s op id t := by
  refine .kept ?_ (h ht)
  rw [huse]
  exact nofun

/-- A session is asked for under an id that may be blank or unknown, and changed. -/
theorem dating_of_use? (other : String) (f : Session → Session)
    (hnow : ∀ u, (f u).lastAccess = s.now)
    (huse : s.used? op = if (s.registry.use? other).isOk then some other else none)
    (hput : (s.perform op).1.registry =
      match s.registry.use? other with
      | .ok u => s.registry.put other (f u)
      | .error _ => s.registry)
    (h : (s.perform op).1.find? id = some t) : Dating s op id t := by
  cases hasked : s.registry.use? other with
  | error e =>
      rw [hasked] at huse hput
      refine dating_of_none huse (fun ht => ?_) h
      rw [find?, hput] at ht
      exact ht
  | ok u =>
      rw [hasked] at huse hput
      exact dating_of_put other (f u) huse hput (hnow u) h

theorem dating_perform (hd : s.registry.ids.Nodup) (h : (s.perform op).1.find? id = some t) :
    Dating s op id t := by
  cases op with
  | create limit =>
      cases hcreate : s.createWithin limit with
      | none =>
          refine dating_of_none ?_ (fun ht => ?_) h
          · rw [used?, hcreate]
            rfl
          · rw [perform, hcreate] at ht
            exact ht
      | some created =>
          refine dating_of_put created.2 (.fresh s.now) ?_ ?_ rfl h
          · rw [used?, hcreate]
            rfl
          · rw [perform, hcreate]
            exact registry_of_createWithin hcreate
  | state other =>
      refine dating_of_use? other (·.touch s.now) (fun _ => rfl) ?_ ?_ h
      · rw [used?, state_eq, Registry.state_eq, Computation.isOk_except_map,
          Computation.isOk_except_map]
      · rw [perform, state_eq, Registry.state_eq]
        cases s.registry.use? other with
        | error e => rfl
        | ok u => rfl
  | updateState other c =>
      refine dating_of_use? other (·.store c s.now) (fun _ => rfl) ?_ ?_ h
      · rw [used?, updateState_eq, Registry.updateState_eq, Computation.isOk_except_map,
          Computation.isOk_except_map]
      · rw [perform, updateState_eq, Registry.updateState_eq]
        cases s.registry.use? other with
        | error e => rfl
        | ok u => rfl
  | merge other rs =>
      refine dating_of_use? other (fun u => (u.merge rs s.now).1) (fun _ => rfl) ?_ ?_ h
      · rw [used?, merge_eq, Registry.merge_eq, Computation.isOk_except_map,
          Computation.isOk_except_map]
      · rw [perform, merge_eq, Registry.merge_eq]
        cases s.registry.use? other with
        | error e => rfl
        | ok u => rfl
  | touch other =>
      have htouch : s.touch other =
          (s.withRegistry (s.registry.touch other s.now).1, (s.registry.touch other s.now).2) := rfl
      cases hfind : s.registry.find? other with
      | none =>
          have hmissed : s.registry.touch other s.now = (s.registry, false) := by
            rw [Registry.touch, hfind]
          rw [hmissed] at htouch
          refine dating_of_none ?_ (fun ht => ?_) h
          · rw [used?, htouch]
            rfl
          · rw [perform, htouch] at ht
            exact ht
      | some u =>
          have hfound : s.registry.touch other s.now =
              (s.registry.put other (u.touch s.now), true) := by
            rw [Registry.touch, hfind]
          rw [hfound] at htouch
          refine dating_of_put other (u.touch s.now) ?_ ?_ rfl h
          · rw [used?, htouch]
            rfl
          · rw [perform, htouch]
            rfl
  | remove other =>
      refine dating_of_none rfl (fun ht => ?_) h
      rw [find?, show (s.perform (.remove other)).1.registry = (s.registry.remove other).1 from rfl,
        Registry.find?_remove] at ht
      split at ht
      · cases ht
      · exact ht
  | clear => cases h
  | sweep ttl => exact dating_of_none rfl (Registry.find?_of_find?_sweep hd) h
  | sweepAt now ttl => exact dating_of_none rfl (Registry.find?_of_find?_sweep hd) h
  | setClock now => exact dating_of_none rfl (fun ht => ht) h

/-- A session that is used is the one addressed, or a new one. -/
theorem target_of_used (h : s.used? op = some id) : op.target? = some id ∨ s.find? id = none := by
  cases op with
  | create limit =>
      obtain ⟨created, hcreate, rfl⟩ := Option.map_eq_some_iff.1 h
      obtain ⟨n, now, -, -, hnone, -⟩ := createWithin_eq_some hcreate
      exact .inr hnone
  | state | updateState | touch | merge =>
      rw [used?, Option.ite_none_right_eq_some] at h
      exact .inl h.2
  | remove | clear | sweep | sweepAt | setClock => cases h

/-! ## Chronicles -/

/-- What is asked of a store: an operation, or what leaves the sessions alone. -/
inductive Call where
  | operation (op : Operation)
  /-- An answer is read off the store: about a session, its references, or all of them. -/
  | look
  /-- Someone comes to the gate of a session, passes it, or leaves it. -/
  | gate (id : String) (change : Semaphore → Semaphore)

def Call.target? : Call → Option String
  | operation op => op.target?
  | look | gate _ _ => none

/-- A store, and the uses of its sessions with the clock readings, the latest first. -/
structure Chronicle where
  store : SessionStore
  uses : List (String × Instant)

namespace Chronicle

/-- A store without sessions. -/
def start (clock : Instant) (ids : Nat → String) : Chronicle := ⟨.new clock ids, []⟩

/-- The chronicle goes on with a call. -/
def andThen (c : Chronicle) : Call → Chronicle
  | .operation op =>
    ⟨(c.store.perform op).1, ((c.store.used? op).map (·, c.store.now)).toList ++ c.uses⟩
  | .look => c
  | .gate id change => { c with store := c.store.changeGate id change }

/-- The chronicle goes on with calls, one after the other. -/
def run (c : Chronicle) (calls : List Call) : Chronicle := calls.foldl andThen c

/-- The clock reading at the last use of a session. -/
def lastUse? (c : Chronicle) (id : String) : Option Instant := c.uses.lookup id

variable {c : Chronicle}

theorem lastUse?_operation (c : Chronicle) (op : Operation) (id : String) :
    (c.andThen (.operation op)).lastUse? id =
      if c.store.used? op = some id then some c.store.now else c.lastUse? id := by
  simp only [lastUse?, andThen]
  cases c.store.used? op with
  | none => rfl
  | some other =>
      by_cases h : other = id
      · subst h
        rw [if_pos rfl]
        exact Table.lookup_cons_self ..
      · rw [if_neg fun heq => h (Option.some.inj heq)]
        exact Table.lookup_cons_of_ne (fun heq => h heq.symm) ..

/-- Each session bears the clock reading of its last use. -/
structure Dated (c : Chronicle) : Prop where
  nodup : c.store.registry.ids.Nodup
  lastUse : ∀ id t, c.store.find? id = some t → c.lastUse? id = some t.lastAccess

theorem Dated.start (clock : Instant) (ids : Nat → String) : Dated (start clock ids) where
  nodup := List.nodup_nil
  lastUse _ _ := nofun

theorem Dated.andThen (h : Dated c) (call : Call) : Dated (c.andThen call) := by
  cases call with
  | operation op =>
      refine ⟨(outcome_perform c.store op).nodup h.nodup, fun id t ht => ?_⟩
      rw [lastUse?_operation]
      cases dating_perform h.nodup ht with
      | used huse hnow => rw [if_pos huse, hnow]
      | kept huse hheld => rw [if_neg huse, h.lastUse id t hheld]
  | look => exact h
  | gate => exact ⟨h.nodup, h.lastUse⟩

/-- Calls leave each session with the clock reading of its last use. -/
theorem Dated.run (h : Dated c) (calls : List Call) : Dated (c.run calls) := by
  induction calls generalizing c with
  | nil => exact h
  | cons call calls ih => exact ih (h.andThen call)

/-- A call that is not addressed to a live session is no use of it. -/
theorem lastUse?_of_target {call : Call} {t : Session} (hlive : c.store.find? id = some t)
    (htarget : call.target? ≠ some id) : (c.andThen call).lastUse? id = c.lastUse? id := by
  cases call with
  | operation op =>
      rw [lastUse?_operation, if_neg]
      intro huse
      rcases target_of_used huse with haddressed | hfree
      · exact htarget haddressed
      · exact nomatch hlive.symm.trans hfree
  | look | gate => rfl

/-! ## Sweeps -/

/-- The session was last used at this clock reading, and that lies back further than the time to
live, which is no longer than spans of time are. -/
def IsIdle (c : Chronicle) (now : Instant) (ttl : Int) (id : String) : Prop :=
  ∃ used, c.lastUse? id = some used ∧ ttl ≤ Instant.maxSpan ∧ ttl < now - used

/-- What a sweep does with the store of a chronicle. -/
structure SweepsIdle (c : Chronicle) (now : Instant) (ttl : Int) : Prop where
  lastUse : ∀ id t, c.store.find? id = some t → ∃ used, c.lastUse? id = some used
  /-- Of the live sessions, exactly the idle ones are removed. -/
  removed_iff : ∀ id t, c.store.find? id = some t →
    ((c.store.sweepAt now ttl).1.find? id = none ↔ c.IsIdle now ttl id)
  /-- What is left is as it was. -/
  unchanged : ∀ id t, (c.store.sweepAt now ttl).1.find? id = some t → c.store.find? id = some t
  nodup : c.store.registry.ids.Nodup
  count : (c.store.sweepAt now ttl).2 =
    (c.store.registry.ids.filter fun id =>
      ((c.store.sweepAt now ttl).1.find? id).isNone).length
  again : (c.store.sweepAt now ttl).1.sweepAt now ttl = ((c.store.sweepAt now ttl).1, 0)
  /-- The life of a session is extended by no call that is not addressed to it. -/
  spared : ∀ call id t, c.store.find? id = some t → call.target? ≠ some id →
    (c.andThen call).lastUse? id = c.lastUse? id

theorem Dated.isExpired_iff (h : Dated c) {now : Instant} {ttl : Int} {t : Session}
    (ht : c.store.find? id = some t) : t.isExpired now ttl = true ↔ c.IsIdle now ttl id := by
  rw [IsIdle, h.lastUse id t ht, Session.isExpired, Bool.and_eq_true, decide_eq_true_eq,
    decide_eq_true_eq]
  constructor
  · intro hexpired
    exact ⟨t.lastAccess, rfl, hexpired⟩
  · rintro ⟨_, ⟨⟩, hexpired⟩
    exact hexpired

theorem Dated.sweepsIdle (h : Dated c) (now : Instant) (ttl : Int) : SweepsIdle c now ttl where
  lastUse id t ht := ⟨t.lastAccess, h.lastUse id t ht⟩
  removed_iff id t ht := by
    have hfind : (c.store.sweepAt now ttl).1.find? id = (some t).filter fun s =>
        !s.isExpired now ttl := by
      rw [← ht]
      exact Registry.find?_sweep h.nodup now ttl id
    rw [hfind, Option.filter_some, ← h.isExpired_iff ht]
    cases t.isExpired now ttl with
    | false => exact iff_of_false nofun nofun
    | true => exact iff_of_true rfl rfl
  unchanged _ _ := Registry.find?_of_find?_sweep h.nodup
  nodup := h.nodup
  count := Registry.count_sweep h.nodup now ttl
  again := by
    have hagain := Registry.sweep_sweep c.store.registry now ttl
    simp only [sweepAt, hagain]
  spared _ _ _ := lastUse?_of_target

end Chronicle

/-- Whatever is asked of a new store, and whatever its clock shows, a sweep removes exactly the live
sessions that have been idle since their last use for longer than the time to live. -/
theorem sweepsIdle_of_run (clock : Instant) (ids : Nat → String) (calls : List Call)
    (now : Instant) (ttl : Int) :
    ((Chronicle.start clock ids).run calls).SweepsIdle now ttl :=
  ((Chronicle.Dated.start clock ids).run calls).sweepsIdle now ttl

/-- Two sessions; the clock is set back before the first is used for the last time. A merge that
adds nothing is a use, a refused merge is none. -/
example :
    let first := SessionId.ofNumber 0
    let c := (Chronicle.start 0 SessionId.ofNumber).run
      [.operation (.setClock 9000), .operation (.create 1), .operation (.create 1),
        .operation (.setClock 4000), .operation (.merge first []), .gate first .release,
        .operation (.merge " " []), .look]
    (c.lastUse? first, (c.store.sweepAt 9000 3999).2, (c.store.sweepAt 9000 4000).2) =
      (some 5000, 1, 0) := by
  decide +kernel

end SessionStore

end ScriptHost
