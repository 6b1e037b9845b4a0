import ScriptHost.Host.Flight
import ScriptHost.Proofs.Session.Contents

/-!
# Steps within a session

A request that has found its session touches that session only: what the registry holds under
its id, its gate, and the queue for units. The setup of the host and the source of ids stay as
they are, and so does everything that belongs to other sessions.
-/

namespace ScriptHost

namespace SessionStore

theorem gate_changeGate (s : SessionStore) (id other : String) (f : Semaphore → Semaphore) :
    (s.changeGate id f).gate other = if other = id then f (s.gate id) else s.gate other := by
  simp only [gate, changeGate, Table.get?_set]
  split
  · rfl
  · rfl

theorem gate_changeGate_self (s : SessionStore) (id : String) (f : Semaphore → Semaphore) :
    (s.changeGate id f).gate id = f (s.gate id) := by
  rw [gate_changeGate, if_pos rfl]

end SessionStore

namespace Host

variable {id other : String} {h h' h'' : Host}

/-- Only the registry and the clock change, and the registry only in one session. -/
inductive Writes (id : String) (h : Host) : Host → Prop
  | intro {r : Registry} (edit : Registry.Edit id h.store.registry r) (clock : Instant) :
      Writes id h { h with store := { h.store with registry := r, clock := clock } }

namespace Writes

theorem refl (id : String) (h : Host) : Writes id h h :=
  .intro (.refl _) h.store.clock

theorem gate (hw : Writes id h h') (other : String) :
    h'.store.gate other = h.store.gate other := by
  cases hw
  rfl

theorem domain (hw : Writes id h h') : h'.domain = h.domain := by
  cases hw
  rfl

theorem setup (hw : Writes id h h') : h'.setup = h.setup := by
  cases hw
  rfl

end Writes

/-- The host changes in one session, and in the queue for units. -/
structure Within (id : String) (h h' : Host) : Prop where
  setup : h'.setup = h.setup
  closed : h'.domain.closed = h.domain.closed
  ids : h'.store.ids = h.store.ids
  drawn : h'.store.drawn = h.store.drawn
  gate : ∀ other, other ≠ id → h'.store.gate other = h.store.gate other
  registry : Registry.Edit id h.store.registry h'.store.registry

namespace Within

theorem refl (id : String) (h : Host) : Within id h h where
  setup := rfl
  closed := rfl
  ids := rfl
  drawn := rfl
  gate _ _ := rfl
  registry := .refl _

theorem trans (hw : Within id h h') (hw' : Within id h' h'') : Within id h h'' where
  setup := hw'.setup.trans hw.setup
  closed := hw'.closed.trans hw.closed
  ids := hw'.ids.trans hw.ids
  drawn := hw'.drawn.trans hw.drawn
  gate other hne := (hw'.gate other hne).trans (hw.gate other hne)
  registry := hw.registry.trans hw'.registry

theorem of_writes (hw : Writes id h h') : Within id h h' := by
  cases hw with
  | intro edit clock =>
      exact ⟨rfl, rfl, rfl, rfl, fun _ _ => rfl, edit⟩

theorem of_domain {d : Domain} (hd : d.closed = h.domain.closed) :
    Within id h { h with domain := d } :=
  ⟨rfl, hd, rfl, rfl, fun _ _ => rfl, .refl _⟩

theorem of_changeGate (id : String) (h : Host) (f : Semaphore → Semaphore) :
    Within id h { h with store := h.store.changeGate id f } where
  setup := rfl
  closed := rfl
  ids := rfl
  drawn := rfl
  gate other hne := by rw [SessionStore.gate_changeGate, if_neg hne]
  registry := .refl _

end Within

theorem writes_of_merge {rs : List Resolved} {s : SessionStore} {m : Merge}
    (hm : h.store.merge id rs = .ok (s, m)) : Writes id h { h with store := s } := by
  rw [SessionStore.merge_eq] at hm
  obtain ⟨merged, hr, heq⟩ := Computation.except_map_eq_ok_iff.1 hm
  cases heq
  exact .intro (Registry.edit_of_merge hr) _

theorem writes_of_state {s : SessionStore} {c : Option Script.Continuation}
    (hs : h.store.state id = .ok (s, c)) : Writes id h { h with store := s } := by
  rw [SessionStore.state_eq] at hs
  obtain ⟨found, hr, heq⟩ := Computation.except_map_eq_ok_iff.1 hs
  cases heq
  exact .intro (Registry.edit_of_state hr) _

theorem writes_of_updateState {c : Script.Continuation} {s : SessionStore}
    (hu : h.store.updateState id c = .ok s) : Writes id h { h with store := s } := by
  rw [SessionStore.updateState_eq] at hu
  obtain ⟨r, hr, rfl⟩ := Computation.except_map_eq_ok_iff.1 hu
  exact .intro (Registry.edit_of_updateState hr) _

theorem writes_touch (h : Host) (id : String) :
    Writes id h { h with store := (h.store.touch id).1 } :=
  .intro (Registry.edit_touch h.store.registry id h.store.now) _

theorem writes_remove (h : Host) (id : String) :
    Writes id h { h with store := (h.store.remove id).1 } :=
  .intro (.remove h.store.registry) h.store.clock

/-- To read what a submission is compiled against touches the session only. -/
theorem writes_of_context {references : List Resolved} {prior : Option Script.Continuation}
    (hc : h.context (some id) = .ok (h', references, prior)) : Writes id h h' := by
  cases hr : h.store.registry.references id with
  | error e =>
      rw [context, hr] at hc
      cases hc
  | ok rs =>
      cases hs : h.store.state id with
      | error e =>
          rw [context, hr] at hc
          simp only [bind, Except.bind, hs] at hc
          cases hc
      | ok result =>
          rw [context, hr] at hc
          simp only [bind, Except.bind, hs] at hc
          cases hc
          exact writes_of_state hs

end Host

end ScriptHost
