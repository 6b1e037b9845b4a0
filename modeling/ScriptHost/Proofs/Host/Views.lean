import ScriptHost.Proofs.Host.Steps

/-!
# What a session shows of its host

A request in a session sees the setup of the host, whether the domain is closed, how many
permits the gate has, and the contents of the session. Hosts that show the same to a session
answer alike there, and still show the same to it afterwards.
-/

namespace ScriptHost

/-- What requests in a session see of their host. -/
structure View where
  setup : Setup
  closed : Bool
  /-- The permits at the gate. -/
  free : Nat
  contents : Option Contents

namespace Host

variable {h h' k : Host} {id other : String}

def view (h : Host) (id : String) : View :=
  ⟨h.setup, h.domain.closed, (h.store.gate id).free, h.store.registry.contents? id⟩

/-- What happens within a session does not show in another. -/
theorem Within.view_of_ne (hw : Within id h h') (hne : other ≠ id) :
    h'.view other = h.view other := by
  rw [view, view, hw.setup, hw.closed, hw.gate other hne, hw.registry.contents?_of_ne hne]

theorem view_of_start {f : Flight} {after : Host × Flight} (hs : f.start h = some after)
    (hl : h.store.registry.find? id ≠ none) : after.1.view id = h.view id := by
  obtain ⟨hsetup, hclosed, hfree, hfind⟩ := Flight.start_frame hs hl
  rw [view, view, Registry.contents?, hsetup, hclosed, hfree, hfind]
  rfl

theorem view_changeGate (hv : h.view id = k.view id) {f : Semaphore → Semaphore}
    {g : Nat → Nat} (hf : ∀ s, (f s).free = g s.free) :
    { h with store := h.store.changeGate id f }.view id =
      { k with store := k.store.changeGate id f }.view id := by
  simp only [view, View.mk.injEq] at hv ⊢
  obtain ⟨hsetup, hclosed, hfree, hcontents⟩ := hv
  refine ⟨hsetup, hclosed, ?_, hcontents⟩
  rw [SessionStore.gate_changeGate_self, SessionStore.gate_changeGate_self, hf, hf, hfree]

theorem view_domain (hv : h.view id = k.view id) {d e : Domain}
    (hd : d.closed = h.domain.closed) (he : e.closed = k.domain.closed) :
    { h with domain := d }.view id = { k with domain := e }.view id := by
  simp only [view, View.mk.injEq] at hv ⊢
  rw [hd, he]
  exact hv

theorem view_registry (hv : h.view id = k.view id) {r q : Registry}
    (hc : r.contents? id = q.contents? id) (now later : Instant) :
    { h with store := { h.store with registry := r, clock := now } }.view id =
      { k with store := { k.store with registry := q, clock := later } }.view id := by
  simp only [view, View.mk.injEq] at hv ⊢
  exact ⟨hv.1, hv.2.1, hv.2.2.1, hc⟩

theorem view_openGate {b : Berth} (hv : h.view b.id = k.view b.id) :
    (Flight.openGate h b).view b.id = (Flight.openGate k b).view b.id :=
  view_changeGate hv (g := (· + 1)) fun _ => rfl

/-- To close a session shows the same, also when it is removed. -/
theorem view_closeBerth {b : Berth} (hv : h.view b.id = k.view b.id) :
    (Flight.closeBerth h b).view b.id = (Flight.closeBerth k b).view b.id := by
  rw [Flight.closeBerth, Flight.closeBerth]
  split
  · have hgone : ∀ r : Registry, (r.remove b.id).1.contents? b.id = none := fun r => by
      rw [Registry.contents?, Registry.find?_remove, if_pos rfl]
      rfl
    exact view_registry hv ((hgone _).trans (hgone _).symm) h.store.clock k.store.clock
  · exact hv

theorem view_leave {b : Berth} (hv : h.view b.id = k.view b.id) :
    (Flight.closeBerth (Flight.openGate h b) b).view b.id =
      (Flight.closeBerth (Flight.openGate k b) b).view b.id :=
  view_closeBerth (view_openGate hv)

theorem merge_agree (hv : h.view id = k.view id) (rs : List Resolved) :
    (∃ e, h.store.merge id rs = .error e ∧ k.store.merge id rs = .error e) ∨
      ∃ s t m, h.store.merge id rs = .ok (s, m) ∧ k.store.merge id rs = .ok (t, m) ∧
        { h with store := s }.view id = { k with store := t }.view id := by
  have hc : h.store.registry.contents? id = k.store.registry.contents? id :=
    congrArg View.contents hv
  rw [SessionStore.merge_eq, SessionStore.merge_eq]
  rcases Registry.merge_agree hc rs h.store.now k.store.now with
    ⟨e, hr, hq⟩ | ⟨r, q, m, hr, hq, hrq⟩
  · rw [hr, hq]
    exact Or.inl ⟨e, rfl, rfl⟩
  · rw [hr, hq]
    exact Or.inr ⟨_, _, m, rfl, rfl, view_registry hv hrq _ _⟩

theorem updateState_agree (hv : h.view id = k.view id) (c : Script.Continuation) :
    (∃ e, h.store.updateState id c = .error e ∧ k.store.updateState id c = .error e) ∨
      ∃ s t, h.store.updateState id c = .ok s ∧ k.store.updateState id c = .ok t ∧
        { h with store := s }.view id = { k with store := t }.view id := by
  have hc : h.store.registry.contents? id = k.store.registry.contents? id :=
    congrArg View.contents hv
  rw [SessionStore.updateState_eq, SessionStore.updateState_eq]
  rcases Registry.updateState_agree hc c h.store.now k.store.now with
    ⟨e, hr, hq⟩ | ⟨r, q, hr, hq, hrq⟩
  · rw [hr, hq]
    exact Or.inl ⟨e, rfl, rfl⟩
  · rw [hr, hq]
    exact Or.inr ⟨_, _, rfl, rfl, view_registry hv hrq _ _⟩

@[simp] theorem view_touch (h : Host) (id other : String) :
    { h with store := (h.store.touch id).1 }.view other = h.view other := by
  simp only [view, SessionStore.touch, SessionStore.withRegistry, SessionStore.gate,
    Registry.contents?_touch]

/-- Reading what a submission is compiled against shows in no session. -/
theorem view_of_context {references : List Resolved} {prior : Option Script.Continuation}
    {session : Option String} (hc : h.context session = .ok (h', references, prior))
    (other : String) : h'.view other = h.view other := by
  cases session with
  | none =>
      cases hc
      rfl
  | some id =>
      cases hr : h.store.registry.references id with
      | error e =>
          rw [context, hr] at hc
          cases hc
      | ok rs =>
          cases hs : h.store.registry.state id h.store.now with
          | error e =>
              rw [context, hr] at hc
              simp only [bind, Except.bind, SessionStore.state, hs] at hc
              cases hc
          | ok result =>
              rw [context, hr] at hc
              simp only [bind, Except.bind, SessionStore.state, hs] at hc
              cases hc
              simp only [view, SessionStore.withRegistry, SessionStore.gate,
                Registry.contents?_state hs]

theorem context_agree (hv : h.view id = k.view id) :
    (∃ e, h.context (some id) = .error e ∧ k.context (some id) = .error e) ∨
      ∃ h' k' references prior, h.context (some id) = .ok (h', references, prior) ∧
        k.context (some id) = .ok (k', references, prior) := by
  have hc : h.store.registry.contents? id = k.store.registry.contents? id :=
    congrArg View.contents hv
  have href := Registry.references_agree hc
  cases hr : h.store.registry.references id with
  | error e =>
      rw [hr] at href
      refine Or.inl ⟨e, ?_, ?_⟩
      · rw [context, hr]
        rfl
      · rw [context, ← href]
        rfl
  | ok rs =>
      rw [hr] at href
      rcases Registry.state_agree hc h.store.now k.store.now with
        ⟨e, hs, ht⟩ | ⟨r, q, c, hs, ht⟩
      · refine Or.inl ⟨e, ?_, ?_⟩
        · rw [context, hr]
          simp only [bind, Except.bind, SessionStore.state, hs]
        · rw [context, ← href]
          simp only [bind, Except.bind, SessionStore.state, ht]
      · refine Or.inr ⟨{ h with store := h.store.withRegistry r },
          { k with store := k.store.withRegistry q }, rs, c, ?_, ?_⟩
        · rw [context, hr]
          simp only [bind, Except.bind, SessionStore.state, hs]
          rfl
        · rw [context, ← href]
          simp only [bind, Except.bind, SessionStore.state, ht]
          rfl

end Host

end ScriptHost
