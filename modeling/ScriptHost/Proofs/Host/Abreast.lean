import ScriptHost.Proofs.Host.Alone
import ScriptHost.Proofs.Host.Tandem

/-!
# Requests abreast

The same request is served on two hosts that show the same to its session and serve nobody else. It
takes the same steps on both at the same moments, and it ends with the same reply.
-/

namespace ScriptHost

namespace Flight

variable {id : String} {units units' now : Nat} {h k : Host} {f g : Flight}

/-- The request is the only one on its host: the gate of its session is open for it, and so is the
domain. -/
def Ready (id : String) (units : Nat) (h : Host) (f : Flight) : Prop :=
  match f.phase with
  | .opening => f.job.session? = some id ∧ h.Permits id (.new 1) ⟨units + 1, []⟩
  | .atGate b => b.id = id ∧ h.Permits id ⟨1, [f.ticket]⟩ ⟨units + 1, []⟩
  | _ => Alone id units h f

/-- The same request on two hosts that its session cannot tell apart. -/
structure Abreast (id : String) (units units' : Nat) (h k : Host) (f g : Flight) : Prop where
  flight : f.unnumbered = g.unnumbered
  view : h.view id = k.view id
  left : Ready id units h f
  right : Ready id units' k g

theorem ready_of_alone (ha : Alone id units h f) : Ready id units h f := by
  have halone := ha
  rw [Alone] at ha
  rw [Ready]
  cases hp : f.phase with
  | opening | atGate =>
      rw [hp] at ha
      exact ha.elim
  | resolving | compiling | queued | running | done => exact halone

/-- Only the permits of the session matter. -/
theorem Ready.of_permits (hr : Ready id units h f) (hgate : k.store.gate id = h.store.gate id)
    (hslots : k.domain.slots = h.domain.slots) : Ready id units k f := by
  have permits : ∀ {gate slots : Semaphore}, h.Permits id gate slots → k.Permits id gate slots :=
    fun hp => ⟨hgate.trans hp.gate, hslots.trans hp.slots⟩
  simp only [Ready, Alone] at hr ⊢
  cases hp : f.phase with
  | opening | atGate | resolving | compiling | queued | running =>
      rw [hp] at hr
      exact ⟨hr.1, permits hr.2⟩
  | done =>
      rw [hp] at hr
      exact permits hr

theorem ready_joinGate {b : Berth} (hk : k.Permits b.id (.new 1) ⟨units + 1, []⟩) (f : Flight) :
    Ready b.id units (joinGate k f b).1 (joinGate k f b).2 :=
  ⟨rfl, (joinGate_alone f hk).2⟩

theorem abreast_start (hp : f.phase = .opening) (ha : Abreast id units units' h k f f) :
    ∃ x y, f.start h = some x ∧ f.start k = some y ∧ Abreast id units units' x.1 y.1 x.2 y.2 := by
  have hleft := ha.left
  have hright := ha.right
  rw [Ready, hp] at hleft hright
  obtain ⟨hj, hh⟩ := hleft
  have hk := hright.2
  have hc : h.store.registry.contents? id = k.store.registry.contents? id :=
    congrArg View.contents ha.view
  rcases Registry.find?_agree hc with ⟨hn, hn'⟩ | ⟨s, s', hs, hs', -⟩
  · refine ⟨_, _, start_eq_findBerth hj h, start_eq_findBerth hj k, ?_⟩
    simp only [findBerth, hn, hn']
    exact ⟨rfl, ha.view, hh, hk⟩
  · refine ⟨_, _, start_eq_findBerth hj h, start_eq_findBerth hj k, ?_⟩
    simp only [findBerth, hs, hs']
    refine ⟨rfl, ?_, ready_joinGate hh f, ready_joinGate hk f⟩
    calc (joinGate h f ⟨id, false⟩).1.view id = h.view id :=
          (joinGate_alone (b := ⟨id, false⟩) f hh).1
      _ = k.view id := ha.view
      _ = (joinGate k f ⟨id, false⟩).1.view id :=
          (joinGate_alone (b := ⟨id, false⟩) f hk).1.symm

theorem permits_leaveGate {b : Berth} (hk : k.Permits b.id ⟨1, [f.ticket]⟩ ⟨units + 1, []⟩) :
    { k with store := k.store.changeGate b.id (·.leave f.ticket) }.Permits b.id (.new 1)
      ⟨units + 1, []⟩ := by
  refine ⟨?_, hk.slots⟩
  show (k.store.changeGate b.id _).gate b.id = _
  rw [SessionStore.gate_changeGate_self, hk.gate]
  simp [Semaphore.leave, Semaphore.new]

theorem abreast_passGate {b : Berth} (hp : f.phase = .atGate b)
    (ha : Abreast id units units' h k f f) :
    ∃ x y, passGate h f now b = some x ∧ passGate k f now b = some y ∧
      Abreast id units units' x.1 y.1 x.2 y.2 := by
  have hleft := ha.left
  have hright := ha.right
  have hv := ha.view
  rw [Ready, hp] at hleft hright
  obtain ⟨rfl, hh⟩ := hleft
  have hk := hright.2
  cases habort : f.isAborted now with
  | true =>
      have hview := Host.view_changeGate hv (f := (·.leave f.ticket)) (g := fun n => n)
        fun _ => rfl
      refine ⟨_, _, if_pos habort, if_pos habort, rfl, Host.view_closeBerth hview, ?_, ?_⟩
      · exact (permits_leaveGate hh).writes (writes_closeBerth _ b)
      · exact (permits_leaveGate hk).writes (writes_closeBerth _ b)
  | false =>
      have hmay : (h.store.gate b.id).mayEnter f.ticket = true := by
        rw [hh.gate]
        simp [Semaphore.mayEnter]
      obtain ⟨x, hx⟩ := Option.isSome_iff_exists.1 (isSome_passGate hmay now)
      obtain ⟨y, hy, hxy⟩ := follows_passGate hv hk habort hx
      obtain ⟨x', hx', hyx⟩ := follows_passGate hv.symm hh habort hy
      obtain rfl := Option.some.inj (hx.symm.trans hx')
      exact ⟨x, y, hx, hy, hxy.flight, hxy.view, ready_of_alone hyx.alone,
        ready_of_alone hxy.alone⟩

theorem abreast_alone (ha : Abreast id units units' h k f g) (hh : Alone id units h f)
    (hk : Alone id units' k g) :
    (f.advance h now = none ∧ g.advance k now = none) ∨
      ∃ x y, f.advance h now = some x ∧ g.advance k now = some y ∧
        Abreast id units units' x.1 y.1 x.2 y.2 := by
  cases hx : f.advance h now with
  | none =>
      left
      refine ⟨rfl, ?_⟩
      cases hy : g.advance k now with
      | none => rfl
      | some y =>
          obtain ⟨x, hx', -⟩ := follows_advance ha.flight.symm ha.view.symm hh hy
          cases hx.symm.trans hx'
  | some x =>
      right
      obtain ⟨y, hy, hxy⟩ := follows_advance ha.flight ha.view hk hx
      obtain ⟨x', hx', hyx⟩ := follows_advance ha.flight.symm ha.view.symm hh hy
      obtain rfl := Option.some.inj (hx.symm.trans hx')
      exact ⟨x, y, rfl, hy, hxy.flight, hxy.view, ready_of_alone hyx.alone,
        ready_of_alone hxy.alone⟩

/-- The request takes its next step on both hosts, or on neither. -/
theorem abreast_advance (ha : Abreast id units units' h k f g) (now : Nat) :
    (f.advance h now = none ∧ g.advance k now = none) ∨
      ∃ x y, f.advance h now = some x ∧ g.advance k now = some y ∧
        Abreast id units units' x.1 y.1 x.2 y.2 := by
  rcases eq_or_running ha.flight with rfl | ⟨b, notes, warnings, run, run', hp, rfl, -⟩
  · have hleft := ha.left
    have hright := ha.right
    rw [Ready] at hleft hright
    cases hp : f.phase with
    | opening =>
        rw [advance_of_opening hp, advance_of_opening hp]
        exact Or.inr (abreast_start hp ha)
    | atGate b =>
        rw [advance, advance, hp]
        exact Or.inr (abreast_passGate hp ha)
    | resolving | compiling | queued | running | done =>
        rw [hp] at hleft hright
        exact abreast_alone ha hleft hright
  · have hleft := ha.left
    rw [Ready, hp] at hleft
    exact abreast_alone ha hleft ha.right

/-- A session removed on both hosts is gone on both. -/
theorem Abreast.remove (ha : Abreast id units units' h k f g) (session : String) :
    Abreast id units units' { h with store := (h.store.remove session).1 }
      { k with store := (k.store.remove session).1 } f g := by
  have hc : h.store.registry.contents? id = k.store.registry.contents? id :=
    congrArg View.contents ha.view
  have hremoved : (h.store.registry.remove session).1.contents? id =
      (k.store.registry.remove session).1.contents? id := by
    simp only [Registry.contents?, Registry.find?_remove] at hc ⊢
    split
    · rfl
    · exact hc
  exact ⟨ha.flight, Host.view_registry ha.view hremoved _ _, ha.left.of_permits rfl rfl,
    ha.right.of_permits rfl rfl⟩

end Flight

end ScriptHost
