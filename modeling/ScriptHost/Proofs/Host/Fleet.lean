import Mathlib.Data.List.Nodup
import ScriptHost.Proofs.Host.Views

/-!
# Fleets

Requests in flight on one host, whose steps come in any order, mixed with operations that do
not queue at gates. A run of a fleet records who passes the gate of a session, in which order,
and at which moments each takes its steps from then on. The same requests can be run one after
another: each starts when those before it have replied.
-/

namespace ScriptHost

/-- What is done to a host without waiting at a gate. -/
inductive Operation where
  | validate (source : String) (session : Option String)
  | inspect (session : Option String)
  | reset (session : Option String)
  | remove (session : String)
  | sweep (now : Instant) (ttl : Int)
deriving DecidableEq, Repr

/-- The host after an operation. -/
def Operation.perform (h : Host) : Operation → Host
  | validate source session => (h.validate source session).1
  | inspect session => (h.inspect session).1
  | reset session => (h.reset session).1
  | remove session => { h with store := (h.store.remove session).1 }
  | sweep now ttl => { h with store := (h.store.sweepAt now ttl).1 }

/-- What happens in a fleet. -/
inductive Event where
  /-- A request takes its next step at a moment. -/
  | turn (ticket : Ticket) (now : Nat)
  | operation (o : Operation)
deriving DecidableEq, Repr

/-- Requests in flight on a host. -/
structure Fleet where
  host : Host
  flights : List Flight

namespace Flight

/-- The request takes steps at moments, one after another. -/
def follow (h : Host) (f : Flight) (moments : List Nat) : Option (Host × Flight) :=
  moments.foldlM (fun x now => x.2.advance x.1 now) (h, f)

/-- The session whose gate the next step of the request passes, if it is the one with an id. An
abort comes first. -/
def passing? (f : Flight) (id : String) (now : Nat) : Option Berth :=
  match f.phase with
  | .atGate b => if b.id = id ∧ f.isAborted now = false then some b else none
  | _ => none

end Flight

/-- A request that has passed a gate, as it was before it started, its session, and the moments
of its steps from the gate on. -/
structure Passage where
  flight : Flight
  berth : Berth
  moments : List Nat

namespace Passage

/-- The request goes to the gate of the session that it names, or of the one created for it. -/
def approach (p : Passage) (h : Host) : Option (Host × Flight) :=
  match p.flight.job.session? with
  | some _ => p.flight.start h
  | none => some (Flight.joinGate h p.flight p.berth)

/-- The request goes to the gate, and takes its steps at the moments. -/
def alone (p : Passage) (h : Host) : Option (Host × Flight) :=
  (p.approach h).bind fun x => x.2.follow x.1 p.moments

/-- The passage with one more step, if it is that of the ticket. -/
def extend (p : Passage) (ticket : Ticket) (now : Nat) : Passage :=
  if p.flight.ticket = ticket then { p with moments := p.moments ++ [now] } else p

end Passage

/-- The requests run one after another: each starts when those before it have replied. The last
may be under way still. -/
inductive Serially (h : Host) : List Passage → Host → List Flight → Prop
  | nil : Serially h [] h []
  | snoc {ps : List Passage} {k k' : Host} {gs : List Flight} {p : Passage} {g : Flight}
      (before : Serially h ps k gs) (replied : ∀ g ∈ gs, g.reply?.isSome)
      (run : p.alone k = some (k', g)) : Serially h (ps ++ [p]) k' (gs ++ [g])

/-- The session is live. -/
def Host.IsLive (id : String) (h : Host) : Prop := h.store.registry.find? id ≠ none

namespace Fleet

/-- The request with a ticket. -/
def flight? (s : Fleet) (ticket : Ticket) : Option Flight :=
  s.flights.find? (·.ticket == ticket)

/-- The reply to the request with a ticket. -/
def reply? (s : Fleet) (ticket : Ticket) : Option JobReply := (s.flight? ticket).bind (·.reply?)

/-- The fleet with the request of the same ticket replaced, and the host. -/
def update (s : Fleet) (after : Host × Flight) : Fleet :=
  ⟨after.1, s.flights.map fun g => if g.ticket = after.2.ticket then after.2 else g⟩

/-- The fleet after an event; none if the event cannot happen. -/
def step (s : Fleet) : Event → Option Fleet
  | .turn ticket now =>
    (s.flight? ticket).bind fun f => (f.advance s.host now).map s.update
  | .operation o => some { s with host := o.perform s.host }

/-- The passages of a session when an event comes next. -/
def note (s : Fleet) (id : String) (e : Event) (ps : List Passage) : List Passage :=
  match e with
  | .turn ticket now =>
    match s.flight? ticket with
    | some f =>
      match f.passing? id now with
      | some b => ps ++ [⟨f.anew, b, [now]⟩]
      | none => ps.map (·.extend ticket now)
    | none => ps
  | .operation _ => ps

/-- A fleet goes through events, with those who pass the gate of a session, and `p` holds of
its host all along. -/
inductive Run (id : String) (p : Host → Prop) (s : Fleet) : List Passage → Fleet → Prop
  | start (h : p s.host) : Run id p s [] s
  | step {ps : List Passage} {m s' : Fleet} {e : Event} (run : Run id p s ps m)
      (hstep : m.step e = some s') (h : p s'.host) : Run id p s (m.note id e ps) s'

/-- The events happen one after another, and the session stays live: those who pass its gate, and
the fleet at the end. -/
def play (id : String) (ps : List Passage) (s : Fleet) : List Event → Option (List Passage × Fleet)
  | [] => some (ps, s)
  | e :: es =>
    (s.step e).bind fun m =>
      if (m.host.store.registry.find? id).isSome then play id (s.note id e ps) m es else none

end Fleet

namespace Fleet

variable {s : Fleet} {f x : Flight} {ticket : Ticket} {after : Host × Flight}

/-- What is played is a run in which the session stays live. -/
theorem run_of_play {id : String} {es : List Event} {ps qs : List Passage} {m s' : Fleet}
    (hrun : Run id (Host.IsLive id) s ps m) (h : play id ps m es = some (qs, s')) :
    Run id (Host.IsLive id) s qs s' := by
  induction es generalizing ps m with
  | nil =>
      cases h
      exact hrun
  | cons e es ih =>
      obtain ⟨next, hstep, hrest⟩ := Option.bind_eq_some_iff.1 h
      split at hrest
      · rename_i hlive
        exact ih (.step hrun hstep (Option.isSome_iff_ne_none.1 hlive)) hrest
      · cases hrest

theorem mem_of_flight? (h : s.flight? ticket = some f) : f ∈ s.flights ∧ f.ticket = ticket :=
  by
  rw [flight?] at h
  have hticket := List.find?_some h
  exact ⟨List.mem_of_find?_eq_some h, beq_iff_eq.1 hticket⟩

theorem flight?_of_mem (hd : (s.flights.map (·.ticket)).Nodup) (hf : f ∈ s.flights) :
    s.flight? f.ticket = some f := by
  cases h : s.flight? f.ticket with
  | none => exact absurd (beq_self_eq_true f.ticket) (List.find?_eq_none.1 h f hf)
  | some x =>
      obtain ⟨hx, hticket⟩ := mem_of_flight? h
      rw [List.inj_on_of_nodup_map hd hx hf hticket]

theorem tickets_update (s : Fleet) (after : Host × Flight) :
    (s.update after).flights.map (·.ticket) = s.flights.map (·.ticket) := by
  simp only [update, List.map_map]
  refine List.map_congr_left fun g _ => ?_
  simp only [Function.comp]
  split
  · rename_i heq
    exact heq.symm
  · rfl

theorem step_turn {s' : Fleet} {now : Nat} (h : s.step (.turn ticket now) = some s') :
    ∃ f after, s.flight? ticket = some f ∧ f.advance s.host now = some after ∧
      s' = s.update after := by
  obtain ⟨f, hf, hm⟩ := Option.bind_eq_some_iff.1 h
  obtain ⟨after, ha, rfl⟩ := Option.map_eq_some_iff.1 hm
  exact ⟨f, after, hf, ha, rfl⟩

theorem tickets_of_step {s' : Fleet} {e : Event} (h : s.step e = some s') :
    s'.flights.map (·.ticket) = s.flights.map (·.ticket) := by
  cases e with
  | turn ticket now =>
      obtain ⟨f, after, -, -, rfl⟩ := step_turn h
      exact tickets_update s after
  | operation o =>
      cases h
      rfl

theorem mem_update_iff : x ∈ (s.update after).flights ↔
    (x = after.2 ∧ ∃ f ∈ s.flights, f.ticket = after.2.ticket) ∨
      (x ∈ s.flights ∧ x.ticket ≠ after.2.ticket) := by
  simp only [update, List.mem_map]
  constructor
  · rintro ⟨f, hf, rfl⟩
    split
    · rename_i heq
      exact Or.inl ⟨rfl, f, hf, heq⟩
    · rename_i hne
      exact Or.inr ⟨hf, hne⟩
  · rintro (⟨rfl, f, hf, heq⟩ | ⟨hx, hne⟩)
    · exact ⟨f, hf, if_pos heq⟩
    · exact ⟨x, hx, if_neg hne⟩

end Fleet

namespace Flight

variable {h : Host} {f g : Flight} {moments : List Nat} {now : Nat} {next : Host × Flight}

/-- What each step of a request preserves holds after all its steps. -/
theorem follow_preserves {p : Host → Flight → Prop}
    (hstep : ∀ {h : Host} {f : Flight} {now : Nat} {after : Host × Flight}, p h f →
      f.advance h now = some after → p after.1 after.2)
    (hp : p h f) (hf : f.follow h moments = some next) : p next.1 next.2 := by
  induction moments generalizing h f with
  | nil =>
      cases hf
      exact hp
  | cons now moments ih =>
      rw [follow, List.foldlM_cons] at hf
      obtain ⟨after, ha, hrest⟩ := Option.bind_eq_some_iff.1 hf
      exact ih (hstep hp ha) hrest

/-- One more step of a request. -/
theorem follow_snoc {k : Host} (hf : f.follow h moments = some (k, g))
    (ha : g.advance k now = some next) : f.follow h (moments ++ [now]) = some next := by
  rw [follow] at hf
  rw [follow, List.foldlM_append]
  refine Option.bind_eq_some_iff.2 ⟨(k, g), hf, ?_⟩
  rw [List.foldlM_cons]
  exact Option.bind_eq_some_iff.2 ⟨next, ha, rfl⟩

theorem anew_of_follow (hf : f.follow h moments = some next) : next.2.anew = f.anew := by
  apply follow_preserves (p := fun _ g => g.anew = f.anew) ?_ rfl hf
  intro k g now after hg ha
  exact (anew_of_advance ha).trans hg

end Flight

/-- What a passage leaves has the ticket of its request. -/
theorem Passage.ticket_of_alone {p : Passage} {h h' : Host} {g : Flight}
    (ha : p.alone h = some (h', g)) : g.ticket = p.flight.ticket := by
  obtain ⟨⟨k, f⟩, hs, hf⟩ := Option.bind_eq_some_iff.1 ha
  have hfollow : g.ticket = f.ticket := Flight.ticket_of_anew (Flight.anew_of_follow hf)
  have happroach : f.ticket = p.flight.ticket := by
    rw [approach] at hs
    split at hs
    · exact Flight.ticket_of_anew (Flight.anew_of_start hs)
    · cases hs
      rfl
  exact hfollow.trans happroach

/-- One more step of a request alone. -/
theorem Passage.alone_extend {p : Passage} {h k : Host} {g : Flight} {now : Nat}
    {after : Host × Flight} (ha : p.alone h = some (k, g)) (hg : g.advance k now = some after) :
    (p.extend g.ticket now).alone h = some after := by
  rw [extend, if_pos (ticket_of_alone ha).symm]
  obtain ⟨x, hs, hf⟩ := Option.bind_eq_some_iff.1 ha
  exact Option.bind_eq_some_iff.2 ⟨x, hs, Flight.follow_snoc hf hg⟩

namespace Serially

variable {h k k' : Host} {ps : List Passage} {gs : List Flight} {g g' : Flight} {now : Nat}

theorem tickets (hs : Serially h ps k gs) :
    ps.map (·.flight.ticket) = gs.map (·.ticket) := by
  induction hs with
  | nil => rfl
  | snoc before replied run ih =>
      rw [List.map_append, List.map_append, ih, List.map_singleton, List.map_singleton,
        Passage.ticket_of_alone run]

/-- The step of another request adds no moments. -/
theorem extend_of_ne (hs : Serially h ps k gs) {ticket : Ticket}
    (hne : ∀ g ∈ gs, g.ticket ≠ ticket) (now : Nat) : ps.map (·.extend ticket now) = ps := by
  have hps : ∀ p ∈ ps, p.extend ticket now = p := by
    intro p hp
    rw [Passage.extend, if_neg]
    have hmem : p.flight.ticket ∈ gs.map (·.ticket) :=
      hs.tickets ▸ List.mem_map_of_mem hp
    obtain ⟨g, hg, heq⟩ := List.mem_map.1 hmem
    rw [← heq]
    exact hne g hg
  exact (List.map_congr_left hps).trans (List.map_id ps)

/-- The last of the requests takes one more step. -/
theorem extend_last (hs : Serially h ps k (gs ++ [g])) (hne : ∀ x ∈ gs, x.ticket ≠ g.ticket)
    (hg : g.advance k now = some (k', g')) :
    Serially h (ps.map (·.extend g.ticket now)) k' (gs ++ [g']) := by
  generalize hall : gs ++ [g] = all at hs
  cases hs with
  | nil => exact absurd hall (by simp)
  | snoc before replied run =>
      obtain ⟨rfl, hlast⟩ := List.append_inj' hall rfl
      cases hlast
      rw [List.map_append, before.extend_of_ne hne]
      exact .snoc before replied (Passage.alone_extend run hg)

end Serially

end ScriptHost
