import ScriptHost.Proofs.Host.Steps
import ScriptHost.Host.Serve

/-!
# Requests in tandem

Two requests are served, each by itself, and whenever one takes a step the other does. A serving
sees little of a request: whether it waits and where, the turns of its code, and that it is done. If
the two look alike in this, both servings have the same on their agendas at every turn, and both
come to their ends together.
-/

namespace ScriptHost

/-- What a serving sees of a request. -/
structure Outline where
  ticket : Ticket
  stepsLeft : Nat
  isQueued : Bool
  isAtGate : Bool
  isResolving : Bool
  isDone : Bool
  course? : Option Course

namespace Flight

/-- The turns of the code that a request runs. -/
def course? (f : Flight) : Option Course :=
  match f.phase with
  | .running _ _ _ run => some run.course
  | _ => none

def outline (f : Flight) : Outline :=
  ⟨f.ticket, f.stepsLeft, f.isQueued, f.isAtGate, f.isResolving, f.reply?.isSome, f.course?⟩

end Flight

/-- Requests that are related take their steps together, each on its host, and stay related. -/
structure Tandem (R : Host × Flight → Host × Flight → Prop) : Prop where
  setup : ∀ {x y}, R x y → x.1.setup = y.1.setup
  outline : ∀ {x y}, R x y → x.2.outline = y.2.outline
  advance : ∀ {x y}, R x y → ∀ now, Option.Rel R (x.2.advance x.1 now) (y.2.advance y.1 now)
  remove : ∀ {h k : Host} {f g : Flight}, R (h, f) (k, g) → ∀ session,
    R ({ h with store := (h.store.remove session).1 }, f)
      ({ k with store := (k.store.remove session).1 }, g)

namespace Traffic

variable {R : Host × Flight → Host × Flight → Prop}

/-- Two servings of related requests, with the same on their agendas. -/
inductive Tied (R : Host × Flight → Host × Flight → Prop) : Traffic → Traffic → Prop
  | intro {h k : Host} {f g : Flight} (hr : R (h, f) (k, g)) (a : Agenda Task) :
      Tied R ⟨h, [f], a⟩ ⟨k, [g], a⟩

theorem afterStep_eq (t : Traffic) (f : Flight) (atOnce : Bool) :
    t.afterStep f atOnce =
      if f.reply?.isSome then t.plan (·.drop (Task.isOf f.ticket))
      else
        match f.course? with
        | some course => t.startCode f.ticket course
        | none => t.goOn f.ticket atOnce := by
  rw [afterStep, Flight.reply?, Flight.course?]
  cases f.phase with
  | opening | atGate | resolving | compiling | queued | running | done => rfl

namespace Tied

variable {t u : Traffic} {h k : Host} {f g : Flight}

theorem agenda (ht : Tied R t u) : t.agenda = u.agenda := by
  cases ht
  rfl

theorem plan (ht : Tied R t u) (change : Agenda Task → Agenda Task) :
    Tied R (t.plan change) (u.plan change) := by
  cases ht with
  | intro hr a => exact .intro hr (change a)

theorem wakeRequest (ht : Tied R t u) (ticket : Ticket) :
    Tied R (t.wakeRequest ticket) (u.wakeRequest ticket) := by
  rw [Traffic.wakeRequest, Traffic.wakeRequest, ht.agenda]
  split
  · exact ht
  · exact ht.plan _

theorem wakeAll (ht : Tied R t u) (tickets : List Ticket) :
    Tied R (tickets.foldl Traffic.wakeRequest t) (tickets.foldl Traffic.wakeRequest u) := by
  induction tickets generalizing t u with
  | nil => exact ht
  | cons ticket tickets ih => exact ih (ht.wakeRequest ticket)

theorem goOn (ht : Tied R t u) (ticket : Ticket) (atOnce : Bool) :
    Tied R (t.goOn ticket atOnce) (u.goOn ticket atOnce) := by
  rw [Traffic.goOn, Traffic.goOn, ht.agenda]
  split
  · exact ht.plan _
  · exact ht.plan _

theorem resume (ht : Tied R t u) (ticket : Ticket) (pauses : List Pause) :
    Tied R (t.resume ticket pauses) (u.resume ticket pauses) := by
  cases pauses with
  | nil => exact ht.wakeRequest ticket
  | cons pause pauses =>
      cases pause with
      | turn => exact ht.plan (·.defer (.code ticket pauses))
      | «until» ms => exact ht.plan (·.setTimer ms (.code ticket pauses))
      | forever => exact ht

section

variable (hR : Tandem R)

include hR

theorem setup (ht : Tied R t u) : t.host.setup = u.host.setup := by
  cases ht with
  | intro hr => exact hR.setup hr

theorem awaitSample (ht : Tied R t u) (ticket : Ticket) :
    Tied R (t.awaitSample ticket) (u.awaitSample ticket) := by
  rw [Traffic.awaitSample, Traffic.awaitSample, Host.monitor, Host.monitor, ht.setup hR, ht.agenda]
  split
  · exact ht.plan _
  · exact ht

theorem startCode (ht : Tied R t u) (ticket : Ticket) (course : Course) :
    Tied R (t.startCode ticket course) (u.startCode ticket course) := by
  rw [Traffic.startCode, Traffic.startCode]
  apply awaitSample hR
  split
  · exact (ht.plan _).plan _
  · exact ht.plan _

theorem canAdvance (hr : R (h, f) (k, g)) (a : Agenda Task) :
    (⟨h, [f], a⟩ : Traffic).canAdvance f = (⟨k, [g], a⟩ : Traffic).canAdvance g := by
  have hnext := hR.advance hr a.now
  rw [Traffic.canAdvance, Traffic.canAdvance]
  generalize f.advance h a.now = x at hnext
  generalize g.advance k a.now = y at hnext
  cases hnext with
  | none => rfl
  | some => rfl

theorem wake (ht : Tied R t u) : Tied R t.wake u.wake := by
  have hwake : ∀ t : Traffic,
      t.wake = ((t.waiting.filter t.canAdvance).map (·.ticket)).foldl Traffic.wakeRequest t := by
    intro t
    rw [Traffic.wake, List.foldl_map]
  -- The ticket is the same on both sides, and so is whether the request waits and can go on.
  have hwoken : (t.waiting.filter t.canAdvance).map (·.ticket) =
      (u.waiting.filter u.canAdvance).map (·.ticket) := by
    cases ht with
    | @intro h k f g hr a =>
        have hsingle : ∀ (p : Flight → Bool) (f : Flight),
            ([f].filter p).map (·.ticket) = if p f then [f.ticket] else [] := by
          intro p f
          cases hf : p f with
          | true => simp [hf]
          | false => simp [hf]
        have hticket : f.ticket = g.ticket := congrArg Outline.ticket (hR.outline hr)
        have hqueue : f.isQueued = g.isQueued := congrArg Outline.isQueued (hR.outline hr)
        have hgate : f.isAtGate = g.isAtGate := congrArg Outline.isAtGate (hR.outline hr)
        simp only [waiting, List.filter_append, List.filter_filter, List.map_append, hsingle,
          canAdvance hR hr a, hqueue, hgate, hticket]
  rw [hwake, hwake, hwoken]
  exact ht.wakeAll _

theorem afterStep (hr : R (h, f) (k, g)) (a : Agenda Task) (atOnce : Bool) :
    Tied R ((⟨h, [f], a⟩ : Traffic).afterStep f atOnce)
      ((⟨k, [g], a⟩ : Traffic).afterStep g atOnce) := by
  have hsame := Tied.intro hr a
  have hticket : f.ticket = g.ticket := congrArg Outline.ticket (hR.outline hr)
  have hdone : f.reply?.isSome = g.reply?.isSome := congrArg Outline.isDone (hR.outline hr)
  have hcourse : f.course? = g.course? := congrArg Outline.course? (hR.outline hr)
  rw [afterStep_eq, afterStep_eq, hticket, hdone, hcourse]
  split
  · exact hsame.plan _
  · split
    · exact startCode hR hsame _ _
    · exact hsame.goOn _ _

theorem advance (hr : R (h, f) (k, g)) (a : Agenda Task) :
    Tied R ((⟨h, [f], a⟩ : Traffic).advance f) ((⟨k, [g], a⟩ : Traffic).advance g) := by
  have hnext := hR.advance hr a.now
  cases hx : f.advance h a.now with
  | none =>
      cases hy : g.advance k a.now with
      | none =>
          simp only [Traffic.advance, hx, hy]
          exact .intro hr a
      | some y =>
          rw [hx, hy] at hnext
          cases hnext
  | some x =>
      cases hy : g.advance k a.now with
      | none =>
          rw [hx, hy] at hnext
          cases hnext
      | some y =>
          rw [hx, hy] at hnext
          cases hnext with
          | some hxy =>
              have hf : f.ticket = x.2.ticket :=
                (Flight.ticket_of_anew (Flight.anew_of_advance hx)).symm
              have hg : g.ticket = y.2.ticket :=
                (Flight.ticket_of_anew (Flight.anew_of_advance hy)).symm
              have hresolving : f.isResolving = g.isResolving :=
                congrArg Outline.isResolving (hR.outline hr)
              simp only [Traffic.advance, hx, hy, List.map_cons, List.map_nil, if_pos hf, if_pos hg,
                hresolving, hR.setup hxy]
              exact wake hR (afterStep hR hxy a _)

theorem advanceIf (ht : Tied R t u) (ticket : Ticket) {p : Flight → Bool}
    (hp : ∀ f g : Flight, f.outline = g.outline → p f = p g) :
    Tied R (t.advanceIf ticket p) (u.advanceIf ticket p) := by
  cases ht with
  | @intro h k f g hr a =>
      have hticket : f.ticket = g.ticket := congrArg Outline.ticket (hR.outline hr)
      simp only [Traffic.advanceIf, find?, List.find?_singleton, hticket, hp f g (hR.outline hr)]
      split
      · exact advance hR hr a
      · exact .intro hr a

theorem look (ht : Tied R t u) (ticket : Ticket) : Tied R (t.look ticket) (u.look ticket) := by
  cases ht with
  | @intro h k f g hr a =>
      have hticket : f.ticket = g.ticket := congrArg Outline.ticket (hR.outline hr)
      have hsame := Tied.intro hr a
      simp only [Traffic.look, find?, List.find?_singleton, hticket, canAdvance hR hr a]
      by_cases hgo : (g.ticket == ticket && (⟨k, [g], a⟩ : Traffic).canAdvance g) = true
      · have hboth : (⟨h, [f], a⟩ : Traffic).isRunning ticket =
            (⟨k, [g], a⟩ : Traffic).isRunning ticket := rfl
        simp only [if_pos hgo, hboth]
        split
        · exact awaitSample hR hsame ticket
        · exact advance hR hr a
      · simp only [if_neg hgo]
        exact awaitSample hR hsame ticket

theorem removeSession (ht : Tied R t u) (session : String) :
    Tied R (t.removeSession session) (u.removeSession session) := by
  cases ht with
  | intro hr a => exact .intro (hR.remove hr session) a

theorem take (ht : Tied R t u) (task : Task) : Tied R (t.take task) (u.take task) := by
  induction task with
  | request ticket => exact advanceIf hR ht ticket fun _ _ _ => rfl
  | code ticket pauses => exact ht.resume ticket pauses
  | halt ticket pauses => exact (ht.plan _).plan _
  | sample ticket => exact look hR ht ticket
  | abort ticket =>
      apply advanceIf hR ht ticket
      intro f g hfg
      rw [show f.isQueued = g.isQueued from congrArg Outline.isQueued hfg,
        show f.isAtGate = g.isAtGate from congrArg Outline.isAtGate hfg]
  | remove session => exact removeSession hR ht session
  | later ms task ih =>
      cases ms with
      | zero => exact ih
      | succ ms =>
          rw [Traffic.take, Traffic.take, ht.agenda]
          · exact ht.plan _
          · exact Nat.succ_ne_zero ms
          · exact Nat.succ_ne_zero ms

theorem isOver (ht : Tied R t u) : t.isOver = u.isOver := by
  cases ht with
  | @intro h k f g hr a =>
      have hdone : f.reply?.isSome = g.reply?.isSome := congrArg Outline.isDone (hR.outline hr)
      simp only [Traffic.isOver, List.all_cons, List.all_nil, hdone]

theorem skipSamples (ht : Tied R t u) : Tied R t.skipSamples u.skipSamples := by
  rw [Traffic.skipSamples, Traffic.skipSamples, Host.monitor, Host.monitor, ht.setup hR, ht.agenda]
  split
  · split
    · exact ht.plan _
    · exact ht
  · exact ht

/-- Both servings take their next turn, or neither does. -/
theorem step (ht : Tied R t u) : Option.Rel (Tied R) t.step u.step := by
  rw [Traffic.step, Traffic.step, isOver hR ht, isStuck, isStuck, ht.agenda,
    (skipSamples hR ht).agenda]
  split
  · exact .none
  · cases u.skipSamples.agenda.next? with
    | none => exact .none
    | some next => exact .some (take hR (ht.plan fun _ => next.2) next.1)

theorem run (ht : Tied R t u) (limit : Nat) : Tied R (t.run limit) (u.run limit) := by
  induction limit generalizing t u with
  | zero => exact ht
  | succ limit ih =>
      have hnext := step hR ht
      rw [Traffic.run, Traffic.run]
      generalize t.step = t' at hnext
      generalize u.step = u' at hnext
      cases hnext with
      | none => exact ht
      | some hsome => exact ih hsome

theorem settle (ht : Tied R t u) (limit : Nat) : Tied R (t.settle limit) (u.settle limit) := by
  induction limit generalizing t u with
  | zero => exact ht
  | succ limit ih =>
      have hturns : t.turnsLeft = u.turnsLeft := by rw [turnsLeft, turnsLeft, ht.agenda]
      rw [Traffic.settle, Traffic.settle, hturns]
      exact ih (run hR ht _)

theorem finish (ht : Tied R t u) : Tied R t.finish u.finish := by
  have hsteps : t.stepsLeft = u.stepsLeft := by
    cases ht with
    | @intro h k f g hr a =>
        have hleft : f.stepsLeft = g.stepsLeft := congrArg Outline.stepsLeft (hR.outline hr)
        simp only [stepsLeft, List.foldr_cons, List.foldr_nil, hleft]
  rw [Traffic.finish, Traffic.finish, hsteps]
  exact settle hR ht _

end

end Tied

end Traffic

end ScriptHost
