import ScriptHost.Proofs.Host.Abreast
import ScriptHost.Proofs.Host.Serving
import ScriptHost.Proofs.Supervision.Agendas

/-!
# A request served by itself

When no removal is to come, nothing happens to a host but the steps of the request that it serves.
The request stays in its session, and when it has its reply the host is idle again.
-/

namespace ScriptHost

/-- What is true of every task that a request gives rise to. -/
structure Task.Ordinary (p : Task → Prop) : Prop where
  request : ∀ ticket, p (.request ticket)
  code : ∀ ticket pauses, p (.code ticket pauses)
  sample : ∀ ticket, p (.sample ticket)
  halt : ∀ ticket pauses, p (.halt ticket pauses)

/-- The task removes a session. -/
def Task.isRemoval : Task → Bool
  | remove _ => true
  | later _ task => task.isRemoval
  | _ => false

theorem Task.ordinary_isRemoval : Ordinary (·.isRemoval = false) :=
  ⟨fun _ => rfl, fun _ _ => rfl, fun _ => rfl, fun _ _ => rfl⟩

namespace Traffic

variable {t t' : Traffic} {f : Flight} {ticket : Ticket}

/-! ## The tasks of a request -/

section

variable {p : Task → Prop} (hp : Task.Ordinary p)

include hp

theorem all_wakeRequest (h : t.agenda.All p) (ticket : Ticket) :
    (t.wakeRequest ticket).agenda.All p := by
  rw [wakeRequest]
  split
  · exact h
  · exact h.append (hp.request ticket)

theorem all_wake (h : t.agenda.All p) : t.wake.agenda.All p := by
  rw [wake]
  generalize t.waiting.filter t.canAdvance = fs
  induction fs generalizing t with
  | nil => exact h
  | cons f fs ih => exact ih (all_wakeRequest hp h f.ticket)

theorem all_awaitSample (h : t.agenda.All p) (ticket : Ticket) :
    (t.awaitSample ticket).agenda.All p := by
  rw [awaitSample]
  split
  · exact h.setTimer _ (hp.sample ticket)
  · exact h

theorem all_startCode (h : t.agenda.All p) (ticket : Ticket) (course : Course) :
    (t.startCode ticket course).agenda.All p := by
  have hcode : (t.plan (·.append (.code ticket course.pauses))).agenda.All p :=
    h.append (hp.code ticket course.pauses)
  rw [startCode]
  apply all_awaitSample hp
  split
  · exact hcode.setTimer _ (hp.halt ticket _)
  · exact hcode

theorem all_afterStep (h : t.agenda.All p) (f : Flight) (atOnce : Bool) :
    (t.afterStep f atOnce).agenda.All p := by
  rw [afterStep]
  split
  · exact h.drop _
  · exact all_startCode hp h _ _
  · rw [goOn]
    split
    · exact h.again (hp.request f.ticket)
    · exact h.setTimer _ (hp.request f.ticket)

theorem all_advance (h : t.agenda.All p) (f : Flight) : (t.advance f).agenda.All p := by
  rw [advance]
  cases f.advance t.host t.agenda.now with
  | none => exact h
  | some after =>
      apply all_wake hp
      apply all_afterStep hp
      exact h

theorem all_advanceIf (h : t.agenda.All p) (ticket : Ticket) (q : Flight → Bool) :
    (t.advanceIf ticket q).agenda.All p := by
  rw [advanceIf]
  cases t.find? ticket q with
  | none => exact h
  | some f => exact all_advance hp h f

theorem all_look (h : t.agenda.All p) (ticket : Ticket) : (t.look ticket).agenda.All p := by
  rw [look]
  split
  · split
    · exact all_awaitSample hp h ticket
    · exact all_advance hp h _
  · exact all_awaitSample hp h ticket

theorem all_resume (h : t.agenda.All p) (ticket : Ticket) (pauses : List Pause) :
    (t.resume ticket pauses).agenda.All p := by
  cases pauses with
  | nil => exact all_wakeRequest hp h ticket
  | cons pause pauses =>
      cases pause with
      | turn => exact h.defer (hp.code ticket pauses)
      | «until» ms => exact h.setTimer ms (hp.code ticket pauses)
      | forever => exact h

/-- A turn leaves only such tasks, if what waited for its time is one itself. -/
theorem all_take (hlater : ∀ ms task, p (.later ms task) → p task) (h : t.agenda.All p)
    {task : Task} (htask : p task) : (t.take task).agenda.All p := by
  induction task with
  | request ticket => exact all_advanceIf hp h ticket _
  | code ticket pauses => exact all_resume hp h ticket pauses
  | halt ticket pauses => exact (h.drop _).append (hp.code ticket pauses)
  | sample ticket => exact all_look hp h ticket
  | abort ticket => exact all_advanceIf hp h ticket _
  | remove session => exact h
  | later ms task ih =>
      cases ms with
      | zero => exact ih (hlater 0 task htask)
      | succ ms => exact h.setTimer _ (hlater _ task htask)

end

theorem all_skipSamples {p : Task → Prop} (h : t.agenda.All p) : t.skipSamples.agenda.All p := by
  rw [skipSamples]
  split
  · split
    · exact h.skip _ _
    · exact h
  · exact h

/-! ## Without removals -/

/-- No removal is to come. -/
def Unremoved (t : Traffic) : Prop := t.agenda.All (·.isRemoval = false)

theorem turns_take (hd : (t.flights.map (·.ticket)).Nodup) {task : Task}
    (htask : task.isRemoval = false) : Turns t (t.take task) := by
  induction task with
  | request ticket => exact turns_advanceIf hd ticket _
  | code ticket pauses => exact Or.inl (fleet_resume t ticket pauses)
  | halt ticket pauses => exact Or.inl rfl
  | sample ticket => exact turns_look hd ticket
  | abort ticket => exact turns_advanceIf hd ticket _
  | remove session => cases htask
  | later ms task ih =>
      cases ms with
      | zero => exact ih htask
      | succ ms => exact Or.inl rfl

/-- While no removal is to come, requests take their steps, and nothing else happens. -/
theorem Unremoved.step (h : t.Unremoved) (hd : (t.flights.map (·.ticket)).Nodup)
    (hstep : t.step = some t') : t'.Unremoved ∧ Turns t t' := by
  rw [Traffic.step] at hstep
  split at hstep
  · cases hstep
  · obtain ⟨⟨task, agenda⟩, hnext, rfl⟩ := Option.map_eq_some_iff.1 hstep
    obtain ⟨htask, hrest⟩ := (all_skipSamples h).next? hnext
    exact ⟨all_take (t := { t with agenda := agenda }) Task.ordinary_isRemoval (fun _ _ h => h)
      hrest htask, turns_take (t := { t with agenda := agenda }) hd htask⟩

/-- Without removals to come, the host stays as the last request has left it. -/
theorem Unremoved.hostAfter (h : t.Unremoved) :
    t.hostAfter = { t.host with removals := [] } := by
  have hnone : ∀ {task : Task} (ms : Nat), task.isRemoval = false → task.removal? ms = none := by
    intro task ms htask
    cases task with
    | remove session => cases htask
    | request | code | halt | sample | abort | later => rfl
  have hremovals : t.removals = [] := by
    rw [removals, List.append_eq_nil_iff, List.filterMap_eq_nil_iff, List.filterMap_eq_nil_iff]
    constructor
    · intro task htask
      exact hnone 0 (h task (Agenda.mem_tasks_iff.2 (Or.inl htask)))
    · intro timer htimer
      exact hnone _ (h timer.task (Agenda.mem_tasks_iff.2 (Or.inr (Or.inr ⟨timer, htimer, rfl⟩))))
  rw [Traffic.hostAfter, hremovals]
  rfl

/-- A request is served by itself, and has taken its steps at some moments. -/
structure Solitary (h : Host) (f : Flight) (t : Traffic) : Prop where
  unremoved : t.Unremoved
  steps : ∃ moments g, t.flights = [g] ∧ f.follow h moments = some (t.host, g)

namespace Solitary

variable {h : Host}

theorem step (hs : Solitary h f t) (hstep : t.step = some t') : Solitary h f t' := by
  obtain ⟨moments, g, hflights, hfollow⟩ := hs.steps
  have hd : (t.flights.map (·.ticket)).Nodup := by
    rw [hflights]
    exact List.nodup_singleton _
  obtain ⟨hunremoved, hsame | ⟨ticket, now, hturn⟩⟩ := hs.unremoved.step hd hstep
  · refine ⟨hunremoved, moments, g, ?_, ?_⟩
    · exact (congrArg Fleet.flights hsame).trans hflights
    · rw [hfollow, show t'.host = t.host from congrArg Fleet.host hsame]
  · obtain ⟨x, after, hx, ha, hafter⟩ := Fleet.step_turn hturn
    have hmem : x ∈ t.flights := (Fleet.mem_of_flight? hx).1
    rw [hflights, List.mem_singleton] at hmem
    subst hmem
    have hticket : x.ticket = after.2.ticket :=
      (Flight.ticket_of_anew (Flight.anew_of_advance ha)).symm
    refine ⟨hunremoved, moments ++ [now], after.2, ?_, ?_⟩
    · have hflights' : t'.flights = (t.fleet.update after).flights :=
        congrArg Fleet.flights hafter
      rw [hflights', Fleet.update, show t.fleet.flights = [x] from hflights]
      exact congrArg (fun f => [f]) (if_pos hticket)
    · rw [show t'.host = after.1 from congrArg Fleet.host hafter]
      exact Flight.follow_snoc hfollow ha

theorem run (hs : Solitary h f t) (limit : Nat) : Solitary h f (t.run limit) := by
  induction limit generalizing t with
  | zero => exact hs
  | succ limit ih =>
      rw [Traffic.run]
      split
      · rename_i t' hstep
        exact ih (hs.step hstep)
      · exact hs

theorem settle (hs : Solitary h f t) (limit : Nat) : Solitary h f (t.settle limit) := by
  induction limit generalizing t with
  | zero => exact hs
  | succ limit ih => exact ih (hs.run _)

end Solitary

end Traffic

/-- An order that nothing but an abort can happen to, on a host without removals to come, is served
by itself. -/
theorem Host.solitary_traffic {h : Host} {o : Order} (hh : h.removals = [])
    (ho : o.removal = none) : Traffic.Solitary h (o.flight 0) (h.traffic [o]) := by
  have hunremoved : Traffic.Unremoved ⟨h, [o.flight 0], h.openingAgenda [o]⟩ := by
    intro task htask
    simp only [openingAgenda, hh, Agenda.mem_tasks_iff, List.zipIdx_cons, List.zipIdx_nil,
      List.flatMap_cons, List.flatMap_nil, List.append_nil, Order.tasks, ho, Option.map_none,
      Option.toList_none, List.mem_append, List.mem_singleton, List.map_nil, List.not_mem_nil,
      false_and, exists_false, or_false, Option.mem_toList, Option.bind_eq_some_iff] at htask
    rcases htask with ⟨abort, -, htask⟩ | rfl
    · cases abort with
      | before => cases htask
      | after ms =>
          cases htask
          rfl
    · rfl
  exact Traffic.Solitary.settle ⟨hunremoved, [], o.flight 0, rfl, rfl⟩ _

end ScriptHost
