import ScriptHost.Host.Serve
import ScriptHost.Proofs.Host.Fleet

/-!
# Serving as a run of a fleet

Whatever order the agenda gives to the tasks, requests that are served together go through
events of a fleet: each turn is an event, or changes neither the host nor the requests. What
holds of all runs of a fleet holds of every serving.
-/

namespace ScriptHost

namespace Traffic

/-- The requests that are served, and their host. -/
def fleet (t : Traffic) : Fleet := ⟨t.host, t.flights⟩

variable {t t' : Traffic} {f : Flight} {ticket : Ticket}

@[simp] theorem fleet_wakeRequest (t : Traffic) (ticket : Ticket) :
    (t.wakeRequest ticket).fleet = t.fleet := by
  rw [wakeRequest]
  split
  · rfl
  · rfl

@[simp] theorem fleet_wake (t : Traffic) : t.wake.fleet = t.fleet := by
  rw [wake]
  generalize t.waiting.filter t.canAdvance = fs
  induction fs generalizing t with
  | nil => rfl
  | cons f fs ih => exact (ih _).trans (fleet_wakeRequest t f.ticket)

@[simp] theorem fleet_awaitSample (t : Traffic) (ticket : Ticket) :
    (t.awaitSample ticket).fleet = t.fleet := by
  rw [awaitSample]
  split
  · rfl
  · rfl

@[simp] theorem fleet_startCode (t : Traffic) (ticket : Ticket) (course : Course) :
    (t.startCode ticket course).fleet = t.fleet := by
  rw [startCode, fleet_awaitSample]
  split
  · rfl
  · rfl

@[simp] theorem fleet_afterStep (t : Traffic) (f : Flight) (atOnce : Bool) :
    (t.afterStep f atOnce).fleet = t.fleet := by
  rw [afterStep]
  split
  · rfl
  · exact fleet_startCode t f.ticket _
  · rw [goOn]
    split
    · rfl
    · rfl

@[simp] theorem fleet_resume (t : Traffic) (ticket : Ticket) (pauses : List Pause) :
    (t.resume ticket pauses).fleet = t.fleet := by
  cases pauses with
  | nil => exact fleet_wakeRequest t ticket
  | cons pause pauses => cases pause <;> rfl

/-- What a turn does to the fleet: nothing, or one event. -/
def Moves (t t' : Traffic) : Prop :=
  t'.fleet = t.fleet ∨ ∃ e, t.fleet.step e = some t'.fleet

/-- What a turn does to the fleet that removes no session: nothing, or a step of a request. -/
def Turns (t t' : Traffic) : Prop :=
  t'.fleet = t.fleet ∨ ∃ ticket now, t.fleet.step (.turn ticket now) = some t'.fleet

theorem Turns.moves (h : Turns t t') : Moves t t' :=
  h.imp_right fun ⟨ticket, now, hstep⟩ => ⟨.turn ticket now, hstep⟩

theorem turns_advance (hd : (t.flights.map (·.ticket)).Nodup) (hf : f ∈ t.flights) :
    Turns t (t.advance f) := by
  rw [advance]
  cases ha : f.advance t.host t.agenda.now with
  | none => exact Or.inl rfl
  | some after =>
      refine Or.inr ⟨f.ticket, t.agenda.now, ?_⟩
      simp only [fleet_wake, fleet_afterStep]
      have hfind : t.fleet.flight? f.ticket = some f := Fleet.flight?_of_mem hd hf
      refine Option.bind_eq_some_iff.2 ⟨f, hfind, ?_⟩
      exact Option.map_eq_some_iff.2 ⟨after, ha, rfl⟩

theorem mem_of_find? {p : Flight → Bool} (h : t.find? ticket p = some f) : f ∈ t.flights :=
  List.mem_of_find?_eq_some h

theorem turns_advanceIf (hd : (t.flights.map (·.ticket)).Nodup) (ticket : Ticket)
    (p : Flight → Bool) : Turns t (t.advanceIf ticket p) := by
  rw [advanceIf]
  cases hf : t.find? ticket p with
  | none => exact Or.inl rfl
  | some f => exact turns_advance hd (mem_of_find? hf)

theorem turns_look (hd : (t.flights.map (·.ticket)).Nodup) (ticket : Ticket) :
    Turns t (t.look ticket) := by
  rw [look]
  split
  · rename_i f hf
    split
    · exact Or.inl (fleet_awaitSample t ticket)
    · exact turns_advance hd (mem_of_find? hf)
  · exact Or.inl (fleet_awaitSample t ticket)

theorem moves_take (hd : (t.flights.map (·.ticket)).Nodup) (task : Task) :
    Moves t (t.take task) := by
  induction task with
  | request ticket => exact (turns_advanceIf hd ticket _).moves
  | code ticket pauses => exact Or.inl (fleet_resume t ticket pauses)
  | halt ticket pauses => exact Or.inl rfl
  | sample ticket => exact (turns_look hd ticket).moves
  | abort ticket => exact (turns_advanceIf hd ticket _).moves
  | remove session => exact Or.inr ⟨.operation (.remove session), rfl⟩
  | later ms task ih =>
      cases ms with
      | zero => exact ih
      | succ ms => exact Or.inl rfl

theorem moves_of_step (hd : (t.flights.map (·.ticket)).Nodup) (h : t.step = some t') :
    Moves t t' := by
  rw [step] at h
  split at h
  · cases h
  · obtain ⟨⟨task, agenda⟩, -, rfl⟩ := Option.map_eq_some_iff.1 h
    exact moves_take (t := { t with agenda := agenda }) hd task

theorem Moves.tickets (h : Moves t t') :
    t'.flights.map (·.ticket) = t.flights.map (·.ticket) := by
  rcases h with heq | ⟨e, hstep⟩
  · exact congrArg (fun s : Fleet => s.flights.map (·.ticket)) heq
  · exact Fleet.tickets_of_step hstep

variable {id : String} {s : Fleet} {ps : List Passage}

theorem Moves.run (h : Moves t t') (hr : Fleet.Run id (fun _ => True) s ps t.fleet) :
    ∃ qs, Fleet.Run id (fun _ => True) s qs t'.fleet := by
  rcases h with heq | ⟨e, hstep⟩
  · exact ⟨ps, heq ▸ hr⟩
  · exact ⟨_, hr.step hstep trivial⟩

theorem run_run (limit : Nat) (hd : (t.flights.map (·.ticket)).Nodup)
    (hr : Fleet.Run id (fun _ => True) s ps t.fleet) :
    ((t.run limit).flights.map (·.ticket)).Nodup ∧
      ∃ qs, Fleet.Run id (fun _ => True) s qs (t.run limit).fleet := by
  induction limit generalizing t ps with
  | zero => exact ⟨hd, ps, hr⟩
  | succ limit ih =>
      rw [run]
      split
      · rename_i t' hstep
        have hmoves := moves_of_step hd hstep
        obtain ⟨qs, hqs⟩ := hmoves.run hr
        exact ih (hmoves.tickets ▸ hd) hqs
      · exact ⟨hd, ps, hr⟩

theorem run_settle (limit : Nat) (hd : (t.flights.map (·.ticket)).Nodup)
    (hr : Fleet.Run id (fun _ => True) s ps t.fleet) :
    ∃ qs, Fleet.Run id (fun _ => True) s qs (t.settle limit).fleet := by
  induction limit generalizing t ps with
  | zero => exact ⟨ps, hr⟩
  | succ limit ih =>
      obtain ⟨hd', qs, hqs⟩ := run_run t.turnsLeft hd hr
      exact ih hd' hqs

end Traffic

/-- Jobs that are served together go through a run of a fleet, which they start together. -/
theorem Host.run_traffic (h : Host) (orders : List Order) (id : String) :
    ∃ ps, Fleet.Run id (fun _ => True)
      ⟨h, orders.zipIdx.map fun (o, ticket) => o.flight ticket⟩ ps (h.traffic orders).fleet := by
  refine Traffic.run_settle _ ?_ (.start trivial)
  have htickets : (orders.zipIdx.map fun (o, ticket) => o.flight ticket).map (·.ticket) =
      orders.zipIdx.map Prod.snd := by
    rw [List.map_map]
    rfl
  rw [htickets, List.zipIdx_map_snd]
  exact List.nodup_range'

end ScriptHost
