import Mathlib.Data.List.Perm.Subperm
import ScriptHost.Proofs.Host.Admission
import ScriptHost.Proofs.Host.Standings

/-!
# Progress

A request keeps the gate of its session while it queues for a unit. No requests wait for each other
in a circle all the same: who runs a unit waits for nothing but its run, and who has passed a gate
waits for a slot at most. As long as some request has no reply, one of those without a reply goes
on, whatever the others do.
-/

namespace ScriptHost

/-! ## Requests that go on -/

/-- An id that is not in use is found, if no id is drawn twice. -/
theorem SessionStore.isSome_create? {s : SessionStore} (hids : Function.Injective s.ids) :
    s.create?.isSome := by
  rw [Option.isSome_iff_ne_none]
  intro hnone
  have hlive := mem_ids_of_createWithin_eq_none hnone
  have hdrawn : ((List.range' s.drawn (s.registry.size + 1)).map s.ids).Nodup :=
    List.Nodup.map hids List.nodup_range'
  have hsub : (List.range' s.drawn (s.registry.size + 1)).map s.ids ⊆ s.registry.ids := by
    intro id hid
    obtain ⟨n, hn, rfl⟩ := List.mem_map.1 hid
    obtain ⟨hle, hlt⟩ := List.mem_range'_1.1 hn
    exact hlive n hle hlt
  have hlength := (hdrawn.subperm hsub).length_le
  rw [List.length_map, List.length_range', Registry.ids, Table.keys, List.length_map] at hlength
  exact Nat.not_succ_le_self _ hlength

namespace Flight

variable {h : Host} {f : Flight} {b : Berth} {now : Nat} {notes : List Diagnostic}

/-- The request waits for nobody: it takes its next step at any moment, or at any moment from the
end of its run on. -/
def GoesOn (h : Host) (f : Flight) : Prop :=
  (∀ now, (f.advance h now).isSome) ∨
    ∃ b notes warnings run finish, f.phase = .running b notes warnings run ∧
      run.finish = some finish ∧ ∀ now, finish ≤ now → (f.advance h now).isSome

/-- If the request runs a unit, the run returns at some time. -/
def runReturns (f : Flight) : Bool :=
  match f.phase with
  | .running _ _ _ run => run.finish.isSome
  | _ => true

theorem isSome_start (hids : Function.Injective h.store.ids) (f : Flight) :
    (f.start h).isSome := by
  rw [start]
  split
  · rfl
  · split
    · rfl
    · obtain ⟨⟨store, id⟩, hc⟩ := Option.isSome_iff_exists.1 (SessionStore.isSome_create? hids)
      rw [createBerth, hc]
      rfl

/-- One who may have a slot loads a unit, or leaves after an abort or since the domain is closed. -/
theorem isSome_takeUnit (hmay : h.domain.slots.mayEnter f.ticket = true) (now : Nat)
    (notes : List Diagnostic) (compilation : Compilation) :
    (takeUnit h f now b notes compilation).isSome := by
  rw [takeUnit, Domain.load, hmay]
  cases f.isAborted now with
  | true => rfl
  | false =>
      cases h.domain.closed with
      | true => rfl
      | false => rfl

/-- A request that stands in no queue goes on. -/
theorem goesOn_of_not_waiting (hids : Function.Injective h.store.ids)
    (hearly : (∃ request, f.job = .execute request) ∨ f.IsEarly) (hruns : f.runReturns = true)
    (hreply : f.reply? = none) (hgate : f.isAtGate = false) (hslot : f.isQueued = false) :
    f.GoesOn h := by
  rw [reply?] at hreply
  rw [isAtGate] at hgate
  rw [isQueued] at hslot
  rw [IsEarly] at hearly
  cases hp : f.phase with
  | opening =>
      left
      intro now
      rw [advance, hp]
      exact isSome_start hids f
  | atGate b =>
      rw [hp] at hgate
      cases hgate
  | resolving b pending found failures =>
      left
      intro now
      rw [advance, hp]
      cases pending with
      | nil => rfl
      | cons r pending => rfl
  | compiling b notes references prior =>
      rw [hp] at hearly
      obtain ⟨request, hj⟩ := hearly.resolve_right id
      left
      intro now
      rw [advance, hp]
      simp only [hj]
      rfl
  | queued b notes compilation =>
      rw [hp] at hslot
      cases hslot
  | running b notes warnings run =>
      rw [hp] at hearly
      rw [runReturns, hp] at hruns
      obtain ⟨request, hj⟩ := hearly.resolve_right id
      obtain ⟨finish, hfinish⟩ := Option.isSome_iff_exists.1 hruns
      right
      refine ⟨b, notes, warnings, run, finish, hp, hfinish, fun now hle => ?_⟩
      rw [advance, hp]
      simp [hj, hfinish, hle]
  | done reply =>
      rw [hp] at hreply
      cases hreply

end Flight

/-! ## Fleets -/

namespace Operation

/-- No operation changes a gate. -/
theorem Effect.gate {h h' : Host} (he : Effect h h') (id : String) :
    h'.store.gate id = h.store.gate id := by
  cases he with
  | access writes => exact writes.gate id
  | remove | clear | sweep => rfl

end Operation

namespace Fleet

variable {units : Nat} {s s' : Fleet} {e : Event}

/-- The gates of the sessions and the slots of the domain are in order: their permits are free or
with requests, and who is in a queue waits there. -/
structure Attended (units : Nat) (s : Fleet) : Prop where
  gates : ∀ id, (s.host.store.gate id).Serves 1 (s.flights.map fun f => (f.ticket, f.standing.gate id))
  slots : s.host.domain.slots.Serves units (s.flights.map fun f => (f.ticket, f.standing.slot))
  early : ∀ f ∈ s.flights, (∃ request, f.job = .execute request) ∨ f.IsEarly
  ids : Function.Injective s.host.store.ids

theorem Attended.start {h : Host} {maxUnits : Nat} (hdomain : h.domain = .new maxUnits)
    (hgates : ∀ id, h.store.gate id = .new 1) (hids : Function.Injective h.store.ids) :
    Attended (max maxUnits 1) ⟨h, []⟩ := by
  refine ⟨fun id => ?_, ?_, List.forall_mem_nil _, hids⟩
  · rw [hgates id]
    exact .new 1
  · rw [hdomain]
    exact .new (max maxUnits 1)

theorem Attended.arrive (hs : s.Attended units) {f : Flight} (hp : f.phase = .opening) :
    Attended units ⟨s.host, s.flights ++ [f]⟩ := by
  have haway : f.standing = .away := by rw [Flight.standing, hp]
  refine ⟨fun id => ?_, ?_, ?_, hs.ids⟩
  · rw [List.map_append, List.map_singleton, haway]
    exact (hs.gates id).arrive f.ticket
  · rw [List.map_append, List.map_singleton, haway]
    exact hs.slots.arrive f.ticket
  · refine List.forall_mem_append.2 ⟨hs.early, List.forall_mem_singleton.2 (.inr ?_)⟩
    rw [Flight.IsEarly, hp]
    trivial

/-- Every step keeps the gates and the slots in order. -/
theorem Attended.step (hs : s.Attended units) (hd : (s.flights.map (·.ticket)).Nodup)
    (hstep : s.step e = some s') : s'.Attended units := by
  have hids : Function.Injective s'.host.store.ids := by
    rw [(onward_of_step hstep).ids]
    exact hs.ids
  have hearly := early_of_step hs.early hstep
  cases e with
  | operation o =>
      cases hstep
      have he := o.effect_perform s.host
      refine ⟨fun id => ?_, ?_, hearly, hids⟩
      · rw [he.gate id]
        exact hs.gates id
      · rw [he.domain]
        exact hs.slots
  | turn ticket now =>
      obtain ⟨f, after, hf, ha, rfl⟩ := step_turn hstep
      obtain ⟨before, rest, hsplit⟩ := List.append_of_mem (mem_of_flight? hf).1
      obtain ⟨host, flights⟩ := s
      obtain rfl : flights = before ++ f :: rest := hsplit
      have hticket : after.2.ticket = f.ticket := Flight.ticket_of_anew (Flight.anew_of_advance ha)
      have hmoves := Flight.moves_of_advance ha
      rw [update_of_split hd hticket] at hearly hids ⊢
      refine ⟨fun id => ?_, ?_, hearly, hids⟩
      · have hgate := hs.gates id
        simp only [List.map_append, List.map_cons, hticket] at hgate ⊢
        exact hgate.moves (hmoves.gates id)
      · have hslots := hs.slots
        simp only [List.map_append, List.map_cons, hticket] at hslots ⊢
        exact hslots.moves hmoves.slots

theorem Attended.evolves {m : Fleet} (hs : s.Attended units) (he : Evolves s m)
    (hd : (m.flights.map (·.ticket)).Nodup) : m.Attended units := by
  induction he with
  | refl => exact hs
  | arrive _ hp ih =>
      rw [List.map_append] at hd
      exact (ih hd.of_append_left).arrive hp
  | step _ hstep ih =>
      rw [tickets_of_step hstep] at hd
      exact (ih hd).step hd hstep
  | close _ ih => exact ⟨(ih hd).gates, (ih hd).slots, (ih hd).early, (ih hd).ids⟩
  | restock _ _ ih => exact ⟨(ih hd).gates, (ih hd).slots, (ih hd).early, (ih hd).ids⟩

/-- A request that waits at a gate waits for one that has passed it, or somebody may pass. -/
theorem Attended.gate (hs : s.Attended units) {f : Flight} (hf : f ∈ s.flights)
    (hgate : f.isAtGate = true) :
    (∃ g ∈ s.flights, g.reply? = none ∧ g.isAtGate = false) ∨
      ∃ g ∈ s.flights, g.reply? = none ∧ g.GoesOn s.host := by
  obtain ⟨b, hb⟩ : ∃ b, f.phase = .atGate b := by
    rw [Flight.isAtGate] at hgate
    split at hgate
    · exact ⟨_, ‹_›⟩
    · cases hgate
  have hwaits : (f.ticket, Semaphore.Stand.waiting) ∈
      s.flights.map fun f => (f.ticket, f.standing.gate b.id) := by
    refine List.mem_map.2 ⟨f, hf, ?_⟩
    simp [Flight.standing, hb, Berth.standing]
  rcases (hs.gates b.id).progress Nat.one_pos hwaits with ⟨u, hu⟩ | ⟨u, hu, hmay⟩
  · obtain ⟨g, hg, heq⟩ := List.mem_map.1 hu
    exact .inl ⟨g, hg, Flight.under_way_of_gate_holding (Prod.mk.inj heq).2⟩
  · obtain ⟨g, hg, heq⟩ := List.mem_map.1 hu
    obtain ⟨rfl, hwaiting⟩ := Prod.mk.inj heq
    obtain ⟨c, hc, hid⟩ := Flight.phase_of_gate_waiting hwaiting
    rw [← hid] at hmay
    refine .inr ⟨g, hg, by rw [Flight.reply?, hc], .inl fun now => ?_⟩
    rw [Flight.advance, hc]
    exact Flight.isSome_passGate hmay now

/-- A request that waits for a slot waits for one that runs, or somebody may have a slot. -/
theorem Attended.slot (hs : s.Attended units) (hunits : 0 < units) {f : Flight}
    (hf : f ∈ s.flights) (hslot : f.isQueued = true) :
    (∃ g ∈ s.flights, g.reply? = none ∧ g.isAtGate = false ∧ g.isQueued = false) ∨
      ∃ g ∈ s.flights, g.reply? = none ∧ g.GoesOn s.host := by
  obtain ⟨b, notes, compilation, hb⟩ : ∃ b notes compilation, f.phase = .queued b notes compilation := by
    rw [Flight.isQueued] at hslot
    split at hslot
    · exact ⟨_, _, _, ‹_›⟩
    · cases hslot
  have hwaits : (f.ticket, Semaphore.Stand.waiting) ∈
      s.flights.map fun f => (f.ticket, f.standing.slot) := by
    refine List.mem_map.2 ⟨f, hf, ?_⟩
    simp [Flight.standing, hb, Berth.standing]
  rcases hs.slots.progress hunits hwaits with ⟨u, hu⟩ | ⟨u, hu, hmay⟩
  · obtain ⟨g, hg, heq⟩ := List.mem_map.1 hu
    exact .inl ⟨g, hg, Flight.under_way_of_slot_holding (Prod.mk.inj heq).2⟩
  · obtain ⟨g, hg, heq⟩ := List.mem_map.1 hu
    obtain ⟨rfl, hwaiting⟩ := Prod.mk.inj heq
    obtain ⟨c, notes', compilation', hc⟩ := Flight.phase_of_slot_waiting hwaiting
    refine .inr ⟨g, hg, by rw [Flight.reply?, hc], .inl fun now => ?_⟩
    rw [Flight.advance, hc]
    exact Flight.isSome_takeUnit hmay now notes' compilation'

/-- One of the requests without a reply goes on. From one at a gate to the one that has passed it,
and from one in the queue for slots to one that runs, the way is two steps long at most. -/
theorem Attended.goesOn (hs : s.Attended units) (hunits : 0 < units)
    (hruns : ∀ f ∈ s.flights, f.runReturns = true) (hwaits : ∃ f ∈ s.flights, f.reply? = none) :
    ∃ g ∈ s.flights, g.reply? = none ∧ g.GoesOn s.host := by
  have hfree {g : Flight} (hg : g ∈ s.flights) (hreply : g.reply? = none)
      (hgate : g.isAtGate = false) (hslot : g.isQueued = false) :
      ∃ g ∈ s.flights, g.reply? = none ∧ g.GoesOn s.host :=
    ⟨g, hg, hreply,
      Flight.goesOn_of_not_waiting hs.ids (hs.early g hg) (hruns g hg) hreply hgate hslot⟩
  have hpassed {g : Flight} (hg : g ∈ s.flights) (hreply : g.reply? = none)
      (hgate : g.isAtGate = false) : ∃ g ∈ s.flights, g.reply? = none ∧ g.GoesOn s.host := by
    cases hslot : g.isQueued with
    | false => exact hfree hg hreply hgate hslot
    | true =>
        rcases hs.slot hunits hg hslot with ⟨x, hx, hreply, hgate, hslot⟩ | hgoes
        · exact hfree hx hreply hgate hslot
        · exact hgoes
  obtain ⟨f, hf, hreply⟩ := hwaits
  cases hgate : f.isAtGate with
  | false => exact hpassed hf hreply hgate
  | true =>
      rcases hs.gate hf hgate with ⟨g, hg, hreply, hgate⟩ | hgoes
      · exact hpassed hg hreply hgate
      · exact hgoes

/-- Requests on a host with a new domain of any capacity, and with gates that nobody has passed, do
not block each other. They come at any time and take their steps in any order, are aborted or
fail, while sessions are removed and the domain is closed: as long as the runs that were started
return, some request that has no reply yet waits for no gate and for no slot. -/
theorem deadlock_free {h : Host} {maxUnits : Nat} (hdomain : h.domain = .new maxUnits)
    (hgates : ∀ id, h.store.gate id = .new 1) (hids : Function.Injective h.store.ids)
    (hs : Evolves ⟨h, []⟩ s) (htickets : (s.flights.map (·.ticket)).Nodup)
    (hruns : ∀ f ∈ s.flights, f.runReturns = true) (hwaits : ∃ f ∈ s.flights, f.reply? = none) :
    ∃ g ∈ s.flights, g.reply? = none ∧ g.GoesOn s.host :=
  have hattended : s.Attended (max maxUnits 1) :=
    (Attended.start hdomain hgates hids).evolves hs htickets
  hattended.goesOn (Nat.lt_of_lt_of_le Nat.one_pos (Nat.le_max_right maxUnits 1)) hruns hwaits

/-- A host with one slot, where no id is drawn twice, and code waits for nine milliseconds. -/
def crowdedHost : Host :=
  { patientHost with store := .new 0 fun n => String.ofList (List.replicate (n + 1) 'x') }

/-- A request that keeps its session, one that names this session, and one without a session. -/
def crowdedFleet : Fleet :=
  ⟨crowdedHost,
    [.new 0 (.execute ⟨"1", none, [], true⟩) none, .new 1 (.execute ⟨"2", some "x", [], true⟩) none,
      .new 2 (.execute ⟨"3", none, [], false⟩) (some 50)]⟩

/-- The first request starts its run, the second one comes to the gate of the same session, and
the third one to the queue for the slot. -/
def crowdedEvents : List Event :=
  List.replicate 5 (.turn 0 0) ++ .turn 1 0 :: List.replicate 4 (.turn 2 0)

/-- One request has the slot, and the others wait for the gate and for the slot that it has. -/
theorem deadlock_free_crowded :
    ∃ s, Evolves ⟨crowdedHost, []⟩ s ∧
      s.flights.map (fun f => (f.isAtGate, f.isQueued, f.reply?.isSome)) =
        [(false, false, false), (true, false, false), (false, true, false)] ∧
      ∃ g ∈ s.flights, g.reply? = none ∧ g.GoesOn s.host := by
  have hids : Function.Injective crowdedHost.store.ids := by
    intro m n heq
    have hlength := congrArg List.length (String.ofList_inj.1 heq)
    rw [List.length_replicate, List.length_replicate] at hlength
    exact Nat.succ.inj hlength
  have hrun : (crowdedEvents.foldlM Fleet.step crowdedFleet).map (fun s =>
      (s.flights.map (·.ticket), s.flights.all (·.runReturns),
        s.flights.map fun f => (f.isAtGate, f.isQueued, f.reply?.isSome))) =
      some ([0, 1, 2], true,
        [(false, false, false), (true, false, false), (false, true, false)]) := by
    decide +kernel
  obtain ⟨s, hs, hfacts⟩ := Option.map_eq_some_iff.1 hrun
  simp only [Prod.mk.injEq] at hfacts
  obtain ⟨htickets, hruns, hstand⟩ := hfacts
  have hevolves : Evolves ⟨crowdedHost, []⟩ s :=
    Evolves.events (.arrive (.arrive (.arrive .refl rfl) rfl) rfl) hs
  have hwaits : ∃ f ∈ s.flights, f.reply? = none := by
    have hmem : (true, false, false) ∈
        s.flights.map (fun f => (f.isAtGate, f.isQueued, f.reply?.isSome)) := by
      rw [hstand]
      decide
    obtain ⟨f, hf, heq⟩ := List.mem_map.1 hmem
    simp only [Prod.mk.injEq, Option.isSome_eq_false_iff, Option.isNone_iff_eq_none] at heq
    exact ⟨f, hf, heq.2.2⟩
  exact ⟨s, hevolves, hstand, deadlock_free rfl (fun _ => rfl) hids hevolves
    (by rw [htickets]; decide) (List.all_eq_true.1 hruns) hwaits⟩

end Fleet

end ScriptHost
