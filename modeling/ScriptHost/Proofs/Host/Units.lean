import ScriptHost.Proofs.Host.Phases
import ScriptHost.Proofs.Host.Removals

/-!
# Requests as users of the domain

Requests in flight use the domain of their host as its users may: they queue, give up, load a unit
and run it at once, and release it. The accounts of the domain therefore agree with the requests
that run, whatever order their steps come in, and are even when no request is under way.
-/

namespace ScriptHost

namespace Flight

variable {h : Host} {f : Flight} {after : Host × Flight} {now : Nat}

/-- The unit that a request runs. -/
def unit? (f : Flight) : Option LoadedUnit :=
  match f.phase with
  | .running _ _ _ run => some run.loaded
  | _ => none

/-- What a step of a request does to the domain, and to the unit that the request runs. -/
inductive Use (d : Domain) : Option LoadedUnit → Domain → Option LoadedUnit → Prop
  | spare : Use d none d none
  | queue (t : Ticket) : Use d none (d.queue t) none
  | abandon (t : Ticket) : Use d none (d.giveUp t) none
  | launch {d' : Domain} {t : Ticket} {code : Activity} {outputLimit : Nat} {u : LoadedUnit}
      {limits : Limits} {start : Nat} {ran : UnitRun}
      (hload : d.load t code outputLimit = .granted d' u) (hrun : u.run limits start = .ok ran) :
      Use d none d' (some ran.loaded)
  | release (u : LoadedUnit) (ms : Nat) : Use d (some u) (d.release u ms).1 none

theorem domain_fail (h : Host) (f : Flight) (b : Berth) (notes : List Diagnostic)
    (failure : Failure) : (fail h f b notes failure).1.domain = h.domain :=
  (writes_closeBerth (openGate h b) b).domain

theorem use_of_start (hs : f.start h = some after) :
    Use h.domain none after.1.domain after.2.unit? := by
  rcases start_cases hs with ⟨_, -, -, rfl⟩ | ⟨_, -, -, rfl⟩ | ⟨_, _, _, -, -, rfl⟩
  · exact .spare
  · exact .spare
  · exact .spare

theorem use_of_passGate {b : Berth} (hp : passGate h f now b = some after) :
    Use h.domain none after.1.domain after.2.unit? := by
  cases passGate_cases hp with
  | aborted =>
      rw [(writes_closeBerth _ b).domain]
      exact .spare
  | blocked =>
      rw [domain_fail]
      exact .spare
  | entered => exact .spare

theorem use_prepare (h : Host) (f : Flight) (b : Berth) (request : Request)
    (notes : List Diagnostic) :
    Use h.domain none (prepare h f b request notes).1.domain
      (prepare h f b request notes).2.unit? := by
  rw [prepare]
  split
  · rw [domain_fail]
    exact .spare
  · split
    · rw [domain_fail]
      exact .spare
    · rename_i h' references prior hc
      rw [(Host.writes_of_context hc).domain]
      exact .spare

theorem use_attachAll (h : Host) (f : Flight) (b : Berth) (found : List Resolved)
    (failures : List Diagnostic) :
    Use h.domain none (attachAll h f b found failures).1.domain
      (attachAll h f b found failures).2.unit? := by
  have hdomain := (writes_attach h f.job b found failures).domain
  rw [attachAll]
  split
  · rename_i h' notes e ha
    rw [ha] at hdomain
    rw [domain_fail, hdomain]
    exact .spare
  · rename_i h' notes added ha
    rw [ha] at hdomain
    split
    · rw [show (openGate h' b).domain = h.domain from hdomain]
      exact .spare
    · rename_i request _
      have huse := use_prepare h' f b request notes
      rwa [show h'.domain = h.domain from hdomain] at huse

theorem use_resolveNext (h : Host) (f : Flight) (b : Berth) (r : Reference)
    (pending : List Reference) (found : List Resolved) (failures : List Diagnostic) :
    Use h.domain none (resolveNext h f b r pending found failures).1.domain
      (resolveNext h f b r pending found failures).2.unit? := by
  rw [resolveNext]
  split
  · exact .spare
  · exact .spare

theorem use_compile (h : Host) (f : Flight) (b : Berth) (notes : List Diagnostic)
    (references : List Resolved) (prior : Option Script.Continuation) (request : Request) :
    Use h.domain none (compile h f b notes references prior request).1.domain
      (compile h f b notes references prior request).2.unit? := by
  simp only [compile, Host.compile]
  split
  · rename_i h' ds hc
    obtain ⟨rfl, -⟩ := Prod.mk.inj hc
    rw [domain_fail]
    exact .spare
  · rename_i h' compilation hc
    obtain ⟨rfl, -⟩ := Prod.mk.inj hc
    exact .queue f.ticket

theorem use_of_takeUnit {b : Berth} {notes : List Diagnostic} {compilation : Compilation}
    (ht : takeUnit h f now b notes compilation = some after) :
    Use h.domain none after.1.domain after.2.unit? := by
  cases takeUnit_cases ht with
  | aborted | refused =>
      rw [domain_fail]
      exact .abandon f.ticket
  | started hload hrun => exact .launch hload hrun

theorem use_land (h : Host) (f : Flight) (now : Nat) (b : Berth)
    (notes warnings : List Diagnostic) (run : UnitRun) (request : Request) :
    Use h.domain (some run.loaded) (land h f now b notes warnings run request).1.domain
      (land h f now b notes warnings run request).2.unit? := by
  have hsettle : (settle h now b run request).1.domain = (h.domain.release run.loaded now).1 := by
    simp only [settle]
    split
    · exact (writes_keep _ b request.persist _).domain
    · rfl
  rw [land_eq]
  rw [show (closeBerth (openGate (settle h now b run request).1 b) b).domain =
    (h.domain.release run.loaded now).1 from
      (writes_closeBerth _ b).domain.trans hsettle]
  exact .release run.loaded now

/-- A step of a request uses the domain as users may. -/
theorem use_of_advance (ha : f.advance h now = some after) :
    Use h.domain f.unit? after.1.domain after.2.unit? := by
  rw [unit?]
  cases advance_cases ha with
  | start hp hs =>
      rw [hp]
      exact use_of_start hs
  | passGate hp hpass =>
      rw [hp]
      exact use_of_passGate hpass
  | @resolveNext b r pending found failures hp =>
      rw [hp]
      exact use_resolveNext h f b r pending found failures
  | @attachAll b found failures hp =>
      rw [hp]
      exact use_attachAll h f b found failures
  | @compile b notes references prior request hp =>
      rw [hp]
      exact use_compile h f b notes references prior request
  | takeUnit hp ht =>
      rw [hp]
      exact use_of_takeUnit ht
  | @land b notes warnings run request hp =>
      rw [hp]
      exact use_land h f now b notes warnings run request

/-- The request has not come to compile anything. -/
def IsEarly (f : Flight) : Prop :=
  match f.phase with
  | .compiling _ _ _ _ | .queued _ _ _ | .running _ _ _ _ => False
  | .opening | .atGate _ | .resolving _ _ _ _ | .done _ => True

/-- A request that only attaches packages never compiles, and never runs a unit. -/
theorem early_of_load {session : String} {packages : List Reference}
    (hj : f.job = .load session packages) (he : f.IsEarly) (ha : f.advance h now = some after) :
    after.2.IsEarly := by
  have hleads := leads_of_advance ha
  rw [IsEarly] at he ⊢
  generalize after.2.phase = phase at hleads
  cases hleads with
  | joined | refused | failed | entered | found | missed | loaded | landed => trivial
  | prepared hp hexecute => cases hj.symm.trans hexecute
  | compiled hp | started hp =>
      rw [hp] at he
      exact he.elim

end Flight

namespace Fleet

variable {maxUnits : Nat} {s s' : Fleet}

/-- What requests can bring a host to whose domain is new. They come at any time and take their
steps in any order, and at some time the domain may be closed. -/
inductive Reachable (maxUnits : Nat) : Fleet → Prop
  | start {h : Host} (hd : h.domain = .new maxUnits) : Reachable maxUnits ⟨h, []⟩
  | arrive {s : Fleet} {f : Flight} (reached : Reachable maxUnits s) (hp : f.phase = .opening)
      (hnew : ∀ g ∈ s.flights, g.ticket ≠ f.ticket) :
      Reachable maxUnits ⟨s.host, s.flights ++ [f]⟩
  | step {s s' : Fleet} {e : Event} (reached : Reachable maxUnits s) (h : s.step e = some s') :
      Reachable maxUnits s'
  | close {s : Fleet} (reached : Reachable maxUnits s) :
      Reachable maxUnits ⟨s.host.closeDomain, s.flights⟩

theorem Reachable.tickets (h : Reachable maxUnits s) : (s.flights.map (·.ticket)).Nodup := by
  induction h with
  | start => exact List.nodup_nil
  | @arrive s f _ _ hnew ih =>
      rw [List.map_append, List.nodup_append]
      refine ⟨ih, List.nodup_singleton _, ?_⟩
      intro t ht u hu heq
      obtain ⟨g, hg, rfl⟩ := List.mem_map.1 ht
      rw [List.map_singleton, List.mem_singleton] at hu
      exact hnew g hg (heq.trans hu)
  | step _ hstep ih => rwa [tickets_of_step hstep]
  | close _ ih => exact ih

/-- Only requests that run a text come to have a unit, whatever step is next. -/
theorem early_of_step {e : Event}
    (hs : ∀ f ∈ s.flights, (∃ request, f.job = .execute request) ∨ f.IsEarly)
    (h : s.step e = some s') :
    ∀ f ∈ s'.flights, (∃ request, f.job = .execute request) ∨ f.IsEarly := by
  cases e with
  | operation o =>
      cases h
      exact hs
  | turn ticket now =>
      obtain ⟨f, after, hf, ha, rfl⟩ := step_turn h
      intro g hg
      rcases mem_update_iff.1 hg with ⟨rfl, -⟩ | ⟨hg, -⟩
      · have hjob : after.2.job = f.job := congrArg (·.job) (Flight.anew_of_advance ha)
        cases hj : f.job with
        | execute request => exact Or.inl ⟨request, hjob.trans hj⟩
        | load session packages =>
            rcases hs f (mem_of_flight? hf).1 with ⟨request, hr⟩ | he
            · cases hj.symm.trans hr
            · exact Or.inr (Flight.early_of_load hj he ha)
      · exact hs g hg

theorem Reachable.early (h : Reachable maxUnits s) :
    ∀ f ∈ s.flights, (∃ request, f.job = .execute request) ∨ f.IsEarly := by
  induction h with
  | start => exact fun f hf => absurd hf List.not_mem_nil
  | @arrive s f _ hp _ ih =>
      intro g hg
      rcases List.mem_append.1 hg with hg | hg
      · exact ih g hg
      · rw [List.mem_singleton.1 hg, Flight.IsEarly, hp]
        exact Or.inr trivial
  | step _ hstep ih => exact early_of_step ih hstep
  | close _ ih => exact ih

/-- The units that requests run. -/
def units (s : Fleet) : List LoadedUnit := s.flights.filterMap Flight.unit?

theorem units_of_split {h : Host} {before rest : List Flight} {f : Flight} :
    units ⟨h, before ++ f :: rest⟩ =
      before.filterMap Flight.unit? ++ f.unit?.toList ++ rest.filterMap Flight.unit? := by
  rw [units, List.filterMap_append, List.append_assoc]
  cases hu : f.unit? with
  | none => rw [List.filterMap_cons_none hu, Option.toList_none, List.nil_append]
  | some u => rw [List.filterMap_cons_some hu, Option.toList_some, List.singleton_append]

/-- The request that takes a step is replaced where it stands. -/
theorem update_of_split {h : Host} {before rest : List Flight} {f : Flight}
    {after : Host × Flight} (hd : ((before ++ f :: rest).map (·.ticket)).Nodup)
    (hticket : after.2.ticket = f.ticket) :
    update ⟨h, before ++ f :: rest⟩ after = ⟨after.1, before ++ after.2 :: rest⟩ := by
  rw [List.map_append, List.map_cons, List.nodup_middle, List.nodup_cons, List.mem_append,
    not_or, List.mem_map, List.mem_map] at hd
  have hother : ∀ gs : List Flight, (¬∃ g ∈ gs, g.ticket = f.ticket) →
      gs.map (fun g => if g.ticket = after.2.ticket then after.2 else g) = gs := by
    intro gs hgs
    refine (List.map_congr_left fun g hg => ?_).trans (List.map_id gs)
    exact if_neg fun heq => hgs ⟨g, hg, heq.trans hticket⟩
  simp only [update, List.map_append, List.map_cons, hother before hd.1.1, hother rest hd.1.2]
  rw [if_pos hticket.symm]

end Fleet

/-- No operation uses the domain. -/
theorem Operation.Effect.domain {h h' : Host} (he : Operation.Effect h h') :
    h'.domain = h.domain := by
  cases he with
  | access writes => exact writes.domain
  | remove | clear | sweep => rfl

/-- What a step of a request does to the domain, a user can do as well. -/
theorem Flight.Use.reachable {maxUnits : Nat} {d d' : Domain} {x y : Option LoadedUnit}
    {before rest : List LoadedUnit} {record : List Domain.Entry} (hu : Flight.Use d x d' y)
    (hr : Domain.Usage.Reachable maxUnits ⟨d, before ++ x.toList ++ rest, record⟩) :
    ∃ record, Domain.Usage.Reachable maxUnits ⟨d', before ++ y.toList ++ rest, record⟩ := by
  cases hu with
  | spare => exact ⟨record, hr⟩
  | queue t => exact ⟨record, hr.step (.queue t)⟩
  | abandon t => exact ⟨record, hr.step (.abandon t)⟩
  | launch hload hrun =>
      simp only [Option.toList_none, List.append_nil] at hr
      simp only [Option.toList_some, List.append_assoc, List.singleton_append]
      exact ⟨_, (hr.step (.load hload)).step (.run hrun)⟩
  | release u ms =>
      simp only [Option.toList_some, List.append_assoc, List.singleton_append] at hr
      simp only [Option.toList_none, List.append_nil]
      exact ⟨_, hr.step (.release u ms)⟩

namespace Fleet

variable {maxUnits : Nat} {s s' : Fleet}

/-- The requests in flight are users of the domain, with the units that they run. -/
theorem Reachable.usage (h : Reachable maxUnits s) :
    ∃ record, Domain.Usage.Reachable maxUnits ⟨s.host.domain, s.units, record⟩ := by
  induction h with
  | start hd =>
      rw [hd]
      exact ⟨[], .start⟩
  | @arrive s f _ hp _ ih =>
      have hunit : f.unit? = none := by rw [Flight.unit?, hp]
      have hunits : units ⟨s.host, s.flights ++ [f]⟩ = s.units := by
        rw [units, List.filterMap_append, List.filterMap_cons_none hunit]
        exact List.append_nil _
      rwa [hunits]
  | @step s s' e hreached hstep ih =>
      cases e with
      | operation o =>
          cases hstep
          rwa [show (o.perform s.host).domain = s.host.domain from
            (o.effect_perform s.host).domain]
      | turn ticket now =>
          obtain ⟨f, after, hf, ha, rfl⟩ := step_turn hstep
          obtain ⟨record, hrecord⟩ := ih
          obtain ⟨before, rest, hsplit⟩ := List.append_of_mem (mem_of_flight? hf).1
          obtain ⟨host, flights⟩ := s
          obtain rfl : flights = before ++ f :: rest := hsplit
          rw [update_of_split hreached.tickets
            (Flight.ticket_of_anew (Flight.anew_of_advance ha)), units_of_split]
          rw [units_of_split] at hrecord
          exact (Flight.use_of_advance ha).reachable hrecord
  | close _ ih =>
      obtain ⟨record, hrecord⟩ := ih
      exact ⟨_, hrecord.step .close⟩

theorem Reachable.events {es : List Event} (h : Reachable maxUnits s)
    (hes : es.foldlM Fleet.step s = some s') : Reachable maxUnits s' := by
  induction es generalizing s with
  | nil =>
      cases hes
      exact h
  | cons e es ih =>
      obtain ⟨m, hstep, hrest⟩ := Option.bind_eq_some_iff.1 hes
      exact ih (h.step hstep) hrest

/-- A compiler of code that waits for nine milliseconds, whatever the source says. -/
def patientCompiler : Compiler :=
  ⟨fun _ _ _ => .ok ⟨⟨[.wait 9], .completed ⟨none, .foreign 0⟩⟩, []⟩, ⟨"patient", "1.0", []⟩⟩

/-- A host with one slot, and no session. -/
def patientHost : Host :=
  .new ⟨.permissive, patientCompiler, fun r => .ok ⟨r, []⟩, false, ⟨0, 0, 100, 100⟩, []⟩ 1
    (.new 0 fun n => if n = 0 then "first" else "second")

end Fleet

end ScriptHost
