import ScriptHost.Proofs.Host.Announcements
import ScriptHost.Proofs.Host.Endings

/-!
# The way to a run

A request that is served by itself takes its steps one right after the other until it is done or
runs code: nothing comes between them, and no time passes. What the serving comes to can be read off
the request after such steps as well as before them.
-/

namespace ScriptHost

/-! ## Gates -/

namespace SessionStore

variable {s : SessionStore} {id : String}

theorem changeGate_changeGate (s : SessionStore) (id : String)
    (first second : Semaphore → Semaphore) :
    (s.changeGate id first).changeGate id second =
      s.changeGate id (fun gate => second (first gate)) := by
  rw [changeGate, gate_changeGate_self]
  simp only [changeGate, Table.set_set]

/-- What a gate is changed to does not depend on what is done with it before. -/
theorem changeGate_congr {first second : Semaphore → Semaphore}
    (h : first (s.gate id) = second (s.gate id)) :
    s.changeGate id first = s.changeGate id second := by
  rw [changeGate, changeGate, h]

/-- To merge into a session that is there fails for no other reason than a blank id. -/
theorem merge_eq_ok_iff {c : Contents}
    (hc : s.registry.contents? id = some c) (rs : List Resolved) :
    (∃ merged, s.merge id rs = .ok merged) ↔ Text.isBlankText id = false := by
  rw [merge_eq, Registry.merge_eq]
  cases hu : s.registry.use? id with
  | error e =>
      refine iff_of_false nofun fun hblank => ?_
      cases (Registry.contents?_of_use?_error hblank hu).symm.trans hc
  | ok session =>
      refine iff_of_true ⟨_, rfl⟩ ?_
      by_contra hblank
      rw [Registry.use?, if_pos (eq_true_of_ne_false hblank)] at hu
      cases hu

end SessionStore

namespace Setup

/-- The warnings on packages that are not found. -/
def missing (setup : Setup) (packages : List Reference) : List Diagnostic :=
  packages.filterMap fun r =>
    match setup.resolver r with
    | .ok _ => none
    | .error e => some (.warning Code.packageNotFound e.message)

variable {setup : Setup} {r : Reference} {found : Resolved} {e : ResolveError}

theorem resolved_of_ok (hr : setup.resolver r = .ok found) (packages : List Reference) :
    setup.resolved (r :: packages) = found :: setup.resolved packages :=
  List.filterMap_cons_some (by rw [hr]; rfl)

theorem resolved_of_error (hr : setup.resolver r = .error e) (packages : List Reference) :
    setup.resolved (r :: packages) = setup.resolved packages :=
  List.filterMap_cons_none (by rw [hr]; rfl)

theorem missing_of_ok (hr : setup.resolver r = .ok found) (packages : List Reference) :
    setup.missing (r :: packages) = setup.missing packages :=
  List.filterMap_cons_none (by rw [hr])

theorem missing_of_error (hr : setup.resolver r = .error e) (packages : List Reference) :
    setup.missing (r :: packages) =
      .warning Code.packageNotFound e.message :: setup.missing packages :=
  List.filterMap_cons_some (by rw [hr])

end Setup

/-- The host with the gate of a session closed behind the one who has passed. -/
def Host.closeGate (h : Host) (id : String) : Host :=
  { h with store := h.store.changeGate id fun _ => ⟨0, []⟩ }

@[simp] theorem Host.setup_closeGate (h : Host) (id : String) :
    (h.closeGate id).setup = h.setup := rfl

/-- One that is ready has its turn, unless there has been none for others for long. -/
theorem Agenda.next?_of_ready {a : Agenda Task} {task : Task} {rest : List Task}
    (hready : a.ready = task :: rest) (hs : a.streak < longStreak) :
    a.next? = some (task, { a with ready := rest, streak := a.streak + 1 }) := by
  have hfull : a.refill = a := by
    rw [refill, hready, List.isEmpty_cons, Bool.false_and, if_neg Bool.false_ne_true,
      Bool.false_or, if_neg (by simpa using hs)]
  simp only [next?, hfull, hready]

namespace Traffic

variable {h k : Host} {f g : Flight}

/-! ## The turns of a request by itself -/

/-- A request by itself that is about to take a step, while other tasks wait for their time. -/
def upNext (h : Host) (f : Flight) (timers : List (Timer Task)) (streak : Nat) : Traffic :=
  ⟨h, [f], ⟨0, [.request f.ticket], [], timers, streak⟩⟩

/-- The request in its turn. -/
def inTurn (h : Host) (f : Flight) (timers : List (Timer Task)) (streak : Nat) : Traffic :=
  ⟨h, [f], ⟨0, [], [], timers, streak⟩⟩

/-- A request by itself that is about to take a step, while nothing else is to happen. -/
def alone (h : Host) (f : Flight) : Traffic := upNext h f [] 0

/-- A request by itself that has let others go first. -/
def yielding (h : Host) (f : Flight) : Traffic :=
  ⟨h, [f], ⟨0, [], [], [⟨0, .request f.ticket⟩], 1⟩⟩

/-- A request by itself in its turn, while nothing else is to happen. -/
def turning (h : Host) (f : Flight) : Traffic := inTurn h f [] 1

theorem all_upNext {p : Task → Prop} {timers : List (Timer Task)} (hrequest : p (.request f.ticket))
    (htimers : ∀ timer ∈ timers, p timer.task) (h : Host) (streak : Nat) :
    (upNext h f timers streak).agenda.All p := by
  intro task htask
  rcases Agenda.mem_tasks_iff.1 htask with hready | hdeferred | ⟨timer, htimer, rfl⟩
  · obtain rfl := List.mem_singleton.1 hready
    exact hrequest
  · cases hdeferred
  · exact htimers timer htimer

theorem sole_upNext {timers : List (Timer Task)}
    (htimers : ∀ timer ∈ timers, timer.task.IsPlain ∧ timer.task.isSample = false) (h : Host)
    (f : Flight) (streak : Nat) : Sole f (upNext h f timers streak) := by
  have hplain : (upNext h f timers streak).agenda.All Task.IsPlain :=
    all_upNext trivial (fun timer htimer => (htimers timer htimer).1) h streak
  have hnone : (upNext h f timers streak).agenda.samples = 0 := by
    apply List.countP_eq_zero.2
    intro task htask
    rw [Bool.not_eq_true]
    exact all_upNext (p := fun task => task.isSample = false) rfl
      (fun timer htimer => (htimers timer htimer).2) h streak task htask
  exact ⟨rfl, hplain, by omega, fun _ => hnone⟩

theorem sole_alone (h : Host) (f : Flight) : Sole f (alone h f) :=
  sole_upNext (List.forall_mem_nil _) h f 0

theorem sole_yielding (h : Host) (f : Flight) : Sole f (yielding h f) := by
  refine ⟨rfl, ?_, Nat.zero_le 1, fun _ => rfl⟩
  intro task htask
  obtain rfl := List.mem_singleton.1 htask
  trivial

theorem sole_turning (h : Host) (f : Flight) : Sole f (turning h f) :=
  ⟨rfl, fun _ htask => absurd htask List.not_mem_nil, Nat.zero_le 1, fun _ => rfl⟩

theorem unremoved_alone (h : Host) (f : Flight) : (alone h f).Unremoved :=
  all_upNext (p := fun task => task.isRemoval = false) rfl (List.forall_mem_nil _) h 0

theorem isOver_singleton (h : Host) (a : Agenda Task) :
    (⟨h, [f], a⟩ : Traffic).isOver = f.reply?.isSome := by
  rw [isOver, List.all_cons, List.all_nil, Bool.and_true]

theorem take_request (h : Host) (f : Flight) (a : Agenda Task) :
    (⟨h, [f], a⟩ : Traffic).take (.request f.ticket) = (⟨h, [f], a⟩ : Traffic).advance f := by
  rw [take, advanceIf, find?, List.find?_singleton, beq_self_eq_true, Bool.and_true, if_pos rfl,
    Option.elim_some]

theorem skipSamples_of_busy {t : Traffic} (hbusy : t.agenda.isIdle = false) :
    t.skipSamples = t := by
  rw [skipSamples, hbusy]
  split
  · rfl
  · rfl

theorem step_upNext {timers : List (Timer Task)} {streak : Nat} (hr : f.reply? = none)
    (hs : streak < Agenda.longStreak) :
    (upNext h f timers streak).step = some ((inTurn h f timers (streak + 1)).advance f) := by
  have hskip : (upNext h f timers streak).skipSamples = upNext h f timers streak :=
    skipSamples_of_busy rfl
  have hnext : (upNext h f timers streak).agenda.next? =
      some (.request f.ticket, ⟨0, [], [], timers, streak + 1⟩) := Agenda.next?_of_ready rfl hs
  rw [step, hskip, hnext, upNext, isOver_singleton, hr]
  exact congrArg some (take_request h f _)

theorem step_alone (hr : f.reply? = none) : (alone h f).step = some ((turning h f).advance f) :=
  step_upNext hr (Nat.succ_pos _)

theorem step_yielding (hr : f.reply? = none) :
    (yielding h f).step = some ((turning h f).advance f) := by
  have hskip : (yielding h f).skipSamples = yielding h f := by
    rw [skipSamples]
    split
    · rfl
    · rfl
  rw [step, yielding, isOver_singleton, hr, ← yielding, hskip]
  exact congrArg some (take_request h f _)

/-- One who lets others go first where there are none comes to the same end. -/
theorem finish_yielding (hr : f.reply? = none) : (yielding h f).finish = (alone h f).finish := by
  rw [(sole_yielding h f).finish_of_step (step_yielding hr),
    (sole_alone h f).finish_of_step (step_alone hr)]

theorem advance_inTurn {timers : List (Timer Task)} {streak : Nat}
    (ha : f.advance h 0 = some (k, g)) :
    (inTurn h f timers streak).advance f =
      ((inTurn k g timers streak).afterStep g (!(f.isResolving && k.setup.readsFiles))).wake := by
  have hticket : f.ticket = g.ticket :=
    (Flight.ticket_of_anew (Flight.anew_of_advance ha)).symm
  rw [advance, inTurn, ha]
  simp only [List.map_cons, List.map_nil, if_pos hticket]
  rfl

theorem advance_turning (ha : f.advance h 0 = some (k, g)) :
    (turning h f).advance f =
      ((turning k g).afterStep g (!(f.isResolving && k.setup.readsFiles))).wake :=
  advance_inTurn ha

theorem wake_upNext (h : Host) (f : Flight) (timers : List (Timer Task)) (streak : Nat) :
    (upNext h f timers streak).wake = upNext h f timers streak := by
  have hsame : ∀ fs : List Flight, (∀ x ∈ fs, x = f) →
      fs.foldl (fun t x => t.wakeRequest x.ticket) (upNext h f timers streak) =
        upNext h f timers streak := by
    intro fs hfs
    induction fs with
    | nil => rfl
    | cons x fs ih =>
        obtain rfl := hfs x List.mem_cons_self
        have hready :
            (upNext h x timers streak).wakeRequest x.ticket = upNext h x timers streak := by
          rw [wakeRequest, if_pos]
          simp [upNext, Task.isTurnOf]
        rw [List.foldl_cons, hready]
        exact ih fun y hy => hfs y (List.mem_cons_of_mem _ hy)
  rw [wake]
  apply hsame
  intro x hx
  have hwaiting := (List.mem_filter.1 hx).1
  rw [waiting, List.mem_append, List.mem_filter, List.mem_filter] at hwaiting
  rcases hwaiting with ⟨hmem, -⟩ | ⟨hmem, -⟩
  · exact List.mem_singleton.1 hmem
  · exact List.mem_singleton.1 hmem

theorem wake_of_not_waiting (t : Traffic) (hnone : t.waiting = []) : t.wake = t := by
  rw [wake, hnone]
  rfl

theorem waiting_singleton (hgate : f.isAtGate = false) (hqueue : f.isQueued = false)
    (h : Host) (a : Agenda Task) : (⟨h, [f], a⟩ : Traffic).waiting = [] := by
  simp [waiting, hgate, hqueue]

/-- One who has looked for a package stands in no queue. -/
theorem not_waiting_of_resolving (hf : f.isResolving = true) (ha : f.advance h 0 = some (k, g)) :
    g.isAtGate = false ∧ g.isQueued = false := by
  rw [Flight.isResolving] at hf
  split at hf
  · rename_i b r pending found failures hp
    rw [Flight.advance, hp] at ha
    dsimp only at ha
    rw [Flight.resolveNext] at ha
    split at ha
    · cases ha
      exact ⟨rfl, rfl⟩
    · cases ha
      exact ⟨rfl, rfl⟩
  · cases hf

theorem afterStep_of_going_on (hg : 1 < g.stepsLeft) (t : Traffic) (atOnce : Bool) :
    t.afterStep g atOnce = t.goOn g.ticket atOnce := by
  rw [Flight.stepsLeft] at hg
  rw [afterStep]
  cases hp : g.phase with
  | running =>
      rw [hp] at hg
      exact absurd hg (Nat.lt_irrefl 1)
  | done =>
      rw [hp] at hg
      exact absurd hg (Nat.not_lt_zero 1)
  | opening | atGate | resolving | compiling | queued => rfl

theorem reply?_of_stepsLeft (hg : f.stepsLeft ≠ 0) : f.reply? = none := by
  rw [Flight.stepsLeft] at hg
  rw [Flight.reply?]
  cases hp : f.phase with
  | done =>
      rw [hp] at hg
      exact absurd rfl hg
  | opening | atGate | resolving | compiling | queued | running => rfl

theorem reply?_of_advance {now : Nat} (ha : f.advance h now = some (k, g)) : f.reply? = none := by
  cases hr : f.reply? with
  | none => rfl
  | some reply =>
      have hnone : f.advance h now = none :=
        Flight.advance_of_reply (Option.isSome_of_eq_some hr)
      cases hnone.symm.trans ha

/-- A step of a request that goes on at once changes nothing of the end. -/
theorem finish_upNext {timers : List (Timer Task)} {streak : Nat}
    (htimers : ∀ timer ∈ timers, timer.task.IsPlain ∧ timer.task.isSample = false)
    (hs : streak < Agenda.longStreak) (ha : f.advance h 0 = some (k, g)) (hg : 1 < g.stepsLeft)
    (hatOnce : (f.isResolving && k.setup.readsFiles) = false) :
    (upNext h f timers streak).finish = (upNext k g timers streak).finish := by
  rw [(sole_upNext htimers h f streak).finish_of_step (step_upNext (reply?_of_advance ha) hs),
    advance_inTurn ha, afterStep_of_going_on hg, hatOnce]
  show ((upNext k g timers streak).wake).finish = _
  rw [wake_upNext]

/-- A step of a request that goes on changes nothing of the end. -/
theorem finish_alone (ha : f.advance h 0 = some (k, g)) (hg : 1 < g.stepsLeft) :
    (alone h f).finish = (alone k g).finish := by
  cases hwaits : f.isResolving && k.setup.readsFiles with
  | false => exact finish_upNext (List.forall_mem_nil _) (Nat.succ_pos _) ha hg hwaits
  | true =>
      obtain ⟨hgate, hqueue⟩ := not_waiting_of_resolving (Bool.and_eq_true_iff.1 hwaits).1 ha
      have hwake : (yielding k g).wake = yielding k g :=
        wake_of_not_waiting _ (waiting_singleton hgate hqueue k _)
      rw [(sole_alone h f).finish_of_step (step_alone (reply?_of_advance ha)), advance_turning ha,
        afterStep_of_going_on hg, hwaits]
      show ((yielding k g).wake).finish = _
      rw [hwake]
      exact finish_yielding (reply?_of_stepsLeft (Nat.ne_of_gt (Nat.lt_of_succ_lt hg)))

/-- A request that takes its last step is at the end. -/
theorem finish_of_last (ha : f.advance h 0 = some (k, g)) (hg : g.stepsLeft = 0) :
    (alone h f).finish = turning k g := by
  have hover : ((turning h f).advance f) = turning k g := by
    rw [advance_turning ha]
    rw [Flight.stepsLeft] at hg
    cases hp : g.phase with
    | done reply =>
        have hgate : g.isAtGate = false := by rw [Flight.isAtGate, hp]
        have hqueue : g.isQueued = false := by rw [Flight.isQueued, hp]
        simp only [afterStep, hp]
        exact wake_of_not_waiting _ (waiting_singleton hgate hqueue k _)
    | opening | atGate | resolving | compiling | queued | running =>
        rw [hp] at hg
        cases hg
  rw [(sole_alone h f).finish_of_step (step_alone (reply?_of_advance ha)), hover]
  exact (sole_turning k g).finish_of_done hg

end Traffic

namespace Flight

open Traffic (alone turning)

variable {h k : Host} {f g : Flight} {b : Berth}

/-! ## What a serving comes to -/

/-- The host after a request is served by itself, and the replies, seen from some step of it on. -/
def ending (x : Host × Flight) : Host × List (Option JobReply) :=
  let finish := (alone x.1 x.2).finish
  (finish.hostAfter, finish.flights.map (·.reply?))

theorem ending_of_done (hf : f.stepsLeft = 0) :
    ending (h, f) = ({ h with removals := [] }, [f.reply?]) := by
  rw [ending, (Traffic.sole_alone h f).finish_of_done hf]
  exact Prod.ext (Traffic.unremoved_alone h f).hostAfter rfl

/-- A step that does not start a run changes nothing of the end. -/
theorem ending_of_advance {x : Host × Flight} (ha : f.advance h 0 = some x)
    (hx : x.2.stepsLeft ≠ 1) : ending (h, f) = ending x := by
  by_cases hdone : x.2.stepsLeft = 0
  · rw [ending_of_done hdone, ending, Traffic.finish_of_last ha hdone]
    rfl
  · rw [ending, ending, Traffic.finish_alone ha (by omega)]

theorem solitary_ending (h : Host) (f : Flight) : Traffic.Solitary h f (alone h f).finish :=
  Traffic.Solitary.settle ⟨Traffic.unremoved_alone h f, [], f, rfl, rfl⟩ _

/-- Behind a step that starts a run, the request goes on from there. -/
theorem follow_of_running (ha : f.advance h 0 = some (k, g)) : ∃ moments x y,
    g.follow k moments = some (x, y) ∧
      ending (h, f) = ({ x with removals := [] }, [y.reply?]) := by
  have hturned : Traffic.Solitary k g ((turning h f).advance f) := by
    have hfleet : ((turning h f).advance f).fleet = ⟨k, [g]⟩ := by
      rw [Traffic.advance_turning ha, Traffic.fleet_wake, Traffic.fleet_afterStep]
      rfl
    refine ⟨Traffic.all_advance Task.ordinary_isRemoval ?_ f, [], g, ?_, ?_⟩
    · exact fun _ htask => absurd htask List.not_mem_nil
    · exact congrArg Fleet.flights hfleet
    · exact congrArg (fun s : Fleet => some (s.host, g)) hfleet.symm
  have hs : Traffic.Solitary k g (alone h f).finish := by
    rw [(Traffic.sole_alone h f).finish_of_step
      (Traffic.step_alone (Traffic.reply?_of_advance ha))]
    exact hturned.settle _
  obtain ⟨moments, x, hflights, hfollow⟩ := hs.steps
  refine ⟨moments, _, x, hfollow, ?_⟩
  rw [ending, hs.unremoved.hostAfter, hflights]
  rfl

/-- Requests that go in tandem come to their ends in tandem. -/
theorem ending_tandem {R : Host × Flight → Host × Flight → Prop} (hR : Tandem R)
    {x y : Host × Flight} (hr : R x y) : ∃ x' y', R x' y' ∧
      ending x = ({ x'.1 with removals := [] }, [x'.2.reply?]) ∧
      ending y = ({ y'.1 with removals := [] }, [y'.2.reply?]) := by
  have hticket : x.2.ticket = y.2.ticket := congrArg Outline.ticket (hR.outline hr)
  have hends : Traffic.Tied R (alone x.1 x.2).finish (alone y.1 y.2).finish := by
    apply Traffic.Tied.finish hR
    rw [alone, alone, Traffic.upNext, Traffic.upNext, hticket]
    exact .intro hr _
  have hleft := (solitary_ending x.1 x.2).unremoved
  have hright := (solitary_ending y.1 y.2).unremoved
  rw [ending, ending, hleft.hostAfter, hright.hostAfter]
  generalize (alone x.1 x.2).finish = t at hends
  generalize (alone y.1 y.2).finish = u at hends
  cases hends with
  | @intro h k f g hend a => exact ⟨(h, f), (k, g), hend, rfl, rfl⟩

/-! ## From the gate to the source -/

/-- Behind the gate of its session, the packages of a request are checked, looked for and
attached. -/
def attached (h : Host) (f : Flight) (b : Berth) : Host × Flight :=
  match Guard.checkPackages f.job.packages h.setup.policy with
  | .error v => fail h f b [] (.guard v)
  | .ok () =>
    attachAll h f b (h.setup.resolved f.job.packages) (h.setup.missing f.job.packages)

/-- The outcome of checking packages, looking for them and attaching them: the host, the notes, and
what was added. -/
def attaching (h : Host) (packages : List Reference) (b : Berth) :
    Host × List Diagnostic × Except Failure (List Reference) :=
  match Guard.checkPackages packages h.setup.policy with
  | .error v => (h, [], .error (.guard v))
  | .ok () =>
    attach h (.load b.id packages) b (h.setup.resolved packages) (h.setup.missing packages)

theorem attached_eq (h : Host) (f : Flight) (b : Berth) :
    f.attached h b =
      match attaching h f.job.packages b with
      | (k, notes, .error e) => fail k f b notes e
      | (k, notes, .ok added) =>
        match f.job with
        | .load _ _ =>
          (openGate k b, { f with phase := .done (.loaded ⟨true, some b.id, added, [], notes⟩) })
        | .execute request => prepare k f b request notes := by
  rw [attached, attaching]
  cases Guard.checkPackages f.job.packages h.setup.policy with
  | error v => rfl
  | ok => rfl

theorem attaching_nil (h : Host) (b : Berth) : attaching h [] b = (h, [], .ok []) := by
  have hpass : Guard.checkPackages [] h.setup.policy = .ok () := by
    rw [Guard.checkPackages]
    split
    · rfl
    · rfl
  rw [attaching, hpass]
  rfl

theorem writes_attaching (h : Host) (packages : List Reference) (b : Berth) :
    h.Writes b.id (attaching h packages b).1 := by
  rw [attaching]
  split
  · exact .refl b.id h
  · exact writes_attach h _ b _ _

/-- Packages that cannot be attached change nothing. -/
theorem host_of_attaching_error {notes : List Diagnostic} {e : Failure} {packages : List Reference}
    (ha : attaching h packages b = (k, notes, .error e)) : k = h := by
  rw [attaching] at ha
  split at ha
  · cases ha
    rfl
  · rw [attach] at ha
    split at ha
    · cases ha
    · split at ha
      · cases ha
        rfl
      · split at ha
        · cases ha
          rfl
        · cases ha

/-- A session is there when packages are attached to it. -/
theorem contents_of_attaching {notes : List Diagnostic} {added : List Reference}
    {packages : List Reference} {c : Contents} (hc : h.store.registry.contents? b.id = some c)
    (ha : attaching h packages b = (k, notes, .ok added)) :
    k.store.registry.contents? b.id = some (c.attach (c.added (h.setup.resolved packages))) ∧
      added = (c.added (h.setup.resolved packages)).map (·.reference) ∧
      notes = h.setup.missing packages ++ c.resetNotes (c.added (h.setup.resolved packages)) := by
  rw [attaching] at ha
  split at ha
  · cases ha
  · rw [attach] at ha
    split at ha
    · rename_i hempty
      cases ha
      obtain rfl : packages = [] := List.isEmpty_iff.1 hempty
      have hnone : c.added (h.setup.resolved []) = [] := rfl
      rw [hnone, Contents.attach_nil]
      exact ⟨hc, rfl, rfl⟩
    · split at ha
      · cases ha
      · split at ha
        · cases ha
        · rename_i store merged hm
          rw [SessionStore.merge_eq] at hm
          obtain ⟨⟨r, m⟩, hr, heq⟩ := Computation.except_map_eq_ok_iff.1 hm
          cases heq
          obtain ⟨c', hheld, hafter, rfl⟩ := Registry.contents?_of_merge hr
          obtain rfl := Option.some.inj (hheld.symm.trans hc)
          cases ha
          refine ⟨hafter, rfl, ?_⟩
          rw [Contents.resetNotes]
          split
          · rfl
          · rw [List.append_nil]

/-- Packages are attached to a session that is there exactly when they are not rejected. -/
theorem attaching_eq_ok_iff {c : Contents} (hc : h.store.registry.contents? b.id = some c)
    (packages : List Reference) :
    (∃ k notes added, attaching h packages b = (k, notes, .ok added)) ↔
      ¬ h.setup.Rejects packages ∧ (packages ≠ [] → Text.isBlankText b.id = false) := by
  rw [Setup.Rejects, not_or, not_ne_iff, not_and, attaching]
  cases hcheck : Guard.checkPackages packages h.setup.policy with
  | error v => simp
  | ok =>
      rw [attach]
      by_cases hnone : packages = []
      · simp [Job.packages, hnone]
      · by_cases hfound : h.setup.resolved packages = []
        · simp [Job.packages, hnone, hfound]
        · have hmerge := SessionStore.merge_eq_ok_iff hc (h.setup.resolved packages)
          cases hm : h.store.merge b.id (h.setup.resolved packages) with
          | error e => simpa [Job.packages, hnone, hfound, hm] using hmerge
          | ok merged => simpa [Job.packages, hnone, hfound, hm] using hmerge

theorem stepsLeft_prepare (h : Host) (f : Flight) (b : Berth) (request : Request)
    (notes : List Diagnostic) : (prepare h f b request notes).2.stepsLeft ≠ 1 := by
  rw [prepare]
  split
  · exact Nat.zero_ne_one
  · split
    · exact Nat.zero_ne_one
    · exact Nat.succ_succ_ne_one 1

theorem stepsLeft_attachAll (h : Host) (f : Flight) (b : Berth) (found : List Resolved)
    (failures : List Diagnostic) : (attachAll h f b found failures).2.stepsLeft ≠ 1 := by
  rw [attachAll]
  split
  · exact Nat.zero_ne_one
  · split
    · exact Nat.zero_ne_one
    · exact stepsLeft_prepare _ f b _ _

theorem ending_resolving (h : Host) (f : Flight) (b : Berth) (pending : List Reference)
    (found : List Resolved) (failures : List Diagnostic) :
    ending (h, { f with phase := .resolving b pending found failures }) =
      ending (attachAll h f b (found ++ h.setup.resolved pending)
        (failures ++ h.setup.missing pending)) := by
  induction pending generalizing found failures with
  | nil =>
      rw [Setup.resolved, Setup.missing, List.filterMap_nil, List.filterMap_nil, List.append_nil,
        List.append_nil]
      exact ending_of_advance rfl (stepsLeft_attachAll h f b found failures)
  | cons r pending ih =>
      have hnext : ({ f with phase := .resolving b (r :: pending) found failures } : Flight).advance
          h 0 = some (resolveNext h f b r pending found failures) := rfl
      rw [resolveNext] at hnext
      cases hr : h.setup.resolver r with
      | ok resolved =>
          rw [hr] at hnext
          rw [ending_of_advance hnext (Nat.succ_succ_ne_one _), ih, Setup.resolved_of_ok hr,
            Setup.missing_of_ok hr, List.append_assoc, List.singleton_append]
      | error e =>
          rw [hr] at hnext
          rw [ending_of_advance hnext (Nat.succ_succ_ne_one _), ih, Setup.resolved_of_error hr,
            Setup.missing_of_error hr, List.append_assoc, List.singleton_append]

/-- A request at an open gate passes it, and has its packages attached. -/
theorem ending_joinGate (hgate : h.store.gate b.id = .new 1) (habort : f.abortAt = none) :
    ending (joinGate h f b) = ending (f.attached (h.closeGate b.id) b) := by
  have hclosed : (h.store.changeGate b.id (·.join f.ticket)).changeGate b.id (·.enter f.ticket) =
      h.store.changeGate b.id fun _ => ⟨0, []⟩ := by
    rw [SessionStore.changeGate_changeGate]
    apply SessionStore.changeGate_congr
    rw [hgate]
    simp [Semaphore.join, Semaphore.enter, Semaphore.new]
  have hmay : ((joinGate h f b).1.store.gate b.id).mayEnter f.ticket = true := by
    have hjoined : (joinGate h f b).1.store.gate b.id = (h.store.gate b.id).join f.ticket :=
      SessionStore.gate_changeGate_self h.store b.id _
    rw [hjoined, hgate]
    simp [Semaphore.join, Semaphore.mayEnter, Semaphore.new]
  have hgoes : f.isAborted 0 = false := by
    rw [isAborted, habort]
    rfl
  have hpass : (joinGate h f b).2.advance (joinGate h f b).1 0 =
      match Guard.checkPackages f.job.packages h.setup.policy with
      | .error v => some (fail (h.closeGate b.id) f b [] (.guard v))
      | .ok () =>
        some (h.closeGate b.id, { f with phase := .resolving b f.job.packages [] [] }) := by
    show passGate (joinGate h f b).1 f 0 b = _
    rw [passGate, hgoes, if_neg Bool.false_ne_true, if_pos hmay]
    simp only [joinGate, hclosed]
    rfl
  rw [attached, Host.setup_closeGate]
  cases hcheck : Guard.checkPackages f.job.packages h.setup.policy with
  | error v =>
      rw [hcheck] at hpass
      exact ending_of_advance hpass Nat.zero_ne_one
  | ok =>
      rw [hcheck] at hpass
      exact (ending_of_advance hpass (Nat.succ_succ_ne_one _)).trans
        (ending_resolving (h.closeGate b.id) f b f.job.packages [] [])

/-- A request for a session that is there goes through its gate. -/
theorem ending_of_session {id : String} (hp : f.phase = .opening) (hj : f.job.session? = some id)
    (hl : h.store.registry.find? id ≠ none) (hgate : h.store.gate id = .new 1)
    (habort : f.abortAt = none) :
    ending (h, f) = ending (f.attached (h.closeGate id) ⟨id, false⟩) := by
  have hstart : f.advance h 0 = some (joinGate h f ⟨id, false⟩) :=
    (advance_of_opening hp).trans (start_eq_joinGate hj hl)
  rw [ending_of_advance hstart (Nat.succ_succ_ne_one _)]
  exact ending_joinGate (b := ⟨id, false⟩) hgate habort

/-- A request for a session that is not there is refused. -/
theorem ending_of_no_session {id : String} (hp : f.phase = .opening)
    (hj : f.job.session? = some id) (hn : h.store.registry.find? id = none) :
    ending (h, f) =
      ({ h with removals := [] }, [some (failureReply f.job none [] (.session ⟨id⟩))]) := by
  have hstart : f.advance h 0 =
      some (h, { f with phase := .done (failureReply f.job none [] (.session ⟨id⟩)) }) := by
    rw [advance_of_opening hp, start_eq_findBerth hj, findBerth, hn]
  rw [ending_of_advance hstart Nat.zero_ne_one]
  exact ending_of_done rfl

end Flight

namespace Host

variable {h : Host} {id : String}

/-- A job to which nothing else happens, on a host to which nothing else is to happen. -/
theorem serve_ofJob (hh : h.removals = []) (job : Job) :
    h.serve [.ofJob job] = Flight.ending (h, .new 0 job none) := by
  have hagenda : h.openingAgenda [.ofJob job] = ⟨0, [.request 0], [], [], 0⟩ := by
    rw [openingAgenda, hh]
    rfl
  rw [serve, traffic, hagenda]
  rfl

section

variable (hh : h.removals = []) (hl : h.store.registry.find? id ≠ none)
  (hgate : h.store.gate id = .new 1)

include hh hl hgate

/-- Packages are loaded into a session that is there, whatever comes of it, and its gate is opened
again. -/
theorem serve_load (packages : List Reference) :
    h.serve [.ofJob (.load id packages)] =
      match Flight.attaching (h.closeGate id) packages ⟨id, false⟩ with
      | (k, notes, .error e) =>
        ({ Flight.openGate k ⟨id, false⟩ with removals := [] },
          [some (Flight.failureReply (.load id packages) (some id) notes e)])
      | (k, notes, .ok added) =>
        ({ Flight.openGate k ⟨id, false⟩ with removals := [] },
          [some (.loaded ⟨true, some id, added, [], notes⟩)]) := by
  rw [serve_ofJob hh, Flight.ending_of_session rfl rfl hl hgate rfl, Flight.attached_eq]
  simp only [Flight.new, Job.packages]
  split
  · rw [Flight.fail, Flight.ending_of_done rfl]
    rfl
  · rw [Flight.ending_of_done rfl]
    rfl

/-- A request in a session that is there goes on to its source when its packages are attached. -/
theorem serve_execute (request : Request)
    (hsession : requestedSession request.session = some id) :
    h.serve [.ofJob (.execute request)] =
      match Flight.attaching (h.closeGate id) request.packages ⟨id, false⟩ with
      | (k, notes, .error e) =>
        ({ Flight.openGate k ⟨id, false⟩ with removals := [] },
          [some (Flight.failureReply (.execute request) (some id) notes e)])
      | (k, notes, .ok _) =>
        Flight.ending
          (Flight.prepare k (.new 0 (.execute request) none) ⟨id, false⟩ request notes) := by
  have hj : (Job.execute request).session? = some id := hsession
  rw [serve_ofJob hh, Flight.ending_of_session rfl hj hl hgate rfl, Flight.attached_eq]
  simp only [Flight.new, Job.packages]
  split
  · rw [Flight.fail, Flight.ending_of_done rfl]
    rfl
  · rfl

end

end Host

end ScriptHost
