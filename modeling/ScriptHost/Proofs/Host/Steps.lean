import ScriptHost.Proofs.Host.Within
import ScriptHost.Proofs.Supervision.Accounts

/-!
# Steps of a request in its session

Once a request has a session, each of its steps stays there: the host changes within that
session only, and the request keeps the session until it has its reply. What the caller asked
for never changes.
-/

namespace ScriptHost

/-- The session that a job names. -/
def Job.session? : Job → Option String
  | execute request => requestedSession request.session
  | load id _ => some id

namespace Flight

variable {h h' : Host} {f f' : Flight} {b : Berth} {now : Nat}

/-- The session of a request that has one and is not done. -/
def berth? (f : Flight) : Option Berth :=
  match f.phase with
  | .atGate b | .resolving b _ _ _ | .compiling b _ _ _ | .queued b _ _ | .running b _ _ _ =>
    some b
  | .opening | .done _ => none

/-- The request as it was before it started. -/
def anew (f : Flight) : Flight := .new f.ticket f.job f.abortAt

theorem ticket_of_anew {g : Flight} (h : f.anew = g.anew) : f.ticket = g.ticket := by
  show f.anew.ticket = g.anew.ticket
  rw [h]

/-- What it comes to that a request passes the gate of its session, or leaves the queue there. -/
inductive PassesGate (h : Host) (f : Flight) (b : Berth) : Host × Flight → Prop
  | aborted : PassesGate h f b
      (closeBerth { h with store := h.store.changeGate b.id (·.leave f.ticket) } b,
        { f with phase := .done (failureReply f.job (namedSession b) [] .cancelled) })
  | blocked {v : Guard.Violation}
      (hcheck : Guard.checkPackages f.job.packages h.setup.policy = .error v)
      (hmay : (h.store.gate b.id).mayEnter f.ticket = true) :
      PassesGate h f b
        (fail { h with store := h.store.changeGate b.id (·.enter f.ticket) } f b [] (.guard v))
  | entered (hcheck : Guard.checkPackages f.job.packages h.setup.policy = .ok ())
      (hmay : (h.store.gate b.id).mayEnter f.ticket = true) :
      PassesGate h f b
        ({ h with store := h.store.changeGate b.id (·.enter f.ticket) },
          { f with phase := .resolving b f.job.packages [] [] })

theorem passGate_cases {after : Host × Flight} (hp : passGate h f now b = some after) :
    PassesGate h f b after := by
  simp only [passGate] at hp
  split at hp
  · cases hp
    exact .aborted
  · split at hp
    · split at hp
      · cases hp
        exact .blocked ‹_› ‹_›
      · cases hp
        exact .entered ‹_› ‹_›
    · cases hp

/-- One for whom a permit is kept passes the gate, or leaves the queue after an abort. -/
theorem isSome_passGate (hmay : (h.store.gate b.id).mayEnter f.ticket = true) (now : Nat) :
    (passGate h f now b).isSome := by
  simp only [passGate, hmay, if_true]
  split
  · rfl
  · split
    · rfl
    · rfl

/-- What it comes to that a request takes a unit, or leaves the queue for units. -/
inductive TakesUnit (h : Host) (f : Flight) (now : Nat) (b : Berth) (notes : List Diagnostic)
    (compilation : Compilation) : Host × Flight → Prop
  | aborted : TakesUnit h f now b notes compilation
      (fail { h with domain := h.domain.giveUp f.ticket } f b notes .cancelled)
  | refused : TakesUnit h f now b notes compilation
      (fail { h with domain := h.domain.giveUp f.ticket } f b notes (.isolation .unavailable))
  | started {d : Domain} {u : LoadedUnit} {run : UnitRun}
      (hload : h.domain.load f.ticket compilation.activity h.setup.tuning.maxOutputBytes =
        .granted d u)
      (hrun : u.run (h.limits f.abortAt) now = .ok run) :
      TakesUnit h f now b notes compilation
        ({ h with domain := d }, { f with phase := .running b notes compilation.warnings run })

theorem takeUnit_cases {notes : List Diagnostic} {compilation : Compilation}
    {after : Host × Flight} (ht : takeUnit h f now b notes compilation = some after) :
    TakesUnit h f now b notes compilation after := by
  simp only [takeUnit] at ht
  split at ht
  · cases ht
    exact .aborted
  · split at ht
    · cases ht
      exact .refused
    · cases ht
    · rename_i d u hload
      split at ht
      · rename_i e hrun
        -- a unit that was granted just now has its code, and runs
        obtain ⟨-, -, -, rfl⟩ := Domain.Usage.load_eq_granted hload
        cases hrun
      · rename_i run hrun
        cases ht
        exact .started hload hrun

/-- What a step of a request in a session leaves: a host that is changed within the session
only, and the request still in the session, or done. -/
structure Stays (h : Host) (f : Flight) (b : Berth) (after : Host × Flight) : Prop where
  host : h.Within b.id after.1
  anew : after.2.anew = f.anew
  flight : after.2.berth? = some b ∨ after.2.reply?.isSome

theorem Stays.behind (hw : h.Within b.id h') {after : Host × Flight}
    (hs : Stays h' f b after) : Stays h f b after :=
  ⟨hw.trans hs.host, hs.anew, hs.flight⟩

theorem writes_closeBerth (h : Host) (b : Berth) : h.Writes b.id (closeBerth h b) := by
  rw [closeBerth]
  split
  · exact Host.writes_remove h b.id
  · exact .refl b.id h

theorem within_openGate (h : Host) (b : Berth) : h.Within b.id (openGate h b) :=
  .of_changeGate b.id h _

theorem within_leave (h : Host) (b : Berth) : h.Within b.id (closeBerth (openGate h b) b) :=
  (within_openGate h b).trans (.of_writes (writes_closeBerth _ b))

theorem stays_fail (h : Host) (f : Flight) (b : Berth) (notes : List Diagnostic)
    (failure : Failure) : Stays h f b (fail h f b notes failure) :=
  ⟨within_leave h b, rfl, Or.inr rfl⟩

theorem writes_attach (h : Host) (job : Job) (b : Berth) (found : List Resolved)
    (failures : List Diagnostic) : h.Writes b.id (attach h job b found failures).1 := by
  rw [attach]
  split
  · exact .refl b.id h
  · split
    · exact .refl b.id h
    · split
      · exact .refl b.id h
      · rename_i store merged hm
        exact Host.writes_of_merge hm

theorem stays_prepare (h : Host) (f : Flight) (b : Berth) (request : Request)
    (notes : List Diagnostic) : Stays h f b (prepare h f b request notes) := by
  rw [prepare]
  split
  · exact stays_fail h f b notes _
  · split
    · exact stays_fail h f b notes _
    · rename_i h' references prior hc
      exact ⟨.of_writes (Host.writes_of_context hc), rfl, Or.inl rfl⟩

theorem stays_attachAll (h : Host) (f : Flight) (b : Berth) (found : List Resolved)
    (failures : List Diagnostic) : Stays h f b (attachAll h f b found failures) := by
  have hw := Host.Within.of_writes (writes_attach h f.job b found failures)
  rw [attachAll]
  split
  · rename_i h' notes e ha
    rw [ha] at hw
    exact (stays_fail h' f b notes e).behind hw
  · rename_i h' notes added ha
    rw [ha] at hw
    split
    · exact ⟨hw.trans (within_openGate h' b), rfl, Or.inr rfl⟩
    · rename_i request _
      exact (stays_prepare h' f b request notes).behind hw

theorem stays_resolveNext (h : Host) (f : Flight) (b : Berth) (r : Reference)
    (pending : List Reference) (found : List Resolved) (failures : List Diagnostic) :
    Stays h f b (resolveNext h f b r pending found failures) := by
  rw [resolveNext]
  split
  · exact ⟨.refl b.id h, rfl, Or.inl rfl⟩
  · exact ⟨.refl b.id h, rfl, Or.inl rfl⟩

theorem stays_compile (h : Host) (f : Flight) (b : Berth) (notes : List Diagnostic)
    (references : List Resolved) (prior : Option Script.Continuation) (request : Request) :
    Stays h f b (compile h f b notes references prior request) := by
  have hw : h.Within b.id { h with compilations := h.compilations + 1 } :=
    ⟨rfl, rfl, rfl, rfl, fun _ _ => rfl, .refl _⟩
  simp only [compile, Host.compile]
  split
  · rename_i h' ds hc
    obtain ⟨rfl, -⟩ := Prod.mk.inj hc
    exact (stays_fail _ f b notes _).behind hw
  · rename_i h' compilation hc
    obtain ⟨rfl, -⟩ := Prod.mk.inj hc
    exact ⟨hw.trans (.of_domain rfl), rfl, Or.inl rfl⟩

theorem stays_takeUnit {notes : List Diagnostic} {compilation : Compilation}
    {after : Host × Flight} (ht : takeUnit h f now b notes compilation = some after) :
    Stays h f b after := by
  have hleft : h.Within b.id { h with domain := h.domain.giveUp f.ticket } := .of_domain rfl
  cases takeUnit_cases ht with
  | aborted | refused => exact (stays_fail _ f b notes _).behind hleft
  | started hload =>
      obtain ⟨-, -, rfl, -⟩ := Domain.Usage.load_eq_granted hload
      exact ⟨.of_domain rfl, rfl, Or.inl rfl⟩

theorem writes_keep (h : Host) (b : Berth) (persist : Bool) (completion : Completion) :
    h.Writes b.id (keep h b persist completion).1 := by
  rw [keep]
  split
  · split
    · rename_i store hu
      exact Host.writes_of_updateState hu
    · exact .refl b.id h
  · exact Host.writes_touch h b.id

/-- What a run leaves in the host when its unit is released, and the errors of its reply. -/
def settle (h : Host) (now : Nat) (b : Berth) (run : UnitRun) (request : Request) :
    Host × List Diagnostic :=
  let h := { h with domain := (h.domain.release run.loaded now).1 }
  match run.outcome with
  | .completed completion => keep h b request.persist completion
  | outcome => (h, outcome.error?.toList)

/-- The reply to a request whose run is over. -/
def landingReply (now : Nat) (b : Berth) (notes warnings : List Diagnostic) (run : UnitRun)
    (errors : List Diagnostic) : Reply :=
  let lingers := run.loaded.isLingering now
  { success := run.outcome.isCompleted && errors.isEmpty
    value :=
      match run.outcome with
      | .completed completion => completion.value
      | _ => none
    output := run.loaded.output.text
    errors := errors
    warnings := notes ++ warnings ++ (if lingers then [degradedWarning] else [])
    session := namedSession b
    cleanupDegraded := lingers }

theorem land_eq (h : Host) (f : Flight) (now : Nat) (b : Berth)
    (notes warnings : List Diagnostic) (run : UnitRun) (request : Request) :
    land h f now b notes warnings run request =
      (closeBerth (openGate (settle h now b run request).1 b) b,
        { f with phase := .done (.executed (landingReply now b notes warnings run
            (settle h now b run request).2)) }) := by
  have hreleased : (h.domain.release run.loaded now).2 =
      if run.loaded.isLingering now then .error (.stillRunning run.loaded.generation)
      else .ok () := rfl
  simp only [land, settle, landingReply]
  rw [hreleased]
  generalize (h.domain.release run.loaded now).1 = domain
  generalize run.loaded.isLingering now = lingers
  cases lingers with
  | true =>
      cases run.outcome with
      | completed | faulted | timedOut | cancelled | memoryExceeded => rfl
  | false =>
      cases run.outcome with
      | completed | faulted | timedOut | cancelled | memoryExceeded => rfl

theorem within_settle (h : Host) (now : Nat) (b : Berth) (run : UnitRun) (request : Request) :
    h.Within b.id (settle h now b run request).1 := by
  have hw : h.Within b.id { h with domain := (h.domain.release run.loaded now).1 } :=
    .of_domain rfl
  simp only [settle]
  split
  · exact hw.trans (.of_writes (writes_keep _ b request.persist _))
  · exact hw

theorem stays_land (h : Host) (f : Flight) (now : Nat) (b : Berth)
    (notes warnings : List Diagnostic) (run : UnitRun) (request : Request) :
    Stays h f b (land h f now b notes warnings run request) := by
  rw [land_eq]
  exact ⟨(within_settle h now b run request).trans (within_leave _ b), rfl, Or.inr rfl⟩

theorem stays_passGate {after : Host × Flight} (hp : passGate h f now b = some after) :
    Stays h f b after := by
  have hentered := Host.Within.of_changeGate b.id h (·.enter f.ticket)
  cases passGate_cases hp with
  | aborted =>
      have hleft := Host.Within.of_changeGate b.id h (·.leave f.ticket)
      exact ⟨hleft.trans (.of_writes (writes_closeBerth _ b)), rfl, Or.inr rfl⟩
  | blocked => exact (stays_fail _ f b [] _).behind hentered
  | entered => exact ⟨hentered, rfl, Or.inl rfl⟩

/-- The steps that a request takes, each in its phase. -/
inductive Advances (h : Host) (f : Flight) (now : Nat) : Host × Flight → Prop
  | start {after : Host × Flight} (hp : f.phase = .opening) (hs : f.start h = some after) :
      Advances h f now after
  | passGate {b : Berth} {after : Host × Flight} (hp : f.phase = .atGate b)
      (hpass : passGate h f now b = some after) : Advances h f now after
  | resolveNext {b : Berth} {r : Reference} {pending : List Reference} {found : List Resolved}
      {failures : List Diagnostic} (hp : f.phase = .resolving b (r :: pending) found failures) :
      Advances h f now (resolveNext h f b r pending found failures)
  | attachAll {b : Berth} {found : List Resolved} {failures : List Diagnostic}
      (hp : f.phase = .resolving b [] found failures) :
      Advances h f now (attachAll h f b found failures)
  | compile {b : Berth} {notes : List Diagnostic} {references : List Resolved}
      {prior : Option Script.Continuation} {request : Request}
      (hp : f.phase = .compiling b notes references prior) (hj : f.job = .execute request) :
      Advances h f now (compile h f b notes references prior request)
  | takeUnit {b : Berth} {notes : List Diagnostic} {compilation : Compilation}
      {after : Host × Flight} (hp : f.phase = .queued b notes compilation)
      (ht : takeUnit h f now b notes compilation = some after) : Advances h f now after
  | land {b : Berth} {notes warnings : List Diagnostic} {run : UnitRun} {request : Request}
      (hp : f.phase = .running b notes warnings run) (hj : f.job = .execute request) :
      Advances h f now (land h f now b notes warnings run request)

theorem advance_cases {after : Host × Flight} (ha : f.advance h now = some after) :
    Advances h f now after := by
  rw [advance] at ha
  split at ha
  · exact .start ‹_› ha
  · exact .passGate ‹_› ha
  · cases ha
    exact .resolveNext ‹_›
  · cases ha
    exact .attachAll ‹_›
  · split at ha
    · cases ha
      exact .compile ‹_› ‹_›
    · cases ha
  · exact .takeUnit ‹_› ha
  · split at ha
    · split at ha
      · cases ha
        exact .land ‹_› ‹_›
      · cases ha
    · cases ha
  · cases ha

/-- A request starts, or takes its step in its session and stays there. -/
theorem start_or_stays {after : Host × Flight} (ha : f.advance h now = some after) :
    (f.phase = .opening ∧ f.start h = some after) ∨
      ∃ b, f.berth? = some b ∧ Stays h f b after := by
  cases advance_cases ha with
  | start hp hs => exact Or.inl ⟨hp, hs⟩
  | passGate hp hpass => exact Or.inr ⟨_, by rw [berth?, hp], stays_passGate hpass⟩
  | resolveNext hp => exact Or.inr ⟨_, by rw [berth?, hp], stays_resolveNext _ _ _ _ _ _ _⟩
  | attachAll hp => exact Or.inr ⟨_, by rw [berth?, hp], stays_attachAll _ _ _ _ _⟩
  | compile hp => exact Or.inr ⟨_, by rw [berth?, hp], stays_compile _ _ _ _ _ _ _⟩
  | takeUnit hp ht => exact Or.inr ⟨_, by rw [berth?, hp], stays_takeUnit ht⟩
  | land hp => exact Or.inr ⟨_, by rw [berth?, hp], stays_land _ _ _ _ _ _ _ _⟩

/-- A step of a request in a session stays in the session. -/
theorem stays_of_advance {after : Host × Flight} (hb : f.berth? = some b)
    (ha : f.advance h now = some after) : Stays h f b after := by
  rcases start_or_stays ha with ⟨hp, -⟩ | ⟨c, hc, hstays⟩
  · rw [berth?, hp] at hb
    cases hb
  · obtain rfl := Option.some.inj (hb.symm.trans hc)
    exact hstays

/-- A request joins the gate of the session that it names, is refused when there is none, or
joins the gate of a session created for it. -/
theorem start_cases {after : Host × Flight} (hs : f.start h = some after) :
    (∃ id, f.job.session? = some id ∧ h.store.registry.find? id ≠ none ∧
        after = joinGate h f ⟨id, false⟩) ∨
      (∃ id, f.job.session? = some id ∧ h.store.registry.find? id = none ∧
        after = (h, { f with phase := .done (failureReply f.job none [] (.session ⟨id⟩)) })) ∨
      ∃ store id ephemeral, f.job.session? = none ∧ h.store.create? = some (store, id) ∧
        after = joinGate { h with store := store } f ⟨id, ephemeral⟩ := by
  have found : ∀ id, f.job.session? = some id → some (findBerth h f id) = some after →
      (∃ id, f.job.session? = some id ∧ h.store.registry.find? id ≠ none ∧
          after = joinGate h f ⟨id, false⟩) ∨
        (∃ id, f.job.session? = some id ∧ h.store.registry.find? id = none ∧
          after = (h, { f with phase := .done (failureReply f.job none [] (.session ⟨id⟩)) })) := by
    intro id hj hf
    simp only [findBerth] at hf
    split at hf
    · rename_i s hg
      cases hf
      exact Or.inl ⟨id, hj, by rw [hg]; exact Option.some_ne_none s, rfl⟩
    · rename_i hg
      cases hf
      exact Or.inr ⟨id, hj, hg, rfl⟩
  rw [start] at hs
  cases hj : f.job with
  | load id packages =>
      simp only [hj] at hs
      rcases found id (by rw [hj]; rfl) hs with hl | hr
      · exact Or.inl (hj ▸ hl)
      · exact Or.inr (Or.inl (hj ▸ hr))
  | execute request =>
      simp only [hj] at hs
      cases hr : requestedSession request.session with
      | some id =>
          rw [hr] at hs
          rcases found id (by rw [hj]; exact hr) hs with hl | hr
          · exact Or.inl (hj ▸ hl)
          · exact Or.inr (Or.inl (hj ▸ hr))
      | none =>
          simp only [hr, createBerth] at hs
          split at hs
          · rename_i store id hc
            cases hs
            exact Or.inr (Or.inr ⟨store, id, _, hr, hc, rfl⟩)
          · cases hs

theorem advance_of_opening (hp : f.phase = .opening) : f.advance h now = f.start h := by
  rw [advance, hp]

theorem phase_of_reply {reply : JobReply} (hr : f.reply? = some reply) : f.phase = .done reply := by
  rw [reply?] at hr
  split at hr
  · rename_i r hp
    rw [hp, Option.some.inj hr]
  · cases hr

theorem berth?_of_reply (hr : f.reply?.isSome) : f.berth? = none := by
  obtain ⟨reply, hreply⟩ := Option.isSome_iff_exists.1 hr
  rw [berth?, phase_of_reply hreply]

/-- A request with a reply takes no more steps. -/
theorem advance_of_reply (hr : f.reply?.isSome) : f.advance h now = none := by
  obtain ⟨reply, hreply⟩ := Option.isSome_iff_exists.1 hr
  rw [advance, phase_of_reply hreply]

theorem anew_of_start {after : Host × Flight} (hs : f.start h = some after) :
    after.2.anew = f.anew := by
  rcases start_cases hs with ⟨_, -, -, rfl⟩ | ⟨_, -, -, rfl⟩ | ⟨_, _, _, -, -, rfl⟩
  · rfl
  · rfl
  · rfl

/-- What the caller asked for stays the same. -/
theorem anew_of_advance {after : Host × Flight} (ha : f.advance h now = some after) :
    after.2.anew = f.anew := by
  rcases start_or_stays ha with ⟨-, hs⟩ | ⟨b, -, hstays⟩
  · exact anew_of_start hs
  · exact hstays.anew

/-- The start of a request shows nothing to those in a session that is there already. -/
theorem start_frame {after : Host × Flight} (hs : f.start h = some after) {id : String}
    (hl : h.store.registry.find? id ≠ none) :
    after.1.setup = h.setup ∧ after.1.domain.closed = h.domain.closed ∧
      (after.1.store.gate id).free = (h.store.gate id).free ∧
      after.1.store.registry.find? id = h.store.registry.find? id := by
  have join : ∀ k : Host, ∀ b, (∀ x, k.store.gate x = h.store.gate x) →
      ((joinGate k f b).1.store.gate id).free = (h.store.gate id).free := by
    intro k b hk
    show ((k.store.changeGate b.id (·.join f.ticket)).gate id).free = _
    rw [SessionStore.gate_changeGate]
    split
    · rename_i heq
      rw [heq, hk]
      rfl
    · rw [hk]
  rcases start_cases hs with ⟨_, -, -, rfl⟩ | ⟨_, -, -, rfl⟩ | ⟨store, other, _, -, hc, rfl⟩
  · exact ⟨rfl, rfl, join h _ (fun _ => rfl), rfl⟩
  · exact ⟨rfl, rfl, rfl, rfl⟩
  · obtain ⟨n, now, -, -, hnone, rfl⟩ := SessionStore.createWithin_eq_some hc
    refine ⟨rfl, rfl, join _ _ (fun _ => rfl), ?_⟩
    show (h.store.registry.put other (.fresh now)).find? id = _
    rw [Registry.find?_put, if_neg]
    rintro rfl
    exact hl hnone

end Flight

end ScriptHost
