import ScriptHost.Proofs.Host.Serving
import ScriptHost.Proofs.Session.Attachments
import ScriptHost.Proofs.Supervision.Curtailing

/-!
# What replies announce

Each step of a request in a session keeps to what its reply will announce: the references that it
has resolved are attached or about to be, its notes tell of what they drop, and what it compiles
and runs goes on from there.
-/

namespace ScriptHost

/-- The warning tells that the state of a session was dropped. -/
def Diagnostic.isReset (d : Diagnostic) : Bool := d.code == Code.stateReset

/-- The compiler has codes of its own, and does not report that a state was dropped. -/
def Compiler.HasOwnCodes (c : Compiler) : Prop :=
  ∀ source references prior,
    match c.compile source references prior with
    | .ok compilation => ∀ d ∈ compilation.warnings, d.isReset = false
    | .error ds => ∀ d ∈ ds, d.isReset = false

namespace Setup

/-- The references that are found for packages. -/
def resolved (setup : Setup) (packages : List Reference) : List Resolved :=
  packages.filterMap fun r => (setup.resolver r).toOption

/-- A package is blocked, or none of them is found. -/
def Rejects (setup : Setup) (packages : List Reference) : Prop :=
  Guard.checkPackages packages setup.policy ≠ .ok () ∨
    packages ≠ [] ∧ setup.resolved packages = []

theorem resolved_snoc (setup : Setup) (packages : List Reference) (r : Reference) :
    setup.resolved (packages ++ [r]) =
      setup.resolved packages ++ (setup.resolver r).toOption.toList := by
  rw [resolved, List.filterMap_append, resolved]
  cases h : (setup.resolver r).toOption with
  | none => simp [h]
  | some found => simp [h]

end Setup

/-- The warnings that references to add give rise to. -/
def Contents.resetNotes (c : Contents) (added : List Resolved) : List Diagnostic :=
  if c.discards added then [stateResetWarning (added.map (·.reference))] else []

/-- A session that held `before` holds `after` when a request that has resolved some references has
its reply, and the reply says so. -/
structure Announced (setup : Setup) (request : Request) (resolved : List Resolved)
    (before after : Contents) (added : List Resolved) (reply : Reply) : Prop where
  /-- All packages were looked for, unless the request failed before. -/
  sought : resolved = setup.resolved request.packages ∨ resolved = [] ∧ reply.isSuccess = false
  newly : Newly before.references resolved added
  warned : setup.compiler.HasOwnCodes →
    reply.warnings.filter (·.isReset) = before.resetNotes added
  kept : (request.persist && reply.isSuccess) = false → after = before.attach added
  stored : (request.persist && reply.isSuccess) = true → ∃ compilation completion,
    setup.compiler.compile request.source (before.attach added).references
      (before.attach added).continuation = .ok compilation ∧
    compilation.activity.ending = .completed completion ∧ reply.value = completion.value ∧
    after = (before.attach added).store completion.continuation
  untouched : setup.Rejects request.packages → after = before

theorem Announced.references {setup : Setup} {request : Request} {rs added : List Resolved}
    {before after : Contents} {reply : Reply}
    (ha : Announced setup request rs before after added reply) :
    after.references = before.references ++ added := by
  cases hs : request.persist && reply.isSuccess with
  | false =>
      rw [ha.kept hs]
      rfl
  | true =>
      obtain ⟨_, _, -, -, -, rfl⟩ := ha.stored hs
      rfl

namespace Host

/-- The session holds this, unless it was removed. -/
def Holds (h : Host) (id : String) (c : Contents) : Prop :=
  h.store.registry.contents? id = none ∨ h.store.registry.contents? id = some c

/-- What others do to a host while a request is in a session: anything, but they leave what the
session holds, or remove it. -/
structure Elsewhere (id : String) (h h' : Host) : Prop where
  setup : h'.setup = h.setup
  contents : h'.store.registry.contents? id = none ∨
    h'.store.registry.contents? id = h.store.registry.contents? id

variable {h h' : Host} {id : String} {c : Contents} {b : Berth}

theorem Holds.elsewhere (hc : h.Holds id c) (he : Elsewhere id h h') : h'.Holds id c := by
  rcases he.contents with hnone | hsame
  · exact Or.inl hnone
  · rwa [Holds, hsame]

theorem gone_closeBerth (hn : h.store.registry.contents? b.id = none) :
    (Flight.closeBerth h b).store.registry.contents? b.id = none := by
  rw [Flight.closeBerth]
  split
  · apply Registry.contents?_eq_none_iff.2
    exact (Registry.find?_remove _ b.id b.id).trans (if_pos rfl)
  · exact hn

theorem Holds.close (hc : h.Holds b.id c) : (Flight.closeBerth h b).Holds b.id c := by
  rcases hc with hnone | hsome
  · exact Or.inl (gone_closeBerth hnone)
  · rw [Flight.closeBerth]
    split
    · left
      apply Registry.contents?_eq_none_iff.2
      exact (Registry.find?_remove _ b.id b.id).trans (if_pos rfl)
    · exact Or.inr hsome

end Host

namespace Flight

/-- What the next step of a request resolves. -/
def resolves (h : Host) (f : Flight) : List Resolved :=
  match f.phase with
  | .resolving _ (r :: _) _ _ => (h.setup.resolver r).toOption.toList
  | _ => []

section

variable (id : String) (setup : Setup) (request : Request) (before : Contents)

/-- The request is in the session. -/
structure InSession (b : Berth) : Prop where
  id : b.id = id
  persist : b.ephemeral = true → request.persist = false

/-- What the notes of a request say when it has resolved references. -/
structure Noted (rs : List Resolved) (notes : List Diagnostic) : Prop where
  resolved : rs = setup.resolved request.packages ∨ rs = []
  rejected : setup.Rejects request.packages → rs = []
  notes : notes.filter (·.isReset) = before.resetNotes (before.added rs)

/-- All packages are attached that were found. -/
structure Attached (rs : List Resolved) (notes : List Diagnostic) : Prop where
  accepted : ¬ setup.Rejects request.packages
  resolved : rs = setup.resolved request.packages
  notes : notes.filter (·.isReset) = before.resetNotes (before.added rs)

/-- Where a request stands in a session that held `before`, when it has resolved references. -/
inductive Tracks : List Resolved → Host → Phase → Prop
  | opening {k : Host} (hs : requestedSession request.session = some id)
      (hc : k.Holds id before) : Tracks [] k .opening
  | atGate {k : Host} {b : Berth} (hb : InSession id request b) (hc : k.Holds id before) :
      Tracks [] k (.atGate b)
  | resolving {k : Host} {b : Berth} {consumed pending : List Reference}
      {failures : List Diagnostic} (hb : InSession id request b)
      (hpass : Guard.checkPackages request.packages setup.policy = .ok ())
      (hpackages : request.packages = consumed ++ pending)
      (hf : ∀ d ∈ failures, d.code = Code.packageNotFound) (hc : k.Holds id before) :
      Tracks (setup.resolved consumed) k
        (.resolving b pending (setup.resolved consumed) failures)
  | compiling {k : Host} {rs : List Resolved} {b : Berth} {notes : List Diagnostic}
      (hb : InSession id request b) (hn : Attached setup request before rs notes)
      (hc : k.Holds id (before.attach (before.added rs))) :
      Tracks rs k (.compiling b notes (before.attach (before.added rs)).references
        (before.attach (before.added rs)).continuation)
  | queued {k : Host} {rs : List Resolved} {b : Berth} {notes : List Diagnostic}
      {compilation : Compilation}
      (hb : InSession id request b) (hn : Attached setup request before rs notes)
      (hcompile : setup.compiler.compile request.source
        (before.attach (before.added rs)).references
        (before.attach (before.added rs)).continuation = .ok compilation)
      (hc : k.Holds id (before.attach (before.added rs))) :
      Tracks rs k (.queued b notes compilation)
  | running {k : Host} {rs : List Resolved} {b : Berth} {notes : List Diagnostic}
      {compilation : Compilation} {run : UnitRun}
      (hb : InSession id request b) (hn : Attached setup request before rs notes)
      (hcompile : setup.compiler.compile request.source
        (before.attach (before.added rs)).references
        (before.attach (before.added rs)).continuation = .ok compilation)
      (hrun : ∀ completion, run.outcome = .completed completion →
        compilation.activity.ending = .completed completion)
      (hc : k.Holds id (before.attach (before.added rs))) :
      Tracks rs k (.running b notes compilation.warnings run)
  | done {k : Host} {rs : List Resolved} {after : Contents} {reply : Reply}
      (ha : Announced setup request rs before after (before.added rs) reply)
      (hc : k.Holds id after) : Tracks rs k (.done (.executed reply))
  /-- The session was removed before its packages were attached. -/
  | lost {k : Host} {rs : List Resolved} {reply : Reply}
      (hc : Text.isBlankText id = false → k.store.registry.contents? id = none)
      (hw : reply.warnings.filter (·.isReset) = []) : Tracks rs k (.done (.executed reply))

end

variable {id : String} {setup : Setup} {request : Request} {before after : Contents}
  {rs : List Resolved} {h k : Host} {f : Flight} {b : Berth} {notes : List Diagnostic} {now : Nat}

theorem Attached.noted (hn : Attached setup request before rs notes) :
    Noted setup request before rs notes :=
  ⟨Or.inl hn.resolved, fun hr => absurd hr hn.accepted, hn.notes⟩

/-- Before anything is resolved there is nothing to note. -/
theorem noted_nil (hn : ∀ d ∈ notes, d.isReset = false) :
    Noted setup request before [] notes := by
  refine ⟨Or.inr rfl, fun _ => rfl, ?_⟩
  rw [List.filter_eq_nil_iff.2 fun d hd => by simp [hn d hd]]
  rfl

/-- A request that fails leaves the references attached, and nothing else. -/
theorem Noted.announced (hn : Noted setup request before rs notes) (failure : Failure)
    (session : Option String)
    (hcodes : setup.compiler.HasOwnCodes → ∀ d ∈ failure.diagnostics, d.isReset = false) :
    Announced setup request rs before (before.attach (before.added rs)) (before.added rs)
      { Reply.failure failure.diagnostics with
        session := session
        warnings := notes ++ warningsOf failure.diagnostics } where
  sought := hn.resolved.imp_right fun h => ⟨h, rfl⟩
  newly := Session.newly_addReferences before.references rs
  warned hown := by
    have hnone : (warningsOf failure.diagnostics).filter (·.isReset) = [] := by
      apply List.filter_eq_nil_iff.2
      intro d hd
      simp [hcodes hown d (List.mem_filter.1 hd).1]
    rw [List.filter_append, hnone, List.append_nil, hn.notes]
  kept _ := rfl
  stored hs := by
    rw [Bool.and_eq_true] at hs
    exact absurd hs.2 Bool.false_ne_true
  untouched hr := by
    rw [hn.rejected hr, Contents.added_nil, Contents.attach_nil]

theorem tracks_fail (hj : f.job = .execute request) (hb : InSession id request b)
    (hn : Noted setup request before rs notes) {failure : Failure}
    (hcodes : setup.compiler.HasOwnCodes → ∀ d ∈ failure.diagnostics, d.isReset = false)
    (hc : k.Holds id (before.attach (before.added rs))) :
    Tracks id setup request before rs (fail k f b notes failure).1
      (fail k f b notes failure).2.phase := by
  obtain ⟨rfl, -⟩ := hb
  simp only [fail, failureReply, hj]
  exact .done (hn.announced failure (namedSession b) hcodes) (Host.Holds.close hc)

/-- What a failure only passes on. -/
def passedOn : Failure → List Diagnostic
  | .packages ds => ds
  | .compilation ds => ds
  | _ => []

/-- A failure before a run does not say that a state was dropped, unless it passes that on. -/
theorem isReset_of_failure {failure : Failure}
    (hquiet : ∀ d ∈ passedOn failure, d.isReset = false) :
    ∀ d ∈ failure.diagnostics, d.isReset = false := by
  intro d hd
  cases failure with
  | packages ds =>
      obtain ⟨e, he, rfl⟩ := List.mem_map.1 hd
      exact hquiet e he
  | compilation ds => exact hquiet d hd
  | guard v =>
      rw [List.mem_singleton.1 hd]
      cases v <;> rfl
  | session | isolation | cancelled =>
      rw [List.mem_singleton.1 hd]
      rfl

theorem tracks_start {g : Flight} (hs : f.start h = some (k, g)) (hj : f.job = .execute request)
    (hsession : requestedSession request.session = some id) (hc : h.Holds id before) :
    Tracks id setup request before [] k g.phase := by
  have hid : f.job.session? = some id := by rwa [hj]
  rcases start_cases hs with ⟨other, hother, -, heq⟩ | ⟨other, hother, hn, heq⟩ |
    ⟨store, other, ephemeral, hother, -, -⟩
  · cases heq
    obtain rfl := Option.some.inj (hid.symm.trans hother)
    exact .atGate ⟨rfl, fun he => absurd he Bool.false_ne_true⟩ hc
  · cases heq
    obtain rfl := Option.some.inj (hid.symm.trans hother)
    simp only [failureReply, hj]
    refine .lost (fun _ => Registry.contents?_eq_none_iff.2 hn) ?_
    apply List.filter_eq_nil_iff.2
    intro d hd
    cases hd
  · cases hid.symm.trans hother

theorem tracks_passGate {g : Flight} (hp : passGate h f now b = some (k, g))
    (hj : f.job = .execute request) (hb : InSession id request b) (hc : h.Holds id before)
    (hsetup : h.setup = setup) : Tracks id setup request before [] k g.phase := by
  have hnoted : Noted setup request before [] [] := noted_nil (List.forall_mem_nil _)
  have hheld : h.Holds id (before.attach (before.added [])) := by
    rwa [Contents.added_nil, Contents.attach_nil]
  subst hsetup
  have hquiet : ∀ d ∈ Failure.cancelled.diagnostics, d.isReset = false :=
    isReset_of_failure (List.forall_mem_nil _)
  cases passGate_cases hp with
  | aborted =>
      obtain ⟨rfl, -⟩ := hb
      simp only [failureReply, hj]
      exact .done (hnoted.announced .cancelled (namedSession b) fun _ => hquiet)
        (Host.Holds.close hheld)
  | blocked =>
      exact tracks_fail hj hb hnoted (fun _ => isReset_of_failure (List.forall_mem_nil _)) hheld
  | entered hpass =>
      rw [hj] at hpass ⊢
      exact @Tracks.resolving id h.setup request before _ b [] _ [] hb hpass rfl
        (List.forall_mem_nil _) hc

theorem tracks_resolveNext {consumed pending : List Reference} {failures : List Diagnostic}
    {r : Reference} (hb : InSession id request b)
    (hpass : Guard.checkPackages request.packages setup.policy = .ok ())
    (hpackages : request.packages = consumed ++ r :: pending)
    (hf : ∀ d ∈ failures, d.code = Code.packageNotFound) (hc : h.Holds id before)
    (hsetup : h.setup = setup) (found : List Resolved) (hfound : found = setup.resolved consumed) :
    Tracks id setup request before (found ++ (h.setup.resolver r).toOption.toList)
      (resolveNext h f b r pending found failures).1
      (resolveNext h f b r pending found failures).2.phase := by
  subst hsetup hfound
  have hsplit : request.packages = (consumed ++ [r]) ++ pending := by
    rw [hpackages, List.append_assoc, List.singleton_append]
  have hmore := h.setup.resolved_snoc consumed r
  rw [resolveNext]
  cases hr : h.setup.resolver r with
  | ok found =>
      have hphase : Tracks id h.setup request before _ h _ := .resolving hb hpass hsplit hf hc
      rw [hmore, hr] at hphase
      exact hphase
  | error e =>
      have hfailures : ∀ d ∈ failures ++ [.warning Code.packageNotFound e.message],
          d.code = Code.packageNotFound := by
        intro d hd
        rcases List.mem_append.1 hd with hd | hd
        · exact hf d hd
        · rw [List.mem_singleton.1 hd]
          rfl
      have hphase : Tracks id h.setup request before _ h _ :=
        .resolving hb hpass hsplit hfailures hc
      have hnone : h.setup.resolved (consumed ++ [r]) = h.setup.resolved consumed := by
        rw [hmore, hr]
        exact List.append_nil _
      rw [hnone] at hphase
      exact (List.append_nil _).symm ▸ hphase

/-- What a submission is compiled against is what the session holds. -/
theorem holds_of_context {references : List Resolved} {prior : Option Script.Continuation}
    {c : Contents} (hctx : h.context (some id) = .ok (k, references, prior))
    (hc : h.Holds id c) : references = c.references ∧ prior = c.continuation ∧ k.Holds id c := by
  have hsame : k.Holds id c := by
    rwa [Host.Holds, show k.store.registry.contents? id = h.store.registry.contents? id from
      congrArg View.contents (Host.view_of_context hctx id)]
  simp only [Host.context, Registry.references, SessionStore.state_eq, Registry.state_eq] at hctx
  cases hf : h.store.registry.find? id with
  | none =>
      rw [hf] at hctx
      cases hctx
  | some s =>
      have hheld : s.contents = c := by
        rcases hc with hnone | hsome
        · rw [Registry.contents?, hf] at hnone
          cases hnone
        · rw [Registry.contents?, hf] at hsome
          exact Option.some.inj hsome
      cases hu : h.store.registry.use? id with
      | error e =>
          rw [hf, hu] at hctx
          cases hctx
      | ok s' =>
          obtain rfl := Option.some.inj (hf.symm.trans (Registry.find?_of_use? hu))
          rw [hf, hu] at hctx
          cases hctx
          rw [← hheld] at hsame ⊢
          exact ⟨rfl, rfl, hsame⟩

theorem tracks_prepare (hj : f.job = .execute request) (hb : InSession id request b)
    (hn : Attached setup request before rs notes)
    (hc : h.Holds id (before.attach (before.added rs))) :
    Tracks id setup request before rs (prepare h f b request notes).1
      (prepare h f b request notes).2.phase := by
  rw [prepare]
  split
  · exact tracks_fail hj hb hn.noted (fun _ => isReset_of_failure (List.forall_mem_nil _)) hc
  · split
    · exact tracks_fail hj hb hn.noted (fun _ => isReset_of_failure (List.forall_mem_nil _)) hc
    · rename_i k references prior hctx
      rw [hb.id] at hctx
      obtain ⟨rfl, rfl, hk⟩ := holds_of_context hctx hc
      exact .compiling hb hn hk

/-- A merge fails only when the session is gone. -/
theorem gone_of_merge_error {e : NotFound} (hm : h.store.merge id rs = .error e)
    (hb : Text.isBlankText id = false) : h.store.registry.contents? id = none := by
  rw [SessionStore.merge_eq, Registry.merge_eq] at hm
  cases hu : h.store.registry.use? id with
  | error e => exact Registry.contents?_of_use?_error hb hu
  | ok s =>
      rw [hu] at hm
      cases hm

/-- A merge attaches the references that are new, and tells of them. -/
theorem holds_of_merge {store : SessionStore} {m : Merge}
    (hm : h.store.merge id rs = .ok (store, m)) (hc : h.Holds id before) :
    { h with store := store }.Holds id (before.attach (before.added rs)) ∧
      m = ⟨(before.added rs).map (·.reference), before.discards (before.added rs)⟩ := by
  rw [SessionStore.merge_eq] at hm
  obtain ⟨⟨r, m'⟩, hr, heq⟩ := Computation.except_map_eq_ok_iff.1 hm
  cases heq
  obtain ⟨c, hheld, hafter, rfl⟩ := Registry.contents?_of_merge hr
  have hsame : c = before := by
    rcases hc with hnone | hsome
    · cases hnone.symm.trans hheld
    · exact Option.some.inj (hheld.symm.trans hsome)
  subst hsame
  exact ⟨Or.inr hafter, rfl⟩

theorem tracks_attachAll {failures : List Diagnostic} (hj : f.job = .execute request)
    (hb : InSession id request b)
    (hpass : Guard.checkPackages request.packages setup.policy = .ok ())
    (hf : ∀ d ∈ failures, d.code = Code.packageNotFound) (hc : h.Holds id before) :
    Tracks id setup request before (setup.resolved request.packages)
      (attachAll h f b (setup.resolved request.packages) failures).1
      (attachAll h f b (setup.resolved request.packages) failures).2.phase := by
  have hquiet : ∀ d ∈ failures, d.isReset = false := by
    intro d hd
    rw [Diagnostic.isReset, hf d hd]
    rfl
  have hbefore : h.Holds id (before.attach (before.added [])) := by
    rwa [Contents.added_nil, Contents.attach_nil]
  have hpackages : f.job.packages = request.packages := by rw [hj]; rfl
  rw [attachAll, attach, hpackages]
  by_cases hnone : request.packages = []
  · have hresolved : setup.resolved request.packages = [] := by rw [hnone]; rfl
    have haccepted : ¬ setup.Rejects request.packages := by
      rintro (hblocked | ⟨hne, -⟩)
      · exact hblocked hpass
      · exact hne hnone
    simp only [hnone, List.isEmpty_nil, if_true, hj]
    rw [← hnone, hresolved]
    refine tracks_prepare hj hb ⟨haccepted, hresolved.symm, ?_⟩ hbefore
    rfl
  · have hsome : request.packages.isEmpty = false := List.isEmpty_eq_false_iff.2 hnone
    by_cases hfound : setup.resolved request.packages = []
    · simp only [hsome, hfound, List.isEmpty_nil, if_true, Bool.false_eq_true, if_false]
      refine tracks_fail hj hb (noted_nil (List.forall_mem_nil _)) (fun _ => ?_) hbefore
      exact isReset_of_failure hquiet
    · have hfew : (setup.resolved request.packages).isEmpty = false :=
        List.isEmpty_eq_false_iff.2 hfound
      have haccepted : ¬ setup.Rejects request.packages := by
        rintro (hblocked | ⟨-, hempty⟩)
        · exact hblocked hpass
        · exact hfound hempty
      simp only [hsome, hfew, Bool.false_eq_true, if_false]
      cases hm : h.store.merge b.id (setup.resolved request.packages) with
      | error e =>
          obtain ⟨rfl, -⟩ := hb
          have hgone := fun hblank => gone_of_merge_error hm hblank
          simp only [fail, failureReply, hj]
          refine .lost (fun hblank => Host.gone_closeBerth (hgone hblank)) ?_
          apply List.filter_eq_nil_iff.2
          intro d hd
          rcases List.mem_append.1 hd with hd | hd
          · simp [hquiet d hd]
          · rw [List.mem_singleton.1 (List.mem_filter.1 hd).1]
            exact Bool.false_ne_true
      | ok merged =>
          obtain ⟨store, m⟩ := merged
          rw [hb.id] at hm
          obtain ⟨hheld, rfl⟩ := holds_of_merge hm hc
          simp only [hj]
          refine tracks_prepare hj hb ⟨haccepted, rfl, ?_⟩ hheld
          have hplain : failures.filter (·.isReset) = [] :=
            List.filter_eq_nil_iff.2 fun d hd => by simp [hquiet d hd]
          rw [Contents.resetNotes]
          split
          · rw [List.filter_append, hplain]
            rfl
          · exact hplain

theorem tracks_compile (hj : f.job = .execute request) (hb : InSession id request b)
    (hn : Attached setup request before rs notes)
    (hc : h.Holds id (before.attach (before.added rs))) (hsetup : h.setup = setup) :
    Tracks id setup request before rs
      (compile h f b notes (before.attach (before.added rs)).references
        (before.attach (before.added rs)).continuation request).1
      (compile h f b notes (before.attach (before.added rs)).references
        (before.attach (before.added rs)).continuation request).2.phase := by
  subst hsetup
  cases hcompile : h.setup.compiler.compile request.source
      (before.attach (before.added rs)).references
      (before.attach (before.added rs)).continuation with
  | error ds =>
      simp only [compile, Host.compile, hcompile]
      refine tracks_fail hj hb hn.noted (fun hown => ?_) hc
      have hds := hown request.source (before.attach (before.added rs)).references
        (before.attach (before.added rs)).continuation
      rw [hcompile] at hds
      exact isReset_of_failure hds
  | ok compilation =>
      simp only [compile, Host.compile, hcompile]
      exact .queued hb hn hcompile hc

theorem tracks_takeUnit {compilation : Compilation} {g : Flight}
    (ht : takeUnit h f now b notes compilation = some (k, g)) (hj : f.job = .execute request)
    (hb : InSession id request b) (hn : Attached setup request before rs notes)
    (hcompile : setup.compiler.compile request.source
      (before.attach (before.added rs)).references
      (before.attach (before.added rs)).continuation = .ok compilation)
    (hc : h.Holds id (before.attach (before.added rs))) :
    Tracks id setup request before rs k g.phase := by
  cases takeUnit_cases ht with
  | aborted | refused =>
      exact tracks_fail hj hb hn.noted (fun _ => isReset_of_failure (List.forall_mem_nil _)) hc
  | started hload hrun =>
      obtain ⟨-, -, -, rfl⟩ := Domain.Usage.load_eq_granted hload
      cases hrun
      exact .running hb hn hcompile (fun _ => Activity.ending_of_completed) hc

theorem isSuccess_landingReply (now : Nat) (b : Berth) (notes warnings : List Diagnostic)
    (run : UnitRun) (errors : List Diagnostic) :
    (landingReply now b notes warnings run errors).isSuccess =
      (run.outcome.isCompleted && errors.isEmpty) := by
  simp only [Reply.isSuccess, landingReply, Bool.and_assoc, Bool.and_self]

/-- The reply to a run announces what is there after it, if that is what the run should leave. -/
theorem Attached.announced (hn : Attached setup request before rs notes)
    {compilation : Compilation} {run : UnitRun} {errors : List Diagnostic}
    (hcompile : setup.compiler.compile request.source
      (before.attach (before.added rs)).references
      (before.attach (before.added rs)).continuation = .ok compilation)
    (hrun : ∀ completion, run.outcome = .completed completion →
      compilation.activity.ending = .completed completion)
    (hkept : (request.persist && (run.outcome.isCompleted && errors.isEmpty)) = false →
      after = before.attach (before.added rs))
    (hstored : (request.persist && (run.outcome.isCompleted && errors.isEmpty)) = true →
      ∃ completion, run.outcome = .completed completion ∧
        after = (before.attach (before.added rs)).store completion.continuation) :
    Announced setup request rs before after (before.added rs)
      (landingReply now b notes compilation.warnings run errors) where
  sought := Or.inl hn.resolved
  newly := Session.newly_addReferences before.references rs
  warned hown := by
    have hcompiled := hown request.source (before.attach (before.added rs)).references
      (before.attach (before.added rs)).continuation
    rw [hcompile] at hcompiled
    have hwarnings : compilation.warnings.filter (·.isReset) = [] :=
      List.filter_eq_nil_iff.2 fun d hd => by simp [hcompiled d hd]
    have hdegraded : (if run.loaded.isLingering now then [degradedWarning] else []).filter
        (·.isReset) = [] := by
      split
      · rfl
      · rfl
    simp only [landingReply, List.filter_append, hn.notes, hwarnings, hdegraded, List.append_nil]
  kept := by
    rw [isSuccess_landingReply]
    exact hkept
  stored := by
    rw [isSuccess_landingReply]
    intro hs
    obtain ⟨completion, hcompleted, hafter⟩ := hstored hs
    refine ⟨compilation, completion, hcompile, hrun completion hcompleted, ?_, hafter⟩
    simp only [landingReply, hcompleted]
  untouched hr := absurd hr hn.accepted

/-- What a run leaves in its session when it has ended. -/
theorem settle_holds {c : Contents} (now : Nat) (run : UnitRun) (hb : InSession id request b)
    (hc : h.Holds id c) :
    ∃ after, (settle h now b run request).1.Holds id after ∧
      ((request.persist && (run.outcome.isCompleted &&
        (settle h now b run request).2.isEmpty)) = false → after = c) ∧
      ((request.persist && (run.outcome.isCompleted &&
        (settle h now b run request).2.isEmpty)) = true →
        ∃ completion, run.outcome = .completed completion ∧
          after = c.store completion.continuation) := by
  obtain ⟨rfl, hephemeral⟩ := hb
  cases hrun : run.outcome with
  | faulted | timedOut | cancelled | memoryExceeded =>
      refine ⟨c, ?_, fun _ => rfl, fun hs => ?_⟩
      · simp only [settle, hrun]
        exact hc
      · simp [RunOutcome.isCompleted] at hs
  | completed completion =>
      simp only [settle, hrun, keep]
      by_cases hp : (request.persist && !b.ephemeral) = true
      · rw [if_pos hp]
        have hpersist : request.persist = true := (Bool.and_eq_true_iff.1 hp).1
        cases hu : h.store.updateState b.id completion.continuation with
        | error e =>
            refine ⟨c, hc, fun _ => rfl, fun hs => ?_⟩
            rw [Bool.and_eq_true, Bool.and_eq_true] at hs
            cases hs.2.2
        | ok store =>
            have hstore : store.registry.contents? b.id = some (c.store completion.continuation) := by
              rw [SessionStore.updateState_eq] at hu
              obtain ⟨r, hr, rfl⟩ := Computation.except_map_eq_ok_iff.1 hu
              obtain ⟨c', hheld, hafter⟩ := Registry.contents?_of_updateState hr
              rcases hc with hnone | hsome
              · cases hnone.symm.trans hheld
              · rwa [Option.some.inj (hsome.symm.trans hheld)]
            refine ⟨_, Or.inr hstore, fun hs => ?_, fun _ => ⟨completion, rfl, rfl⟩⟩
            rw [hpersist] at hs
            cases hs
      · have hpersist : request.persist = false := by
          cases he : b.ephemeral with
          | true => exact hephemeral he
          | false => simpa [he] using hp
        rw [if_neg hp]
        refine ⟨c, ?_, fun _ => rfl, fun hs => ?_⟩
        · simpa [Host.Holds, SessionStore.touch, SessionStore.withRegistry] using hc
        · rw [hpersist] at hs
          cases hs

theorem tracks_land {compilation : Compilation} {run : UnitRun} (hb : InSession id request b)
    (hn : Attached setup request before rs notes)
    (hcompile : setup.compiler.compile request.source
      (before.attach (before.added rs)).references
      (before.attach (before.added rs)).continuation = .ok compilation)
    (hrun : ∀ completion, run.outcome = .completed completion →
      compilation.activity.ending = .completed completion)
    (hc : h.Holds id (before.attach (before.added rs))) :
    Tracks id setup request before rs
      (land h f now b notes compilation.warnings run request).1
      (land h f now b notes compilation.warnings run request).2.phase := by
  obtain ⟨after, hafter, hkept, hstored⟩ := settle_holds now run hb hc
  rw [land_eq]
  obtain ⟨rfl, -⟩ := hb
  exact .done (hn.announced hcompile hrun hkept hstored) (Host.Holds.close hafter)

/-- Every step keeps to what the request has announced so far. -/
theorem tracks_advance {next : Host × Flight} (hj : f.job = .execute request)
    (hsetup : h.setup = setup) (ht : Tracks id setup request before rs h f.phase)
    (ha : f.advance h now = some next) :
    Tracks id setup request before (rs ++ f.resolves h) next.1 next.2.phase := by
  -- Only a package that is looked up adds to what is resolved.
  have hsilent : (∀ b r pending found failures, f.phase ≠ .resolving b (r :: pending) found failures) →
      rs ++ f.resolves h = rs := by
    intro hne
    rw [resolves]
    split
    · rename_i hp
      exact absurd hp (hne _ _ _ _ _)
    · exact List.append_nil rs
  cases advance_cases ha with
  | start hp hs =>
      rw [hsilent (by simp [hp])]
      rw [hp] at ht
      cases ht with
      | opening hsession hc => exact tracks_start hs hj hsession hc
  | passGate hp hpass =>
      rw [hsilent (by simp [hp])]
      rw [hp] at ht
      cases ht with
      | atGate hb hc => exact tracks_passGate hpass hj hb hc hsetup
  | resolveNext hp =>
      rw [resolves, hp]
      rw [hp] at ht
      cases ht with
      | resolving hb hpass hpackages hf hc =>
          exact tracks_resolveNext hb hpass hpackages hf hc hsetup _ rfl
  | attachAll hp =>
      rw [hsilent (by simp [hp])]
      rw [hp] at ht
      cases ht with
      | resolving hb hpass hpackages hf hc =>
          rw [List.append_nil] at hpackages
          rw [← hpackages]
          exact tracks_attachAll hj hb hpass hf hc
  | compile hp hj' =>
      rw [hsilent (by simp [hp])]
      rw [hp] at ht
      cases hj.symm.trans hj'
      cases ht with
      | compiling hb hn hc => exact tracks_compile hj hb hn hc hsetup
  | takeUnit hp htake =>
      rw [hsilent (by simp [hp])]
      rw [hp] at ht
      cases ht with
      | queued hb hn hcompile hc => exact tracks_takeUnit htake hj hb hn hcompile hc
  | land hp hj' =>
      rw [hsilent (by simp [hp])]
      rw [hp] at ht
      cases hj.symm.trans hj'
      cases ht with
      | running hb hn hcompile hrun hc => exact tracks_land hb hn hcompile hrun hc

end Flight

end ScriptHost
