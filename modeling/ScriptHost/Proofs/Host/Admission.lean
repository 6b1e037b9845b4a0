import ScriptHost.Proofs.Host.Changes
import ScriptHost.Proofs.Host.Phases
import ScriptHost.Proofs.Package.Names

/-!
# What is attached was admitted

Requests are the only way to attach packages to sessions. A request has its packages checked when
it passes the gate, under the names that it asks for, and attaches what its resolver has found for
them. So whatever is attached, under the name that it was found by, is admitted by the policy.
-/

namespace ScriptHost

namespace Host

/-- The reference is attached to the session. -/
def Attached (h : Host) (id : String) (r : Resolved) : Prop :=
  ∃ c, h.store.registry.contents? id = some c ∧ r ∈ c.references

/-- The only references that come to be attached are those in the batch. -/
def AttachesOnly (batch : List Resolved) (h h' : Host) : Prop :=
  ∀ id r, h'.Attached id r → h.Attached id r ∨ r ∈ batch

namespace AttachesOnly

variable {batch : List Resolved} {h h' h'' : Host}

theorem trans (ha : AttachesOnly batch h h') (ha' : AttachesOnly batch h' h'') :
    AttachesOnly batch h h'' := by
  intro id r hr
  rcases ha' id r hr with hr | hbatch
  · exact ha id r hr
  · exact Or.inr hbatch

/-- Sessions that are removed, or keep what they hold, attach nothing. -/
theorem of_contents (hc : ∀ id, h'.store.registry.contents? id = none ∨
    h'.store.registry.contents? id = h.store.registry.contents? id) : AttachesOnly batch h h' := by
  rintro id r ⟨c, hheld, hmem⟩
  rcases hc id with hnone | hsame
  · cases hnone.symm.trans hheld
  · exact Or.inl ⟨c, hsame.symm.trans hheld, hmem⟩

theorem of_elsewhere (he : ∀ id, Elsewhere id h h') : AttachesOnly batch h h' :=
  of_contents fun id => (he id).contents

/-- A session that changes attaches what is new in it. -/
theorem of_write {id : String} {after : Contents} (hw : h.Writes id h')
    (hafter : h'.store.registry.contents? id = some after)
    (hnew : ∀ r ∈ after.references, h.Attached id r ∨ r ∈ batch) : AttachesOnly batch h h' := by
  rintro other r ⟨c, hheld, hmem⟩
  by_cases heq : other = id
  · subst heq
    cases hafter.symm.trans hheld
    exact hnew r hmem
  · rw [(Within.of_writes hw).registry.contents?_of_ne heq] at hheld
    exact Or.inl ⟨c, hheld, hmem⟩

end AttachesOnly

end Host

namespace Flight

variable {batch : List Resolved} {h : Host} {f : Flight} {b : Berth} {now : Nat}
  {after : Host × Flight}

theorem attachesOnly_closeBerth (h : Host) (b : Berth) : h.AttachesOnly batch (closeBerth h b) := by
  rw [closeBerth]
  split
  · refine .of_contents fun id => ?_
    rw [Registry.contents?_eq_none_iff]
    show ((h.store.registry.remove b.id).1.find? id = none) ∨ _
    by_cases heq : id = b.id
    · exact Or.inl (by rw [Registry.find?_remove, if_pos heq])
    · exact Or.inr ((Registry.Edit.remove h.store.registry).contents?_of_ne heq)
  · exact .of_contents fun _ => Or.inr rfl

/-- To leave a session attaches nothing. -/
theorem attachesOnly_leave (h : Host) (b : Berth) :
    h.AttachesOnly batch (closeBerth (openGate h b) b) :=
  attachesOnly_closeBerth (openGate h b) b

theorem attachesOnly_start (hs : f.start h = some after) : h.AttachesOnly batch after.1 := by
  rcases start_cases hs with ⟨_, -, -, rfl⟩ | ⟨_, -, -, rfl⟩ | ⟨store, id, _, -, hc, rfl⟩
  · exact .of_contents fun _ => Or.inr rfl
  · exact .of_contents fun _ => Or.inr rfl
  · obtain ⟨n, now, -, -, -, rfl⟩ := SessionStore.createWithin_eq_some hc
    rintro other r ⟨c, hheld, hmem⟩
    change (h.store.registry.put id (.fresh now)).contents? other = some c at hheld
    rw [Registry.contents?_put] at hheld
    split at hheld
    · cases hheld
      cases hmem
    · exact Or.inl ⟨c, hheld, hmem⟩

theorem attachesOnly_passGate (hp : passGate h f now b = some after) :
    h.AttachesOnly batch after.1 := by
  cases passGate_cases hp with
  | aborted => exact attachesOnly_closeBerth _ b
  | blocked => exact attachesOnly_leave _ b
  | entered => exact .of_contents fun _ => Or.inr rfl

/-- What is attached is what was found. -/
theorem attachesOnly_attach (h : Host) (job : Job) (b : Berth) (found : List Resolved)
    (failures : List Diagnostic) : h.AttachesOnly found (attach h job b found failures).1 := by
  rw [attach]
  split
  · exact .of_contents fun _ => Or.inr rfl
  · split
    · exact .of_contents fun _ => Or.inr rfl
    · split
      · exact .of_contents fun _ => Or.inr rfl
      · rename_i store merged hm
        have hw : h.Writes b.id { h with store := store } := Host.writes_of_merge hm
        rw [SessionStore.merge_eq] at hm
        obtain ⟨⟨r, m⟩, hr, heq⟩ := Computation.except_map_eq_ok_iff.1 hm
        cases heq
        obtain ⟨c, hheld, hafter, -⟩ := Registry.contents?_of_merge hr
        refine .of_write hw hafter fun x hx => ?_
        rcases List.mem_append.1 hx with hx | hx
        · exact Or.inl ⟨c, hheld, hx⟩
        · exact Or.inr ((Session.newly_addReferences c.references found).sublist.subset hx)

theorem attachesOnly_prepare (h : Host) (f : Flight) (b : Berth) (request : Request)
    (notes : List Diagnostic) : h.AttachesOnly batch (prepare h f b request notes).1 := by
  rw [prepare]
  split
  · exact attachesOnly_leave h b
  · split
    · exact attachesOnly_leave h b
    · rename_i k references prior hc
      exact .of_contents fun id => Or.inr (congrArg View.contents (Host.view_of_context hc id))

theorem attachesOnly_attachAll (h : Host) (f : Flight) (b : Berth) (found : List Resolved)
    (failures : List Diagnostic) : h.AttachesOnly found (attachAll h f b found failures).1 := by
  have hattach := attachesOnly_attach h f.job b found failures
  rw [attachAll]
  split
  · rename_i k notes e ha
    rw [ha] at hattach
    exact hattach.trans (attachesOnly_leave k b)
  · rename_i k notes added ha
    rw [ha] at hattach
    split
    · exact hattach
    · rename_i request _
      exact hattach.trans (attachesOnly_prepare k f b request notes)

theorem attachesOnly_compile (h : Host) (f : Flight) (b : Berth) (notes : List Diagnostic)
    (references : List Resolved) (prior : Option Script.Continuation) (request : Request) :
    h.AttachesOnly batch (compile h f b notes references prior request).1 := by
  simp only [compile, Host.compile]
  split
  · rename_i k ds hc
    obtain ⟨rfl, -⟩ := Prod.mk.inj hc
    exact attachesOnly_leave _ b
  · rename_i k compilation hc
    obtain ⟨rfl, -⟩ := Prod.mk.inj hc
    exact .of_contents fun _ => Or.inr rfl

theorem attachesOnly_takeUnit {notes : List Diagnostic} {compilation : Compilation}
    (ht : takeUnit h f now b notes compilation = some after) : h.AttachesOnly batch after.1 := by
  cases takeUnit_cases ht with
  | aborted | refused => exact attachesOnly_leave _ b
  | started => exact .of_contents fun _ => Or.inr rfl

theorem attachesOnly_keep (h : Host) (b : Berth) (persist : Bool) (completion : Completion) :
    h.AttachesOnly batch (keep h b persist completion).1 := by
  rw [keep]
  split
  · split
    · rename_i store hu
      have hw : h.Writes b.id { h with store := store } := Host.writes_of_updateState hu
      rw [SessionStore.updateState_eq] at hu
      obtain ⟨r, hr, rfl⟩ := Computation.except_map_eq_ok_iff.1 hu
      obtain ⟨c, hheld, hafter⟩ := Registry.contents?_of_updateState hr
      exact .of_write hw hafter fun x hx => Or.inl ⟨c, hheld, hx⟩
    · exact .of_contents fun _ => Or.inr rfl
  · exact .of_contents fun id => Or.inr (congrArg View.contents (Host.view_touch h b.id id))

theorem attachesOnly_land (h : Host) (f : Flight) (now : Nat) (b : Berth)
    (notes warnings : List Diagnostic) (run : UnitRun) (request : Request) :
    h.AttachesOnly batch (land h f now b notes warnings run request).1 := by
  have hsettle : h.AttachesOnly batch (settle h now b run request).1 := by
    simp only [settle]
    split
    · exact attachesOnly_keep _ b request.persist _
    · exact .of_contents fun _ => Or.inr rfl
  rw [land_eq]
  exact hsettle.trans (attachesOnly_leave _ b)

/-- What a request has found so far. -/
def found (f : Flight) : List Resolved :=
  match f.phase with
  | .resolving _ _ found _ => found
  | _ => []

/-- A step attaches only what its request has found. -/
theorem attachesOnly_of_advance (ha : f.advance h now = some after) :
    h.AttachesOnly f.found after.1 := by
  rw [found]
  cases advance_cases ha with
  | start hp hs => exact attachesOnly_start hs
  | passGate hp hpass => exact attachesOnly_passGate hpass
  | resolveNext hp =>
      rw [hp, resolveNext]
      cases h.setup.resolver _ with
      | ok resolved => exact .of_contents fun _ => Or.inr rfl
      | error e => exact .of_contents fun _ => Or.inr rfl
  | attachAll hp =>
      rw [hp]
      exact attachesOnly_attachAll h f _ _ _
  | compile hp => exact attachesOnly_compile h f _ _ _ _ _
  | takeUnit hp ht => exact attachesOnly_takeUnit ht
  | land hp => exact attachesOnly_land h f now _ _ _ _ _

/-- What a request will look for, and what it has found, was admitted. -/
def Screened (p : Policy) (f : Flight) : Prop :=
  match f.phase with
  | .resolving _ pending found _ =>
    (∀ r ∈ pending, p.Admits r) ∧ ∀ r ∈ found, p.Admits r.reference
  | _ => True

variable {p : Policy}

theorem Screened.found (hf : f.Screened p) : ∀ r ∈ f.found, p.Admits r.reference := by
  rw [Screened] at hf
  rw [Flight.found]
  cases hp : f.phase with
  | resolving b pending found failures =>
      rw [hp] at hf
      exact hf.2
  | opening | atGate | compiling | queued | running | done => exact List.forall_mem_nil _

/-- The gate lets admitted packages through, and what is found for them is admitted. -/
theorem screened_of_advance (hsetup : h.setup.policy = p) (hnames : h.setup.resolver.KeepsNames)
    (hf : f.Screened p) (ha : f.advance h now = some after) : after.2.Screened p := by
  have hleads := leads_of_advance ha
  rw [Screened] at hf ⊢
  generalize after.2.phase = phase at hleads
  cases hleads with
  | entered hp hpass =>
      rw [← hsetup]
      exact ⟨Guard.checkPackages_eq_ok_iff_admits.1 hpass, List.forall_mem_nil _⟩
  | @found b r pending found failures resolved hp hr =>
      rw [hp] at hf
      obtain ⟨hpending, hfound⟩ := hf
      refine ⟨fun a ha => hpending a (List.mem_cons_of_mem r ha), fun a ha => ?_⟩
      rcases List.mem_append.1 ha with ha | ha
      · exact hfound a ha
      · rw [List.mem_singleton.1 ha]
        exact (hpending r List.mem_cons_self).of_lowercase (hnames hr)
  | @missed b r pending found failures e hp hr =>
      rw [hp] at hf
      exact ⟨fun a ha => hf.1 a (List.mem_cons_of_mem r ha), hf.2⟩
  | joined | refused | failed | loaded | prepared | compiled | started | landed => trivial

end Flight

variable {p : Policy}

/-- All that is attached was admitted, and what will be found has the names that it is asked for
by. -/
structure Host.Screened (p : Policy) (h : Host) : Prop where
  policy : h.setup.policy = p
  names : h.setup.resolver.KeepsNames
  nodup : h.store.registry.ids.Nodup
  attached : ∀ id r, h.Attached id r → p.Admits r.reference

namespace Host.Screened

variable {h h' : Host}

theorem of_empty (hempty : h.store.registry = .empty) (hr : h.setup.resolver.IsBuiltIn) :
    h.Screened h.setup.policy where
  policy := rfl
  names := hr.keepsNames
  nodup := hempty ▸ List.nodup_nil
  attached := by
    rintro id r ⟨c, hheld, -⟩
    rw [hempty] at hheld
    cases hheld

/-- Nothing goes wrong where nothing is attached but what was admitted. -/
theorem attachesOnly (hs : h.Screened p) {batch : List Resolved} (hsetup : h'.setup = h.setup)
    (hd : h'.store.registry.ids.Nodup) (ha : h.AttachesOnly batch h')
    (hbatch : ∀ r ∈ batch, p.Admits r.reference) : h'.Screened p where
  policy := hsetup ▸ hs.policy
  names := hsetup ▸ hs.names
  nodup := hd
  attached id r hr := (ha id r hr).elim (hs.attached id r) (hbatch r)

theorem sheds (hs : h.Screened p) (hsetup : h'.setup = h.setup) (hsheds : h.store.Sheds h'.store) :
    h'.Screened p :=
  hs.attachesOnly hsetup hsheds.nodup (.of_contents hsheds.contents) (List.forall_mem_nil _)

theorem passTime (hs : h.Screened p) (ms : Nat) : (h.passTime ms).Screened p :=
  hs.sheds rfl (.removals hs.nodup _)

theorem sweepFor (hs : h.Screened p) (spanMs : Nat) : (h.sweepFor spanMs).Screened p := by
  have hswept : ∀ ttl n, { h with store := h.store.sweepTimes ttl n }.Screened p :=
    fun ttl n => hs.sheds rfl (.sweepTimes hs.nodup ttl n)
  exact (hswept _ _).passTime (waitOf spanMs)

theorem operation (hs : h.Screened p) (o : Operation) : (o.perform h).Screened p := by
  have he := o.effect_perform h
  exact hs.attachesOnly he.setup (he.nodup hs.nodup) (.of_elsewhere (he.elsewhere hs.nodup))
    (List.forall_mem_nil _)

/-- All that was attached passes the check still, and none of it is blocked. -/
theorem references (hs : h.Screened p) {id : String} {session : Session}
    (hfind : h.store.registry.find? id = some session) :
    Guard.checkPackages (session.references.map (·.reference)) p = .ok () ∧
      ∀ r ∈ session.references, ¬ p.Blocks r.reference := by
  have hadmitted : ∀ r ∈ session.references, p.Admits r.reference := by
    intro r hr
    refine hs.attached id r ⟨session.contents, ?_, hr⟩
    rw [Registry.contents?, hfind]
    rfl
  refine ⟨Guard.checkPackages_eq_ok_iff_admits.2 fun package hpackage => ?_,
    fun r hr => Policy.admits_iff_not_blocks.1 (hadmitted r hr)⟩
  obtain ⟨r, hr, rfl⟩ := List.mem_map.1 hpackage
  exact hadmitted r hr

end Host.Screened

namespace Fleet

/-- What can become of a fleet. Requests come at any time and take their steps in any order,
operations come in between, the domain may be closed, and packages come and go where they are
found. -/
inductive Evolves (s : Fleet) : Fleet → Prop
  | refl : Evolves s s
  | arrive {m : Fleet} {f : Flight} (before : Evolves s m) (hp : f.phase = .opening) :
      Evolves s ⟨m.host, m.flights ++ [f]⟩
  | step {m m' : Fleet} {e : Event} (before : Evolves s m) (h : m.step e = some m') : Evolves s m'
  | close {m : Fleet} (before : Evolves s m) : Evolves s ⟨m.host.closeDomain, m.flights⟩
  | restock {m : Fleet} {r : Resolver} (before : Evolves s m) (hr : r.IsBuiltIn) :
      Evolves s ⟨{ m.host with setup := { m.host.setup with resolver := r } }, m.flights⟩

/-- The host is screened, and so are the requests under way. -/
structure Screened (p : Policy) (s : Fleet) : Prop where
  host : s.host.Screened p
  flights : ∀ f ∈ s.flights, f.Screened p

variable {s m : Fleet} {e : Event}

theorem Screened.step (hs : s.Screened p) (hstep : s.step e = some m) : m.Screened p := by
  cases e with
  | operation o =>
      cases hstep
      exact ⟨hs.host.operation o, hs.flights⟩
  | turn ticket now =>
      obtain ⟨f, after, hfind, ha, rfl⟩ := step_turn hstep
      have hf := hs.flights f (mem_of_flight? hfind).1
      refine ⟨hs.host.attachesOnly (Flight.setup_of_advance ha)
        (Flight.nodup_of_advance ha hs.host.nodup) (Flight.attachesOnly_of_advance ha) hf.found, ?_⟩
      intro g hg
      rcases mem_update_iff.1 hg with ⟨rfl, -⟩ | ⟨hg, -⟩
      · exact Flight.screened_of_advance hs.host.policy hs.host.names hf ha
      · exact hs.flights g hg

theorem Screened.run {id : String} {q : Host → Prop} {ps : List Passage} (hs : s.Screened p)
    (hr : Run id q s ps m) : m.Screened p := by
  induction hr with
  | start => exact hs
  | step _ hstep _ ih => exact ih.step hstep

theorem Screened.evolves (hs : s.Screened p) (he : Evolves s m) : m.Screened p := by
  induction he with
  | refl => exact hs
  | @arrive m f _ hp ih =>
      refine ⟨ih.host, fun g hg => ?_⟩
      rcases List.mem_append.1 hg with hg | hg
      · exact ih.flights g hg
      · rw [List.mem_singleton.1 hg, Flight.Screened, hp]
        trivial
  | step _ hstep ih => exact ih.step hstep
  | close _ ih => exact ⟨⟨ih.host.policy, ih.host.names, ih.host.nodup, ih.host.attached⟩, ih.flights⟩
  | restock _ hr ih =>
      exact ⟨⟨ih.host.policy, hr.keepsNames, ih.host.nodup, ih.host.attached⟩, ih.flights⟩

theorem Evolves.events {m' : Fleet} {es : List Event} (he : Evolves s m)
    (hes : es.foldlM Fleet.step m = some m') : Evolves s m' := by
  induction es generalizing m with
  | nil =>
      cases hes
      exact he
  | cons e es ih =>
      obtain ⟨next, hstep, hrest⟩ := Option.bind_eq_some_iff.1 hes
      exact ih (he.step hstep) hrest

end Fleet

namespace Host.Screened

variable {h : Host}

/-- Jobs that are served together leave what was admitted. -/
theorem serve (hs : h.Screened p) (orders : List Order) : (h.serve orders).1.Screened p := by
  obtain ⟨ps, hrun⟩ := h.run_traffic orders ""
  have hfleet : (h.traffic orders).fleet.Screened p := by
    refine Fleet.Screened.run ⟨hs, fun f hf => ?_⟩ hrun
    obtain ⟨⟨o, ticket⟩, -, rfl⟩ := List.mem_map.1 hf
    trivial
  have hremovals : { (h.traffic orders).host with
      removals := (h.traffic orders).removals }.Screened p :=
    hfleet.host.sheds rfl (.refl hfleet.host.nodup)
  exact hremovals.passTime 0

theorem after (hs : h.Screened p) (c : Call) : (h.after c).Screened p := by
  cases c with
  | serve orders => exact hs.serve orders
  | operation o => exact hs.operation o
  | passTime ms => exact hs.passTime ms
  | sweepFor spanMs => exact hs.sweepFor spanMs
  | closeDomain => exact hs.sheds rfl (.refl hs.nodup)

theorem calls (hs : h.Screened p) (calls : List Call) : (calls.foldl Host.after h).Screened p := by
  induction calls generalizing h with
  | nil => exact hs
  | cons c calls ih => exact ih (hs.after c)

end Host.Screened

/-- A host without sessions finds packages in a catalogue or in a directory. Whatever is there and
whatever callers do, the references attached to a session pass the check of the policy under the
names that they were found by, and none of them is blocked. So it is at every step of requests that
are under way together, and after any sequence of calls. -/
theorem attached_pass_check {h : Host} (hempty : h.store.registry = .empty)
    (hr : h.setup.resolver.IsBuiltIn) :
    (∀ {s : Fleet} {id : String} {session : Session}, Fleet.Evolves ⟨h, []⟩ s →
      s.host.store.registry.find? id = some session →
      Guard.checkPackages (session.references.map (·.reference)) h.setup.policy = .ok () ∧
        ∀ r ∈ session.references, ¬ h.setup.policy.Blocks r.reference) ∧
    ∀ {calls : List Call} {id : String} {session : Session},
      (calls.foldl Host.after h).store.registry.find? id = some session →
      Guard.checkPackages (session.references.map (·.reference)) h.setup.policy = .ok () ∧
        ∀ r ∈ session.references, ¬ h.setup.policy.Blocks r.reference := by
  have hstart : h.Screened h.setup.policy := .of_empty hempty hr
  constructor
  · intro s id session he hfind
    have hfleet : Fleet.Screened h.setup.policy ⟨h, []⟩ := ⟨hstart, List.forall_mem_nil _⟩
    exact (hfleet.evolves he).host.references hfind
  · intro calls id session hfind
    exact (hstart.calls calls).references hfind

/-- A setup that keeps some libraries out, and finds two packages with names in mixed case; one of
them begins with a sign that is no ASCII letter. -/
def stockedSetup : Setup :=
  ⟨.production, countingCompiler,
    (Catalogue.ofReleases [⟨"\u212Ait.CONTOSO", "1.0", ["kit.dll"]⟩,
      ⟨"system.Management.Tools", "2.0", ["tools.dll"]⟩]).resolver, false, ⟨0, 0, 100, 100⟩, []⟩

/-- A host with the setup, and no session. -/
def stockedHost : Host := .new stockedSetup 1 (.new 0 fun _ => "s")

/-- A package that is found under another spelling of its name. -/
def kitRequest : Request := ⟨"1", none, [⟨"kit.contoso", none⟩], true⟩

/-- A package in the name space of a library that is kept out. -/
def toolsRequest : Request := ⟨"1", some "s", [⟨"SYSTEM.management.tools", none⟩], true⟩

/-- The package as it is found. -/
def kit : Resolved := ⟨⟨"\u212Ait.CONTOSO", some "1.0"⟩, ["kit.dll"]⟩

/-- A package that was admitted under one spelling is attached under another and would pass under
that too, while it is being attached and after all calls. One that is kept out was asked for as
well. -/
theorem attached_pass_check_kit :
    stockedSetup.policy.Blocks ⟨"SYSTEM.management.tools", none⟩ ∧
    (∃ s session, Fleet.Evolves ⟨stockedHost, []⟩ s ∧
      s.host.store.registry.find? "s" = some session ∧ session.references = [kit] ∧
      Guard.checkPackages [kit.reference] stockedSetup.policy = .ok ()) ∧
    ∃ session, ([Call.serve [.ofJob (.execute kitRequest)],
        .serve [.ofJob (.execute toolsRequest)]].foldl Host.after stockedHost).store.registry.find?
          "s" = some session ∧ session.references = [kit] ∧
      Guard.checkPackages [kit.reference] stockedSetup.policy = .ok () := by
  have hempty : stockedHost.store.registry = .empty := rfl
  have hbuilt : stockedHost.setup.resolver.IsBuiltIn := .catalogue _
  refine ⟨⟨rfl, "System.Management", by decide +kernel, by decide +kernel⟩, ?_, ?_⟩
  · have hrun : ((List.replicate 4 (Event.turn 0 0)).foldlM Fleet.step
        ⟨stockedHost, [.new 0 (.execute kitRequest) none]⟩).bind (fun s =>
          (s.host.store.registry.find? "s").map (·.references)) = some [kit] := by
      decide +kernel
    obtain ⟨s, hs, hfound⟩ := Option.bind_eq_some_iff.1 hrun
    obtain ⟨session, hfind, hreferences⟩ := Option.map_eq_some_iff.1 hfound
    have hevolves : Fleet.Evolves ⟨stockedHost, []⟩ s :=
      Fleet.Evolves.events (.arrive .refl rfl) hs
    obtain ⟨hpass, -⟩ := (attached_pass_check hempty hbuilt).1 hevolves hfind
    rw [hreferences] at hpass
    exact ⟨s, session, hevolves, hfind, hreferences, hpass⟩
  · have hcalls : (([Call.serve [.ofJob (.execute kitRequest)],
        .serve [.ofJob (.execute toolsRequest)]].foldl Host.after stockedHost).store.registry.find?
          "s").map (·.references) = some [kit] := by decide +kernel
    obtain ⟨session, hfind, hreferences⟩ := Option.map_eq_some_iff.1 hcalls
    obtain ⟨hpass, -⟩ := (attached_pass_check hempty hbuilt).2 hfind
    rw [hreferences] at hpass
    exact ⟨session, hfind, hreferences, hpass⟩

end ScriptHost
