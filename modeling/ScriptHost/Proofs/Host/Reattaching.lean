import ScriptHost.Proofs.Host.Entering
import ScriptHost.Proofs.Package.Pinning

/-!
# Packages attached again

A session keeps the references that it has. What packages were found under finds nothing that goes
by another name or version, so packages that were attached to a session add nothing when they come
again, whatever was asked in between.

## Implementation notes

What lasts is that the session has all references that the packages resolve to. An answer is got
from this alone: it matters neither how the references came there nor how the packages are spelt.
-/

namespace ScriptHost

/-! ## Spellings -/

namespace Resolver

/-- A package is asked for as it was before, or by the reference that it is found under. -/
def Spells (resolver : Resolver) (asked r : Reference) : Prop :=
  r = asked ∨ ∃ found, resolver asked = .ok found ∧ r = found.reference

variable {resolver : Resolver} {asked r : Reference}

/-- However a package is spelt, what is found goes by the reference of what was found before. -/
theorem Spells.reference {again : Resolved} (hs : resolver.Spells asked r)
    (hsteady : resolver.IsSteady) (hr : resolver r = .ok again) :
    ∃ found, resolver asked = .ok found ∧ again.reference = found.reference := by
  rcases hs with rfl | ⟨found, hfound, rfl⟩
  · exact ⟨again, hr, rfl⟩
  · exact ⟨found, hfound, hsteady hfound hr⟩

theorem Spells.found (hs : resolver.Spells asked r) (hp : resolver.Pins) :
    resolver r = resolver asked := by
  rcases hs with rfl | ⟨found, hfound, rfl⟩
  · rfl
  · rw [hp hfound, hfound]

theorem Spells.admits {p : Policy} (hs : resolver.Spells asked r) (hk : resolver.KeepsNames)
    (ha : p.Admits asked) : p.Admits r := by
  rcases hs with rfl | ⟨found, hfound, rfl⟩
  · exact ha
  · exact ha.of_lowercase (hk hfound)

end Resolver

theorem Setup.resolved_of_spells {setup : Setup} {packages spelt : List Reference}
    (hs : List.Forall₂ setup.resolver.Spells packages spelt) (hp : setup.resolver.Pins) :
    setup.resolved spelt = setup.resolved packages := by
  induction hs with
  | nil => rfl
  | @cons asked r packages spelt hr _ ih =>
      rw [Setup.resolved, List.filterMap_cons, hr.found hp, ← Setup.resolved, ih]
      rfl

theorem Setup.mem_resolved_iff {setup : Setup} {packages : List Reference} {found : Resolved} :
    found ∈ setup.resolved packages ↔ ∃ r ∈ packages, setup.resolver r = .ok found := by
  have hok : ∀ result : Except ResolveError Resolved,
      result.toOption = some found ↔ result = .ok found := by
    intro result
    cases result with
    | error e => exact ⟨nofun, nofun⟩
    | ok other => exact Option.some_inj.trans (Except.ok.injEq other found ▸ Iff.rfl)
  simp only [Setup.resolved, List.mem_filterMap, hok]

theorem Setup.not_rejects_iff {setup : Setup} {packages : List Reference} :
    ¬ setup.Rejects packages ↔ Guard.checkPackages packages setup.policy = .ok () ∧
      (packages = [] ∨ setup.resolved packages ≠ []) := by
  rw [Setup.Rejects, not_or, not_and_or, not_ne_iff, not_ne_iff]

/-- The packages in some order, each of them spelt in one way or the other. -/
def Respelled (resolver : Resolver) (packages again : List Reference) : Prop :=
  ∃ spelt, List.Forall₂ resolver.Spells packages spelt ∧ spelt.Perm again

namespace Respelled

variable {setup : Setup} {packages again : List Reference} {c : Contents}

theorem exists_spells {resolver : Resolver} (hs : Respelled resolver packages again) {r : Reference}
    (hr : r ∈ again) : ∃ asked ∈ packages, resolver.Spells asked r := by
  obtain ⟨spelt, hspelt, hperm⟩ := hs
  rw [← hperm.mem_iff] at hr
  clear hperm
  induction hspelt with
  | nil => cases hr
  | @cons asked spelling packages spelt hspells _ ih =>
      rcases List.mem_cons.1 hr with rfl | hr
      · exact ⟨asked, List.mem_cons_self, hspells⟩
      · obtain ⟨other, hother, hspells'⟩ := ih hr
        exact ⟨other, List.mem_cons_of_mem _ hother, hspells'⟩

theorem eq_nil_iff {resolver : Resolver} (hs : Respelled resolver packages again) :
    again = [] ↔ packages = [] := by
  obtain ⟨spelt, hspelt, hperm⟩ := hs
  have hlength := hspelt.length_eq.trans hperm.length_eq
  rw [← List.length_eq_zero_iff, ← List.length_eq_zero_iff, hlength]

/-- Packages that may be used may be used when they are spelt otherwise. -/
theorem pass (hs : Respelled setup.resolver packages again) (hk : setup.resolver.KeepsNames)
    (hpass : Guard.checkPackages packages setup.policy = .ok ()) :
    Guard.checkPackages again setup.policy = .ok () := by
  rw [Guard.checkPackages_eq_ok_iff_admits] at hpass ⊢
  intro r hr
  obtain ⟨asked, hasked, hspells⟩ := hs.exists_spells hr
  exact hspells.admits hk (hpass asked hasked)

/-- A session that has what packages resolve to has what they resolve to when they are spelt
otherwise. -/
theorem has (hs : Respelled setup.resolver packages again) (hsteady : setup.resolver.IsSteady)
    (hhas : c.Has (setup.resolved packages)) : c.Has (setup.resolved again) := by
  intro found hfound
  obtain ⟨r, hr, hresolves⟩ := Setup.mem_resolved_iff.1 hfound
  obtain ⟨asked, hasked, hspells⟩ := hs.exists_spells hr
  obtain ⟨before, hbefore, hsame⟩ := hspells.reference hsteady hresolves
  have hheld := hhas before (Setup.mem_resolved_iff.2 ⟨asked, hasked, hbefore⟩)
  rwa [Session.hasReference, hsame]

/-- Of packages that come again as they were, or are found again, some are found. -/
theorem found (hs : Respelled setup.resolver packages again)
    (hsame : packages.Perm again ∨ setup.resolver.Pins)
    (hfound : packages = [] ∨ setup.resolved packages ≠ []) :
    again = [] ∨ setup.resolved again ≠ [] := by
  have hperm : (setup.resolved again).Perm (setup.resolved packages) := by
    rcases hsame with hsame | hpins
    · exact (hsame.filterMap _).symm
    · obtain ⟨spelt, hspelt, hperm⟩ := hs
      rw [← Setup.resolved_of_spells hspelt hpins]
      exact (hperm.filterMap _).symm
  refine hfound.imp hs.eq_nil_iff.2 fun hsome hnone => hsome ?_
  rw [hnone] at hperm
  exact hperm.nil_eq.symm

end Respelled

namespace Host

variable {h h' k : Host} {id : String} {packages again : List Reference} {ask : Ask}
  {answer : Answer} {asks : List Ask} {answers : List Answer} {c : Contents}

/-! ## What lasts -/

/-- The packages are not rejected, and a session has all references that they resolve to. -/
structure Carries (h : Host) (id : String) (packages : List Reference) : Prop where
  accepted : ¬ h.setup.Rejects packages
  named : packages ≠ [] → Text.isBlankText id = false
  contents : ∃ c, h.store.registry.contents? id = some c ∧ c.Has (h.setup.resolved packages)

theorem setup_perform (hi : h.Idle) (ha : ask.perform h = some (h', answer)) :
    h'.setup = h.setup := by
  have hserved : ∀ {o : Order}, o.removal = none → h.answer o = some (h', answer) →
      h'.setup = h.setup := by
    intro o ho ha
    obtain ⟨-, moments, k, g, hfollow, -, -, rfl⟩ := follow_of_answer hi.removals ho ha
    exact Flight.follow_preserves (p := fun k _ => k.setup = h.setup)
      (fun hk hstep => (Flight.setup_of_advance hstep).trans hk) rfl hfollow
  cases ask with
  | execute request abort => exact hserved (o := ⟨.execute request, abort, none⟩) rfl ha
  | load session packages => exact hserved (o := .ofJob (.load session packages)) rfl ha
  | validate source session =>
      cases ha
      obtain ⟨other, k, compilations, -, hview, -, heq⟩ :=
        Operation.access_validate h source session
      rw [heq]
      exact congrArg View.setup (hview "")

/-- The reply to a request in a live session announces what is there then. -/
theorem announced_perform {request : Request} {abort : Option Abort} (hi : h.Idle)
    (hc : h.store.registry.contents? id = some c)
    (hsession : requestedSession request.session = some id)
    (ha : (Ask.execute request abort).perform h = some (h', answer)) : ∃ rs added r c',
      answer = .reply (.executed r) ∧ h'.store.registry.contents? id = some c' ∧
        Announced h.setup request rs c c' added r := by
  obtain ⟨reply, moments, k, g, hfollow, hreply, rfl, rfl⟩ :=
    follow_of_answer (o := ⟨.execute request, abort, none⟩) hi.removals rfl ha
  obtain ⟨x, rest, hs, hrest⟩ := Flight.start_of_follow rfl (hreply ▸ rfl) hfollow
  have hx := Flight.joins_of_session (f := .new 0 (.execute request) (abort.map (·.ms))) hi hsession
    hc
  cases hx.start.symm.trans hs
  obtain ⟨rs, added, r, c', rfl, hc', hannounced, -⟩ :=
    hx.announced rfl (isBlankText_requestedSession hsession) hreply hrest
  exact ⟨rs, added, r, c', rfl, hc', hannounced⟩

/-- Packages that are asked for in a live session are attached and told of, or all is left as it
is. -/
theorem perform_load (hi : h.Idle) (hc : h.store.registry.contents? id = some c)
    (packages : List Reference) :
    let mayAttach := ¬ h.setup.Rejects packages ∧ (packages ≠ [] → Text.isBlankText id = false)
    let added := c.added (h.setup.resolved packages)
    (mayAttach ∧ ∃ k, (Ask.load id packages).perform h = some (k, .reply (.loaded ⟨true, some id,
        added.map (·.reference), [], h.setup.missing packages ++ c.resetNotes added⟩)) ∧
      k.store.registry.contents? id = some (c.attach added)) ∨
    ¬ mayAttach ∧ ∃ k l, (Ask.load id packages).perform h = some (k, .reply (.loaded l)) ∧
      l.success = false ∧ l.added = [] ∧ k.store.registry.contents? id = some c := by
  have hfind := Registry.find?_ne_none hc
  have hserve := serve_load hi.removals hfind (hi.gates id) packages
  have hclosed : (h.closeGate id).store.registry.contents? id = some c := hc
  have hmay := Flight.attaching_eq_ok_iff (b := ⟨id, false⟩) hclosed packages
  rcases ha : Flight.attaching (h.closeGate id) packages ⟨id, false⟩ with ⟨k, notes, e | added⟩
  · obtain rfl := Flight.host_of_attaching_error ha
    rw [ha] at hserve hmay
    refine .inr ⟨fun hacc => ?_, _, _, answer_of_serve hserve, rfl, rfl, hc⟩
    obtain ⟨_, _, _, hattached⟩ := hmay.2 hacc
    cases hattached
  · obtain ⟨hafter, rfl, rfl⟩ := Flight.contents_of_attaching (b := ⟨id, false⟩) hclosed ha
    rw [ha] at hserve
    exact .inl ⟨hmay.1 ⟨_, _, _, ha⟩, _, answer_of_serve hserve, hafter⟩

/-- Whatever is asked, a live session keeps its references. -/
theorem references_perform (hi : h.Idle) (hc : h.store.registry.contents? id = some c)
    (ha : ask.perform h = some (h', answer)) : ∃ c',
      h'.store.registry.contents? id = some c' ∧ c.references <+: c'.references := by
  by_cases hown : ask.session? = some id
  · cases ask with
    | execute request abort =>
        obtain ⟨_, added, _, c', -, hc', hannounced⟩ := announced_perform hi hc hown ha
        exact ⟨c', hc', added, hannounced.references.symm⟩
    | load session packages =>
        obtain rfl : session = id := Option.some.inj hown
        rcases perform_load hi hc packages with ⟨-, k, hload, hk⟩ | ⟨-, k, l, hload, -, -, hk⟩
        · cases ha.symm.trans hload
          exact ⟨_, hk, List.prefix_append _ _⟩
        · cases ha.symm.trans hload
          exact ⟨c, hk, List.prefix_rfl⟩
    | validate source session =>
        cases ha
        obtain ⟨other, k, compilations, -, hview, -, heq⟩ :=
          Operation.access_validate h source session
        rw [heq]
        exact ⟨c, (congrArg View.contents (hview id)).trans hc, List.prefix_rfl⟩
  · have hview := view_perform hi (.inl (Registry.find?_ne_none hc)) hown ha
    exact ⟨c, (congrArg View.contents hview).trans hc, List.prefix_rfl⟩

theorem Carries.perform (hi : h.Idle) (hcarries : h.Carries id packages)
    (ha : ask.perform h = some (h', answer)) : h'.Carries id packages := by
  obtain ⟨c, hc, hhas⟩ := hcarries.contents
  obtain ⟨c', hc', hmore⟩ := references_perform hi hc ha
  have hsetup := setup_perform hi ha
  refine ⟨?_, hcarries.named, c', hc', ?_⟩
  · rw [hsetup]
    exact hcarries.accepted
  · rw [hsetup]
    exact hhas.of_prefix hmore

/-- What every answer preserves lasts for as long as there are no removals. -/
theorem askAll_preserves {p : Host → Prop} (hi : h.Idle)
    (hstep : ∀ {h h' : Host} {ask : Ask} {answer : Answer}, h.Idle → p h →
      ask.perform h = some (h', answer) → p h')
    (hp : p h) (ha : h.askAll asks = some (h', answers)) : h'.Idle ∧ p h' := by
  induction asks generalizing h answers with
  | nil =>
      cases ha
      exact ⟨hi, hp⟩
  | cons ask asks ih =>
      obtain ⟨h₁, answer, more, hfirst, hmore, rfl⟩ := askAll_cons_eq_some.1 ha
      exact ih (idle_perform hi hfirst) (hstep hi hp hfirst) hmore

/-! ## Where it comes from -/

/-- Packages are attached to a session: they are loaded there, or come with a request whose run
succeeds, or with one whose caller does not abort at once, and are not rejected. The session of a
request is there before, or is created for it. -/
inductive Attaches (id : String) (packages : List Reference) (h h' : Host) : Prop
  | loaded {l : LoadReply}
      (ha : (Ask.load id packages).perform h = some (h', .reply (.loaded l)))
      (hs : l.success = true)
  | ran {request : Request} {abort : Option Abort} {r : Reply} (hp : request.packages = packages)
      (ha : (Ask.execute request abort).perform h = some (h', .reply (.executed r)))
      (hin : request.RunsIn h id r) (hs : r.success = true)
  | sent {request : Request} {abort : Option Abort} {r : Reply} (hp : request.packages = packages)
      (ha : (Ask.execute request abort).perform h = some (h', .reply (.executed r)))
      (hin : request.RunsIn h id r) (hlate : ∀ a, abort = some a → 0 < a.ms)
      (haccepted : ¬ h.setup.Rejects packages)

theorem carries_of_load {l : LoadReply} (hi : h.Idle)
    (ha : (Ask.load id packages).perform h = some (h', .reply (.loaded l)))
    (hs : l.success = true) : h'.Carries id packages := by
  cases hc : h.store.registry.contents? id with
  | none =>
      -- a session that is not there has nothing loaded
      obtain ⟨reply, hserve, heq⟩ := answer_eq_some ha
      rw [serve_ofJob hi.removals,
        Flight.ending_of_no_session rfl rfl (Registry.contents?_eq_none_iff.1 hc)] at hserve
      cases heq
      cases hserve
      cases hs
  | some c =>
      rcases perform_load hi hc packages with ⟨⟨haccepted, hnamed⟩, k, hload, hk⟩ |
        ⟨-, k, l, hload, hfails, -⟩
      · cases ha.symm.trans hload
        have hsetup := setup_perform hi ha
        refine ⟨hsetup ▸ haccepted, hnamed, _, hk, ?_⟩
        rw [hsetup]
        exact (Session.newly_addReferences c.references _).covered
      · cases ha.symm.trans hload
        cases hfails.symm.trans hs

/-- A session has what a request has attached there. -/
theorem carries_of_announced {request : Request} {added : List Resolved} {r : Reply}
    {c' : Contents} (hsetup : h'.setup = h.setup) (hnamed : Text.isBlankText id = false)
    (haccepted : ¬ h.setup.Rejects request.packages)
    (hc : h'.store.registry.contents? id = some c')
    (ha : Announced h.setup request (h.setup.resolved request.packages) c c' added r) :
    h'.Carries id request.packages := by
  refine ⟨hsetup ▸ haccepted, fun _ => hnamed, c', hc, ?_⟩
  rw [hsetup, Contents.Has, ha.references]
  exact ha.newly.covered

section

variable {request : Request} {abort : Option Abort} {r : Reply} (hi : h.Idle)
  (ha : (Ask.execute request abort).perform h = some (h', .reply (.executed r)))
  (hin : request.RunsIn h id r)

include hi ha hin

theorem carries_of_ran (hs : r.success = true) : h'.Carries id request.packages := by
  have hsetup := setup_perform hi ha
  obtain ⟨reply, moments, k, g, hfollow, hreply, heq, rfl⟩ :=
    follow_of_answer (o := ⟨.execute request, abort, none⟩) hi.removals rfl ha
  cases heq
  obtain ⟨c, x, rest, hx, hrest⟩ := Flight.joins_of_follow hi rfl rfl hin hreply hfollow
  obtain ⟨rs, added, _, c', heq, hc', hannounced, hran⟩ :=
    hx.announced rfl hin.named hreply hrest
  cases heq
  obtain ⟨haccepted, rfl⟩ := hran hs
  exact carries_of_announced hsetup hin.named haccepted hc' hannounced

theorem carries_of_sent (hlate : ∀ a, abort = some a → 0 < a.ms)
    (haccepted : ¬ h.setup.Rejects request.packages) : h'.Carries id request.packages := by
  have hsetup := setup_perform hi ha
  obtain ⟨reply, moments, k, g, hfollow, hreply, heq, -⟩ :=
    follow_of_answer (o := ⟨.execute request, abort, none⟩) hi.removals rfl ha
  cases heq
  obtain ⟨c, x, -, hx, -⟩ := Flight.joins_of_follow hi rfl rfl hin hreply hfollow
  have hgoes : Flight.isAborted (.new 0 (.execute request) (abort.map (·.ms))) 0 = false := by
    cases abort with
    | none => rfl
    | some a => exact decide_eq_false (Nat.not_le_of_lt (hlate a rfl))
  obtain ⟨y, hy, hentered⟩ := hx.entered hgoes (Setup.not_rejects_iff.1 haccepted).1
  -- from behind the gate on, whatever comes of it
  have hsolitary := hx.solitary (o := ⟨.execute request, abort, none⟩) hi.removals rfl hlate hy
    hentered
  obtain ⟨reply, moments, k, g, hfollow, hreply, heq, rfl⟩ := follow_of_solitary hsolitary ha
  cases heq
  obtain ⟨added, _, c', heq, hc', hannounced⟩ :=
    hx.announced_of_entered rfl hin.named hy hentered hreply hfollow
  cases heq
  exact carries_of_announced hsetup hin.named haccepted hc' hannounced

end

theorem Attaches.performed (ha : h.Attaches id packages h') :
    ∃ (ask : Ask) (answer : Answer), ask.perform h = some (h', answer) := by
  cases ha with
  | loaded ha | ran _ ha | sent _ ha => exact ⟨_, _, ha⟩

theorem Attaches.carries (hi : h.Idle) (ha : h.Attaches id packages h') :
    h'.Carries id packages := by
  cases ha with
  | loaded ha hs => exact carries_of_load hi ha hs
  | ran hp ha hin hs => exact hp ▸ carries_of_ran hi ha hin hs
  | sent hp ha hin hlate haccepted =>
      subst hp
      exact carries_of_sent hi ha hin hlate haccepted

/-! ## What comes of it -/

/-- References that are there already are not added when they are loaded again. -/
theorem load_again (hi : h.Idle) (hc : h.store.registry.contents? id = some c)
    (hhas : c.Has (h.setup.resolved again))
    (hpass : Guard.checkPackages again h.setup.policy = .ok ())
    (hnamed : again ≠ [] → Text.isBlankText id = false) : ∃ k l,
      (Ask.load id again).perform h = some (k, .reply (.loaded l)) ∧
        k.store.registry.contents? id = some c ∧ l.added = [] ∧
        (l.success = true ↔ again = [] ∨ h.setup.resolved again ≠ []) ∧
        (l.success = true → l = ⟨true, some id, [], [], h.setup.missing again⟩) := by
  rcases perform_load hi hc again with ⟨⟨haccepted, -⟩, k, hload, hk⟩ |
    ⟨hdenied, k, l, hload, hfails, hnone, hk⟩
  · rw [hhas.added, Contents.attach_nil] at hk
    rw [hhas.added, Contents.resetNotes, Contents.discards_nil, if_neg Bool.false_ne_true,
      List.append_nil] at hload
    have hfound := (Setup.not_rejects_iff.1 haccepted).2
    exact ⟨k, _, hload, hk, rfl, iff_of_true rfl hfound, fun _ => rfl⟩
  · have hlost : ¬ (again = [] ∨ h.setup.resolved again ≠ []) :=
      fun hfound => hdenied ⟨Setup.not_rejects_iff.2 ⟨hpass, hfound⟩, hnamed⟩
    have hfails' : l.success ≠ true := Bool.eq_false_iff.1 hfails
    exact ⟨k, l, hload, hk, hnone, iff_of_false hfails' hlost, fun hs => absurd hs hfails'⟩

/-- Nor are they when they come with a request. -/
theorem execute_again {request : Request} {abort : Option Abort} (hi : h.Idle)
    (hc : h.store.registry.contents? id = some c)
    (hhas : c.Has (h.setup.resolved request.packages))
    (hsession : requestedSession request.session = some id)
    (ha : (Ask.execute request abort).perform h = some (h', answer)) : ∃ rs r c',
      answer = .reply (.executed r) ∧ h'.store.registry.contents? id = some c' ∧
        c'.references = c.references ∧ Announced h.setup request rs c c' [] r := by
  obtain ⟨rs, added, r, c', rfl, hc', hannounced⟩ := announced_perform hi hc hsession ha
  obtain rfl : added = [] := by
    apply hannounced.newly.eq_nil
    rcases hannounced.sought with rfl | ⟨rfl, -⟩
    · exact hhas
    · exact List.forall_mem_nil _
  exact ⟨rs, r, c', rfl, hc', hannounced.references.trans (List.append_nil _), hannounced⟩

end Host

/-- In a catalogue, what a reference resolves to is found again under its own reference. So it is in
a package directory when the version was asked for, or nothing else there is read as that version;
in any case, nothing is found under it that goes by another name or version. So packages that were
attached to a session add nothing when they come again, in any order and under either name, whatever
was asked in between: the references stay as they are, and no state is dropped. To load them again
fails only if none of them is found. -/
theorem reattaching_adds_nothing :
    (∀ rs : List Release, (Catalogue.ofReleases rs).resolver.Pins) ∧
    (∀ {legible : String → String} {c : PackageCache} {asked : Reference} {found : Resolved},
      c.resolverReading legible asked = .ok found → ∃ version,
        found.reference.version = some version ∧
          ((asked.version = some version ∨
              (PackageCache.versionNames legible c asked.name).count version = 1) →
            c.resolverReading legible found.reference = .ok found)) ∧
    (∀ {legible : String → String} {c : PackageCache},
      (∀ name, (PackageCache.versionNames legible c name).Nodup) →
        (c.resolverReading legible).Pins) ∧
    (∀ {r : Resolver}, r.IsShipped → r.IsSteady) ∧
    ∀ {h h₁ h₂ : Host} {id : String} {packages again : List Reference} {asks : List Ask}
      {answers : List Answer}, h.Idle → h.setup.resolver.IsShipped →
      h.Attaches id packages h₁ → h₁.askAll asks = some (h₂, answers) →
      Respelled h.setup.resolver packages again →
      ((packages.Perm again ∨ h.setup.resolver.Pins) →
        again = [] ∨ h.setup.resolved again ≠ []) ∧
      ∃ c, h₂.store.registry.contents? id = some c ∧
        (∃ h₃ l, (Ask.load id again).perform h₂ = some (h₃, .reply (.loaded l)) ∧
          h₃.store.registry.contents? id = some c ∧ l.added = [] ∧
          (l.success = true ↔ again = [] ∨ h.setup.resolved again ≠ []) ∧
          (l.success = true → l = ⟨true, some id, [], [], h.setup.missing again⟩)) ∧
        ∀ {request : Request} {abort : Option Abort} {h₃ : Host} {answer : Answer},
          requestedSession request.session = some id → request.packages = again →
          (Ask.execute request abort).perform h₂ = some (h₃, answer) →
          ∃ rs r c', answer = .reply (.executed r) ∧ h₃.store.registry.contents? id = some c' ∧
            c'.references = c.references ∧ Announced h.setup request rs c c' [] r := by
  refine ⟨Catalogue.pins_ofReleases, ?_, PackageCache.pins_resolverReading,
    fun hr => hr.isSteady, ?_⟩
  · intro legible c asked found hfound
    obtain ⟨version, hversion⟩ := PackageCache.version_of_resolverReading hfound
    exact ⟨version, hversion, PackageCache.pinned_resolverReading hfound hversion⟩
  intro h h₁ h₂ id packages again asks answers hi hr hattaches hasks hrespelled
  obtain ⟨ask, answer, hfirst⟩ := hattaches.performed
  obtain ⟨hi₂, hsetup, hcarries⟩ := Host.askAll_preserves
    (p := fun k => k.setup = h.setup ∧ k.Carries id packages) (Host.idle_perform hi hfirst)
    (fun hi hk ha => ⟨(Host.setup_perform hi ha).trans hk.1, hk.2.perform hi ha⟩)
    ⟨Host.setup_perform hi hfirst, hattaches.carries hi⟩ hasks
  rw [← hsetup] at hr hrespelled ⊢
  obtain ⟨hpass, hfound⟩ := Setup.not_rejects_iff.1 hcarries.accepted
  obtain ⟨c, hc, hhas⟩ := hcarries.contents
  have hhas' := hrespelled.has hr.isSteady hhas
  refine ⟨fun hsame => hrespelled.found hsame hfound, c, hc, ?_, ?_⟩
  · exact Host.load_again hi₂ hc hhas' (hrespelled.pass hr.isBuiltIn.keepsNames hpass)
      fun hne => hcarries.named fun hnone => hne (hrespelled.eq_nil_iff.2 hnone)
  · rintro request abort h₃ answer hsession rfl ha
    exact Host.execute_again hi₂ hc hhas' hsession ha

/-- Packages for the session, of which one is not there and one comes twice. -/
def scatteredPackages : List Reference := [⟨"b", none⟩, ⟨"A", none⟩, ⟨"a", some "1.0"⟩]

/-- The same packages once more. -/
def gatheredPackages : List Reference := [⟨"a", some "1.0"⟩, ⟨"a", some "1.0"⟩, ⟨"b", none⟩]

/-- A host whose code lasts for a tenth of a second. -/
def lastingHost : Host :=
  .new { notedHost.setup with
      compiler := ⟨fun _ _ _ => .ok ⟨⟨[.yield, .wait 100], .completed ⟨none, .foreign 7⟩⟩, []⟩,
        ⟨"lasting", "1.0", []⟩⟩ } 1 (.new 0 (fun _ => "fresh"))

/-- A request with a package that has a session created for it. -/
def lastingRequest : Request := ⟨"1", none, [⟨"A", none⟩], true⟩

/-- The caller aborts the run. -/
def lastingReply : Reply :=
  ⟨false, none, "", RunOutcome.cancelled.error?.toList, [], some "fresh", false⟩

/-- A package that drops the state of its session is found twice. When a run has left something
again, the packages come back in another order, under the name and version that were found, and
drop nothing. The package is attached as well to a session that is created for a request, although
the caller aborts the run, and comes back there. In a package directory, names that are read apart
are found again, and so is a version that was asked for where two are read alike. -/
theorem reattaching_adds_nothing_scattered :
    notedHost.setup.resolver ⟨"a", some "1.0"⟩ = notedHost.setup.resolver ⟨"A", none⟩ ∧
    (PackageCache.garbledCache.resolverReading id).Pins ∧
    (PackageCache.garbledCache.resolverReading PackageCache.readByte ⟨"kit", some "\uFFFD"⟩ =
      PackageCache.garbledCache.resolverReading PackageCache.readByte ⟨"KIT", some "\uFFFD"⟩) ∧
    (PackageCache.garbledCache.resolverReading PackageCache.readByte).IsSteady ∧
    (∃ h₁ h₂ h₃ answers c, (Ask.load "s" scatteredPackages).perform notedHost = some (h₁,
        .reply (.loaded ⟨true, some "s", [⟨"a", some "1.0"⟩], [],
          [.warning Code.packageNotFound (ResolveError.notFound ⟨"b", none⟩).message,
            stateResetWarning [⟨"a", some "1.0"⟩]]⟩)) ∧
      h₁.askAll [.execute ⟨"using System;", some "s", [], true⟩ none] = some (h₂, answers) ∧
      h₂.store.registry.contents? "s" = some c ∧ c.executions = 2 ∧ c.continuation.isSome ∧
      (Ask.load "s" gatheredPackages).perform h₂ = some (h₃,
        .reply (.loaded ⟨true, some "s", [], [],
          [.warning Code.packageNotFound (ResolveError.notFound ⟨"b", none⟩).message]⟩)) ∧
      h₃.store.registry.contents? "s" = some c) ∧
    ∃ h₁ h₂ c, (Ask.execute lastingRequest (some (.after 5))).perform lastingHost =
        some (h₁, .reply (.executed lastingReply)) ∧
      h₁.store.registry.contents? "fresh" = some c ∧
      (Ask.load "fresh" [⟨"a", some "1.0"⟩]).perform h₁ = some (h₂,
        .reply (.loaded ⟨true, some "fresh", [], [], []⟩)) ∧
      h₂.store.registry.contents? "fresh" = some c := by
  have hshipped : notedHost.setup.resolver.IsShipped := .catalogue _
  have hi : notedHost.Idle := ⟨fun _ => rfl, ⟨0, rfl⟩, rfl⟩
  have hfound : notedHost.setup.resolver ⟨"A", none⟩ = .ok ⟨⟨"a", some "1.0"⟩, ["a.dll"]⟩ := by
    decide +kernel
  have hpins : notedHost.setup.resolver.Pins :=
    reattaching_adds_nothing.1 [⟨"a", "1.0", ["a.dll"]⟩]
  have hsteady : (PackageCache.garbledCache.resolverReading PackageCache.readByte).IsSteady :=
    reattaching_adds_nothing.2.2.2.1 (.directory _ _)
  have hapart : (PackageCache.garbledCache.resolverReading id).Pins :=
    reattaching_adds_nothing.2.2.1 PackageCache.nodup_garbledCache
  refine ⟨(hpins hfound).trans hfound.symm, hapart, ?_, hsteady, ?_, ?_⟩
  · have hasked := PackageCache.garbledCache_first "KIT" (List.mem_cons_of_mem _ List.mem_cons_self)
    obtain ⟨version, hversion, hagain⟩ := reattaching_adds_nothing.2.1 hasked
    cases hversion
    exact (hagain (.inl rfl)).trans hasked.symm
  · have hload : ((Ask.load "s" scatteredPackages).perform notedHost).map (·.2) = some
        (.reply (.loaded ⟨true, some "s", [⟨"a", some "1.0"⟩], [],
          [.warning Code.packageNotFound (ResolveError.notFound ⟨"b", none⟩).message,
            stateResetWarning [⟨"a", some "1.0"⟩]]⟩)) := by decide +kernel
    have hrun : (((Ask.load "s" scatteredPackages).perform notedHost).bind fun x =>
        x.1.askAll [.execute ⟨"using System;", some "s", [], true⟩ none]).map (fun x =>
          (x.1.store.registry.contents? "s").map fun c => (c.executions, c.continuation.isSome)) =
        some (some (2, true)) := by decide +kernel
    obtain ⟨⟨h₁, first⟩, hfirst, rfl⟩ := Option.map_eq_some_iff.1 hload
    rw [hfirst, Option.bind_some] at hrun
    obtain ⟨⟨h₂, answers⟩, hasks, hheld⟩ := Option.map_eq_some_iff.1 hrun
    have hrespelled : Respelled notedHost.setup.resolver scatteredPackages gatheredPackages :=
      ⟨[⟨"b", none⟩, ⟨"a", some "1.0"⟩, ⟨"a", some "1.0"⟩],
        .cons (.inl rfl) (.cons (.inr ⟨_, hfound, rfl⟩) (.cons (.inl rfl) .nil)), by decide⟩
    have hmissing : notedHost.setup.missing gatheredPackages =
        [.warning Code.packageNotFound (ResolveError.notFound ⟨"b", none⟩).message] := by
      decide +kernel
    obtain ⟨hsome, c, hc, ⟨h₃, l, hagain, hc₃, -, hsuccess, hl⟩, -⟩ :=
      reattaching_adds_nothing.2.2.2.2 hi hshipped (.loaded hfirst rfl) hasks hrespelled
    rw [hl (hsuccess.2 (hsome (.inr hpins))), hmissing] at hagain
    rw [hc] at hheld
    obtain ⟨hruns, hleft⟩ := Prod.mk.inj (Option.some.inj hheld)
    exact ⟨h₁, h₂, h₃, answers, c, hfirst, hasks, hc, hruns, hleft, hagain, hc₃⟩
  · have hrun : ((Ask.execute lastingRequest (some (.after 5))).perform lastingHost).map (·.2) =
        some (.reply (.executed lastingReply)) := by decide +kernel
    obtain ⟨⟨h₁, answer⟩, hfirst, rfl⟩ := Option.map_eq_some_iff.1 hrun
    have hin : lastingRequest.RunsIn lastingHost "fresh" lastingReply :=
      .inr ⟨rfl, rfl, by decide +kernel, rfl⟩
    have hlate : ∀ a, some (Abort.after 5) = some a → 0 < a.ms := by
      rintro _ ⟨⟩
      decide
    have haccepted : ¬ lastingHost.setup.Rejects lastingRequest.packages :=
      Setup.not_rejects_iff.2 ⟨by decide +kernel, .inr (by decide +kernel)⟩
    have hrespelled : Respelled lastingHost.setup.resolver lastingRequest.packages
        [⟨"a", some "1.0"⟩] := ⟨_, .cons (.inr ⟨_, hfound, rfl⟩) .nil, .refl _⟩
    have hmissing : lastingHost.setup.missing [⟨"a", some "1.0"⟩] = [] := by decide +kernel
    have hi' : lastingHost.Idle := Host.idle_new _ 1 0 _
    have hattaches : lastingHost.Attaches "fresh" lastingRequest.packages h₁ :=
      .sent rfl hfirst hin hlate haccepted
    have hasks : h₁.askAll [] = some (h₁, []) := rfl
    obtain ⟨hsome, c, hc, ⟨h₂, l, hagain, hc₂, -, hsuccess, hl⟩, -⟩ :=
      reattaching_adds_nothing.2.2.2.2 hi' hshipped hattaches hasks hrespelled
    rw [hl (hsuccess.2 (hsome (.inr hpins))), hmissing] at hagain
    exact ⟨h₁, h₂, c, hfirst, hc, hagain, hc₂⟩

end ScriptHost
