import ScriptHost.Proofs.Host.Announcements
import ScriptHost.Proofs.Host.Calls
import ScriptHost.Proofs.Host.Removals
import ScriptHost.Proofs.Script.Reports
import ScriptHost.Proofs.Text.Trimming

/-!
# How requests change their session

A request changes its session in two ways only, and its reply announces both: references that are
new are attached, with a warning when they drop what earlier runs left, and a run that succeeds is
stored if it is to be. This holds on every way to a reply, at whatever moments the request takes its
steps and whatever others do meanwhile.
-/

namespace ScriptHost

namespace Text

/-- A trimmed text that is blank is empty. -/
theorem trim_eq_of_isBlankText {s : String} (h : isBlankText (trim s) = true) : trim s = "" := by
  rw [isBlankText, trim, String.toList_ofList, List.all_eq_true, ← trimChars_eq_nil_iff,
    trimChars_of_isTrimmed (isTrimmed_trimChars _)] at h
  rw [trim, h]

end Text

/-- A session that a caller asks for has an id with more than blanks. -/
theorem isBlankText_requestedSession {session : Option String} {id : String}
    (h : requestedSession session = some id) : Text.isBlankText id = false := by
  rw [requestedSession, Option.filter_eq_some_iff] at h
  obtain ⟨hid, hne⟩ := h
  obtain ⟨s, -, rfl⟩ := Option.map_eq_some_iff.1 hid
  rw [decide_eq_true_eq] at hne
  exact Bool.eq_false_iff.2 fun hblank => hne (Text.trim_eq_of_isBlankText hblank)

namespace Flight

/-- A request takes its steps, at any moments, while others use the host; it resolves references
on its way. -/
inductive Journey (id : String) (h : Host) (f : Flight) : List Resolved → Host → Flight → Prop
  | start : Journey id h f [] h f
  | step {rs : List Resolved} {k k' : Host} {g g' : Flight} {now : Nat}
      (journey : Journey id h f rs k g) (ha : g.advance k now = some (k', g')) :
      Journey id h f (rs ++ g.resolves k) k' g'
  | elsewhere {rs : List Resolved} {k k' : Host} {g : Flight} (journey : Journey id h f rs k g)
      (he : Host.Elsewhere id k k') : Journey id h f rs k' g

variable {id : String} {setup : Setup} {request : Request} {before after : Contents}
  {rs : List Resolved} {h k : Host} {f : Flight} {b : Berth} {notes : List Diagnostic} {now : Nat}

theorem Tracks.elsewhere {p : Phase} (ht : Tracks id setup request before rs h p)
    (he : Host.Elsewhere id h k) : Tracks id setup request before rs k p := by
  cases ht with
  | opening hs hc => exact .opening hs (hc.elsewhere he)
  | atGate hb hc => exact .atGate hb (hc.elsewhere he)
  | resolving hb hpass hpackages hf hc => exact .resolving hb hpass hpackages hf (hc.elsewhere he)
  | compiling hb hn hc => exact .compiling hb hn (hc.elsewhere he)
  | queued hb hn hcompile hc => exact .queued hb hn hcompile (hc.elsewhere he)
  | running hb hn hcompile hrun hc => exact .running hb hn hcompile hrun (hc.elsewhere he)
  | done ha hc => exact .done ha (hc.elsewhere he)
  | lost hc hw =>
      refine .lost (fun hblank => ?_) hw
      rcases he.contents with hnone | hsame
      · exact hnone
      · rw [hsame, hc hblank]

theorem setup_of_start {next : Host × Flight} (hs : f.start h = some next) :
    next.1.setup = h.setup := by
  rcases start_cases hs with ⟨_, -, -, rfl⟩ | ⟨_, -, -, rfl⟩ | ⟨_, _, _, -, -, rfl⟩
  · rfl
  · rfl
  · rfl

/-- No step changes what the host works with. -/
theorem setup_of_advance {next : Host × Flight} (ha : f.advance h now = some next) :
    next.1.setup = h.setup := by
  rcases start_or_stays ha with ⟨-, hs⟩ | ⟨b, -, hstays⟩
  · exact setup_of_start hs
  · exact hstays.host.setup

/-- A request keeps to what it has announced all the way. -/
theorem Journey.tracks {g : Flight} {more : List Resolved} (hjourney : Journey id h f rs k g)
    (hj : f.job = .execute request) (hsetup : h.setup = setup)
    (ht : Tracks id setup request before more h f.phase) :
    k.setup = setup ∧ g.job = .execute request ∧
      Tracks id setup request before (more ++ rs) k g.phase := by
  induction hjourney with
  | start =>
      rw [List.append_nil]
      exact ⟨hsetup, hj, ht⟩
  | @step rs k k' g g' now _ ha ih =>
      obtain ⟨hsetup', hj', ht'⟩ := ih
      have hjob : g'.job = g.job := congrArg (·.job) (anew_of_advance ha)
      rw [← List.append_assoc]
      exact ⟨(setup_of_advance ha).trans hsetup', hjob.trans hj', tracks_advance hj' hsetup' ht' ha⟩
  | elsewhere _ he ih =>
      obtain ⟨hsetup', hj', ht'⟩ := ih
      exact ⟨he.setup.trans hsetup', hj', ht'.elsewhere he⟩

/-- A reply announces what the session holds then. -/
theorem Tracks.announced {reply : JobReply} {p : Phase} (hblank : Text.isBlankText id = false)
    (ht : Tracks id setup request before rs k p) (hp : p = .done reply)
    (hc : k.store.registry.contents? id = some after) :
    ∃ added r, reply = .executed r ∧ Announced setup request rs before after added r := by
  cases ht with
  | opening | atGate | resolving | compiling | queued | running => cases hp
  | done ha hheld =>
      cases hp
      rcases hheld with hnone | hsome
      · cases hnone.symm.trans hc
      · cases hsome.symm.trans hc
        exact ⟨_, _, rfl, ha⟩
  | lost hgone hw => cases (hgone hblank).symm.trans hc

/-- The reply at the end of a journey in a live session announces what is there then. -/
theorem Journey.announced {g : Flight} {reply : JobReply} (hj : f.job = .execute request)
    (hsession : requestedSession request.session = some id)
    (hp : f.phase = .opening ∨ f.phase = .atGate ⟨id, false⟩)
    (hbefore : h.store.registry.contents? id = some before) (hjourney : Journey id h f rs k g)
    (hr : g.reply? = some reply) (hafter : k.store.registry.contents? id = some after) :
    ∃ added r, reply = .executed r ∧ Announced h.setup request rs before after added r := by
  have hstart : Tracks id h.setup request before [] h f.phase := by
    rcases hp with hp | hp
    · rw [hp]
      exact .opening hsession (Or.inr hbefore)
    · rw [hp]
      exact .atGate ⟨rfl, fun he => absurd he Bool.false_ne_true⟩ (Or.inr hbefore)
  obtain ⟨-, -, htracks⟩ := hjourney.tracks hj rfl hstart
  exact htracks.announced (isBlankText_requestedSession hsession) (phase_of_reply hr) hafter

/-- A request that finds no session gets a fresh one, or is refused. -/
theorem tracks_of_start {g : Flight} (hj : f.job = .execute request)
    (habsent : ∀ other, requestedSession request.session = some other →
      other = id ∧ h.store.registry.contents? id = none)
    (hs : f.start h = some (k, g)) (hid : ∀ b, g.berth? = some b → b.id = id) :
    Tracks id setup request ⟨0, false, none, []⟩ [] k g.phase := by
  simp only [start, hj] at hs
  split at hs
  · rename_i other hsession
    obtain ⟨rfl, hgone⟩ := habsent other hsession
    simp only [findBerth, Registry.contents?_eq_none_iff.1 hgone, hj, failureReply] at hs
    cases hs
    refine .lost (fun _ => hgone) ?_
    rfl
  · simp only [createBerth] at hs
    split at hs
    · rename_i store other hcreate
      cases hs
      obtain ⟨n, now, -, -, -, rfl⟩ := SessionStore.createWithin_eq_some hcreate
      obtain rfl : other = id := hid _ rfl
      refine .atGate ⟨rfl, fun he => ?_⟩ (Or.inr ?_)
      · rwa [Bool.not_eq_true'] at he
      · show (h.store.registry.put other (.fresh now)).contents? other = _
        rw [Registry.contents?_put, if_pos rfl]
        rfl
    · cases hs

theorem Tracks.silent {p : Phase} {reply : Reply}
    (ht : Tracks id setup request before rs k p) (hp : p = .done (.executed reply))
    (hfresh : before.continuation = none) (hown : setup.compiler.HasOwnCodes) :
    reply.warnings.filter (·.isReset) = [] := by
  cases ht with
  | opening | atGate | resolving | compiling | queued | running => cases hp
  | done ha =>
      cases hp
      rw [ha.warned hown, Contents.resetNotes, Contents.discards, hfresh, Option.isSome_none,
        Bool.and_false]
      rfl
  | lost _ hw =>
      cases hp
      exact hw

/-- If a request has a reply, it does not tell of a successful run. -/
def Unsuccessful (f : Flight) : Prop := ∀ r, f.reply? = some (.executed r) → r.success = false

theorem unsuccessful_of_reply? (hr : f.reply? = none) : f.Unsuccessful := by
  intro r hreply
  cases hr.symm.trans hreply

theorem unsuccessful_failureReply (f : Flight) (session : Option String) (notes : List Diagnostic)
    (failure : Failure) :
    ({ f with phase := .done (failureReply f.job session notes failure) } :
      Flight).Unsuccessful := by
  intro r hreply
  have hr : failureReply f.job session notes failure = .executed r := Option.some.inj hreply
  cases hj : f.job with
  | execute request =>
      rw [hj] at hr
      cases hr
      rfl
  | load session packages =>
      rw [hj] at hr
      cases hr

theorem unsuccessful_start {next : Host × Flight} (hs : f.start h = some next) :
    next.2.Unsuccessful := by
  rcases start_cases hs with ⟨_, -, -, rfl⟩ | ⟨_, -, -, rfl⟩ | ⟨_, _, _, -, -, rfl⟩
  · exact unsuccessful_of_reply? rfl
  · exact unsuccessful_failureReply f _ _ _
  · exact unsuccessful_of_reply? rfl

theorem unsuccessful_passGate {next : Host × Flight} (hp : passGate h f now b = some next) :
    next.2.Unsuccessful := by
  cases passGate_cases hp with
  | aborted | blocked => exact unsuccessful_failureReply f _ _ _
  | entered => exact unsuccessful_of_reply? rfl

theorem unsuccessful_attachAll (h : Host) (f : Flight) (b : Berth) (found : List Resolved)
    (failures : List Diagnostic) : (attachAll h f b found failures).2.Unsuccessful := by
  rw [attachAll]
  split
  · exact unsuccessful_failureReply f _ _ _
  · split
    · intro r hreply
      cases hreply
    · rw [prepare]
      split
      · exact unsuccessful_failureReply f _ _ _
      · split
        · exact unsuccessful_failureReply f _ _ _
        · exact unsuccessful_of_reply? rfl

/-- Only a run succeeds. -/
theorem running_of_success {next : Host × Flight} {r : Reply} (ha : f.advance h now = some next)
    (hr : next.2.reply? = some (.executed r)) (hs : r.success = true) :
    ∃ b notes warnings run, f.phase = .running b notes warnings run := by
  have hsome : ¬ next.2.Unsuccessful := fun hnone => by
    cases hs.symm.trans (hnone r hr)
  cases advance_cases ha with
  | start _ hstart => exact absurd (unsuccessful_start hstart) hsome
  | passGate _ hpass => exact absurd (unsuccessful_passGate hpass) hsome
  | resolveNext =>
      refine absurd (unsuccessful_of_reply? ?_) hsome
      rw [resolveNext]
      split
      · rfl
      · rfl
  | attachAll => exact absurd (unsuccessful_attachAll h f _ _ _) hsome
  | compile =>
      refine absurd ?_ hsome
      rw [compile]
      split
      · exact unsuccessful_failureReply f _ _ _
      · exact unsuccessful_of_reply? rfl
  | takeUnit _ htake =>
      refine absurd ?_ hsome
      cases takeUnit_cases htake with
      | aborted | refused => exact unsuccessful_failureReply f _ _ _
      | started => exact unsuccessful_of_reply? rfl
  | land hp => exact ⟨_, _, _, _, hp⟩

/-- A request whose run succeeds has all of its packages attached. -/
theorem Journey.accepted {before : Contents} {rs : List Resolved} {r : Reply} {setup : Setup}
    (hjourney : Journey id h f rs k g) (hj : f.job = .execute request) (hsetup : h.setup = setup)
    (ht : Tracks id setup request before [] h f.phase) (hopen : f.reply? = none)
    (hr : g.reply? = some (.executed r)) (hs : r.success = true) :
    ¬ setup.Rejects request.packages ∧ rs = setup.resolved request.packages := by
  induction hjourney with
  | start => cases hopen.symm.trans hr
  | @step rs k k' g g' now journey ha ih =>
      obtain ⟨-, -, htracks⟩ := journey.tracks hj hsetup ht
      obtain ⟨b, notes, warnings, run, hrunning⟩ := running_of_success ha hr hs
      rw [hrunning] at htracks
      rw [resolves, hrunning, List.append_nil]
      cases htracks with
      | running hb hn => exact ⟨hn.accepted, hn.resolved⟩
  | elsewhere _ _ ih => exact ih hr

/-- Steps taken one after another are a journey. -/
theorem journey_of_follow (id : String) {moments : List Nat} {next : Host × Flight}
    (hf : f.follow h moments = some next) : ∃ rs, Journey id h f rs next.1 next.2 := by
  apply follow_preserves (p := fun k g => ∃ rs, Journey id h f rs k g) ?_ ⟨[], .start⟩ hf
  rintro k g now after ⟨rs, hjourney⟩ ha
  exact ⟨_, .step hjourney ha⟩

end Flight

/-- No operation changes what a session holds, unless it removes the session. -/
theorem Operation.Effect.elsewhere {h h' : Host} (he : Operation.Effect h h')
    (hd : h.store.registry.ids.Nodup) (id : String) : Host.Elsewhere id h h' where
  setup := he.setup
  contents := by
    by_cases hl : h'.IsLive id
    · exact Or.inr (congrArg View.contents (he.view hd hl))
    · exact Or.inl (Registry.contents?_eq_none_iff.2 (Decidable.not_not.1 hl))

/-- Removals that are due change what no other session holds. -/
theorem Host.elsewhere_passTime (h : Host) (hd : h.store.registry.ids.Nodup) (ms : Nat)
    (id : String) : Elsewhere id h (h.passTime ms) :=
  ⟨rfl, (SessionStore.Sheds.removals hd _).contents id⟩

/-- So do those that were still to come when all requests were served. -/
theorem Traffic.elsewhere_hostAfter (t : Traffic) (hd : t.host.store.registry.ids.Nodup)
    (id : String) : Host.Elsewhere id t.host t.hostAfter :=
  ⟨rfl, (Host.elsewhere_passTime { t.host with removals := t.removals } hd 0 id).contents⟩

namespace Fleet

variable {other : String} {h : Host} {f : Flight} {ps : List Passage} {s : Fleet}
  {p : Host → Prop}

/-- What a request does that is served alone is a journey: only operations come between. -/
theorem Run.journey (hr : Run other p ⟨h, [f]⟩ ps s) (hd : h.store.registry.ids.Nodup)
    (id : String) :
    s.host.store.registry.ids.Nodup ∧
      ∃ rs g, s.flights = [g] ∧ Flight.Journey id h f rs s.host g := by
  induction hr with
  | start => exact ⟨hd, [], f, rfl, .start⟩
  | @step ps m s e _ hstep _ ih =>
      obtain ⟨hnodup, rs, g, hflights, hjourney⟩ := ih
      cases e with
      | operation o =>
          cases hstep
          have he := o.effect_perform m.host
          exact ⟨he.nodup hnodup, rs, g, hflights, hjourney.elsewhere (he.elsewhere hnodup id)⟩
      | turn ticket now =>
          obtain ⟨x, after, hx, ha, rfl⟩ := step_turn hstep
          have hmem := (mem_of_flight? hx).1
          rw [hflights, List.mem_singleton] at hmem
          subst hmem
          have hticket : x.ticket = after.2.ticket :=
            (Flight.ticket_of_anew (Flight.anew_of_advance ha)).symm
          refine ⟨Flight.nodup_of_advance ha hnodup, _, after.2, ?_, hjourney.step ha⟩
          simp only [update, hflights, List.map_singleton, if_pos hticket]

end Fleet

namespace Script

theorem isReset_lexical (e : Placed LexicalError) : (LexicalError.diagnostic e).isReset = false := by
  obtain ⟨e, loc⟩ := e
  cases e <;> rfl

theorem isReset_syntax (e : Placed SyntaxError) : (SyntaxError.diagnostic e).isReset = false := by
  obtain ⟨e, loc⟩ := e
  cases e <;> rfl

theorem isReset_finding (f : Placed Finding) : (Finding.diagnostic f).isReset = false := by
  obtain ⟨f, loc⟩ := f
  cases f <;> rfl

/-- The compiler of the script language has codes of its own. -/
theorem hasOwnCodes_compiler : compiler.HasOwnCodes := by
  intro source references prior
  have hmap : ∀ {α : Type} {report : Placed α → Diagnostic}, (∀ e, (report e).isReset = false) →
      ∀ es : List (Placed α), ∀ d ∈ es.map report, d.isReset = false := by
    intro α report hreport es d hd
    obtain ⟨e, -, rfl⟩ := List.mem_map.1 hd
    exact hreport e
  have hreports : Reports (compiler.compile source references prior) :=
    reports_compile source references prior
  generalize compiler.compile source references prior = result at hreports ⊢
  cases hreports with
  | lexical => exact hmap isReset_lexical _
  | syntactic => exact hmap isReset_syntax _
  | rejected => exact hmap isReset_finding _
  | accepted => exact hmap isReset_finding _

end Script

/-- Whatever becomes of a request in a live session, its reply announces how the session has changed
when it is still there. A request that finds no session never tells of a state that was dropped. So
it is for all requests that are served by themselves. -/
theorem changes_announced :
    (∀ {id : String} {h k : Host} {f g : Flight} {request : Request} {rs : List Resolved}
      {before after : Contents} {reply : JobReply}, f.job = .execute request →
      requestedSession request.session = some id →
      (f.phase = .opening ∨ f.phase = .atGate ⟨id, false⟩) →
      h.store.registry.contents? id = some before → Flight.Journey id h f rs k g →
      g.reply? = some reply → k.store.registry.contents? id = some after →
      ∃ added r, reply = .executed r ∧ Announced h.setup request rs before after added r) ∧
    (∀ {id : String} {h k k' : Host} {f g g' : Flight} {request : Request} {rs : List Resolved}
      {reply : Reply}, f.job = .execute request →
      (∀ other, requestedSession request.session = some other →
        other = id ∧ h.store.registry.contents? id = none) →
      f.start h = some (k, g) → (∀ b, g.berth? = some b → b.id = id) →
      Flight.Journey id k g rs k' g' → g'.reply? = some (.executed reply) →
      h.setup.compiler.HasOwnCodes → reply.warnings.filter (·.isReset) = []) ∧
    ∀ {id : String} {h : Host} {order : Order} {request : Request} {before after : Contents}
      {reply : JobReply}, order.job = .execute request →
      requestedSession request.session = some id → h.store.registry.ids.Nodup →
      h.store.registry.contents? id = some before → (h.serve [order]).2 = [some reply] →
      (h.serve [order]).1.store.registry.contents? id = some after →
      ∃ rs added r, reply = .executed r ∧ Announced h.setup request rs before after added r := by
  refine ⟨Flight.Journey.announced, ?_, ?_⟩
  · intro id h k k' f g g' request rs reply hj habsent hs hid hjourney hr hown
    have hsetup : k.setup = h.setup := Flight.setup_of_start hs
    have hjob : g.job = .execute request :=
      (congrArg (·.job) (Flight.anew_of_start hs)).trans hj
    obtain ⟨-, -, htracks⟩ := hjourney.tracks hjob hsetup (Flight.tracks_of_start hj habsent hs hid)
    exact htracks.silent (Flight.phase_of_reply hr) rfl hown
  · intro id h order request before after reply hj hsession hd hbefore hreply hafter
    obtain ⟨ps, hrun⟩ := h.run_traffic [order] id
    obtain ⟨hnodup, rs, g, hflights, hjourney⟩ := hrun.journey hd id
    have hr : g.reply? = some reply := by
      have hreplies : (h.traffic [order]).flights.map (·.reply?) = [some reply] := hreply
      rw [show (h.traffic [order]).flights = [g] from hflights] at hreplies
      exact List.singleton_inj.1 hreplies
    have helsewhere := (h.traffic [order]).elsewhere_hostAfter hnodup id
    obtain ⟨added, r, hexecuted, hannounced⟩ := Flight.Journey.announced hj hsession
      (Or.inl rfl) hbefore (hjourney.elsewhere helsewhere) hr hafter
    exact ⟨rs, added, r, hexecuted, hannounced⟩

/-- A compiler of code that ends at once and leaves the number of its packages. -/
def countingCompiler : Compiler :=
  ⟨fun _ references _ => .ok ⟨⟨[], .completed ⟨some .null, .foreign references.length⟩⟩, []⟩,
    ⟨"counting", "1.0", []⟩⟩

/-- A host with one session, in which one run was stored. -/
def usedHost : Host :=
  .new ⟨.permissive, countingCompiler, fun r => .ok ⟨r, []⟩, false, ⟨0, 0, 100, 100⟩, []⟩ 1
    { SessionStore.new 0 (fun _ => "fresh") with
      registry := Registry.empty.put "s" ((Session.fresh 0).store (.foreign 7) 0) }

/-- A package for the session, and a run to be stored there. -/
def packageRequest : Request := ⟨"1", some "s", [⟨"a", none⟩], true⟩

/-- The run is stored, beside the package that drops what the one before has left. -/
def packageReply : Reply :=
  ⟨true, some .null, "", [], [stateResetWarning [⟨"a", none⟩]], some "s", false⟩

/-- The contents after the request. -/
def packageContents : Contents := ⟨2, true, some (.foreign 1), [⟨⟨"a", none⟩, []⟩]⟩

/-- A request with a new package drops what the session held, says so, and stores its own run, step
by step and when it is served. A request without a session says nothing of the kind. -/
theorem changes_announced_package :
    (∃ before rs added, usedHost.store.registry.contents? "s" = some before ∧
      before.continuation = some (.foreign 7) ∧
      Announced usedHost.setup packageRequest rs before packageContents added packageReply) ∧
    (∃ k g k' g' reply,
      (Flight.new 0 (.execute { packageRequest with session := none }) none).start usedHost =
        some (k, g) ∧ g.follow k (List.replicate 6 0) = some (k', g') ∧
      g'.reply? = some (.executed reply) ∧ reply.success = true ∧
      reply.warnings.filter (·.isReset) = []) ∧
    ∃ before rs added, (usedHost.serve [.ofJob (.execute packageRequest)]).2 =
        [some (.executed packageReply)] ∧
      Announced usedHost.setup packageRequest rs before packageContents added packageReply := by
  have hbefore : usedHost.store.registry.contents? "s" = some ⟨1, true, some (.foreign 7), []⟩ := by
    decide +kernel
  have hsession : requestedSession packageRequest.session = some "s" := by decide +kernel
  refine ⟨?_, ?_, ?_⟩
  · have hrun : ((Flight.new 0 (.execute packageRequest) none).follow usedHost
        (List.replicate 7 0)).map (fun x => (x.2.reply?, x.1.store.registry.contents? "s")) =
          some (some (.executed packageReply), some packageContents) := by decide +kernel
    obtain ⟨⟨k, g⟩, hfollow, hfacts⟩ := Option.map_eq_some_iff.1 hrun
    obtain ⟨hreply, hafter⟩ := Prod.mk.inj hfacts
    obtain ⟨rs, hjourney⟩ := Flight.journey_of_follow "s" hfollow
    obtain ⟨added, r, hexecuted, hannounced⟩ :=
      changes_announced.1 rfl hsession (Or.inl rfl) hbefore hjourney hreply hafter
    cases hexecuted
    exact ⟨_, rs, added, hbefore, rfl, hannounced⟩
  · have hstart : ((Flight.new 0 (.execute { packageRequest with session := none }) none).start
        usedHost).map (·.2.berth?) = some (some ⟨"fresh", false⟩) := by decide +kernel
    have hrun : (((Flight.new 0 (.execute { packageRequest with session := none }) none).start
        usedHost).bind fun x => x.2.follow x.1 (List.replicate 6 0)).map (·.2.reply?) =
          some (some (.executed { packageReply with warnings := [], session := some "fresh" })) := by
      decide +kernel
    obtain ⟨⟨k', g'⟩, hplayed, hreply⟩ := Option.map_eq_some_iff.1 hrun
    obtain ⟨⟨k, g⟩, hs, hfollow⟩ := Option.bind_eq_some_iff.1 hplayed
    have hberth : g.berth? = some ⟨"fresh", false⟩ := by
      rw [hs] at hstart
      exact Option.some.inj hstart
    have hid : ∀ b, g.berth? = some b → b.id = "fresh" := by
      intro b hb
      cases hberth.symm.trans hb
      rfl
    have habsent : ∀ other, requestedSession none = some other →
        other = "fresh" ∧ usedHost.store.registry.contents? "fresh" = none := by
      intro _ hother
      cases hother
    have hown : usedHost.setup.compiler.HasOwnCodes :=
      fun _ _ _ d hd => absurd hd List.not_mem_nil
    obtain ⟨rs, hjourney⟩ := Flight.journey_of_follow "fresh" hfollow
    exact ⟨k, g, k', g', _, hs, hfollow, hreply, rfl,
      changes_announced.2.1 rfl habsent hs hid hjourney hreply hown⟩
  · have hreply : (usedHost.serve [.ofJob (.execute packageRequest)]).2 =
        [some (.executed packageReply)] := by decide +kernel
    have hafter : (usedHost.serve [.ofJob (.execute packageRequest)]).1.store.registry.contents?
        "s" = some packageContents := by decide +kernel
    obtain ⟨rs, added, r, hexecuted, hannounced⟩ :=
      changes_announced.2.2 rfl hsession (by decide +kernel) hbefore hreply hafter
    cases hexecuted
    exact ⟨_, rs, added, hreply, hannounced⟩

end ScriptHost
