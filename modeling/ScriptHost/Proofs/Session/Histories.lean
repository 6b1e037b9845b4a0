import ScriptHost.Proofs.Session.Operations
import ScriptHost.Session.Id

/-!
# Histories of a session store

A store that operations have been performed on, one after the other, with what was counted of
them. Whatever the operations were, a session is initialized when it has a continuation, has been
executed as often as an outcome was stored since it was created, and holds no reference twice.
-/

namespace ScriptHost

namespace SessionStore

variable {s : SessionStore} {id other : String}

/-! ## Sessions -/

/-- How often an outcome was stored in a session since it was created; the latest events come
first. -/
def storedSince (id : String) : List Event → Nat
  | [] => 0
  | .created other :: past => if other = id then 0 else storedSince id past
  | .stored other :: past => if other = id then storedSince id past + 1 else storedSince id past

theorem storedSince_append_of_ne {events : List Event} (h : ∀ e ∈ events, e.id ≠ id)
    (past : List Event) : storedSince id (events ++ past) = storedSince id past := by
  induction events with
  | nil => rfl
  | cons e events ih =>
      obtain ⟨hne, hevents⟩ := List.forall_mem_cons.1 h
      cases e with
      | created other => exact (if_neg hne).trans (ih hevents)
      | stored other => exact (if_neg hne).trans (ih hevents)

/-- No two references are the same. -/
def Distinct (attached : List Resolved) : Prop :=
  attached.Pairwise fun a b =>
    a.reference.sameAs b.reference = false ∧ b.reference.sameAs a.reference = false

theorem distinct_addReferences {attached : List Resolved} (h : Distinct attached)
    (rs : List Resolved) : Distinct (Session.addReferences attached rs).1 := by
  refine List.Pairwise.imp ?_ (Session.pairwise_addReferences (h.imp And.left) rs)
  intro a b hab
  exact ⟨hab, Reference.sameAs_comm a.reference b.reference ▸ hab⟩

/-- A session agrees with what was counted. -/
structure Consistent (id : String) (past : List Event) (t : Session) : Prop where
  initialized : t.initialized = t.continuation.isSome
  executions : t.executions = storedSince id past
  distinct : Distinct t.references

/-- One operation keeps a session consistent with what was counted. -/
theorem Change.consistent {held left : Option Session} {events past : List Event}
    (h : Change id held left events) (hheld : ∀ t ∈ held, Consistent id past t) :
    ∀ t ∈ left, Consistent id (events ++ past) t := by
  cases h with
  | same hevents =>
      intro t ht
      obtain ⟨hinit, hexec, hdistinct⟩ := hheld t ht
      exact ⟨hinit, hexec.trans (storedSince_append_of_ne hevents past).symm, hdistinct⟩
  | gone => exact nofun
  | created now =>
      rintro _ ⟨⟩
      exact ⟨rfl, (if_pos rfl).symm, List.Pairwise.nil⟩
  | accessed t now =>
      rintro _ ⟨⟩
      obtain ⟨hinit, hexec, hdistinct⟩ := hheld t rfl
      exact ⟨hinit, hexec, hdistinct⟩
  | stored t c now =>
      rintro _ ⟨⟩
      obtain ⟨-, hexec, hdistinct⟩ := hheld t rfl
      refine ⟨rfl, ?_, hdistinct⟩
      show t.executions + 1 = if id = id then storedSince id past + 1 else storedSince id past
      rw [if_pos rfl, hexec]
  | merged t rs now =>
      rintro _ ⟨⟩
      obtain ⟨hinit, hexec, hdistinct⟩ := hheld t rfl
      exact ⟨Session.initialized_merge hinit rs now, hexec, distinct_addReferences hdistinct rs⟩

/-- References go to the end of those that were attached. -/
theorem Change.references_grow {held left : Option Session} {events : List Event} {t : Session}
    (h : Change id held left events) (hleft : left = some t) (hold : .created id ∉ events) :
    ∃ t₀, held = some t₀ ∧ t₀.references <+: t.references := by
  cases h with
  | same => exact ⟨t, hleft, List.prefix_rfl⟩
  | gone => cases hleft
  | created now => exact absurd (List.mem_singleton_self _) hold
  | accessed t₀ now =>
      cases hleft
      exact ⟨t₀, rfl, List.prefix_rfl⟩
  | stored t₀ c now =>
      cases hleft
      exact ⟨t₀, rfl, List.prefix_rfl⟩
  | merged t₀ rs now =>
      cases hleft
      refine ⟨t₀, rfl, ?_⟩
      show t₀.references <+: (Session.addReferences t₀.references rs).1
      rw [Session.addReferences_eq]
      exact List.prefix_append _ _

/-! ## Histories -/

/-- A store, and what was counted of the operations on it, the latest first. -/
structure History where
  store : SessionStore
  events : List Event

namespace History

/-- A store without sessions. -/
def start (clock : Instant) (ids : Nat → String) : History := ⟨.new clock ids, []⟩

/-- The history goes on with an operation. -/
def andThen (h : History) (op : Operation) : History :=
  ⟨(h.store.perform op).1, (h.store.perform op).2 ++ h.events⟩

/-- The history goes on with operations, one after the other. -/
def run (h : History) (ops : List Operation) : History := ops.foldl andThen h

/-- The session under an id. -/
def find? (h : History) (id : String) : Option Session := h.store.find? id

/-- No id is held twice or blank, and the sessions are consistent with what was counted. -/
structure Sound (h : History) : Prop where
  nodup : h.store.registry.ids.Nodup
  drawn : ∀ n, Text.isBlankText (h.store.ids n) = false
  named : ∀ id t, h.find? id = some t → Text.isBlankText id = false
  consistent : ∀ id, ∀ t ∈ h.find? id, Consistent id h.events t

variable {h : History} {id : String}

theorem Sound.start {ids : Nat → String} (hids : ∀ n, Text.isBlankText (ids n) = false)
    (clock : Instant) : Sound (start clock ids) where
  nodup := List.nodup_nil
  drawn := hids
  named _ _ := nofun
  consistent _ _ := nofun

theorem Sound.andThen (hs : Sound h) (op : Operation) : Sound (h.andThen op) where
  nodup := (outcome_perform h.store op).nodup hs.nodup
  drawn n := by
    rw [History.andThen, ids_perform]
    exact hs.drawn n
  named id t ht := by
    have houtcome := outcome_perform h.store op
    by_cases hcreated : .created id ∈ (h.store.perform op).2
    · obtain ⟨n, hn⟩ := houtcome.drawn hcreated
      exact hn ▸ hs.drawn n
    · obtain ⟨t₀, ht₀, -⟩ := (houtcome.change hs.nodup id).references_grow ht hcreated
      exact hs.named id t₀ ht₀
  consistent id :=
    ((outcome_perform h.store op).change hs.nodup id).consistent (hs.consistent id)

/-- Operations keep a history sound. -/
theorem Sound.run (hs : Sound h) (ops : List Operation) : Sound (h.run ops) := by
  induction ops generalizing h with
  | nil => exact hs
  | cons op ops ih => exact ih (hs.andThen op)

/-- Operations add to what was counted. -/
theorem events_run (h : History) (ops : List Operation) :
    ∃ events, (h.run ops).events = events ++ h.events := by
  induction ops generalizing h with
  | nil => exact ⟨[], rfl⟩
  | cons op ops ih =>
      obtain ⟨events, hevents⟩ := ih (h.andThen op)
      refine ⟨events ++ (h.store.perform op).2, ?_⟩
      rw [List.append_assoc]
      exact hevents

/-- Unless the id was given to a new session, references only went to the end. -/
theorem Sound.references_grow (hs : Sound h) {ops : List Operation} {events : List Event}
    {t : Session} (hevents : (h.run ops).events = events ++ h.events)
    (hold : .created id ∉ events) (ht : (h.run ops).find? id = some t) :
    ∃ t₀, h.find? id = some t₀ ∧ t₀.references <+: t.references := by
  induction ops generalizing h events with
  | nil => exact ⟨t, ht, List.prefix_rfl⟩
  | cons op ops ih =>
      obtain ⟨later, hlater⟩ := events_run (h.andThen op) ops
      have hsplit : events = later ++ (h.store.perform op).2 := by
        rw [← List.append_left_inj h.events, List.append_assoc]
        exact hevents.symm.trans hlater
      rw [hsplit, List.mem_append, not_or] at hold
      obtain ⟨t₁, ht₁, hprefix⟩ := ih (hs.andThen op) hlater hold.1 ht
      have hchange := (outcome_perform h.store op).change hs.nodup id
      obtain ⟨t₀, ht₀, hprefix₀⟩ := hchange.references_grow ht₁ hold.2
      exact ⟨t₀, ht₀, hprefix₀.trans hprefix⟩

end History

/-! ## Liveness -/

/-- The operations on a session, and the questions about it, agree on whether it is live. -/
structure LiveAgree (s : SessionStore) (id : String) (live : Bool) : Prop where
  contains : s.registry.contains id = live
  info : (s.registry.info? id).isSome = live
  references : (s.registry.references id).isOk = live
  touch : (s.touch id).2 = live
  state : (s.state id).isOk = live
  updateState : ∀ c, (s.updateState id c).isOk = live
  merge : ∀ rs, (s.merge id rs).isOk = live
  remove : (s.remove id).2 = live

section Named

variable (hnamed : ∀ t, s.find? id = some t → Text.isBlankText id = false)
include hnamed

theorem isOk_use? : (s.registry.use? id).isOk = (s.find? id).isSome := by
  cases hfind : s.find? id with
  | none =>
      rw [Registry.use?, show s.registry.find? id = none from hfind]
      split
      · rfl
      · rfl
  | some t =>
      rw [Registry.use?, show s.registry.find? id = some t from hfind, hnamed t hfind]
      rfl

theorem contains_eq : s.registry.contains id = (s.find? id).isSome := by
  show (!Text.isBlankText id && (s.find? id).isSome) = _
  cases hfind : s.find? id with
  | none => exact Bool.and_false _
  | some t =>
      rw [hnamed t hfind]
      rfl

/-- Where no session has a blank id, it makes no difference which of them look for blank ids. -/
theorem liveAgree : LiveAgree s id (s.find? id).isSome where
  contains := contains_eq hnamed
  info := Option.isSome_map ..
  references := by
    rw [Registry.references, find?]
    cases s.registry.find? id with
    | none => rfl
    | some t => rfl
  touch := by
    show (s.registry.touch id s.now).2 = _
    rw [Registry.touch, find?]
    cases s.registry.find? id with
    | none => rfl
    | some t => rfl
  state := by
    rw [state_eq, Registry.state_eq, Computation.isOk_except_map, Computation.isOk_except_map]
    exact isOk_use? hnamed
  updateState c := by
    rw [updateState_eq, Registry.updateState_eq, Computation.isOk_except_map,
      Computation.isOk_except_map]
    exact isOk_use? hnamed
  merge rs := by
    rw [merge_eq, Registry.merge_eq, Computation.isOk_except_map, Computation.isOk_except_map]
    exact isOk_use? hnamed
  remove := rfl

end Named

/-! ## Invariants -/

/-- What holds of a store whatever was done with it, and of whatever is done with it next. -/
structure Invariants (h : History) : Prop where
  initialized_iff : ∀ id t, h.find? id = some t →
    (t.initialized = true ↔ ∃ c, t.continuation = some c)
  executions_eq : ∀ id t, h.find? id = some t → t.executions = storedSince id h.events
  references_distinct : ∀ id t, h.find? id = some t → Distinct t.references
  /-- Unless the id was given to a new session, references go to the end. -/
  references_grow : ∀ ops events id t, (h.run ops).events = events ++ h.events →
    .created id ∉ events → (h.run ops).find? id = some t →
    ∃ t₀, h.find? id = some t₀ ∧ t₀.references <+: t.references
  live_agree : ∀ id, LiveAgree h.store id (h.find? id).isSome
  /-- A session is created where there is none, and all sessions stay as they are. -/
  create_spares : ∀ limit s id, h.store.createWithin limit = some (s, id) →
    h.find? id = none ∧ ∀ other t, h.find? other = some t → s.find? other = some t
  others_unchanged : ∀ op id other, op.target? = some id → other ≠ id →
    (h.andThen op).find? other = h.find? other

theorem find?_of_createWithin {limit : Nat} {s' : SessionStore} {t : Session}
    (h : s.createWithin limit = some (s', id)) (ht : s.find? other = some t) :
    s'.find? other = some t := by
  obtain ⟨n, now, -, -, hnone, rfl⟩ := createWithin_eq_some h
  show (s.registry.put id (.fresh now)).find? other = some t
  rw [Registry.find?_put, if_neg]
  · exact ht
  · rintro rfl
    exact nomatch hnone.symm.trans ht

theorem History.Sound.invariants {h : History} (hs : h.Sound) : Invariants h where
  initialized_iff id t ht := by
    rw [(hs.consistent id t ht).initialized, Option.isSome_iff_exists]
  executions_eq id t ht := (hs.consistent id t ht).executions
  references_distinct id t ht := (hs.consistent id t ht).distinct
  references_grow _ _ _ _ hevents hold ht := hs.references_grow hevents hold ht
  live_agree id := liveAgree (hs.named id)
  create_spares limit s id hcreate := by
    obtain ⟨n, now, -, -, hnone, -⟩ := createWithin_eq_some hcreate
    exact ⟨hnone, fun other t ht => find?_of_createWithin hcreate ht⟩
  others_unchanged op id other htarget hne :=
    ((outcome_perform h.store op).edit htarget).find?_of_ne hne

/-- Whatever operations are performed on a new store whose ids are not blank, the invariants
hold. -/
theorem invariants_of_run {ids : Nat → String} (hids : ∀ n, Text.isBlankText (ids n) = false)
    (clock : Instant) (ops : List Operation) : Invariants ((History.start clock ids).run ops) :=
  ((History.Sound.start hids clock).run ops).invariants

/-- The ids that stand for numbers are not blank. -/
theorem isBlankText_ofNumber (n : Nat) : Text.isBlankText (SessionId.ofNumber n) = false := by
  have hdash : '-' ∈ (SessionId.ofNumber n).toList := by simp [SessionId.ofNumber]
  rw [Text.isBlankText, List.all_eq_false]
  exact ⟨'-', hdash, by decide⟩

/-- Two sessions; one stores an outcome, gets two references under three names, and loses the
outcome. -/
theorem invariants_of_run_merge :
    let ops : List Operation :=
      [.create 1, .create 1, .updateState (SessionId.ofNumber 0) (.foreign 7),
        .merge (SessionId.ofNumber 0)
          [⟨⟨"Json", none⟩, []⟩, ⟨⟨"JSON", none⟩, []⟩, ⟨⟨"Xml", some "2"⟩, []⟩],
        .touch " ", .sweepAt 0 0]
    let h := (History.start 0 SessionId.ofNumber).run ops
    Invariants h ∧ (h.find? (SessionId.ofNumber 0)).map (fun t =>
      (t.executions, t.initialized, t.references.map (·.reference.name))) =
        some (1, false, ["Json", "Xml"]) := by
  exact ⟨invariants_of_run isBlankText_ofNumber 0 _, by decide +kernel⟩

end SessionStore

end ScriptHost
