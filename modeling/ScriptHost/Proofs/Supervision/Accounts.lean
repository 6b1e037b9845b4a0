import ScriptHost.Supervision.Domain

/-!
# The accounts of a domain

Users of a domain queue for units, load them or give up, run them, and release them, in any order;
at any time the domain may be closed. What they did is kept as a record. Whatever the order, the
counters of the domain agree with the units that are live and with the record: a unit is loaded
under a number of its own, starts its code at most once, and gives its slot back once.
-/

namespace ScriptHost

namespace Domain

/-- What users do that the record keeps, by the number of the unit. -/
inductive Entry where
  | loaded (generation : Nat)
  | started (generation : Nat)
  | released (generation : Nat)
  | closed
deriving DecidableEq, Repr

namespace Entry

@[simp] def loaded? : Entry → Option Nat
  | loaded generation => some generation
  | started _ | released _ | closed => none

@[simp] def started? : Entry → Option Nat
  | started generation => some generation
  | loaded _ | released _ | closed => none

@[simp] def released? : Entry → Option Nat
  | released generation => some generation
  | loaded _ | started _ | closed => none

end Entry

/-- The numbers of the units that were loaded, in this order. -/
def loads (record : List Entry) : List Nat := record.filterMap Entry.loaded?

/-- The numbers of the units whose code was started. -/
def starts (record : List Entry) : List Nat := record.filterMap Entry.started?

/-- The numbers of the units that were released. -/
def releases (record : List Entry) : List Nat := record.filterMap Entry.released?

/-- The numbers of units. -/
def numbers (units : List LoadedUnit) : List Nat := units.map (·.generation)

theorem numbers_middle (before after : List LoadedUnit) (x : LoadedUnit) :
    (numbers (before ++ x :: after)).Perm (x.generation :: numbers (before ++ after)) := by
  simp only [numbers, List.map_append, List.map_cons]
  exact List.perm_middle

section Record

variable (record : List Entry) (e : Entry)

@[simp] theorem loads_snoc : loads (record ++ [e]) = loads record ++ e.loaded?.toList := by
  rw [loads, List.filterMap_append]
  cases e with
  | loaded | started | released | closed => rfl

@[simp] theorem starts_snoc : starts (record ++ [e]) = starts record ++ e.started?.toList := by
  rw [starts, List.filterMap_append]
  cases e with
  | loaded | started | released | closed => rfl

@[simp] theorem releases_snoc :
    releases (record ++ [e]) = releases record ++ e.released?.toList := by
  rw [releases, List.filterMap_append]
  cases e with
  | loaded | started | released | closed => rfl

end Record

/-- A domain with the units that are live, and the record of what its users did, the latest
last. -/
structure Usage where
  domain : Domain
  units : List LoadedUnit
  record : List Entry

/-- One thing that a user does. A unit is released when it is unloaded, and also when it is dropped
without that. -/
inductive Usage.Step : Usage → Usage → Prop
  | queue {d : Domain} {units : List LoadedUnit} {record : List Entry} (t : Ticket) :
      Step ⟨d, units, record⟩ ⟨d.queue t, units, record⟩
  | abandon {d : Domain} {units : List LoadedUnit} {record : List Entry} (t : Ticket) :
      Step ⟨d, units, record⟩ ⟨d.giveUp t, units, record⟩
  | load {d d' : Domain} {before after : List LoadedUnit} {record : List Entry} {t : Ticket}
      {code : Activity} {outputLimit : Nat} {u : LoadedUnit}
      (h : d.load t code outputLimit = .granted d' u) :
      Step ⟨d, before ++ after, record⟩
        ⟨d', before ++ u :: after, record ++ [.loaded u.generation]⟩
  | run {d : Domain} {before after : List LoadedUnit} {record : List Entry} {u : LoadedUnit}
      {limits : Limits} {start : Nat} {ran : UnitRun} (h : u.run limits start = .ok ran) :
      Step ⟨d, before ++ u :: after, record⟩
        ⟨d, before ++ ran.loaded :: after, record ++ [.started u.generation]⟩
  | release {d : Domain} {before after : List LoadedUnit} {record : List Entry} (u : LoadedUnit)
      (ms : Nat) :
      Step ⟨d, before ++ u :: after, record⟩
        ⟨(d.release u ms).1, before ++ after, record ++ [.released u.generation]⟩
  | close {d : Domain} {units : List LoadedUnit} {record : List Entry} :
      Step ⟨d, units, record⟩ ⟨d.close, units, record ++ [.closed]⟩

/-- What users can bring a new domain to. -/
inductive Usage.Reachable (maxUnits : Nat) : Usage → Prop
  | start : Reachable maxUnits ⟨.new maxUnits, [], []⟩
  | step {u u' : Usage} (reached : Reachable maxUnits u) (h : u.Step u') : Reachable maxUnits u'

namespace Usage

/-- A granted unit has the next number and its code, and takes a free slot of an open domain. -/
theorem load_eq_granted {d d' : Domain} {t : Ticket} {code : Activity} {outputLimit : Nat}
    {u : LoadedUnit} (h : d.load t code outputLimit = .granted d' u) :
    d.closed = false ∧ 0 < d.slots.free ∧
      d' = { d with
        slots := d.slots.enter t
        nextGeneration := d.nextGeneration + 1
        loaded := d.loaded + 1 } ∧
      u = ⟨d.nextGeneration, some code, .empty outputLimit, none⟩ := by
  rw [load] at h
  split at h
  · cases h
  · rename_i hopen
    split at h
    · rename_i hmay
      cases h
      exact ⟨Bool.eq_false_iff.2 hopen, Semaphore.free_pos_of_mayEnter hmay, rfl, rfl⟩
    · cases h

/-- Only a unit that still has its code runs, and then it has none. -/
theorem run_eq_ok {u : LoadedUnit} {limits : Limits} {start : Nat} {ran : UnitRun}
    (h : u.run limits start = .ok ran) :
    u.code.isSome ∧ ran.loaded.code = none ∧ ran.loaded.generation = u.generation := by
  rw [LoadedUnit.run] at h
  split at h
  · cases h
  · rename_i code hcode
    cases h
    exact ⟨by rw [hcode]; rfl, rfl, rfl⟩

variable {u u' : Usage}

/-- The counters and the free slots agree with the units that are live and with the record. -/
structure Counted (u : Usage) : Prop where
  slots : u.domain.slots.free + u.units.length = u.domain.capacity
  loaded : u.domain.loaded = (loads u.record).length
  released : u.domain.released = (releases u.record).length
  live : u.domain.loaded = u.domain.released + u.units.length
  degraded : u.domain.degraded ≤ u.domain.released

theorem Counted.start (maxUnits : Nat) : Counted ⟨.new maxUnits, [], []⟩ :=
  ⟨rfl, rfl, rfl, rfl, Nat.le_refl 0⟩

theorem Counted.step (h : Counted u) (hstep : u.Step u') : Counted u' := by
  obtain ⟨hslots, hloaded, hreleased, hlive, hdegraded⟩ := h
  cases hstep with
  | queue | abandon => exact ⟨hslots, hloaded, hreleased, hlive, hdegraded⟩
  | load hload =>
      obtain ⟨-, hfree, rfl, rfl⟩ := load_eq_granted hload
      simp only [List.length_append] at hslots hlive
      refine ⟨?_, by simpa using hloaded, by simpa using hreleased, ?_, hdegraded⟩
      · simp only [Semaphore.enter, List.length_append, List.length_cons]
        omega
      · simp only [List.length_append, List.length_cons]
        omega
  | run hrun =>
      exact ⟨by simpa using hslots, by simpa using hloaded, by simpa using hreleased,
        by simpa using hlive, hdegraded⟩
  | @release d before after record x ms =>
      simp only [List.length_append, List.length_cons] at hslots hlive
      refine ⟨?_, by simpa [Domain.release] using hloaded,
        by simpa [Domain.release] using hreleased, ?_, ?_⟩
      · simp only [Domain.release, Semaphore.release, List.length_append]
        omega
      · simp only [Domain.release, List.length_append]
        omega
      · simp only [Domain.release]
        split
        · exact Nat.succ_le_succ hdegraded
        · exact Nat.le_succ_of_le hdegraded
  | close =>
      exact ⟨hslots, by simpa [Domain.close] using hloaded,
        by simpa [Domain.close] using hreleased, hlive, hdegraded⟩

/-- The numbers that are handed out ascend, and each is that of a live unit or of one that was
released, once. -/
structure Numbered (u : Usage) : Prop where
  ascending : (loads u.record).Pairwise (· < ·)
  fresh : ∀ g ∈ loads u.record, g < u.domain.nextGeneration
  settled : (loads u.record).Perm (releases u.record ++ numbers u.units)

theorem Numbered.start (maxUnits : Nat) : Numbered ⟨.new maxUnits, [], []⟩ :=
  ⟨.nil, nofun, .nil⟩

theorem Numbered.nodup (h : Numbered u) : (releases u.record ++ numbers u.units).Nodup :=
  h.settled.nodup_iff.1 (h.ascending.imp Nat.ne_of_lt)

theorem Numbered.step (h : Numbered u) (hstep : u.Step u') : Numbered u' := by
  obtain ⟨hascending, hfresh, hsettled⟩ := h
  cases hstep with
  | queue | abandon => exact ⟨hascending, hfresh, hsettled⟩
  | @load d d' before after record t code outputLimit x hload =>
      obtain ⟨-, -, rfl, rfl⟩ := load_eq_granted hload
      refine ⟨?_, ?_, ?_⟩
      · simpa [List.pairwise_append] using ⟨hascending, hfresh⟩
      · simp only [loads_snoc, Entry.loaded?, Option.toList_some, List.forall_mem_append,
          List.forall_mem_singleton]
        exact ⟨fun g hg => Nat.lt_succ_of_lt (hfresh g hg), Nat.lt_succ_self _⟩
      · simp only [loads_snoc, releases_snoc, Entry.loaded?, Entry.released?, Option.toList_some,
          Option.toList_none, List.append_nil]
        calc (loads record ++ [d.nextGeneration]).Perm (d.nextGeneration :: loads record) :=
              List.perm_append_singleton _ _
          List.Perm _ (d.nextGeneration :: (releases record ++ numbers (before ++ after))) :=
              hsettled.cons _
          List.Perm _ (releases record ++ d.nextGeneration :: numbers (before ++ after)) :=
              List.perm_middle.symm
          List.Perm _ (releases record ++ numbers (before ++ _ :: after)) :=
              (numbers_middle before after ⟨d.nextGeneration, _, _, _⟩).symm.append_left _
  | @run d before after record x limits start ran hrun =>
      obtain ⟨-, -, hgeneration⟩ := run_eq_ok hrun
      exact ⟨by simpa using hascending, by simpa using hfresh,
        by simpa [numbers, hgeneration] using hsettled⟩
  | @release d before after record x ms =>
      refine ⟨by simpa using hascending, by simpa [Domain.release] using hfresh, ?_⟩
      simpa using hsettled.trans ((numbers_middle before after x).append_left _)
  | close =>
      exact ⟨by simpa using hascending, by simpa [Domain.close] using hfresh,
        by simpa using hsettled⟩

/-- Code is started at most once, and the units that were started have none any more. -/
structure StartedOnce (u : Usage) : Prop where
  nodup : (starts u.record).Nodup
  loaded : ∀ g ∈ starts u.record, g ∈ loads u.record
  unstarted : ∀ x ∈ u.units, x.code.isSome → x.generation ∉ starts u.record

theorem StartedOnce.start (maxUnits : Nat) : StartedOnce ⟨.new maxUnits, [], []⟩ :=
  ⟨.nil, nofun, nofun⟩

theorem StartedOnce.step (h : StartedOnce u) (hn : Numbered u) (hstep : u.Step u') :
    StartedOnce u' := by
  obtain ⟨hnodup, hloaded, hunstarted⟩ := h
  cases hstep with
  | queue | abandon => exact ⟨hnodup, hloaded, hunstarted⟩
  | @load d d' before after record t code outputLimit x hload =>
      obtain ⟨-, -, rfl, rfl⟩ := load_eq_granted hload
      refine ⟨by simpa using hnodup, ?_, ?_⟩
      · intro g hg
        simp only [starts_snoc, Entry.started?, Option.toList_none, List.append_nil] at hg
        rw [loads_snoc]
        exact List.mem_append_left _ (hloaded g hg)
      · intro x hx hcode
        simp only [starts_snoc, Entry.started?, Option.toList_none, List.append_nil]
        rcases List.mem_cons.1 ((List.perm_middle).mem_iff.1 hx) with rfl | hx
        · exact fun hmem => Nat.lt_irrefl _ (hn.fresh _ (hloaded _ hmem))
        · exact hunstarted x hx hcode
  | @run d before after record x limits start ran hrun =>
      obtain ⟨hcode, hnone, hgeneration⟩ := run_eq_ok hrun
      have hmem : x ∈ before ++ x :: after := List.mem_append_right _ (List.mem_cons_self ..)
      have hfirst : x.generation ∉ starts record := hunstarted x hmem hcode
      have hothers : x.generation ∉ numbers (before ++ after) := by
        have hlive : (numbers (before ++ x :: after)).Nodup := (List.nodup_append.1 hn.nodup).2.1
        exact (List.nodup_cons.1 ((numbers_middle before after x).nodup_iff.1 hlive)).1
      refine ⟨?_, ?_, ?_⟩
      · simpa [List.nodup_append] using ⟨hnodup, fun g hg heq => hfirst (heq ▸ hg)⟩
      · have hlive : x.generation ∈ loads record :=
          hn.settled.mem_iff.2 (List.mem_append_right _ (List.mem_map_of_mem hmem))
        simpa [or_imp, forall_and] using ⟨hloaded, hlive⟩
      · intro y hy hy'
        rcases List.mem_cons.1 ((List.perm_middle).mem_iff.1 hy) with rfl | hy
        · rw [hnone] at hy'
          cases hy'
        · have hne : y.generation ≠ x.generation := fun heq =>
            hothers (heq ▸ List.mem_map_of_mem hy)
          have hold := hunstarted y ((List.perm_middle).mem_iff.2 (List.mem_cons_of_mem _ hy)) hy'
          simpa using ⟨hold, hne⟩
  | @release d before after record x ms =>
      refine ⟨by simpa using hnodup, by simpa using hloaded, ?_⟩
      intro y hy hcode
      simp only [starts_snoc, Entry.started?, Option.toList_none, List.append_nil]
      exact hunstarted y ((List.perm_middle).mem_iff.2 (List.mem_cons_of_mem _ hy)) hcode
  | close =>
      exact ⟨by simpa using hnodup, by simpa using hloaded, by simpa using hunstarted⟩

/-- Once the domain was closed it is closed, and nothing was loaded since. -/
def Sealed (u : Usage) : Prop :=
  ∀ before after, u.record = before ++ .closed :: after →
    u.domain.closed = true ∧ loads after = []

theorem Sealed.start (maxUnits : Nat) : Sealed ⟨.new maxUnits, [], []⟩ := by
  intro before after h
  simp at h

/-- What was recorded since the closing, when one more entry is made. -/
theorem closed_of_snoc {record before after : List Entry} {e : Entry}
    (h : record ++ [e] = before ++ .closed :: after) :
    (after = [] ∧ e = .closed) ∨
      ∃ since, after = since ++ [e] ∧ record = before ++ .closed :: since := by
  rcases List.eq_nil_or_concat after with rfl | ⟨since, last, rfl⟩
  · exact Or.inl ⟨rfl, by simpa using (List.append_inj' h rfl).2⟩
  · rw [List.concat_eq_append] at h ⊢
    rw [← List.cons_append, ← List.append_assoc] at h
    obtain ⟨hrecord, hlast⟩ := List.append_inj' h rfl
    cases hlast
    exact Or.inr ⟨since, rfl, hrecord⟩

/-- An entry that is no load keeps a sealed record sealed. -/
theorem Sealed.snoc {d d' : Domain} {units units' : List LoadedUnit} {record : List Entry}
    {e : Entry} (h : Sealed ⟨d, units, record⟩) (he : e.loaded? = none)
    (hclosed : d.closed = true ∨ e = .closed → d'.closed = true) :
    Sealed ⟨d', units', record ++ [e]⟩ := by
  intro before after hrecord
  rcases closed_of_snoc hrecord with ⟨rfl, rfl⟩ | ⟨since, rfl, hsince⟩
  · exact ⟨hclosed (Or.inr rfl), rfl⟩
  · obtain ⟨hd, hloads⟩ := h before since hsince
    exact ⟨hclosed (Or.inl hd), by rw [loads_snoc, hloads, he]; rfl⟩

theorem Sealed.step (h : Sealed u) (hstep : u.Step u') : Sealed u' := by
  cases hstep with
  | queue | abandon => exact h
  | @load d d' before after record t code outputLimit x hload =>
      obtain ⟨hopen, -, -, -⟩ := load_eq_granted hload
      intro first since hrecord
      rcases closed_of_snoc hrecord with ⟨-, he⟩ | ⟨since, -, hsince⟩
      · cases he
      · have hclosed := (h first since hsince).1
        rw [show d.closed = false from hopen] at hclosed
        cases hclosed
  | run => exact h.snoc rfl fun hd => hd.resolve_right nofun
  | release => exact h.snoc rfl fun hd => hd.resolve_right nofun
  | close => exact h.snoc rfl fun _ => rfl

/-- The accounts of a domain agree with what its users did. -/
structure Balanced (u : Usage) : Prop where
  counted : Counted u
  numbered : Numbered u
  startedOnce : StartedOnce u
  isSealed : Sealed u

/-- What the figures of a domain say of its units, and what the record says of each of them. -/
structure Sound (u : Usage) : Prop where
  released_le : u.domain.stats.released ≤ u.domain.stats.loaded
  available_eq : u.domain.stats.available +
    (u.domain.stats.loaded - u.domain.stats.released) = u.domain.stats.capacity
  live_eq : u.units.length = u.domain.stats.loaded - u.domain.stats.released
  live_le : u.units.length ≤ u.domain.stats.capacity
  degraded_le : u.domain.stats.degraded ≤ u.domain.stats.released
  loaded_eq : u.domain.stats.loaded = (loads u.record).length
  released_eq : u.domain.stats.released = (releases u.record).length
  loads_ascend : (loads u.record).Pairwise (· < ·)
  /-- Each unit that was loaded is live or was released, and none was released twice. -/
  loads_perm : (loads u.record).Perm (releases u.record ++ numbers u.units)
  releases_nodup : (releases u.record).Nodup
  starts_nodup : (starts u.record).Nodup
  starts_subset : ∀ g ∈ starts u.record, g ∈ loads u.record
  loads_closed : ∀ before after, u.record = before ++ .closed :: after → loads after = []

theorem Balanced.sound (h : Balanced u) : Sound u := by
  obtain ⟨hslots, hloaded, hreleased, hlive, hdegraded⟩ := h.counted
  have hbelow : u.domain.loaded - u.domain.released = u.units.length := by omega
  exact
    { released_le := Nat.le.intro hlive.symm
      available_eq := (congrArg (u.domain.slots.free + ·) hbelow).trans hslots
      live_eq := hbelow.symm
      live_le := Nat.le.intro ((Nat.add_comm _ _).trans hslots)
      degraded_le := hdegraded
      loaded_eq := hloaded
      released_eq := hreleased
      loads_ascend := h.numbered.ascending
      loads_perm := h.numbered.settled
      releases_nodup := (List.nodup_append.1 h.numbered.nodup).1
      starts_nodup := h.startedOnce.nodup
      starts_subset := h.startedOnce.loaded
      loads_closed := fun before after hrecord => (h.isSealed before after hrecord).2 }

end Usage

end Domain

end ScriptHost
