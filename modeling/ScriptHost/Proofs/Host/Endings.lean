import Mathlib.Algebra.Order.BigOperators.Group.List
import Mathlib.Algebra.Order.Ring.Nat
import ScriptHost.Proofs.Host.Phases
import ScriptHost.Proofs.Host.Solitary
import ScriptHost.Proofs.Supervision.Sampling

/-!
# A serving comes to its end

The turns that a serving is given are enough for a request that is served by itself: when they are
used up, the request is done, or nothing is left to happen. Between two steps of the request each
turn leaves less to do, and the samples of the memory in use come in between a few times only.
-/

namespace ScriptHost

namespace Task

/-- The turns that a task takes, without the samples of the memory in use. -/
def work (task : Task) : Nat := if task.isSample then 0 else task.turns

/-- Nothing waits for its time but an abort or a removal. -/
def IsPlain : Task → Prop
  | later _ (.abort _) | later _ (.remove _) => True
  | later _ _ => False
  | _ => True

theorem ordinary_isPlain : Ordinary IsPlain :=
  ⟨fun _ => trivial, fun _ _ => trivial, fun _ => trivial, fun _ _ => trivial⟩

theorem isPlain_of_later {ms : Nat} {task : Task} (h : IsPlain (.later ms task)) :
    IsPlain task := by
  cases task with
  | abort | remove => trivial
  | request | code | halt | sample | later => exact h.elim

end Task

namespace Flight

variable {h : Host} {f : Flight} {now : Nat} {after : Host × Flight}

theorem stepsLeft_of_berth {b : Berth} (hb : f.berth? = some b) : 0 < f.stepsLeft := by
  rw [berth?] at hb
  rw [stepsLeft]
  cases hp : f.phase with
  | opening | done =>
      rw [hp] at hb
      cases hb
  | atGate | resolving | compiling | queued | running => exact Nat.succ_pos _

/-- A step leaves fewer steps to take. -/
theorem stepsLeft_of_advance (ha : f.advance h now = some after) :
    after.2.stepsLeft < f.stepsLeft := by
  have hjob : after.2.job = f.job := congrArg (·.job) (anew_of_advance ha)
  have hleads := leads_of_advance ha
  rw [stepsLeft, hjob]
  generalize after.2.phase = phase at hleads
  cases hleads with
  | joined hp | refused hp | entered hp | found hp | missed hp | loaded hp | prepared hp
  | compiled hp | started hp | landed hp =>
      rw [stepsLeft, hp]
      simp
  | failed hb => exact stepsLeft_of_berth hb

end Flight

namespace Agenda

variable {a b : Agenda Task} {task : Task}

/-! ## What there is to do -/

/-- The turns that the tasks take, without samples of the memory in use. -/
def work (a : Agenda Task) : Nat := (a.tasks.map Task.work).sum

/-- The samples that are to be taken. -/
def samples (a : Agenda Task) : Nat := a.tasks.countP Task.isSample

theorem work_of_perm (h : a.tasks.Perm (task :: b.tasks)) : a.work = task.work + b.work := by
  rw [work, (h.map Task.work).sum_nat, List.map_cons, List.sum_cons, work]

theorem samples_of_perm (h : a.tasks.Perm (task :: b.tasks)) :
    a.samples = b.samples + if task.isSample then 1 else 0 := by
  rw [samples, h.countP_eq, List.countP_cons, samples]

theorem work_drop_le (a : Agenda Task) (q : Task → Bool) : (a.drop q).work ≤ a.work := by
  rw [work, tasks_drop]
  exact (List.filter_sublist.map Task.work).sum_le_sum fun _ _ => Nat.zero_le _

theorem samples_drop_le (a : Agenda Task) (q : Task → Bool) : (a.drop q).samples ≤ a.samples := by
  rw [samples, tasks_drop]
  exact List.filter_sublist.countP_le

/-- What there is to do before the request takes a step, where there is one sample at most. -/
def rank (a : Agenda Task) : Nat :=
  if a.samples = 0 then a.work else 4 * a.work + rushes Task.isSample a

end Agenda

namespace Traffic

variable {t t' : Traffic} {f : Flight} {task : Task}

theorem turnsLeft_eq (t : Traffic) :
    t.turnsLeft = (t.agenda.work + t.agenda.samples + 1) * (2 * t.agenda.samples + 2) := by
  have hturns : ∀ tasks : List Task, tasks.foldr (fun task turns => task.turns + turns) 1 =
      (tasks.map Task.work).sum + tasks.countP Task.isSample + 1 := by
    intro tasks
    induction tasks with
    | nil => rfl
    | cons task tasks ih =>
        have htask : task.turns = task.work + if task.isSample then 1 else 0 := by
          cases task with
          | sample => rfl
          | request | code | halt | abort | remove | later => rfl
        rw [List.foldr_cons, ih, htask, List.map_cons, List.sum_cons, List.countP_cons]
        omega
  rw [turnsLeft, hturns, Agenda.work, Agenda.samples]

theorem rank_lt_turnsLeft (h : t.agenda.samples ≤ 1) : t.agenda.rank < t.turnsLeft := by
  have hrushes := Agenda.rushes_le Task.isSample t.agenda
  rw [Agenda.rank, turnsLeft_eq]
  rcases Nat.le_one_iff_eq_zero_or_eq_one.1 h with hnone | hone
  · rw [hnone, if_pos rfl]
    omega
  · rw [hone, if_neg Nat.one_ne_zero]
    omega

/-! ## What a turn changes of it -/

theorem work_wakeRequest_le (t : Traffic) (ticket : Ticket) :
    (t.wakeRequest ticket).agenda.work ≤ t.agenda.work + 1 := by
  rw [wakeRequest]
  split
  · exact Nat.le_succ _
  · exact Nat.le_of_eq ((Agenda.work_of_perm (Agenda.perm_append _ _)).trans (Nat.add_comm _ _))

theorem samples_wakeRequest (t : Traffic) (ticket : Ticket) :
    (t.wakeRequest ticket).agenda.samples = t.agenda.samples := by
  rw [wakeRequest]
  split
  · rfl
  · exact Agenda.samples_of_perm (Agenda.perm_append _ _)

theorem samples_wake (t : Traffic) : t.wake.agenda.samples = t.agenda.samples := by
  rw [wake]
  generalize t.waiting.filter t.canAdvance = fs
  induction fs generalizing t with
  | nil => rfl
  | cons f fs ih => exact (ih _).trans (samples_wakeRequest t f.ticket)

theorem samples_awaitSample_le (t : Traffic) (ticket : Ticket) :
    (t.awaitSample ticket).agenda.samples ≤ t.agenda.samples + 1 := by
  rw [awaitSample]
  split
  · exact Nat.le_of_eq (Agenda.samples_of_perm (Agenda.perm_setTimer _ _ _))
  · exact Nat.le_succ _

theorem samples_startCode_le (t : Traffic) (ticket : Ticket) (course : Course) :
    (t.startCode ticket course).agenda.samples ≤ t.agenda.samples + 1 := by
  have hcode : (t.plan (·.append (.code ticket course.pauses))).agenda.samples =
      t.agenda.samples := Agenda.samples_of_perm (Agenda.perm_append _ _)
  rw [startCode]
  refine Nat.le_trans (samples_awaitSample_le _ ticket) (Nat.add_le_add_right ?_ 1)
  split
  · exact Nat.le_of_eq ((Agenda.samples_of_perm (Agenda.perm_setTimer _ _ _)).trans hcode)
  · exact Nat.le_of_eq hcode

/-- Only code that starts is watched by a new sample. -/
theorem samples_afterStep_le (t : Traffic) (f : Flight) (atOnce : Bool) :
    (t.afterStep f atOnce).agenda.samples ≤
      t.agenda.samples + if f.stepsLeft = 1 then 1 else 0 := by
  rw [afterStep, Flight.stepsLeft]
  cases f.phase with
  | done => exact Agenda.samples_drop_le _ _
  | running => exact samples_startCode_le t _ _
  | opening | atGate | resolving | compiling | queued =>
      apply Nat.le_add_right_of_le
      simp only [goOn]
      split
      · exact Nat.le_of_eq (Agenda.samples_of_perm (Agenda.perm_again _ _))
      · exact Nat.le_of_eq (Agenda.samples_of_perm (Agenda.perm_setTimer _ _ _))

/-! ## One request by itself -/

/-- One request is served, and a sample is taken at most while its code runs. -/
structure Sole (f : Flight) (t : Traffic) : Prop where
  flights : t.flights = [f]
  plain : t.agenda.All Task.IsPlain
  samples : t.agenda.samples ≤ 1
  early : 1 < f.stepsLeft → t.agenda.samples = 0

/-- The request takes a step, and is still the only one. -/
theorem Sole.advance (h : Sole f t) {after : Host × Flight}
    (ha : f.advance t.host t.agenda.now = some after) : Sole after.2 (t.advance f) := by
  have hless := Flight.stepsLeft_of_advance ha
  have hticket : f.ticket = after.2.ticket :=
    (Flight.ticket_of_anew (Flight.anew_of_advance ha)).symm
  have hflights : (t.advance f).flights = [after.2] := by
    rw [Traffic.advance, ha]
    refine (congrArg Fleet.flights (fleet_wake _)).trans ?_
    refine (congrArg Fleet.flights (fleet_afterStep _ _ _)).trans ?_
    simp only [fleet, h.flights, List.map_cons, List.map_nil, if_pos hticket]
  have hsamples : (t.advance f).agenda.samples ≤
      t.agenda.samples + if after.2.stepsLeft = 1 then 1 else 0 := by
    rw [Traffic.advance, ha]
    exact Nat.le_trans (Nat.le_of_eq (samples_wake _)) (samples_afterStep_le _ _ _)
  have hearly := h.early
  have hone := h.samples
  refine ⟨hflights, all_advance Task.ordinary_isPlain h.plain f, ?_, ?_⟩
  · split at hsamples
    · omega
    · omega
  · intro hmore
    rw [if_neg (Nat.ne_of_gt hmore)] at hsamples
    omega

/-- What a turn comes to in which the request takes no step: there is less to do than before. -/
structure Eases (f : Flight) (a : Agenda Task) (t' : Traffic) : Prop where
  flights : t'.flights = [f]
  work : t'.agenda.work < a.work
  samples : t'.agenda.samples ≤ a.samples

/-- The request takes a step in a turn, or there is less to do. -/
def Turned (f : Flight) (a : Agenda Task) (t' : Traffic) : Prop :=
  (∃ g, Sole g t' ∧ g.stepsLeft < f.stepsLeft) ∨ Eases f a t'

theorem Sole.turned_advance {a : Agenda Task} (h : Sole f t) (hwork : t.agenda.work < a.work)
    (hsamples : t.agenda.samples ≤ a.samples) : Turned f a (t.advance f) := by
  cases ha : f.advance t.host t.agenda.now with
  | none =>
      right
      rw [Traffic.advance, ha]
      exact ⟨h.flights, hwork, hsamples⟩
  | some after => exact Or.inl ⟨after.2, h.advance ha, Flight.stepsLeft_of_advance ha⟩

theorem Sole.turned_advanceIf {a : Agenda Task} (h : Sole f t) (ticket : Ticket)
    (q : Flight → Bool) (hwork : t.agenda.work < a.work)
    (hsamples : t.agenda.samples ≤ a.samples) : Turned f a (t.advanceIf ticket q) := by
  rw [advanceIf]
  cases hf : t.find? ticket q with
  | none => exact Or.inr ⟨h.flights, hwork, hsamples⟩
  | some g =>
      have hmem := mem_of_find? hf
      rw [h.flights, List.mem_singleton] at hmem
      rw [hmem]
      exact h.turned_advance hwork hsamples

theorem eases_wakeRequest {a : Agenda Task} (hflights : t.flights = [f])
    (hwork : t.agenda.work + 1 < a.work) (hsamples : t.agenda.samples ≤ a.samples)
    (ticket : Ticket) : Eases f a (t.wakeRequest ticket) where
  flights := (congrArg Fleet.flights (fleet_wakeRequest t ticket)).trans hflights
  work := Nat.lt_of_le_of_lt (work_wakeRequest_le t ticket) hwork
  samples := Nat.le_trans (Nat.le_of_eq (samples_wakeRequest t ticket)) hsamples

/-- A task makes way for another one that takes fewer turns. -/
theorem eases_of_perm {a rest : Agenda Task} {next : Task} (hflights : t'.flights = [f])
    (hafter : t'.agenda.tasks.Perm (next :: rest.tasks)) (hnext : next.isSample = false)
    (hwork : next.turns + rest.work < a.work) (hsamples : rest.samples ≤ a.samples) :
    Eases f a t' where
  flights := hflights
  work := by
    have hsum := Agenda.work_of_perm hafter
    rw [Task.work, hnext, if_neg Bool.false_ne_true] at hsum
    exact Nat.lt_of_le_of_lt (Nat.le_of_eq hsum) hwork
  samples := by
    have hsum := Agenda.samples_of_perm hafter
    rw [hnext, if_neg Bool.false_ne_true, Nat.add_zero] at hsum
    exact Nat.le_trans (Nat.le_of_eq hsum) hsamples

theorem eases_resume {a : Agenda Task} (hflights : t.flights = [f]) (ticket : Ticket)
    (pauses : List Pause) (hwork : a.work = pauses.length + 2 + t.agenda.work)
    (hsamples : t.agenda.samples ≤ a.samples) : Eases f a (t.resume ticket pauses) := by
  cases pauses with
  | nil =>
      rw [List.length_nil] at hwork
      exact eases_wakeRequest hflights (by omega) hsamples ticket
  | cons pause pauses =>
      have hrest : pauses.length + 2 + t.agenda.work < a.work := by
        rw [List.length_cons] at hwork
        omega
      cases pause with
      | turn => exact eases_of_perm hflights (Agenda.perm_defer t.agenda _) rfl hrest hsamples
      | «until» ms =>
          exact eases_of_perm hflights (Agenda.perm_setTimer t.agenda ms _) rfl hrest hsamples
      | forever =>
          exact ⟨hflights, Nat.lt_of_le_of_lt (Nat.le_add_left _ _) hrest, hsamples⟩

theorem eases_halt {a : Agenda Task} (hflights : t.flights = [f]) (ticket : Ticket)
    (pauses : List Pause) (hwork : a.work = pauses.length + 3 + t.agenda.work)
    (hsamples : t.agenda.samples ≤ a.samples) :
    Eases f a (t.take (.halt ticket pauses)) := by
  have hless := Agenda.work_drop_le t.agenda (Task.isRunOf ticket)
  have hrest : pauses.length + 2 + (t.agenda.drop (Task.isRunOf ticket)).work < a.work := by omega
  exact eases_of_perm hflights (Agenda.perm_append _ (Task.code ticket pauses)) rfl hrest
    (Nat.le_trans (Agenda.samples_drop_le _ _) hsamples)

/-- A task that waits for its time comes, or goes on to wait. -/
theorem Sole.turned_later {a : Agenda Task} (h : Sole f t) {ms : Nat}
    (hplain : (Task.later ms task).IsPlain) (hwork : a.work = task.turns + 1 + t.agenda.work)
    (hsamples : t.agenda.samples ≤ a.samples) : Turned f a (t.take (.later ms task)) := by
  have hsample : task.isSample = false := by
    cases task with
    | abort | remove => rfl
    | request | code | halt | sample | later => exact hplain.elim
  cases ms with
  | zero =>
      cases task with
      | abort => exact h.turned_advanceIf _ _ (by omega) hsamples
      | remove => exact Or.inr ⟨h.flights, Nat.lt_of_lt_of_eq (Nat.lt_add_of_pos_left
          (Nat.succ_pos _)) hwork.symm, hsamples⟩
      | request | code | halt | sample | later => exact hplain.elim
  | succ ms =>
      exact Or.inr (eases_of_perm h.flights (Agenda.perm_setTimer t.agenda _ _) hsample (by omega)
        hsamples)

/-- A task other than a sample has its turn. -/
theorem Sole.turned_take {a : Agenda Task} (h : Sole f t) (hplain : task.IsPlain)
    (hsample : task.isSample = false) (ha : a.tasks.Perm (task :: t.agenda.tasks)) :
    Turned f a (t.take task) := by
  have hwork := Agenda.work_of_perm ha
  have hsamples := Agenda.samples_of_perm ha
  rw [Task.work, hsample, if_neg Bool.false_ne_true] at hwork
  rw [hsample, if_neg Bool.false_ne_true, Nat.add_zero] at hsamples
  have hsame : t.agenda.samples ≤ a.samples := Nat.le_of_eq hsamples.symm
  have hless : 0 < task.turns → t.agenda.work < a.work := by omega
  cases task with
  | request | abort => exact h.turned_advanceIf _ _ (hless (Nat.succ_pos _)) hsame
  | remove => exact Or.inr ⟨h.flights, hless (Nat.succ_pos _), hsame⟩
  | sample => cases hsample
  | code ticket pauses => exact Or.inr (eases_resume h.flights ticket pauses hwork hsame)
  | halt ticket pauses => exact Or.inr (eases_halt h.flights ticket pauses hwork hsame)
  | later ms task => exact h.turned_later hplain hwork hsame

theorem Sole.rest (h : Sole f t) {a : Agenda Task} (ha : t.agenda.tasks.Perm (task :: a.tasks)) :
    Sole f { t with agenda := a } where
  flights := h.flights
  plain x hx := h.plain x (ha.mem_iff.2 (List.mem_cons_of_mem _ hx))
  samples := by
    have hsum := Agenda.samples_of_perm ha
    have hone := h.samples
    dsimp only
    omega
  early hmore := by
    have hsum := Agenda.samples_of_perm ha
    have hnone := h.early hmore
    dsimp only
    omega

theorem tasks_skipSamples (t : Traffic) : t.skipSamples.agenda.tasks.Perm t.agenda.tasks := by
  rw [skipSamples]
  split
  · split
    · exact Agenda.perm_skip _ _ _
    · exact .refl _
  · exact .refl _

/-- A sample is taken: the request takes a step, or the next sample is set. -/
theorem Sole.take_sample (h : Sole f t) (ticket : Ticket) :
    (∃ g, Sole g (t.take (.sample ticket)) ∧ g.stepsLeft < f.stepsLeft) ∨
      t.take (.sample ticket) = t.awaitSample ticket := by
  rw [take, look]
  split
  · rename_i g hfind
    split
    · exact Or.inr rfl
    · left
      have hmem := mem_of_find? hfind
      rw [h.flights, List.mem_singleton] at hmem
      subst hmem
      have hcan : t.canAdvance g = true := by
        rw [find?] at hfind
        have hboth := List.find?_some hfind
        exact (Bool.and_eq_true_iff.1 hboth).2
      obtain ⟨after, ha⟩ := Option.isSome_iff_exists.1 hcan
      exact ⟨after.2, h.advance ha, Flight.stepsLeft_of_advance ha⟩
  · exact Or.inr rfl

theorem pollMs?_pos {m : Monitor} {micros ms : Nat} (h : (m.withPoll micros).pollMs? = some ms) :
    0 < ms := by
  rw [Monitor.pollMs?] at h
  split at h
  · cases h
  · cases h
    have hleast : Monitor.minPollMicros ≤ max micros Monitor.minPollMicros := Nat.le_max_right _ _
    exact Nat.div_pos hleast (Nat.succ_pos _)

theorem rushes_pos {a a' : Agenda Task} (hcount : a.samples ≤ 1)
    (hn : a.next? = some (task, a')) (htask : task.isSample = true) :
    0 < Agenda.rushes Task.isSample a := by
  by_cases hidle : a.soon = []
  · rw [Agenda.rushes_of_idle hidle]
    split <;> omega
  · exact Nat.zero_lt_of_lt (Agenda.rushes_of_busy hcount hidle hn htask 0 task)

/-- A sample leaves the work as it is, and comes less often before it. -/
theorem Sole.rank_awaitSample (h : Sole f t) (hstuck : t.isStuck = false) {a : Agenda Task}
    (hn : t.skipSamples.agenda.next? = some (task, a)) (htask : task.isSample = true)
    (ticket : Ticket) : (({ t with agenda := a } : Traffic).awaitSample ticket).agenda.rank <
      t.agenda.rank := by
  have hperm := (tasks_skipSamples t).symm.trans (Agenda.perm_next? hn)
  have hwork := Agenda.work_of_perm hperm
  have hsamples := Agenda.samples_of_perm hperm
  have hone := h.samples
  rw [Task.work, htask, if_pos rfl, Nat.zero_add] at hwork
  rw [htask, if_pos rfl] at hsamples
  have hsampled : t.agenda.samples = 1 := by omega
  have hrest : a.samples = 0 := by omega
  rw [Agenda.rank.eq_def t.agenda, hsampled, if_neg Nat.one_ne_zero, hwork]
  rw [skipSamples] at hn
  simp only [awaitSample]
  cases hpoll : t.host.monitor.pollMs? with
  | none =>
      simp only [hpoll] at hn ⊢
      have hpos := rushes_pos hone hn htask
      rw [Agenda.rank, hrest, if_pos rfl]
      omega
  | some ms =>
      simp only [hpoll] at hn ⊢
      have hother : t.agenda.soon = [] →
          ∃ other ∈ t.agenda.timers, Task.isSample other.task = false := by
        intro hidle
        rw [isStuck, Agenda.isIdle_iff.2 hidle, Bool.true_and, List.isEmpty_eq_false_iff] at hstuck
        obtain ⟨other, hother⟩ := List.exists_mem_of_ne_nil _ hstuck
        exact ⟨other, Agenda.mem_others.1 hother⟩
      have hturn : (if t.agenda.isIdle then t.agenda.skip Task.isSample ms else t.agenda).next? =
          some (task, a) := by
        rw [← hn]
        split
        · rfl
        · rfl
      have hagain : Task.isSample (.sample ticket) = true := rfl
      have hless := Agenda.rushes_of_turn (pollMs?_pos hpoll) hone hother hturn htask hagain
      have hset := Agenda.perm_setTimer a (a.now + ms) (.sample ticket)
      have hwork' := Agenda.work_of_perm hset
      have hsamples' := Agenda.samples_of_perm hset
      rw [Task.work, Task.isSample, if_pos rfl, Nat.zero_add] at hwork'
      rw [Task.isSample, if_pos rfl, hrest] at hsamples'
      change (a.setTimer (a.now + ms) (.sample ticket)).rank < _
      rw [Agenda.rank, hsamples', if_neg Nat.one_ne_zero, hwork']
      omega

theorem Eases.rank (he : Eases f t.agenda t') : t'.agenda.rank < t.agenda.rank := by
  have hwork := he.work
  have hsamples := he.samples
  have hrushes := Agenda.rushes_le Task.isSample t'.agenda
  rw [Agenda.rank, Agenda.rank]
  split
  · split
    · exact hwork
    · omega
  · rw [if_neg (by omega)]
    omega

theorem Sole.awaitSample (h : Sole f t) {a : Agenda Task} {ticket other : Ticket}
    (hperm : t.agenda.tasks.Perm (.sample ticket :: a.tasks))
    (hall : (({ t with agenda := a } : Traffic).awaitSample other).agenda.All Task.IsPlain) :
    Sole f (({ t with agenda := a } : Traffic).awaitSample other) := by
  have hsamples := Agenda.samples_of_perm hperm
  have hone := h.samples
  have hmore := samples_awaitSample_le { t with agenda := a } other
  rw [Task.isSample, if_pos rfl] at hsamples
  dsimp only at hmore
  refine ⟨?_, hall, by omega, fun hless => ?_⟩
  · exact (congrArg Fleet.flights (fleet_awaitSample _ other)).trans h.flights
  · have hnone := h.early hless
    omega

/-- In a turn the request takes a step, or there is less to do before it takes one. -/
theorem Sole.step (h : Sole f t) (hstep : t.step = some t') :
    (∃ g, Sole g t' ∧ g.stepsLeft < f.stepsLeft) ∨
      Sole f t' ∧ t'.agenda.rank < t.agenda.rank := by
  rw [Traffic.step] at hstep
  split at hstep
  · cases hstep
  · rename_i hgoing
    rw [Bool.or_eq_true, not_or, Bool.not_eq_true, Bool.not_eq_true] at hgoing
    obtain ⟨⟨task, agenda⟩, hnext, rfl⟩ := Option.map_eq_some_iff.1 hstep
    have hperm := (tasks_skipSamples t).symm.trans (Agenda.perm_next? hnext)
    have hrest : Sole f { t with agenda := agenda } := h.rest hperm
    have hplain : task.IsPlain := h.plain task (hperm.mem_iff.2 List.mem_cons_self)
    have hall :=
      all_take Task.ordinary_isPlain (fun _ _ => Task.isPlain_of_later) hrest.plain hplain
    dsimp only
    cases hsample : task.isSample with
    | true =>
        cases task with
        | sample ticket =>
            rcases hrest.take_sample ticket with hadvanced | hawait
            · exact Or.inl hadvanced
            · right
              have hrank := h.rank_awaitSample hgoing.2 hnext rfl ticket
              rw [hawait] at hall ⊢
              exact ⟨h.awaitSample hperm hall, hrank⟩
        | request | code | halt | abort | remove | later => cases hsample
    | false =>
        rcases hrest.turned_take hplain hsample hperm with hadvanced | heases
        · exact Or.inl hadvanced
        · right
          have hsamples := heases.samples
          have hone := h.samples
          have hearly := h.early
          exact ⟨⟨heases.flights, hall, by omega, fun hmore => by have := hearly hmore; omega⟩,
            heases.rank⟩

/-! ## The turns that are given -/

/-- Nothing happens when the request is done. -/
theorem Sole.step_of_done (h : Sole f t) (hdone : f.stepsLeft = 0) : t.step = none := by
  have hover : t.isOver = true := by
    rw [Flight.stepsLeft] at hdone
    rw [isOver, h.flights, List.all_cons, List.all_nil, Bool.and_true, Flight.reply?]
    cases hp : f.phase with
    | done => rfl
    | opening | atGate | resolving | compiling | queued | running =>
        rw [hp] at hdone
        cases hdone
  rw [Traffic.step, hover, Bool.true_or, if_pos rfl]

theorem Sole.run (h : Sole f t) (limit : Nat) :
    ∃ g, Sole g (t.run limit) ∧ g.stepsLeft ≤ f.stepsLeft := by
  induction limit generalizing t f with
  | zero => exact ⟨f, h, Nat.le_refl _⟩
  | succ limit ih =>
      rw [Traffic.run]
      split
      · rename_i t' hstep
        rcases h.step hstep with ⟨g, hg, hless⟩ | ⟨hsame, -⟩
        · obtain ⟨x, hx, hle⟩ := ih hg
          exact ⟨x, hx, Nat.le_trans hle (Nat.le_of_lt hless)⟩
        · exact ih hsame
      · exact ⟨f, h, Nat.le_refl _⟩

/-- In enough turns the request takes a step, or nothing is left to happen. -/
theorem Sole.run_rank (h : Sole f t) {limit : Nat} (hlimit : t.agenda.rank < limit) :
    (t.run limit).step = none ∨ ∃ g, Sole g (t.run limit) ∧ g.stepsLeft < f.stepsLeft := by
  induction limit generalizing t with
  | zero => exact absurd hlimit (Nat.not_lt_zero _)
  | succ limit ih =>
      rw [Traffic.run]
      cases hstep : t.step with
      | none => exact Or.inl hstep
      | some t' =>
          rcases h.step hstep with ⟨g, hg, hless⟩ | ⟨hsame, hrank⟩
          · obtain ⟨x, hx, hle⟩ := hg.run limit
            exact Or.inr ⟨x, hx, Nat.lt_of_le_of_lt hle hless⟩
          · exact ih hsame (Nat.lt_of_lt_of_le hrank (Nat.le_of_lt_succ hlimit))

theorem run_of_step_eq_none (h : t.step = none) (limit : Nat) : t.run limit = t := by
  cases limit with
  | zero => rfl
  | succ limit => rw [Traffic.run, h]

theorem settle_of_step_eq_none (h : t.step = none) (limit : Nat) : t.settle limit = t := by
  induction limit with
  | zero => rfl
  | succ limit ih => rw [settle, run_of_step_eq_none h, ih]

theorem Sole.step_settle (h : Sole f t) {limit : Nat} (hlimit : f.stepsLeft ≤ limit) :
    (t.settle limit).step = none := by
  induction limit generalizing t f with
  | zero => exact h.step_of_done (Nat.le_zero.1 hlimit)
  | succ limit ih =>
      rw [settle]
      rcases h.run_rank (rank_lt_turnsLeft h.samples) with hended | ⟨g, hg, hless⟩
      · rwa [settle_of_step_eq_none hended]
      · exact ih hg (by omega)

/-- A request by itself is served until it is done, or nothing is left to happen. -/
theorem Sole.step_finish (h : Sole f t) : t.finish.step = none := by
  apply h.step_settle
  rw [stepsLeft, h.flights, List.foldr_cons, List.foldr_nil]
  exact Nat.le_succ _

/-! ## The end of a serving -/

theorem run_add (m n : Nat) (t : Traffic) : t.run (m + n) = (t.run m).run n := by
  induction m generalizing t with
  | zero => rw [Nat.zero_add, Traffic.run]
  | succ m ih =>
      rw [Nat.succ_add, Traffic.run, Traffic.run]
      cases hstep : t.step with
      | none => exact (run_of_step_eq_none hstep n).symm
      | some t' => exact ih t'

/-- There is one end only, however many turns it takes to come there. -/
theorem run_eq_of_ended {m n : Nat} (hm : (t.run m).step = none) (hn : (t.run n).step = none) :
    t.run m = t.run n := by
  rcases Nat.le_total m n with hle | hle
  · obtain ⟨k, rfl⟩ := Nat.exists_eq_add_of_le hle
    rw [run_add, run_of_step_eq_none hm]
  · obtain ⟨k, rfl⟩ := Nat.exists_eq_add_of_le hle
    rw [run_add, run_of_step_eq_none hn]

theorem exists_settle_eq_run (t : Traffic) (limit : Nat) : ∃ n, t.settle limit = t.run n := by
  induction limit generalizing t with
  | zero => exact ⟨0, rfl⟩
  | succ limit ih =>
      obtain ⟨n, hn⟩ := ih (t.run t.turnsLeft)
      exact ⟨t.turnsLeft + n, by rw [settle, hn, run_add]⟩

/-- What a serving comes to does not change with the turns that are taken on the way. -/
theorem Sole.finish_of_step (h : Sole f t) (hstep : t.step = some t') : t.finish = t'.finish := by
  obtain ⟨m, hm⟩ := exists_settle_eq_run t t.stepsLeft
  obtain ⟨n, hn⟩ := exists_settle_eq_run t' t'.stepsLeft
  have hended : (t.run m).step = none := by
    rw [← hm]
    exact h.step_finish
  have hrun : t.run (n + 1) = t'.run n := by rw [Traffic.run, hstep]
  have hended' : (t.run (n + 1)).step = none := by
    rw [hrun, ← hn]
    rcases h.step hstep with ⟨g, hg, -⟩ | ⟨hsame, -⟩
    · exact hg.step_finish
    · exact hsame.step_finish
  rw [finish, finish, hm, hn, run_eq_of_ended hended hended', hrun]

theorem Sole.finish_of_done (h : Sole f t) (hdone : f.stepsLeft = 0) : t.finish = t :=
  settle_of_step_eq_none (h.step_of_done hdone) _

end Traffic

theorem Task.isPlain_of_mem_tasks {o : Order} {ticket : Ticket} {task : Task}
    (h : task ∈ o.tasks ticket) : task.IsPlain ∧ task.isSample = false := by
  rw [Order.tasks, List.mem_append, List.mem_append, List.mem_singleton, Option.mem_toList,
    Option.mem_toList, Option.bind_eq_some_iff, Option.map_eq_some_iff] at h
  rcases h with (⟨abort, -, habort⟩ | ⟨r, -, rfl⟩) | rfl
  · cases abort with
    | before => cases habort
    | after ms =>
        cases habort
        exact ⟨trivial, rfl⟩
  · exact ⟨trivial, rfl⟩
  · exact ⟨trivial, rfl⟩

/-- An order that is served by itself, before anything has happened. -/
theorem Host.sole_opening (h : Host) (o : Order) :
    Traffic.Sole (o.flight 0) ⟨h, [o.flight 0], h.openingAgenda [o]⟩ := by
  have hall : ∀ task ∈ (h.openingAgenda [o]).tasks, task.IsPlain ∧ task.isSample = false := by
    intro task htask
    rcases Agenda.mem_tasks_iff.1 htask with hready | hdeferred | ⟨timer, htimer, rfl⟩
    · rw [openingAgenda, List.zipIdx_singleton, List.flatMap_singleton] at hready
      exact Task.isPlain_of_mem_tasks hready
    · cases hdeferred
    · obtain ⟨r, -, rfl⟩ := List.mem_map.1 htimer
      exact ⟨trivial, rfl⟩
  have hnone : (h.openingAgenda [o]).samples = 0 :=
    List.countP_eq_zero.2 fun task htask => by rw [(hall task htask).2]; exact Bool.false_ne_true
  exact ⟨rfl, fun task htask => (hall task htask).1, by rw [hnone]; exact Nat.zero_le 1,
    fun _ => hnone⟩

end ScriptHost
