import ScriptHost.Proofs.Supervision.Curtailing
import ScriptHost.Supervision.Life

/-!
# Tasks of released units

A unit is released, and its task may still be going on. Then the task has been told to stop, or the
release counts as degraded, with one exception: the run was dropped while it watched the task.
Nobody holds such a task any more, and nobody tells it to stop but the caller.
-/

namespace ScriptHost

namespace UnitLife

variable {l next life : UnitLife} {left : Bool} {e : LifeEvent} {events : List LifeEvent}

/-- The task has ended, has been told to stop, or is counted. -/
def IsAccounted (l : UnitLife) : Prop :=
  l.isGoing = false ∨ l.isAborted = true ∨ l.isStopped = true ∨ l.isDegraded = true

/-- The run is dropped while it watches the task. -/
def leavesWatch (l : UnitLife) (e : LifeEvent) : Bool := l.stage == .watching && e.dropsRun

/-- By one of the events, the run is dropped while it watches the task. -/
def isLeft (l : UnitLife) : List LifeEvent → Bool
  | [] => false
  | e :: events => l.leavesWatch e || (l.step e).any (·.isLeft events)

/-- How a unit stands, and whether its task has been left. -/
inductive Standing (l : UnitLife) : Bool → Prop
  | unstarted (hstage : l.stage = .unstarted) (hgoing : l.isGoing = false)
      (hholder : l.holder = .nobody) (haborted : l.isAborted = false)
      (hdegraded : l.isDegraded = false) (hstopped : l.isStopped = l.callerAborted) :
      Standing l false
  | watching (hstage : l.stage = .watching) (hreleased : l.isReleased = false)
      (haborted : l.isAborted = false) (hdegraded : l.isDegraded = false)
      (hstopped : l.isStopped = l.callerAborted) : Standing l false
  | windingDown (hstage : l.stage = .windingDown) (hreleased : l.isReleased = false)
      (haborted : l.isAborted = true) : Standing l false
  | ended (hstage : l.stage = .ended) (htold : l.isGoing = false ∨ l.isAborted = true) :
      Standing l false
  | left (hstage : l.stage = .ended) (hholder : l.holder = .nobody) (haborted : l.isAborted = false)
      (hdegraded : l.isDegraded = false) (hstopped : l.isStopped = l.callerAborted) :
      Standing l true

theorem standing_fresh : Standing fresh false := .unstarted rfl rfl rfl rfl rfl rfl

theorem Standing.taskEnded (h : Standing l left) : Standing { l with isGoing := false } left := by
  cases h with
  | unstarted hstage _ hholder haborted hdegraded hstopped =>
      exact .unstarted hstage rfl hholder haborted hdegraded hstopped
  | watching hstage hreleased haborted hdegraded hstopped =>
      exact .watching hstage hreleased haborted hdegraded hstopped
  | windingDown hstage hreleased haborted => exact .windingDown hstage hreleased haborted
  | ended hstage => exact .ended hstage (.inl rfl)
  | left hstage hholder haborted hdegraded hstopped =>
      exact .left hstage hholder haborted hdegraded hstopped

/-- The token of the task is cancelled with that of the caller. -/
theorem Standing.callerAborts (h : Standing l left) :
    Standing { l with callerAborted := true, isStopped := true } left := by
  cases h with
  | unstarted hstage hgoing hholder haborted hdegraded =>
      exact .unstarted hstage hgoing hholder haborted hdegraded rfl
  | watching hstage hreleased haborted hdegraded =>
      exact .watching hstage hreleased haborted hdegraded rfl
  | windingDown hstage hreleased haborted => exact .windingDown hstage hreleased haborted
  | ended hstage htold => exact .ended hstage htold
  | left hstage hholder haborted hdegraded => exact .left hstage hholder haborted hdegraded rfl

/-- A run that is dropped while it watches leaves its task. -/
theorem Standing.dropRun (h : Standing l left) :
    Standing l.dropRun (left || l.stage == .watching) := by
  rw [UnitLife.dropRun]
  cases h with
  | unstarted hstage hgoing hholder haborted hdegraded hstopped =>
      rw [hstage]
      exact .unstarted hstage hgoing hholder haborted hdegraded hstopped
  | watching hstage _ haborted hdegraded hstopped =>
      rw [hstage]
      exact .left rfl rfl haborted hdegraded hstopped
  | windingDown hstage _ haborted =>
      rw [hstage]
      exact .ended rfl (.inr haborted)
  | ended hstage htold =>
      rw [hstage]
      exact .ended hstage htold
  | left hstage hholder haborted hdegraded hstopped =>
      rw [hstage]
      exact .left hstage hholder haborted hdegraded hstopped

/-- A unit that holds no task releases none. -/
theorem lingers_of_nobody (h : l.holder = .nobody) : (l.holder == .unit && l.isGoing) = false := by
  rw [h]
  rfl

theorem Standing.release (h : Standing l left) (hmay : l.mayRelease = true) :
    Standing l.release left := by
  have hwaits : l.stage.isWaiting = false := by simp_all [mayRelease]
  cases h with
  | unstarted hstage hgoing hholder haborted _ hstopped =>
      refine .unstarted hstage hgoing rfl ?_ (lingers_of_nobody hholder) hstopped
      rw [UnitLife.release, lingers_of_nobody hholder, haborted]
      rfl
  | watching hstage => exact nomatch (hstage ▸ hwaits : RunStage.watching.isWaiting = false)
  | windingDown hstage => exact nomatch (hstage ▸ hwaits : RunStage.windingDown.isWaiting = false)
  | ended hstage htold =>
      refine .ended hstage (htold.imp_right fun haborted => ?_)
      rw [UnitLife.release, haborted]
      rfl
  | left hstage hholder haborted _ hstopped =>
      refine .left hstage rfl ?_ (lingers_of_nobody hholder) hstopped
      rw [UnitLife.release, lingers_of_nobody hholder, haborted]
      rfl

theorem Standing.of_unstarted (h : Standing l left) (hstage : l.stage = .unstarted) :
    left = false ∧ l.isAborted = false ∧ l.isDegraded = false ∧ l.isStopped = l.callerAborted := by
  cases h with
  | unstarted _ _ _ haborted hdegraded hstopped => exact ⟨rfl, haborted, hdegraded, hstopped⟩
  | watching hother | windingDown hother | ended hother | left hother =>
      exact nomatch hstage.symm.trans hother

theorem Standing.of_watching (h : Standing l left) (hstage : l.stage = .watching) :
    left = false ∧ l.isReleased = false := by
  cases h with
  | watching _ hreleased => exact ⟨rfl, hreleased⟩
  | unstarted hother | windingDown hother | ended hother | left hother =>
      exact nomatch hstage.symm.trans hother

theorem Standing.of_windingDown (h : Standing l left) (hstage : l.stage = .windingDown) :
    left = false ∧ l.isAborted = true := by
  cases h with
  | windingDown _ _ haborted => exact ⟨rfl, haborted⟩
  | unstarted hother | watching hother | ended hother | left hother =>
      exact nomatch hstage.symm.trans hother

theorem leavesWatch_of_kept (h : e.dropsRun = false) : l.leavesWatch e = false := by
  rw [leavesWatch, h, Bool.and_false]

theorem leavesWatch_of_dropped (h : e.dropsRun = true) :
    l.leavesWatch e = (l.stage == .watching) := by
  rw [leavesWatch, h, Bool.and_true]

/-- Only a run that watches its task can leave it. -/
theorem Standing.step (h : Standing l left) (hstep : l.step e = some next) :
    Standing next (left || l.leavesWatch e) := by
  cases e with
  | runDropped =>
      obtain ⟨-, ⟨⟩⟩ := Option.ite_none_right_eq_some.1 hstep
      rw [leavesWatch_of_dropped rfl]
      exact h.dropRun
  | requestDropped =>
      obtain ⟨hmay, ⟨⟩⟩ := Option.ite_none_right_eq_some.1 hstep
      rw [leavesWatch_of_dropped rfl]
      exact h.dropRun.release hmay
  | released =>
      obtain ⟨hmay, ⟨⟩⟩ := Option.ite_none_right_eq_some.1 hstep
      rw [leavesWatch_of_kept rfl, Bool.or_false]
      exact h.release hmay
  | taskEnded =>
      obtain ⟨-, ⟨⟩⟩ := Option.ite_none_right_eq_some.1 hstep
      rw [leavesWatch_of_kept rfl, Bool.or_false]
      exact h.taskEnded
  | callerAborts =>
      cases hstep
      rw [leavesWatch_of_kept rfl, Bool.or_false]
      exact h.callerAborts
  | started =>
      obtain ⟨hguard, ⟨⟩⟩ := Option.ite_none_right_eq_some.1 hstep
      simp only [Bool.and_eq_true, beq_iff_eq, Bool.not_eq_true'] at hguard
      obtain ⟨rfl, haborted, hdegraded, hstopped⟩ := h.of_unstarted hguard.1
      rw [leavesWatch_of_kept rfl, Bool.or_false]
      exact .watching rfl hguard.2 haborted hdegraded hstopped
  | joined =>
      obtain ⟨hguard, ⟨⟩⟩ := Option.ite_none_right_eq_some.1 hstep
      simp only [Bool.and_eq_true, beq_iff_eq, Bool.not_eq_true'] at hguard
      obtain ⟨rfl, -⟩ := h.of_watching hguard.1
      rw [leavesWatch_of_kept rfl, Bool.or_false]
      exact .ended rfl (.inl hguard.2)
  | givenUp cause =>
      obtain ⟨hguard, ⟨⟩⟩ := Option.ite_none_right_eq_some.1 hstep
      simp only [Bool.and_eq_true, beq_iff_eq] at hguard
      obtain ⟨rfl, hreleased⟩ := h.of_watching hguard.1.1
      rw [leavesWatch_of_kept rfl, Bool.or_false]
      exact .windingDown rfl hreleased rfl
  | woundDown | graceOver =>
      obtain ⟨hguard, ⟨⟩⟩ := Option.ite_none_right_eq_some.1 hstep
      simp only [Bool.and_eq_true, beq_iff_eq] at hguard
      obtain ⟨rfl, haborted⟩ := h.of_windingDown hguard.1
      rw [leavesWatch_of_kept rfl, Bool.or_false]
      exact .ended rfl (.inr haborted)

theorem Standing.run (h : Standing l left) (hrun : l.run events = some life) :
    Standing life (left || l.isLeft events) := by
  induction events generalizing l left with
  | nil =>
      cases hrun
      rw [isLeft, Bool.or_false]
      exact h
  | cons e events ih =>
      obtain ⟨next, hstep, hrest⟩ := Option.bind_eq_some_iff.1 hrun
      have hlife := ih (h.step hstep) hrest
      rw [isLeft, hstep, Option.any_some, ← Bool.or_assoc]
      exact hlife

/-- A task that is left is not told to stop but by the caller, and is not counted. -/
theorem Standing.isAccounted_iff (h : Standing life left) (hreleased : life.isReleased = true) :
    life.IsAccounted ↔ (left = true → life.isGoing = false ∨ life.callerAborted = true) := by
  rw [IsAccounted]
  cases h with
  | unstarted _ hgoing => exact iff_of_true (.inl hgoing) nofun
  | watching _ hlive | windingDown _ hlive => exact nomatch hlive.symm.trans hreleased
  | ended _ htold => exact iff_of_true (htold.imp_right .inl) nofun
  | left _ _ haborted hdegraded hstopped => simp [haborted, hdegraded, hstopped]

/-! ## Supervised runs -/

/-- What a reason to stop a run is in the life of the unit. -/
def stopEvents (s : Stop) : List LifeEvent :=
  match s.outcome with
  | .cancelled => [.callerAborts, .givenUp .caller]
  | .timedOut _ => [.givenUp .timeLimit]
  | .memoryExceeded _ _ => [.givenUp .memory]
  | .completed _ | .faulted _ => []

/-- A unit whose run has told its task to stop. -/
def stopping (s : Stop) : UnitLife where
  stage := .windingDown
  holder := .run
  isGoing := true
  isAborted := true
  isStopped := true
  callerAborted := s.outcome == .cancelled
  isReleased := false
  isDegraded := false

theorem run_append (l : UnitLife) (first second : List LifeEvent) :
    l.run (first ++ second) = (l.run first).bind (·.run second) := by
  induction first generalizing l with
  | nil => rfl
  | cons e first ih =>
      rw [List.cons_append, UnitLife.run, UnitLife.run, Option.bind_assoc]
      exact congrArg _ (funext ih)

theorem run_stopEvents {s : Stop} (h : s.outcome.isStop = true) :
    fresh.run (.started :: stopEvents s) = some (stopping s) := by
  obtain ⟨ms, outcome⟩ := s
  cases outcome with
  | completed | faulted => cases h
  | timedOut | cancelled | memoryExceeded => rfl

/-- A run that is not dropped leaves no task. -/
theorem isLeft_of_kept (l : UnitLife) (h : ∀ e ∈ events, e.dropsRun = false) :
    l.isLeft events = false := by
  induction events generalizing l with
  | nil => rfl
  | cons e events ih =>
      obtain ⟨he, hrest⟩ := List.forall_mem_cons.1 h
      rw [isLeft, leavesWatch_of_kept he, Bool.false_or, Option.any_eq_false]
      exact fun next _ => by rw [ih next hrest]

theorem keeps_stopEvents (s : Stop) : ∀ e ∈ stopEvents s, e.dropsRun = false := by
  rw [stopEvents]
  split
  · decide
  · decide
  · decide
  · exact nofun
  · exact nofun

/-- The life of a unit is that of a run, and of a release at a millisecond. -/
structure IsOf (life : UnitLife) (ran : Ran) (ms : Nat) : Prop where
  released : life.isReleased = true
  callerAborted : life.callerAborted = (ran.outcome == .cancelled)
  going : life.isGoing = ran.lingersUntil.any (ms < ·)
  degraded : life.isDegraded = ran.lingersUntil.any (ms < ·)

/-- There is a life of a unit whose run is not dropped, and it is that of the run. -/
def IsLived (ran : Ran) (ms : Nat) : Prop :=
  ∃ events life, fresh.run events = some life ∧ fresh.isLeft events = false ∧ life.IsOf ran ms

theorem isLived_ofPlayed (p : Played) (ms : Nat) : IsLived (.ofPlayed p) ms := by
  refine ⟨[.started, .taskEnded, .joined, .released], _, rfl, rfl, rfl, ?_, rfl, rfl⟩
  rw [Ran.ofPlayed]
  cases p.ending with
  | completed | faulted | waiting | broken => rfl

/-- A run that is given up goes on until its task has ended or the grace is over. -/
theorem isLived_of_stop {s : Stop} {ran : Ran} {ms : Nat} (hs : s.outcome.isStop = true)
    (events : List LifeEvent) (hkept : ∀ e ∈ events, e.dropsRun = false)
    (hrun : (stopping s).run events = some life) (hlife : life.IsOf ran ms) : IsLived ran ms := by
  refine ⟨.started :: stopEvents s ++ events, life, ?_, isLeft_of_kept _ fun e he => ?_, hlife⟩
  · rw [run_append, run_stopEvents hs]
    exact hrun
  · rcases List.mem_append.1 he with he | he
    · rcases List.mem_cons.1 he with rfl | he
      · rfl
      · exact keeps_stopEvents s e he
    · exact hkept e he

theorem isLived_unstarted {s : Stop} (hs : s.outcome.isStop = true) (start ms : Nat) :
    IsLived (.unstarted s.outcome start) ms :=
  isLived_of_stop hs [.taskEnded, .woundDown, .released] (by decide) rfl ⟨rfl, rfl, rfl, rfl⟩

theorem isLived_ofStopped {s : Stop} (hs : s.outcome.isStop = true) (pauses : List Pause)
    (p : Played) (ms : Nat) : IsLived (.ofStopped s pauses p) ms := by
  cases hlingers : (Ran.ofStopped s pauses p).lingersUntil with
  | none =>
      refine isLived_of_stop hs [.taskEnded, .woundDown, .released] (by decide) rfl
        ⟨rfl, rfl, ?_, ?_⟩
      · rw [hlingers]
        rfl
      · rw [hlingers]
        rfl
  | some finish =>
      by_cases hms : ms < finish
      · have hgoing : (Ran.ofStopped s pauses p).lingersUntil.any (ms < ·) = true := by
          simp [hlingers, hms]
        exact isLived_of_stop hs [.graceOver, .released] (by decide) rfl
          ⟨rfl, rfl, hgoing.symm, hgoing.symm⟩
      · have hended : (Ran.ofStopped s pauses p).lingersUntil.any (ms < ·) = false := by
          simp [hlingers, hms]
        exact isLived_of_stop hs [.graceOver, .taskEnded, .released] (by decide) rfl
          ⟨rfl, rfl, hended.symm, hended.symm⟩

theorem isLived_run (a : Activity) (limits : Limits) (start ms : Nat) :
    IsLived (a.run limits start) ms := by
  rw [Activity.run]
  split
  · exact isLived_ofPlayed _ ms
  · rename_i s hfirst
    have hs := isStop_of_mem_stops (mem_stops_of_firstStop hfirst)
    split
    · exact isLived_unstarted hs start ms
    · split
      · exact isLived_ofPlayed _ ms
      · exact isLived_ofStopped hs _ _ ms

end UnitLife

open UnitLife in
/-- In every life of a unit that has been released, its task has ended, has been told to stop or is
counted, unless the run was dropped while it watched the task: then the task has ended by itself or
been told by the caller, or it is not accounted for. A supervised run that is over, and the release
of its unit from a domain, are such a life in which the run is not dropped. -/
theorem UnitLife.released_accounted_iff {events : List LifeEvent} {life : UnitLife}
    (hrun : fresh.run events = some life) (hreleased : life.isReleased = true)
    (d : Domain) (u : LoadedUnit) (limits : Limits) (start ms : Nat) :
    (life.IsAccounted ↔
        (fresh.isLeft events = true → life.isGoing = false ∨ life.callerAborted = true)) ∧
      ∀ r, u.run limits start = .ok r → r.finish.any (· ≤ ms) = true →
        ∃ events life, fresh.run events = some life ∧ fresh.isLeft events = false ∧
          life.isReleased = true ∧ life.callerAborted = (r.outcome == .cancelled) ∧
          life.isGoing = r.loaded.isLingering ms ∧
          (d.release r.loaded ms).1.degraded = d.degraded + life.isDegraded.toNat := by
  constructor
  · have hstanding := standing_fresh.run hrun
    rw [Bool.false_or] at hstanding
    exact hstanding.isAccounted_iff hreleased
  · intro r hr _
    rw [LoadedUnit.run] at hr
    split at hr
    · cases hr
    · rename_i code _
      cases hr
      obtain ⟨events, life, hlife, hleft, hof⟩ := isLived_run code limits start ms
      refine ⟨events, life, hlife, hleft, hof.released, hof.callerAborted, hof.going, ?_⟩
      rw [hof.degraded, Domain.release]
      show (if LoadedUnit.isLingering _ ms = true then _ else _) = _
      rw [LoadedUnit.isLingering]
      cases (code.run limits start).lingersUntil.any (ms < ·) with
      | false => rfl
      | true => rfl

/-- A unit whose code keeps its thread for longer than the grace. -/
def blockingUnit : LoadedUnit := ⟨1, some ⟨[.block 700], .waiting⟩, .empty 10, none⟩

/-- A run is given up when its time is up, and dropped in the grace; and a run that is not dropped
is released with its task still going on. -/
theorem UnitLife.released_accounted_iff_blocking :
    ∃ life, fresh.run [.started, .givenUp .timeLimit, .runDropped, .released] = some life ∧
      life.isReleased = true ∧ life.isGoing = true ∧ life.isDegraded = false ∧
      life.IsAccounted ∧
      ∃ r, blockingUnit.run ⟨none, some 60, none⟩ 0 = .ok r ∧ r.finish.any (· ≤ 110) = true ∧
        ∃ events life, fresh.run events = some life ∧ life.isGoing = true ∧
          ((Domain.new 1).release r.loaded 110).1.degraded = life.isDegraded.toNat := by
  obtain ⟨haccounted, hruns⟩ := released_accounted_iff
    (rfl : fresh.run [.started, .givenUp .timeLimit, .runDropped, .released] = some _) rfl
    (Domain.new 1) blockingUnit ⟨none, some 60, none⟩ 0 110
  refine ⟨_, rfl, rfl, rfl, rfl, haccounted.2 nofun, _, rfl, by decide, ?_⟩
  obtain ⟨events, life, hlife, -, -, -, hgoing, hdegraded⟩ := hruns _ rfl (by decide)
  refine ⟨events, life, hlife, hgoing, ?_⟩
  rw [hdegraded]
  exact Nat.zero_add _

/-- A run that is dropped while it watches its task leaves it going on, and nothing tells of it. -/
theorem UnitLife.not_released_accounted :
    ¬ ∀ events life, fresh.run events = some life → life.isReleased = true → life.IsAccounted := by
  intro h
  have hlife := h [.started, .runDropped, .released] _ rfl rfl
  rw [IsAccounted] at hlife
  revert hlife
  decide

end ScriptHost
