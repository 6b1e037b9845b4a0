/-!
# Agendas

Tasks that take turns on one thread. Those that are ready go in the order in which they became
so. Those that gave up their turn come back when no other is ready, or after a long streak of
turns; the last to give it up comes first. When all wait, time moves on to the next timer; timers
for the same millisecond go off in the order in which they were set.
-/

namespace ScriptHost

/-- A task to become ready at a millisecond. -/
structure Timer (α : Type) where
  ms : Nat
  task : α
deriving DecidableEq, Repr

/-- The timer, going off some milliseconds later. -/
def Timer.later {α : Type} (timer : Timer α) (ms : Nat) : Timer α :=
  { timer with ms := timer.ms + ms }

structure Agenda (α : Type) where
  now : Nat
  ready : List α
  /-- The tasks that gave up their turn, the last first. -/
  deferred : List α
  /-- In the order in which they were set. -/
  timers : List (Timer α)
  /-- The turns since the last one that found no task ready. -/
  streak : Nat
deriving Repr

namespace Agenda

variable {α : Type}

/-- Everything on the agenda. -/
def tasks (a : Agenda α) : List α := a.ready ++ a.deferred ++ a.timers.map (·.task)

/-- The task whose turn it was goes on in the same turn. -/
def again (a : Agenda α) (task : α) : Agenda α :=
  { a with ready := task :: a.ready, streak := a.streak - 1 }

/-- A task becomes ready, behind the others. -/
def append (a : Agenda α) (task : α) : Agenda α := { a with ready := a.ready ++ [task] }

/-- A task gives up its turn. -/
def defer (a : Agenda α) (task : α) : Agenda α := { a with deferred := task :: a.deferred }

/-- Set a timer. -/
def setTimer (a : Agenda α) (ms : Nat) (task : α) : Agenda α :=
  { a with timers := a.timers ++ [⟨ms, task⟩] }

/-- Take tasks off. -/
def drop (a : Agenda α) (p : α → Bool) : Agenda α :=
  { a with
    ready := a.ready.filter (!p ·)
    deferred := a.deferred.filter (!p ·)
    timers := a.timers.filter (!p ·.task) }

/-- The millisecond of the next timer. -/
def nextMs? (a : Agenda α) : Option Nat := (a.timers.map (·.ms)).min?

/-- The tasks whose timers go off by a millisecond. -/
def dueBy (a : Agenda α) (ms : Nat) : List α := (a.timers.filter (·.ms ≤ ms)).map (·.task)

/-- The agenda at a later millisecond, with the tasks that are due by then ready. -/
def moveTo (a : Agenda α) (ms : Nat) : Agenda α :=
  { a with
    now := max a.now ms
    ready := a.ready ++ a.dueBy ms
    timers := a.timers.filter (ms < ·.ms)
    streak := 0 }

/-- Nobody has a turn before the next timer goes off. -/
def isIdle (a : Agenda α) : Bool := a.ready.isEmpty && a.deferred.isEmpty

/-- The timers of regular tasks, or of the others. -/
def timersOf (a : Agenda α) (regular : α → Bool) : List (Timer α) :=
  a.timers.filter (regular ·.task)

/-- An idle agenda later, as far as nothing happens but that regular tasks have their turns: each
of them then sets its timer again, one period on and behind the others. -/
def skip (a : Agenda α) (regular : α → Bool) (period : Nat) : Agenda α :=
  let regulars := a.timersOf regular
  let others := a.timersOf (!regular ·)
  match (regulars.map (·.ms)).min?, (others.map (·.ms)).min? with
  | some first, some next =>
    let periods := (next - first - 1) / period
    if periods = 0 then a
    else { a with timers := others ++ regulars.map (·.later (periods * period)) }
  | _, _ => a

/-- The tasks that gave up their turn come back. -/
def bringBack (a : Agenda α) : Agenda α :=
  { a with ready := a.ready ++ a.deferred, deferred := [], streak := 0 }

/-- The turns after which tasks come back even while others are ready. -/
def longStreak : Nat := 61

/-- The agenda with some task ready, if there is any at all. -/
def refill (a : Agenda α) : Agenda α :=
  if a.ready.isEmpty && a.deferred.isEmpty then a.nextMs?.elim a a.moveTo
  else if a.ready.isEmpty || longStreak ≤ a.streak then a.bringBack
  else a

/-- The task whose turn it is, and the agenda without it. -/
def next? (a : Agenda α) : Option (α × Agenda α) :=
  let a := a.refill
  match a.ready with
  | [] => none
  | task :: rest => some (task, { a with ready := rest, streak := a.streak + 1 })

theorem nextMs?_eq_none_iff {a : Agenda α} : a.nextMs? = none ↔ a.timers = [] := by
  simp [nextMs?]

/-- At the millisecond of the next timer, something is due. -/
theorem dueBy_ne_nil {a : Agenda α} {ms : Nat} (h : a.nextMs? = some ms) : a.dueBy ms ≠ [] := by
  obtain ⟨timer, htimer, rfl⟩ := List.mem_map.1 (List.min?_mem h)
  have : timer.task ∈ a.dueBy timer.ms :=
    List.mem_map.2 ⟨timer, List.mem_filter.2 ⟨htimer, by simp⟩, rfl⟩
  exact List.ne_nil_of_mem this

/-- As long as anything is on the agenda, some task has its turn. -/
theorem next?_eq_none_iff {a : Agenda α} : a.next? = none ↔ a.tasks = [] := by
  have hnext : a.next? = none ↔ a.refill.ready = [] := by
    simp only [next?]
    split <;> simp_all
  rw [hnext]
  rcases a with ⟨now, ready, deferred, timers, streak⟩
  cases ready with
  | cons task ready =>
    simp only [refill, tasks, bringBack]
    split <;> simp_all
    split <;> simp
  | nil =>
    cases deferred with
    | cons task deferred => simp [refill, tasks, bringBack]
    | nil =>
      cases hms : nextMs? ⟨now, [], [], timers, streak⟩ with
      | none =>
        have := nextMs?_eq_none_iff.1 hms
        simp_all [refill, tasks]
      | some ms =>
        have hdue := dueBy_ne_nil hms
        have htimers : timers ≠ [] := fun h => by
          rw [nextMs?_eq_none_iff.2 h] at hms
          cases hms
        simp_all [refill, tasks, moveTo]

end Agenda

end ScriptHost
