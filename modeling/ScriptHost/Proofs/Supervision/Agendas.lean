import Mathlib.Data.List.Perm.Basic
import ScriptHost.Supervision.Agenda

/-!
# What stays true of all tasks

An agenda only ever holds the tasks that were put on it: they have their turns, wait, come back, or
are taken off, each as often as it was put there. So whatever is true of each of them stays true.
-/

namespace ScriptHost.Agenda

variable {α : Type} {p : α → Prop} {a a' : Agenda α} {task : α}

/-! ## The tasks on an agenda -/

theorem mem_tasks_iff : task ∈ a.tasks ↔
    task ∈ a.ready ∨ task ∈ a.deferred ∨ ∃ timer ∈ a.timers, timer.task = task := by
  simp only [tasks, List.mem_append, List.mem_map, or_assoc]

theorem perm_append (a : Agenda α) (task : α) : (a.append task).tasks.Perm (task :: a.tasks) := by
  simp only [tasks, append, List.append_assoc, List.singleton_append]
  exact List.perm_middle

theorem perm_again (a : Agenda α) (task : α) : (a.again task).tasks.Perm (task :: a.tasks) :=
  .refl _

theorem perm_defer (a : Agenda α) (task : α) : (a.defer task).tasks.Perm (task :: a.tasks) := by
  simp only [tasks, defer, List.append_assoc, List.cons_append]
  exact List.perm_middle

theorem perm_setTimer (a : Agenda α) (ms : Nat) (task : α) :
    (a.setTimer ms task).tasks.Perm (task :: a.tasks) := by
  simp only [tasks, setTimer, List.map_append, List.map_cons, List.map_nil]
  rw [← List.append_assoc]
  exact List.perm_append_singleton task _

theorem tasks_drop (a : Agenda α) (q : α → Bool) : (a.drop q).tasks = a.tasks.filter (!q ·) := by
  simp only [tasks, drop, List.filter_append, List.filter_map]
  rfl

theorem perm_moveTo (a : Agenda α) (ms : Nat) : (a.moveTo ms).tasks.Perm a.tasks := by
  have htimers : (a.dueBy ms ++ (a.timers.filter (ms < ·.ms)).map (·.task)).Perm
      (a.timers.map (·.task)) := by
    rw [dueBy, ← List.map_append]
    apply List.Perm.map
    have hlate : (fun timer : Timer α => decide (ms < timer.ms)) =
        fun timer => !decide (timer.ms ≤ ms) := by
      funext timer
      rw [← decide_not, decide_eq_decide, Nat.not_le]
    rw [hlate]
    exact List.filter_append_perm _ _
  simp only [tasks, moveTo]
  calc a.ready ++ a.dueBy ms ++ a.deferred ++ (a.timers.filter (ms < ·.ms)).map (·.task)
      = a.ready ++ (a.dueBy ms ++ a.deferred ++ (a.timers.filter (ms < ·.ms)).map (·.task)) := by
        simp only [List.append_assoc]
    _ |>.Perm (a.ready ++ (a.deferred ++ a.dueBy ms ++
          (a.timers.filter (ms < ·.ms)).map (·.task))) :=
        (List.perm_append_comm.append_right _).append_left _
    _ |>.Perm (a.ready ++ a.deferred ++ a.timers.map (·.task)) := by
        rw [List.append_assoc, List.append_assoc]
        exact (htimers.append_left _).append_left _

theorem perm_bringBack (a : Agenda α) : a.bringBack.tasks.Perm a.tasks := by
  simp only [tasks, bringBack, List.append_nil]
  exact .refl _

theorem perm_refill (a : Agenda α) : a.refill.tasks.Perm a.tasks := by
  rw [refill]
  split
  · cases a.nextMs? with
    | none => exact .refl _
    | some ms => exact perm_moveTo a ms
  · split
    · exact perm_bringBack a
    · exact .refl _

/-- The task whose turn it is was on the agenda, and the others are still there. -/
theorem perm_next? (h : a.next? = some (task, a')) : a.tasks.Perm (task :: a'.tasks) := by
  simp only [next?] at h
  split at h
  · cases h
  · rename_i first rest hready
    cases h
    refine (perm_refill a).symm.trans ?_
    simp only [tasks, hready]
    exact .refl _

theorem perm_skip (a : Agenda α) (regular : α → Bool) (period : Nat) :
    (a.skip regular period).tasks.Perm a.tasks := by
  simp only [skip]
  split
  · split
    · exact .refl _
    · simp only [tasks, timersOf, List.map_append, List.map_map]
      apply List.Perm.append_left
      have hlater : ∀ timers : List (Timer α), ∀ ms,
          timers.map (Timer.task ∘ (·.later ms)) = timers.map (·.task) := fun _ _ => rfl
      rw [hlater, ← List.map_append]
      refine (List.perm_append_comm.trans ?_).map _
      exact List.filter_append_perm (fun timer => regular timer.task) a.timers
  · exact .refl _

/-! ## What is true of each -/

/-- Something is true of every task on the agenda. -/
def All (p : α → Prop) (a : Agenda α) : Prop := ∀ task ∈ a.tasks, p task

theorem All.of_perm (h : a.All p) (hperm : a'.tasks.Perm a.tasks) : a'.All p :=
  fun x hx => h x (hperm.mem_iff.1 hx)

theorem All.of_perm_cons (h : a.All p) (ht : p task) (hperm : a'.tasks.Perm (task :: a.tasks)) :
    a'.All p := by
  intro x hx
  rcases List.mem_cons.1 (hperm.mem_iff.1 hx) with rfl | hx
  · exact ht
  · exact h x hx

theorem All.append (h : a.All p) (ht : p task) : (a.append task).All p :=
  h.of_perm_cons ht (perm_append a task)

theorem All.again (h : a.All p) (ht : p task) : (a.again task).All p :=
  h.of_perm_cons ht (perm_again a task)

theorem All.defer (h : a.All p) (ht : p task) : (a.defer task).All p :=
  h.of_perm_cons ht (perm_defer a task)

theorem All.setTimer (h : a.All p) (ms : Nat) (ht : p task) : (a.setTimer ms task).All p :=
  h.of_perm_cons ht (perm_setTimer a ms task)

theorem All.drop (h : a.All p) (q : α → Bool) : (a.drop q).All p := by
  intro x hx
  rw [tasks_drop] at hx
  exact h x (List.mem_filter.1 hx).1

theorem All.next? (h : a.All p) (hn : a.next? = some (task, a')) : p task ∧ a'.All p :=
  List.forall_mem_cons.1 fun x hx => h x ((perm_next? hn).mem_iff.2 hx)

theorem All.skip (h : a.All p) (regular : α → Bool) (period : Nat) :
    (a.skip regular period).All p :=
  h.of_perm (perm_skip a regular period)

end ScriptHost.Agenda
