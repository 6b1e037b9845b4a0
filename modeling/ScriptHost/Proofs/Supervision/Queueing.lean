import Mathlib.Data.List.Basic
import ScriptHost.Supervision.Semaphore

/-!
# Users of permits

How users stand towards some permits: away, in the queue, or with a permit. As long as each of them
only makes the moves of a user, every permit is free or with one of them, and those who stand in
the queue are those who wait. So there is no wait without an end to it: where one waits, another
has a permit, or a free one is kept for somebody in the queue.
-/

namespace ScriptHost.Semaphore

/-- How a user stands towards the permits. -/
inductive Stand where
  | away
  | waiting
  | holding
deriving DecidableEq, Repr

/-- The moves of the user with a ticket, one after another. Nobody takes a permit unless one is
free. -/
inductive Moves (t : Ticket) : Semaphore → Stand → Semaphore → Stand → Prop
  | stay (s : Semaphore) (x : Stand) : Moves t s x s x
  | join (s : Semaphore) : Moves t s .away (s.join t) .waiting
  | leave (s : Semaphore) : Moves t s .waiting (s.leave t) .away
  | enter {s : Semaphore} (hfree : 0 < s.free) : Moves t s .waiting (s.enter t) .holding
  | release (s : Semaphore) : Moves t s .holding s.release .away
  | trans {s s' s'' : Semaphore} {x y z : Stand} (first : Moves t s x s' y)
      (second : Moves t s' y s'' z) : Moves t s x s'' z

/-- The number of users with a permit. -/
def holders (users : List (Ticket × Stand)) : Nat := users.countP (·.2 == .holding)

/-- The tickets of the users who wait. -/
def waiters (users : List (Ticket × Stand)) : List Ticket :=
  (users.filter (·.2 == .waiting)).map (·.1)

section Users

variable (users users' : List (Ticket × Stand)) (t : Ticket) (x : Stand)

@[simp] theorem holders_nil : holders [] = 0 := rfl

@[simp] theorem waiters_nil : waiters [] = [] := rfl

@[simp] theorem holders_append : holders (users ++ users') = holders users + holders users' :=
  List.countP_append

@[simp] theorem holders_cons :
    holders ((t, x) :: users) = holders users + if x = .holding then 1 else 0 := by
  rw [holders, List.countP_cons]
  simp [holders]

@[simp] theorem waiters_append : waiters (users ++ users') = waiters users ++ waiters users' := by
  rw [waiters, List.filter_append, List.map_append]
  rfl

@[simp] theorem waiters_cons :
    waiters ((t, x) :: users) = (if x = .waiting then [t] else []) ++ waiters users := by
  cases x <;> rfl

theorem mem_waiters_iff : t ∈ waiters users ↔ (t, .waiting) ∈ users := by
  simp [waiters]

theorem holders_eq_zero_iff : holders users = 0 ↔ ∀ user ∈ users, user.2 ≠ .holding := by
  simp [holders]

end Users

/-- The permits are free or with users, and the queue is that of the users who wait. -/
structure Serves (permits : Nat) (s : Semaphore) (users : List (Ticket × Stand)) : Prop where
  free : s.free + holders users = permits
  waiting : s.waiting.Perm (waiters users)

variable {permits : Nat} {s s' : Semaphore} {x y : Stand} {t : Ticket}
  {users before rest : List (Ticket × Stand)}

theorem Serves.new (permits : Nat) : Serves permits (.new permits) [] := ⟨rfl, .nil⟩

/-- One who is away may come. -/
theorem Serves.arrive (h : Serves permits s users) (t : Ticket) :
    Serves permits s (users ++ [(t, .away)]) := by
  obtain ⟨hfree, hwaiting⟩ := h
  exact ⟨by simpa using hfree, by simpa using hwaiting⟩

/-- Who leaves the queue is missing there, and nobody else. -/
theorem perm_erase_of_perm {queue : List Ticket} {others others' : List Ticket}
    (h : queue.Perm (others ++ t :: others')) : (queue.erase t).Perm (others ++ others') := by
  have hfirst : queue.Perm (t :: (others ++ others')) := h.trans List.perm_middle
  simpa using hfirst.erase t

/-- Each move of a user keeps the permits and the queue in order. -/
theorem Serves.moves (h : Serves permits s (before ++ (t, x) :: rest)) (hm : Moves t s x s' y) :
    Serves permits s' (before ++ (t, y) :: rest) := by
  induction hm with
  | stay => exact h
  | trans _ _ ihfirst ihsecond => exact ihsecond (ihfirst h)
  | join s =>
      obtain ⟨hfree, hwaiting⟩ := h
      simp only [holders_append, holders_cons, waiters_append, waiters_cons, reduceCtorEq, if_false,
        List.nil_append] at hfree hwaiting
      refine ⟨by simpa [join] using hfree, ?_⟩
      simp only [join, waiters_append, waiters_cons, if_true]
      calc (s.waiting ++ [t]).Perm (waiters before ++ waiters rest ++ [t]) :=
            hwaiting.append_right [t]
        List.Perm _ (waiters before ++ ([t] ++ waiters rest)) := by
            rw [List.append_assoc]
            exact List.perm_append_comm.append_left _
  | leave s =>
      obtain ⟨hfree, hwaiting⟩ := h
      refine ⟨by simpa [leave] using hfree, ?_⟩
      simp only [waiters_append, waiters_cons, if_true] at hwaiting
      simpa [leave] using perm_erase_of_perm hwaiting
  | enter hpos =>
      obtain ⟨hfree, hwaiting⟩ := h
      simp only [holders_append, holders_cons, waiters_append, waiters_cons, reduceCtorEq, if_true,
        if_false] at hfree hwaiting
      refine ⟨?_, by simpa [enter] using perm_erase_of_perm hwaiting⟩
      simp only [enter, holders_append, holders_cons, if_true]
      omega
  | release s =>
      obtain ⟨hfree, hwaiting⟩ := h
      simp only [holders_append, holders_cons, if_true] at hfree
      refine ⟨?_, by simpa [release] using hwaiting⟩
      simp only [release, holders_append, holders_cons, reduceCtorEq, if_false]
      omega

/-- Where one waits, another has a permit, or a free one is kept for one in the queue. -/
theorem Serves.progress (h : Serves permits s users) (hpermits : 0 < permits)
    (hwaits : (t, .waiting) ∈ users) :
    (∃ u, (u, .holding) ∈ users) ∨ ∃ u, (u, .waiting) ∈ users ∧ s.mayEnter u = true := by
  obtain ⟨hfree, hwaiting⟩ := h
  by_cases hheld : holders users = 0
  · right
    have hqueue : t ∈ s.waiting := hwaiting.mem_iff.2 ((mem_waiters_iff users t).2 hwaits)
    obtain ⟨first, others, hfirst⟩ := List.exists_cons_of_ne_nil (List.ne_nil_of_mem hqueue)
    obtain ⟨free, hpos⟩ : ∃ free, s.free = free + 1 := Nat.exists_eq_add_one.2 (by omega)
    have hmem : first ∈ s.waiting := hfirst ▸ List.mem_cons_self
    refine ⟨first, (mem_waiters_iff users first).1 (hwaiting.mem_iff.1 hmem), ?_⟩
    rw [mayEnter, hfirst, hpos, List.take_succ_cons, List.contains_cons, beq_self_eq_true,
      Bool.true_or]
  · left
    rw [holders_eq_zero_iff] at hheld
    push Not at hheld
    obtain ⟨⟨u, _⟩, hu, rfl⟩ := hheld
    exact ⟨u, hu⟩

end ScriptHost.Semaphore
