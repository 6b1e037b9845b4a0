/-!
# Permits

A number of permits and a queue for them: first come, first served. A permit that is given back
is kept for the first in the queue who has none kept yet; a newcomer gets one only when more are
free than others wait.
-/

namespace ScriptHost

/-- A place in a queue, named by whoever stands there. -/
abbrev Ticket := Nat

structure Semaphore where
  free : Nat
  waiting : List Ticket
deriving DecidableEq, Repr

namespace Semaphore

/-- The most permits that are counted: the greatest number of sixty-one bits. -/
def maxPermits : Nat := 0x1fffffffffffffff

/-- Some permits, and nobody waiting. -/
def new (permits : Nat) : Semaphore := ⟨permits, []⟩

/-- Join the queue at its end. -/
def join (s : Semaphore) (t : Ticket) : Semaphore := { s with waiting := s.waiting ++ [t] }

/-- One of the free permits is kept for this one: each is for one of the first in the queue. -/
def mayEnter (s : Semaphore) (t : Ticket) : Bool := (s.waiting.take s.free).contains t

/-- One in the queue takes a permit. -/
def enter (s : Semaphore) (t : Ticket) : Semaphore := ⟨s.free - 1, s.waiting.erase t⟩

/-- Leave the queue without a permit. -/
def leave (s : Semaphore) (t : Ticket) : Semaphore := { s with waiting := s.waiting.erase t }

/-- Give a permit back. -/
def release (s : Semaphore) : Semaphore := { s with free := s.free + 1 }

/-- Nobody takes a permit while none is free. -/
theorem free_pos_of_mayEnter {s : Semaphore} {t : Ticket} (h : s.mayEnter t = true) :
    0 < s.free := by
  rcases s with ⟨_ | free, waiting⟩
  · simp [mayEnter] at h
  · exact Nat.succ_pos free

end Semaphore

end ScriptHost
