import ScriptHost.Proofs.Computation
import ScriptHost.Script.Evaluation

/-!
# Safe computations

A computation is safe when it ends with a value of the wanted kind or with a fault that the
language itself has. The faults for steps that the check rules out are not among these.
-/

namespace ScriptHost.Script

/-- A value has a static type; null stands among the texts, and has a type of its own. -/
inductive HasType : Value → Ty → Prop
  | int (n : Int64) : HasType (.int n) .int
  | bool (b : Bool) : HasType (.bool b) .bool
  | text (s : String) : HasType (.text s) .string
  | nullText : HasType .null .string
  | null : HasType .null .null

/-- The types that a variable can have. -/
def Ty.isStorable : Ty → Bool
  | int | bool | string => true
  | _ => false

/-- A variable of a type that variables can have, with a value of it. -/
structure Binding.WellTyped (b : Binding) : Prop where
  storable : b.ty.isStorable = true
  valued : HasType b.value b.ty

/-- Every variable is well typed. -/
def State.WellFormed (s : State) : Prop :=
  ∀ name b, s.bindings.get? name = some b → b.WellTyped

/-- The faults that a checked script can run into without throwing them. -/
def languageFaults : List Fault :=
  [divisionByZero, overflow, noAbsoluteValue, nullReference, delayOutOfRange]

/-- Whatever was written before, the computation gives a result of the wanted kind or a fault
of the language. -/
def Safe {α : Type} (p : Eval α) (wanted : α → Prop) : Prop :=
  ∀ written, match p written with
    | .ok a _ => wanted a
    | .error fault _ => fault ∈ languageFaults

namespace Safe

variable {α β : Type} {wanted : α → Prop}

theorem pure {a : α} (h : wanted a) : Safe (Pure.pure a) wanted :=
  fun _ => h

theorem throw {fault : Fault} (h : fault ∈ languageFaults) :
    Safe (MonadExcept.throw fault : Eval α) wanted :=
  fun _ => h

theorem bind {p : Eval α} {f : α → Eval β} {goal : β → Prop} (hp : Safe p wanted)
    (hf : ∀ a, wanted a → Safe (f a) goal) : Safe (p >>= f) goal := by
  intro written
  have hfirst := hp written
  cases hresult : p written with
  | ok a behind =>
      rw [hresult] at hfirst
      rw [Computation.bind_of_ok hresult]
      exact hf a hfirst behind
  | error fault behind =>
      rw [hresult] at hfirst
      rw [Computation.bind_of_error hresult]
      exact hfirst

theorem mono {p : Eval α} {goal : α → Prop} (hp : Safe p wanted) (h : ∀ a, wanted a → goal a) :
    Safe p goal := by
  intro written
  have hfirst := hp written
  cases hresult : p written with
  | ok a behind =>
      rw [hresult] at hfirst
      exact h a hfirst
  | error fault behind =>
      rw [hresult] at hfirst
      exact hfirst

theorem map {p : Eval α} {f : α → β} {goal : β → Prop} (hp : Safe p wanted)
    (hf : ∀ a, wanted a → goal (f a)) : Safe (f <$> p) goal :=
  hp.bind fun a ha => pure (hf a ha)

/-- The two ways in which a safe computation ends. -/
theorem cases {p : Eval α} (hp : Safe p wanted) (written : List String) :
    (∃ a behind, p written = .ok a behind ∧ wanted a) ∨
      ∃ fault behind, p written = .error fault behind ∧ fault ∈ languageFaults := by
  have hfirst := hp written
  cases hresult : p written with
  | ok a behind =>
      rw [hresult] at hfirst
      exact Or.inl ⟨a, behind, rfl, hfirst⟩
  | error fault behind =>
      rw [hresult] at hfirst
      exact Or.inr ⟨fault, behind, rfl, hfirst⟩

theorem write (text : String) : Safe (Eval.write text) fun _ => True :=
  fun _ => trivial

theorem int {p : Eval Value} (hp : Safe p (HasType · .int)) : Safe (Eval.int p) fun _ => True := by
  refine hp.bind fun value hvalue => ?_
  cases hvalue with
  | int n => exact pure trivial

theorem bool {p : Eval Value} (hp : Safe p (HasType · .bool)) :
    Safe (Eval.bool p) fun _ => True := by
  refine hp.bind fun value hvalue => ?_
  cases hvalue with
  | bool b => exact pure trivial

end Safe
end ScriptHost.Script
