/-!
# Computations that may fail

A computation with a state gives a result and a next state, or an error. The result of a
composed computation, taken apart: it succeeds when each part does, and the parts hand on
their states.
-/

namespace ScriptHost.Computation

variable {ε σ α β : Type} {s t u : σ}

theorem bind_of_ok {x : EStateM ε σ α} {a : α} (h : x s = .ok a t) (f : α → EStateM ε σ β) :
    (x >>= f) s = f a t := by
  show EStateM.bind x f s = _
  unfold EStateM.bind
  rw [h]

theorem bind_of_error {x : EStateM ε σ α} {e : ε} (h : x s = .error e t)
    (f : α → EStateM ε σ β) : (x >>= f) s = .error e t := by
  show EStateM.bind x f s = _
  unfold EStateM.bind
  rw [h]

@[simp] theorem bind_eq_ok_iff {x : EStateM ε σ α} {f : α → EStateM ε σ β} {b : β} :
    (x >>= f) s = .ok b u ↔ ∃ a t, x s = .ok a t ∧ f a t = .ok b u := by
  cases h : x s with
  | ok a t =>
      rw [bind_of_ok h]
      constructor
      · intro hf
        exact ⟨a, t, rfl, hf⟩
      · rintro ⟨_, _, ⟨⟩, hf⟩
        exact hf
  | error e t =>
      rw [bind_of_error h]
      constructor
      · rintro ⟨⟩
      · rintro ⟨_, _, ⟨⟩, _⟩

@[simp] theorem map_eq_ok_iff {x : EStateM ε σ α} {f : α → β} {b : β} :
    (f <$> x) s = .ok b u ↔ ∃ a, x s = .ok a u ∧ f a = b := by
  show EStateM.map f x s = _ ↔ _
  unfold EStateM.map
  split
  · rename_i a t h
    constructor
    · intro hf
      cases hf
      exact ⟨a, h, rfl⟩
    · rintro ⟨a', h', rfl⟩
      cases h.symm.trans h'
      rfl
  · rename_i e t h
    constructor
    · intro hf
      cases hf
    · rintro ⟨a', h', -⟩
      cases h.symm.trans h'

@[simp] theorem pure_eq_ok_iff {a b : α} :
    (pure a : EStateM ε σ α) s = .ok b t ↔ a = b ∧ s = t := by
  show EStateM.Result.ok a s = _ ↔ _
  rw [EStateM.Result.ok.injEq]

@[simp] theorem throw_eq_ok_iff {e : ε} {b : α} :
    (throw e : EStateM ε σ α) s = .ok b t ↔ False := by
  constructor
  · intro h
    cases h
  · exact False.elim

@[simp] theorem get_eq_ok_iff : (get : EStateM ε σ σ) s = .ok u t ↔ s = u ∧ s = t := by
  show EStateM.Result.ok s s = _ ↔ _
  rw [EStateM.Result.ok.injEq]

@[simp] theorem set_eq_ok_iff {r : PUnit} : (set u : EStateM ε σ PUnit) s = .ok r t ↔ u = t := by
  show EStateM.Result.ok _ u = _ ↔ _
  rw [EStateM.Result.ok.injEq]
  exact and_iff_right rfl

@[simp] theorem modify_eq_ok_iff {f : σ → σ} {r : PUnit} :
    (modify f : EStateM ε σ PUnit) s = .ok r t ↔ f s = t := by
  show EStateM.Result.ok _ (f s) = _ ↔ _
  rw [EStateM.Result.ok.injEq]
  exact and_iff_right rfl

theorem except_map_eq_ok_iff {x : Except ε α} {f : α → β} {b : β} :
    x.map f = .ok b ↔ ∃ a, x = .ok a ∧ f a = b := by
  cases x with
  | error e => simp [Except.map]
  | ok a => simp [Except.map]

@[simp] theorem mapError_ok {ε' : Type} (f : ε → ε') (a : α) :
    (Except.ok a : Except ε α).mapError f = .ok a := rfl

@[simp] theorem mapError_error {ε' : Type} (f : ε → ε') (e : ε) :
    (Except.error e : Except ε α).mapError f = .error (f e) := rfl

theorem isOk_except_map (x : Except ε α) (f : α → β) : (x.map f).isOk = x.isOk := by
  cases x with
  | error e => rfl
  | ok a => rfl

end ScriptHost.Computation
