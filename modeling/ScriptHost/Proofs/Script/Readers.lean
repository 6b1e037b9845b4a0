import ScriptHost.Proofs.Computation
import ScriptHost.Script.Parsing

/-!
# What the readers of single tokens take

A reader that succeeds has taken tokens from the front of its input. Each of the small
readers takes none, or the one token that it asks for.
-/

namespace ScriptHost.Script

/-- A next token is the first of the tokens left. -/
theorem Input.tokens_of_peek {i : Input} {t : Token} (h : i.peek = some t) :
    i.tokens = ⟨t, i.loc⟩ :: (Input.mk i.tokens.tail i.finish).tokens := by
  unfold Input.peek at h
  unfold Input.loc
  cases htokens : i.tokens with
  | nil =>
      rw [htokens] at h
      cases h
  | cons u us =>
      rw [htokens] at h
      cases h
      rfl

theorem Input.tokens_of_peek_eq_none {i : Input} (h : i.peek = none) : i.tokens = [] := by
  unfold Input.peek at h
  cases htokens : i.tokens with
  | nil => rfl
  | cons u us =>
      rw [htokens] at h
      cases h

namespace Reader

variable {i j : Input}

@[simp] theorem fail_eq_ok_iff {α : Type} {e : SyntaxError} {a : α} :
    (fail e : Reader α) i = .ok a j ↔ False := by
  simp only [fail, Computation.bind_eq_ok_iff, Computation.throw_eq_ok_iff, and_false,
    exists_false]

@[simp] theorem peek_eq_ok_iff {t : Option Token} : peek i = .ok t j ↔ i.peek = t ∧ i = j := by
  simp only [peek, Computation.bind_eq_ok_iff, Computation.get_eq_ok_iff,
    Computation.pure_eq_ok_iff]
  constructor
  · rintro ⟨_, _, ⟨rfl, rfl⟩, rfl, rfl⟩
    exact ⟨rfl, rfl⟩
  · rintro ⟨rfl, rfl⟩
    exact ⟨i, i, ⟨rfl, rfl⟩, rfl, rfl⟩

@[simp] theorem here_eq_ok_iff {loc : Location} : here i = .ok loc j ↔ i.loc = loc ∧ i = j := by
  simp only [here, Computation.bind_eq_ok_iff, Computation.get_eq_ok_iff,
    Computation.pure_eq_ok_iff]
  constructor
  · rintro ⟨_, _, ⟨rfl, rfl⟩, rfl, rfl⟩
    exact ⟨rfl, rfl⟩
  · rintro ⟨rfl, rfl⟩
    exact ⟨i, i, ⟨rfl, rfl⟩, rfl, rfl⟩

theorem remaining_eq_ok {n : Nat} (h : remaining i = .ok n j) : i = j := by
  cases h
  rfl

@[simp] theorem advance_eq_ok_iff {r : Unit} :
    advance i = .ok r j ↔ { i with tokens := i.tokens.tail } = j :=
  Computation.modify_eq_ok_iff

/-- The next token is taken if it is the symbol, and nothing otherwise. -/
theorem tokens_of_accept {s : Symbol} {taken : Bool} (h : accept s i = .ok taken j) :
    (taken = true ∧ i.tokens = ⟨.symbol s, i.loc⟩ :: j.tokens) ∨ (taken = false ∧ i = j) := by
  simp only [accept, Computation.bind_eq_ok_iff, peek_eq_ok_iff] at h
  obtain ⟨_, _, ⟨rfl, rfl⟩, h⟩ := h
  split at h
  · rename_i hpeek
    simp only [Computation.bind_eq_ok_iff, advance_eq_ok_iff, Computation.pure_eq_ok_iff] at h
    obtain ⟨_, _, rfl, rfl, rfl⟩ := h
    exact Or.inl ⟨rfl, Input.tokens_of_peek hpeek⟩
  · rw [Computation.pure_eq_ok_iff] at h
    obtain ⟨rfl, rfl⟩ := h
    exact Or.inr ⟨rfl, rfl⟩

theorem tokens_of_expect {t : Token} {e : SyntaxError} {r : Unit} (h : expect t e i = .ok r j) :
    i.tokens = ⟨t, i.loc⟩ :: j.tokens := by
  simp only [expect, Computation.bind_eq_ok_iff, peek_eq_ok_iff] at h
  obtain ⟨_, _, ⟨rfl, rfl⟩, h⟩ := h
  split at h
  · rename_i hpeek
    rw [advance_eq_ok_iff] at h
    subst h
    exact Input.tokens_of_peek hpeek
  · exact (fail_eq_ok_iff.1 h).elim

theorem tokens_of_word {w : String} (h : word i = .ok w j) :
    i.tokens = ⟨.word w, i.loc⟩ :: j.tokens := by
  simp only [word, Computation.bind_eq_ok_iff, peek_eq_ok_iff] at h
  obtain ⟨next, _, ⟨hpeek, rfl⟩, h⟩ := h
  split at h
  · simp only [Computation.bind_eq_ok_iff, advance_eq_ok_iff, Computation.pure_eq_ok_iff] at h
    obtain ⟨_, _, rfl, rfl, rfl⟩ := h
    exact Input.tokens_of_peek hpeek
  · exact (fail_eq_ok_iff.1 h).elim

/-- A path is a word and the complete chain of its members. -/
theorem tokens_of_path {p : Path} (h : path i = .ok p j) :
    ∃ ts, i.tokens = ⟨.word p.head, i.loc⟩ :: ts ∧ memberChain ts = (p.members, j.tokens, true) := by
  simp only [path, Computation.bind_eq_ok_iff, Computation.get_eq_ok_iff] at h
  obtain ⟨head, behind, hword, _, _, ⟨rfl, rfl⟩, h⟩ := h
  rcases hchain : memberChain behind.tokens with ⟨members, rest, complete⟩
  rw [hchain] at h
  simp only [Computation.set_eq_ok_iff] at h
  obtain ⟨_, _, rfl, h⟩ := h
  cases complete with
  | false => exact (fail_eq_ok_iff.1 h).elim
  | true =>
      simp only [if_true, Computation.pure_eq_ok_iff] at h
      obtain ⟨rfl, rfl⟩ := h
      exact ⟨behind.tokens, tokens_of_word hword, hchain⟩

end Reader
end ScriptHost.Script
