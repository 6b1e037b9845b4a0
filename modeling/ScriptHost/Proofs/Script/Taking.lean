import ScriptHost.Proofs.Computation
import ScriptHost.Proofs.Script.Printing
import ScriptHost.Script.Parsing

/-!
# What readers take

A reader takes tokens when it passes over exactly these, wherever they stand in the text, provided
that the token behind them is one that it stops at. Readers one after another take tokens one behind
the other.
-/

namespace ScriptHost.Script

/-- The reader takes the tokens, if what is next behind them satisfies `next`, and gives a result
that satisfies `ok`. -/
def Takes {α : Type} (reader : Reader α) (ts : List Token) (ok : α → Prop)
    (next : Option Token → Prop) : Prop :=
  ∀ (front rest : List (Placed Token)) (finish : Location), front.map (·.val) = ts →
    next (Input.peek ⟨rest, finish⟩) →
    ∃ a, reader ⟨front ++ rest, finish⟩ = .ok a ⟨rest, finish⟩ ∧ ok a

variable {α β : Type} {reader : Reader α} {f : α → Reader β} {ts us : List Token} {t : Token}
  {ok : α → Prop} {fine : β → Prop} {next mid : Option Token → Prop}

/-- What is next in front of other tokens. -/
theorem peek_append {front rest : List (Placed Token)} {finish : Location}
    (h : front.map (·.val) = ts) :
    Input.peek ⟨front ++ rest, finish⟩ = ts.head?.or (Input.peek ⟨rest, finish⟩) := by
  subst h
  cases front with
  | nil => rfl
  | cons t front => rfl

namespace Takes

theorem weaken {ok' : α → Prop} {next' : Option Token → Prop} (h : Takes reader ts ok next)
    (hok : ∀ a, ok a → ok' a) (hnext : ∀ x, next' x → next x) : Takes reader ts ok' next' := by
  intro front rest finish hfront hpeek
  obtain ⟨a, ha, hgood⟩ := h front rest finish hfront (hnext _ hpeek)
  exact ⟨a, ha, hok a hgood⟩

theorem pure {a : α} (h : ok a) : Takes (pure a : Reader α) [] ok next := by
  intro front rest finish hfront _
  cases List.map_eq_nil_iff.1 hfront
  exact ⟨a, rfl, h⟩

/-- The second reader starts where the first one stops. -/
theorem bind (h : Takes reader ts ok mid) (hmid : ∀ x, next x → mid (us.head?.or x))
    (hf : ∀ a, ok a → Takes (f a) us fine next) : Takes (reader >>= f) (ts ++ us) fine next := by
  intro front rest finish hfront hpeek
  obtain ⟨left, right, rfl, hleft, hright⟩ := List.map_eq_append_iff.1 hfront
  have hbetween : mid (Input.peek ⟨right ++ rest, finish⟩) := by
    rw [peek_append hright]
    exact hmid _ hpeek
  obtain ⟨a, ha, hgood⟩ := h left (right ++ rest) finish hleft hbetween
  obtain ⟨b, hb, hfine⟩ := hf a hgood right rest finish hright hpeek
  refine ⟨b, ?_, hfine⟩
  rw [List.append_assoc, Computation.bind_of_ok ha]
  exact hb

/-- The first reader stops at the token that the second one starts with. -/
theorem bind_cons (h : Takes reader ts ok mid) (hmid : mid (some t))
    (hf : ∀ a, ok a → Takes (f a) (t :: us) fine next) :
    Takes (reader >>= f) (ts ++ t :: us) fine next :=
  h.bind (fun _ _ => hmid) hf

/-- The second reader takes nothing. -/
theorem bind_nil (h : Takes reader ts ok mid) (hmid : ∀ x, next x → mid x)
    (hf : ∀ a, ok a → Takes (f a) [] fine next) : Takes (reader >>= f) ts fine next := by
  have hboth : Takes (reader >>= f) (ts ++ []) fine next := h.bind hmid hf
  rwa [List.append_nil] at hboth

theorem map (h : Takes reader ts ok next) {g : α → β} (hg : ∀ a, ok a → fine (g a)) :
    Takes (g <$> reader) ts fine next := by
  intro front rest finish hfront hpeek
  obtain ⟨a, ha, hgood⟩ := h front rest finish hfront hpeek
  refine ⟨g a, ?_, hg a hgood⟩
  rw [Computation.map_eq_ok_iff]
  exact ⟨a, ha, rfl⟩

/-! ## Readers that only look -/

theorem here {f : Location → Reader β} (h : ∀ loc, Takes (f loc) ts fine next) :
    Takes (Reader.here >>= f) ts fine next := by
  intro front rest finish hfront hpeek
  exact h _ front rest finish hfront hpeek

theorem remaining {f : Nat → Reader β} (h : ∀ n, ts.length ≤ n → Takes (f n) ts fine next) :
    Takes (Reader.remaining >>= f) ts fine next := by
  intro front rest finish hfront hpeek
  refine h (front ++ rest).length ?_ front rest finish hfront hpeek
  rw [List.length_append, ← hfront, List.length_map]
  exact Nat.le_add_right _ _

theorem get {f : Input → Reader β}
    (h : ∀ front rest finish, front.map (·.val) = ts → next (Input.peek ⟨rest, finish⟩) →
      ∃ b, f ⟨front ++ rest, finish⟩ ⟨front ++ rest, finish⟩ = .ok b ⟨rest, finish⟩ ∧ fine b) :
    Takes (MonadState.get >>= f) ts fine next := h

theorem peek {f : Option Token → Reader β}
    (h : ∀ x, next x → Takes (f (ts.head?.or x)) ts fine (· = x)) :
    Takes (Reader.peek >>= f) ts fine next := by
  intro front rest finish hfront hpeek
  have hf := h _ hpeek front rest finish hfront rfl
  rwa [← peek_append hfront] at hf

/-- A look at the first of the tokens. -/
theorem peek_cons {f : Option Token → Reader β} (h : Takes (f (some t)) (t :: ts) fine next) :
    Takes (Reader.peek >>= f) (t :: ts) fine next :=
  peek fun _ hx => h.weaken (fun _ hb => hb) (by rintro _ rfl; exact hx)

/-! ## Readers of one token -/

theorem advance (t : Token) (next : Option Token → Prop) :
    Takes Reader.advance [t] (fun _ => True) next := by
  intro front rest finish hfront _
  obtain ⟨u, rfl, -⟩ := List.map_eq_singleton_iff.1 hfront
  exact ⟨(), rfl, trivial⟩

/-- The first token is passed over. -/
theorem advance_bind {f : Unit → Reader β} (h : Takes (f ()) ts fine next) :
    Takes (Reader.advance >>= f) (t :: ts) fine next :=
  (advance t fun _ => True).bind (fun _ _ => trivial) fun _ _ => h

theorem expect (t : Token) (e : SyntaxError) (next : Option Token → Prop) :
    Takes (Reader.expect t e) [t] (fun _ => True) next := by
  apply peek_cons
  rw [if_pos rfl]
  exact advance t next

theorem expect_bind {f : Unit → Reader β} (e : SyntaxError) (h : Takes (f ()) ts fine next) :
    Takes (Reader.expect t e >>= f) (t :: ts) fine next :=
  (expect t e fun _ => True).bind (fun _ _ => trivial) fun _ _ => h

theorem accept (s : Symbol) (next : Option Token → Prop) :
    Takes (Reader.accept s) [.symbol s] (· = true) next := by
  apply peek_cons
  rw [if_pos rfl]
  exact advance_bind (pure rfl)

/-- The symbol is not there, and nothing is taken. -/
theorem accept_none (s : Symbol) :
    Takes (Reader.accept s) [] (· = false) (· ≠ some (.symbol s)) := by
  apply peek
  intro x hx
  rw [List.head?_nil, Option.none_or, if_neg hx]
  exact pure rfl

theorem word (w : String) (next : Option Token → Prop) :
    Takes Reader.word [.word w] (· = w) next := by
  apply peek_cons
  exact advance_bind (pure rfl)

/-! ## Paths -/

/-- The members of a path end where no dot follows. -/
theorem memberChain_append {members : List String} {front rest : List (Placed Token)}
    {finish : Location}
    (hfront : front.map (·.val) = members.flatMap fun w => [.symbol .dot, .word w])
    (hrest : Input.peek ⟨rest, finish⟩ ≠ some (.symbol .dot)) :
    Reader.memberChain (front ++ rest) = (members, rest, true) := by
  induction members generalizing front with
  | nil =>
      cases List.map_eq_nil_iff.1 hfront
      rw [List.nil_append]
      cases rest with
      | nil => rfl
      | cons t rest =>
          obtain ⟨t, loc⟩ := t
          have ht : t ≠ .symbol .dot := fun h => hrest (congrArg some h)
          rw [Reader.memberChain]
          · rintro _ _ _ _ ⟨⟩
            exact ht rfl
          · rintro _ _ ⟨⟩
            exact ht rfl
  | cons w members ih =>
      rw [List.flatMap_cons] at hfront
      obtain ⟨left, right, rfl, hleft, hright⟩ := List.map_eq_append_iff.1 hfront
      obtain ⟨dot, chain, rfl, hdot, hchain⟩ := List.map_eq_cons_iff.1 hleft
      obtain ⟨word, rfl, hword⟩ := List.map_eq_singleton_iff.1 hchain
      obtain ⟨dot, dotLoc⟩ := dot
      obtain ⟨word, wordLoc⟩ := word
      cases hdot
      cases hword
      show Reader.memberChain (_ :: _ :: (right ++ rest)) = _
      rw [Reader.memberChain, ih hright]

theorem path (p : Path) : Takes Reader.path p.tokens (· = p) (· ≠ some (.symbol .dot)) := by
  show Takes Reader.path ([.word p.head] ++ p.members.flatMap _) _ _
  apply (word p.head fun _ => True).bind fun _ _ => trivial
  rintro _ rfl
  apply get
  intro front rest finish hfront hpeek
  refine ⟨p, ?_, rfl⟩
  simp only [memberChain_append hfront hpeek]
  rfl

end Takes

end ScriptHost.Script
