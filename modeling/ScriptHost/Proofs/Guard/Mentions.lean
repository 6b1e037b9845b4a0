import ScriptHost.Proofs.Guard.TokenItems
import ScriptHost.Script.Syntax

/-!
# What a program mentions

The names and texts in a syntax tree, as the items that a guard would have to see, in the
order of the source text. A phrase is a run of tokens whose items include given mentions and
that can be put beside other phrases without changing what either mentions.
-/

namespace ScriptHost

namespace Script
open Guard (Item)

/-- The item that a path is read as. -/
def Path.item (p : Path) : Item := .name (p.head :: p.members)

mutual

/-- The names, call targets and texts of an expression. -/
def Expr.mentions : Expr → List Item
  | .literal (.text s) _ => [.text s]
  | .literal _ _ => []
  | .name path _ => [path.item]
  | .unary _ operand _ => operand.mentions
  | .binary _ left right _ => left.mentions ++ right.mentions
  | .call target args _ => target.item :: mentionsAll args
  | .await task _ => task.mentions

/-- The names, call targets and texts of expressions. -/
def mentionsAll : List Expr → List Item
  | [] => []
  | expr :: exprs => expr.mentions ++ mentionsAll exprs

end

/-- The namespaces, declared, assigned and exception names of a statement, and what its
expressions mention. -/
def Stmt.mentions : Stmt → List Item
  | .usingNames names _ => [names.item]
  | .declare name init _ => .name [name] :: init.mentions
  | .assign name _ value _ => .name [name] :: value.mentions
  | .throw exception message _ => exception.item :: (message.map Expr.mentions).getD []
  | .eval expr _ => expr.mentions

end Script

namespace Guard
open Script (Token)

/-! ## Tokens side by side -/

theorem chainBehind_of_head {ts : List (Placed Token)}
    (h : ∀ t ∈ ts.head?, t.val ≠ .symbol .dot) : chainBehind ts = ([], ts) := by
  cases ts with
  | nil => rfl
  | cons t ts => exact chainBehind_of_ne_dot (h t rfl) t.loc ts

/-- A chain of words does not reach into tokens that follow, unless a dot is at the border. -/
theorem chainBehind_append {a b : List (Placed Token)}
    (ha : ∀ t ∈ a.getLast?, t.val ≠ .symbol .dot) (hb : ∀ t ∈ b.head?, t.val ≠ .symbol .dot) :
    chainBehind (a ++ b) = ((chainBehind a).1, (chainBehind a).2 ++ b) := by
  fun_induction chainBehind a with
  | case1 dot t ts hdot word hword ih =>
      have hts : ∀ u ∈ ts.getLast?, u.val ≠ .symbol .dot := by
        intro u hu
        apply ha u
        cases ts with
        | nil => cases hu
        | cons v vs => simpa using hu
      obtain ⟨d, dloc⟩ := dot
      cases hdot
      obtain ⟨u, uloc⟩ := t
      rw [List.cons_append, List.cons_append, chainBehind_dot_word hword, ih hts]
  | case2 dot t ts hdot hword =>
      obtain ⟨d, dloc⟩ := dot
      cases hdot
      obtain ⟨u, uloc⟩ := t
      exact chainBehind_dot_of_spelling? hword dloc uloc (ts ++ b)
  | case3 dot t ts hdot =>
      exact chainBehind_of_ne_dot hdot dot.loc (t :: ts ++ b)
  | case4 ts hshort =>
      cases ts with
      | nil => exact chainBehind_of_head hb
      | cons t ts =>
          cases ts with
          | nil => exact chainBehind_of_ne_dot (ha t rfl) t.loc b
          | cons u us => exact absurd rfl (hshort t u us)

theorem getLast?_of_suffix {α : Type} {p : α → Prop} {xs ys : List α} (hsuffix : xs <:+ ys)
    (h : ∀ x ∈ ys.getLast?, p x) : ∀ x ∈ xs.getLast?, p x := by
  intro x hx
  apply h x
  obtain ⟨front, rfl⟩ := hsuffix
  rw [List.getLast?_append, Option.mem_def.1 hx]
  rfl

/-- The items of tokens side by side, unless a dot is at the border. -/
theorem itemsOf_append {a b : List (Placed Token)}
    (ha : ∀ t ∈ a.getLast?, t.val ≠ .symbol .dot) (hb : ∀ t ∈ b.head?, t.val ≠ .symbol .dot) :
    itemsOf (a ++ b) = itemsOf a ++ itemsOf b := by
  fun_induction itemsOf a with
  | case1 => rfl
  | case2 t ts s hs ih =>
      obtain ⟨u, loc⟩ := t
      cases hs
      rw [List.cons_append, itemsOf_text, ih (getLast?_of_suffix (List.suffix_cons _ ts) ha)]
      rfl
  | case3 t ts word hword _ ih =>
      obtain ⟨u, loc⟩ := t
      have hts := getLast?_of_suffix (List.suffix_cons _ ts) ha
      rw [List.cons_append, itemsOf_of_spelling? hword, chainBehind_append hts hb,
        ih (getLast?_of_suffix (chainBehind_suffix ts) hts)]
      rfl
  | case4 t ts hword htext ih =>
      obtain ⟨u, loc⟩ := t
      rw [← ih (getLast?_of_suffix (List.suffix_cons _ ts) ha), List.cons_append]
      cases u with
      | word name => cases hword
      | keyword k => cases hword
      | text s => exact absurd rfl (htext s)
      | int n => exact itemsOf_int n loc (ts ++ b)
      | symbol s => exact itemsOf_symbol s loc (ts ++ b)

/-! ## Phrases -/

/-- Tokens that begin and end with no dot, in which no integer stands before a word or a
dot, and whose items include the given ones in their order. -/
structure Phrase (ts : List (Placed Token)) (mentioned : List Item) : Prop where
  nonempty : ts ≠ []
  spaced : Spaced ts
  head : ∀ t ∈ ts.head?, t.val ≠ .symbol .dot
  last : ∀ t ∈ ts.getLast?, t.val ≠ .symbol .dot
  covers : mentioned.Sublist ((itemsOf ts).map (·.val))

namespace Phrase

variable {a b : List (Placed Token)} {ms ns : List Item}

theorem single {t : Token} (h : t ≠ .symbol .dot) {loc : Location}
    (covers : ms.Sublist ((itemsOf [⟨t, loc⟩]).map (·.val))) : Phrase [⟨t, loc⟩] ms where
  nonempty := List.cons_ne_nil _ _
  spaced := List.isChain_singleton _
  head := by
    rintro _ ⟨⟩
    exact h
  last := by
    rintro _ ⟨⟩
    exact h
  covers := covers

theorem symbol {s : Script.Symbol} (h : s ≠ .dot) (loc : Location) :
    Phrase [⟨.symbol s, loc⟩] [] :=
  single (fun hs => h (Token.symbol.inj hs)) (List.nil_sublist _)

theorem keyword (k : Script.Keyword) (loc : Location) : Phrase [⟨.keyword k, loc⟩] [] :=
  single Token.noConfusion (List.nil_sublist _)

theorem text (s : String) (loc : Location) : Phrase [⟨.text s, loc⟩] [.text s] := by
  refine single Token.noConfusion ?_
  rw [itemsOf_text, itemsOf_nil]
  exact List.Sublist.refl _

/-- A word with the words chained to it. -/
theorem path {words : List String} (hchain : chainBehind a = (words, []))
    (hint : ∀ t ∈ a, t.val.isInt = false) (hlast : ∀ t ∈ a.getLast?, t.val ≠ .symbol .dot)
    (head : String) (loc : Location) :
    Phrase (⟨.word head, loc⟩ :: a) [.name (head :: words)] where
  nonempty := List.cons_ne_nil _ _
  spaced := by
    apply List.Pairwise.isChain
    apply List.pairwise_of_forall_mem_list
    intro t ht u _ htrue
    rcases List.mem_cons.1 ht with rfl | ht
    · cases htrue
    · exact absurd ((hint t ht).symm.trans htrue) Bool.false_ne_true
  head := by
    rintro _ ⟨⟩
    exact Token.noConfusion
  last := by
    cases a with
    | nil =>
        rintro _ ⟨⟩
        exact Token.noConfusion
    | cons u us =>
        rw [List.getLast?_cons_cons]
        exact hlast
  covers := by
    rw [@itemsOf_of_spelling? _ head rfl, hchain, itemsOf_nil]
    exact List.Sublist.refl _

theorem word (name : String) (loc : Location) : Phrase [⟨.word name, loc⟩] [.name [name]] :=
  path rfl (by simp) (by simp) name loc

/-- Phrases side by side make a phrase, unless an integer meets a word. -/
theorem append (ha : Phrase a ms) (hb : Phrase b ns)
    (h : ∀ t ∈ a.getLast?, ∀ u ∈ b.head?, t.val.isInt = true → u.val.sticks = false) :
    Phrase (a ++ b) (ms ++ ns) where
  nonempty := by
    intro hnil
    exact ha.nonempty (List.append_eq_nil_iff.1 hnil).1
  spaced := List.isChain_append.2 ⟨ha.spaced, hb.spaced, h⟩
  head := by
    intro t ht
    apply ha.head t
    rwa [List.head?_append_of_ne_nil _ ha.nonempty] at ht
  last := by
    intro t ht
    apply hb.last t
    rwa [List.getLast?_append_of_ne_nil _ hb.nonempty] at ht
  covers := by
    rw [itemsOf_append ha.last hb.head, List.map_append]
    exact ha.covers.append hb.covers

/-- A phrase behind a token that is no integer. -/
theorem behind {t : Placed Token} (ht : Phrase [t] ms) (hint : t.val.isInt = false)
    (hb : Phrase b ns) : Phrase (t :: b) (ms ++ ns) := by
  refine ht.append hb ?_
  rintro _ ⟨⟩ u - htrue
  exact absurd (hint.symm.trans htrue) Bool.false_ne_true

/-- A phrase in front of one that starts with a symbol. -/
theorem before_symbol {s : Script.Symbol} (hs : s ≠ .dot) {loc : Location}
    (ha : Phrase a ms) (hb : Phrase (⟨.symbol s, loc⟩ :: b) ns) :
    Phrase (a ++ ⟨.symbol s, loc⟩ :: b) (ms ++ ns) := by
  refine ha.append hb ?_
  rintro t - _ ⟨⟩ -
  cases s with
  | dot => exact absurd rfl hs
  | _ => rfl

/-- A phrase with a symbol after it. -/
theorem before_end {s : Script.Symbol} (hs : s ≠ .dot) (loc : Location) (ha : Phrase a ms) :
    Phrase (a ++ [⟨.symbol s, loc⟩]) ms := by
  have h := ha.before_symbol hs (symbol hs loc)
  rwa [List.append_nil] at h

end Phrase

end Guard
end ScriptHost
