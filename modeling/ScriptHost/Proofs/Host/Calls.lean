import ScriptHost.Proofs.Host.Serving
import ScriptHost.Proofs.Session.Contents

/-!
# Calls, one after another

Callers may use a host for one thing after another: serve requests, ask, reset, let time pass. What
they do while no request is served removes sessions at most.
-/

namespace ScriptHost

/-- What others do to the sessions of a store: they remove some, and leave the rest as they are. -/
structure SessionStore.Sheds (s s' : SessionStore) : Prop where
  nodup : s'.registry.ids.Nodup
  contents : ∀ id, s'.registry.contents? id = none ∨
    s'.registry.contents? id = s.registry.contents? id

namespace SessionStore.Sheds

variable {s s' s'' : SessionStore}

theorem refl (hd : s.registry.ids.Nodup) : Sheds s s := ⟨hd, fun _ => Or.inr rfl⟩

theorem trans (h : Sheds s s') (h' : Sheds s' s'') : Sheds s s'' where
  nodup := h'.nodup
  contents id := by
    rcases h'.contents id with hnone | hsame
    · exact Or.inl hnone
    · rw [hsame]
      exact h.contents id

theorem remove (hd : s.registry.ids.Nodup) (id : String) : Sheds s (s.remove id).1 where
  nodup := Table.nodup_keys_erase hd id
  contents other := by
    show ((s.registry.remove id).1.find? other).map _ = none ∨ _
    rw [Registry.find?_remove]
    split
    · exact Or.inl rfl
    · exact Or.inr ((Registry.Edit.remove s.registry).contents?_of_ne ‹_›)

theorem sweep (hd : s.registry.ids.Nodup) (ttl : Int) : Sheds s (s.sweep ttl).1 where
  nodup := Table.nodup_keys_keep hd _
  contents id := by
    cases hfind : (s.registry.sweep s.now ttl).1.find? id with
    | none => exact Or.inl (Registry.contents?_eq_none_iff.2 hfind)
    | some kept =>
        have hsame := hfind.trans (Registry.find?_of_find?_sweep hd hfind).symm
        exact Or.inr (congrArg (Option.map Session.contents) hsame)

theorem sweepTimes (hd : s.registry.ids.Nodup) (ttl : Int) (n : Nat) :
    Sheds s (s.sweepTimes ttl n) := by
  induction n generalizing s with
  | zero => exact refl hd
  | succ n ih =>
      have hsweep := sweep hd ttl
      exact hsweep.trans (ih hsweep.nodup)

theorem removals (hd : s.registry.ids.Nodup) (due : List Removal) :
    Sheds s (due.foldl (fun store r => (store.remove r.session).1) s) := by
  induction due generalizing s with
  | nil => exact refl hd
  | cons r due ih =>
      have hremove := remove hd r.session
      exact hremove.trans (ih hremove.nodup)

end SessionStore.Sheds

/-- What callers do with a host, one thing after another. -/
inductive Call where
  /-- Jobs that start together, with what else happens to them. -/
  | serve (orders : List Order)
  | operation (o : Operation)
  | passTime (ms : Nat)
  | sweepFor (spanMs : Nat)
  | closeDomain
deriving DecidableEq, Repr

/-- The host after a call. -/
def Host.after (h : Host) : Call → Host
  | .serve orders => (h.serve orders).1
  | .operation o => o.perform h
  | .passTime ms => h.passTime ms
  | .sweepFor spanMs => h.sweepFor spanMs
  | .closeDomain => h.closeDomain

end ScriptHost
