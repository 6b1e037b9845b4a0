/-!
# Ordered sets of names

A set of texts kept in ascending order of their characters. The order is part of the
type, so a search through the set meets its members in that order.
-/

namespace ScriptHost

/-- `x` put into its place in an ascending list. -/
def insertOrdered (x : String) : List String → List String
  | [] => [x]
  | y :: ys => if x < y then x :: y :: ys else if x = y then y :: ys else y :: insertOrdered x ys

theorem mem_insertOrdered {x z : String} {xs : List String} :
    z ∈ insertOrdered x xs ↔ z = x ∨ z ∈ xs := by
  induction xs with
  | nil => simp [insertOrdered]
  | cons y ys ih =>
    unfold insertOrdered
    split
    · simp
    · split
      · rename_i h; subst h; simp
      · simp only [List.mem_cons, ih]
        constructor
        · rintro (h | h | h) <;> simp [h]
        · rintro (h | h | h) <;> simp [h]

theorem pairwise_insertOrdered {x : String} {xs : List String} (h : xs.Pairwise (· < ·)) :
    (insertOrdered x xs).Pairwise (· < ·) := by
  induction xs with
  | nil => simp [insertOrdered]
  | cons y ys ih =>
    rw [List.pairwise_cons] at h
    unfold insertOrdered
    split
    · rename_i hxy
      refine List.pairwise_cons.2 ⟨?_, List.pairwise_cons.2 h⟩
      intro z hz
      rcases List.mem_cons.1 hz with rfl | hz
      · exact hxy
      · exact String.lt_trans hxy (h.1 z hz)
    · split
      · exact List.pairwise_cons.2 h
      · rename_i hxy hne
        refine List.pairwise_cons.2 ⟨?_, ih h.2⟩
        intro z hz
        rcases mem_insertOrdered.1 hz with rfl | hz
        · exact Std.lt_of_le_of_ne (Std.not_lt.1 hxy) (fun e => hne e.symm)
        · exact h.1 z hz

theorem nodup_of_ascending {xs : List String} (h : xs.Pairwise (· < ·)) : xs.Nodup := by
  refine List.Pairwise.imp ?_ h
  rintro a b hlt rfl
  exact String.lt_irrefl a hlt

/-- Ascending lists with the same members are equal. -/
theorem ascending_ext {xs ys : List String} (hx : xs.Pairwise (· < ·)) (hy : ys.Pairwise (· < ·))
    (h : ∀ z, z ∈ xs ↔ z ∈ ys) : xs = ys :=
  ((List.perm_ext_iff_of_nodup (nodup_of_ascending hx) (nodup_of_ascending hy)).2 h).eq_of_pairwise
    (fun _ _ _ _ hab hba => absurd hba (String.lt_asymm hab)) hx hy

/-- A set of names in ascending order. -/
structure NameSet where
  names : List String
  ascending : names.Pairwise (· < ·) := by decide

namespace NameSet

instance : DecidableEq NameSet := fun a b =>
  decidable_of_iff (a.names = b.names) (by cases a; cases b; simp)

instance : Membership String NameSet := ⟨fun s x => x ∈ s.names⟩

/-- A set is known by its members. -/
theorem ext {s t : NameSet} (h : ∀ z, z ∈ s ↔ z ∈ t) : s = t := by
  obtain ⟨xs, hx⟩ := s
  obtain ⟨ys, hy⟩ := t
  have : xs = ys := ascending_ext hx hy h
  subst this
  rfl

/-- The set without members. -/
def empty : NameSet := ⟨[], .nil⟩

/-- The set with one more member. -/
def insert (s : NameSet) (x : String) : NameSet :=
  ⟨insertOrdered x s.names, pairwise_insertOrdered s.ascending⟩

/-- The set with more members. -/
def insertAll (s : NameSet) (xs : List String) : NameSet :=
  xs.foldl insert s

/-- The set of the listed names. -/
def ofList (xs : List String) : NameSet :=
  insertAll empty xs

def isEmpty (s : NameSet) : Bool := s.names.isEmpty

def contains (s : NameSet) (x : String) : Bool := s.names.contains x

@[simp] theorem mem_insert {s : NameSet} {x z : String} : z ∈ s.insert x ↔ z = x ∨ z ∈ s :=
  mem_insertOrdered

/-- Putting in a member changes nothing. -/
theorem insert_of_contains {s : NameSet} {x : String} (h : s.contains x = true) :
    s.insert x = s := by
  apply ext
  intro z
  rw [mem_insert]
  constructor
  · rintro (rfl | hz)
    · exact List.contains_iff_mem.1 h
    · exact hz
  · exact Or.inr

theorem mem_insertAll {s : NameSet} {xs : List String} {z : String} :
    z ∈ s.insertAll xs ↔ z ∈ xs ∨ z ∈ s := by
  induction xs generalizing s with
  | nil => simp [insertAll]
  | cons x xs ih =>
    have := ih (s := s.insert x)
    simp only [insertAll, List.foldl_cons] at this ⊢
    rw [this]
    simp only [mem_insert, List.mem_cons]
    constructor
    · rintro (h | h | h) <;> simp [h]
    · rintro ((h | h) | h) <;> simp [h]

end NameSet

end ScriptHost
