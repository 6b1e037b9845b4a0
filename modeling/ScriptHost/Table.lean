/-!
# Tables

A finite table from names to entries, in the order in which the names first came in.
Setting a name that is present replaces its entry in place.
-/

namespace ScriptHost

/-- The entries with `key` set to `entry`. -/
def setEntry {α : Type} (key : String) (entry : α) : List (String × α) → List (String × α)
  | [] => [(key, entry)]
  | (k, e) :: rest => if k = key then (k, entry) :: rest else (k, e) :: setEntry key entry rest

/-- A table from names to entries. -/
structure Table (α : Type) where
  entries : List (String × α)
deriving DecidableEq, Repr

namespace Table

variable {α : Type}

/-- The table without entries. -/
def empty : Table α := ⟨[]⟩

/-- The entry under a name. -/
def get? (t : Table α) (key : String) : Option α :=
  t.entries.lookup key

/-- A name has an entry. -/
def contains (t : Table α) (key : String) : Bool :=
  (t.get? key).isSome

/-- The table with the entry under a name set. -/
def set (t : Table α) (key : String) (entry : α) : Table α :=
  ⟨setEntry key entry t.entries⟩

/-- The table without the entry under a name. -/
def erase (t : Table α) (key : String) : Table α :=
  ⟨t.entries.filter (·.1 != key)⟩

/-- The entry under a name changed, if there is one. -/
def update (t : Table α) (key : String) (f : α → α) : Table α :=
  ⟨t.entries.map fun (k, e) => if k = key then (k, f e) else (k, e)⟩

/-- The entries that satisfy a test. -/
def keep (t : Table α) (p : String → α → Bool) : Table α :=
  ⟨t.entries.filter fun (k, e) => p k e⟩

/-- Every entry changed. -/
def mapEntries {β : Type} (t : Table α) (f : α → β) : Table β :=
  ⟨t.entries.map fun (k, e) => (k, f e)⟩

def size (t : Table α) : Nat := t.entries.length

def keys (t : Table α) : List String := t.entries.map (·.1)

@[simp] theorem get?_empty (key : String) : (empty : Table α).get? key = none := rfl

theorem lookup_cons_of_ne {key other : String} (h : other ≠ key) (entry : α)
    (rest : List (String × α)) :
    List.lookup other ((key, entry) :: rest) = List.lookup other rest := by
  rw [List.lookup_cons, beq_eq_false_iff_ne.2 h]

theorem get?_set (t : Table α) (key other : String) (entry : α) :
    (t.set key entry).get? other = if other = key then some entry else t.get? other := by
  obtain ⟨entries⟩ := t
  simp only [set, get?]
  induction entries with
  | nil =>
    by_cases h : other = key
    · simp [setEntry, h]
    · rw [if_neg h]; exact lookup_cons_of_ne h _ _
  | cons head rest ih =>
    obtain ⟨k, e⟩ := head
    by_cases hk : k = key
    · subst hk
      by_cases h : other = k
      · simp [setEntry, h]
      · simp only [setEntry, if_true, if_neg h, lookup_cons_of_ne h]
    · by_cases h : other = k
      · subst h; simp [setEntry, hk]
      · simp only [setEntry, if_neg hk, lookup_cons_of_ne h, ih]

theorem lookup_cons_self (key : String) (entry : α) (rest : List (String × α)) :
    List.lookup key ((key, entry) :: rest) = some entry := by
  rw [List.lookup_cons, beq_self_eq_true]

theorem get?_erase (t : Table α) (key other : String) :
    (t.erase key).get? other = if other = key then none else t.get? other := by
  obtain ⟨entries⟩ := t
  simp only [erase, get?]
  induction entries with
  | nil => simp
  | cons head rest ih =>
    obtain ⟨k, e⟩ := head
    by_cases hk : k = key
    · subst hk
      rw [List.filter_cons_of_neg (by simp), ih]
      by_cases h : other = k
      · rw [if_pos h, if_pos h]
      · rw [if_neg h, if_neg h, lookup_cons_of_ne h]
    · rw [List.filter_cons_of_pos (by simpa using hk)]
      by_cases h : other = k
      · subst h
        rw [if_neg hk, lookup_cons_self, lookup_cons_self]
      · rw [lookup_cons_of_ne h, lookup_cons_of_ne h, ih]

theorem get?_update (t : Table α) (key other : String) (f : α → α) :
    (t.update key f).get? other = if other = key then (t.get? other).map f else t.get? other := by
  obtain ⟨entries⟩ := t
  simp only [update, get?]
  induction entries with
  | nil => simp
  | cons head rest ih =>
    obtain ⟨k, e⟩ := head
    rw [List.map_cons]
    by_cases h : other = k
    · subst h
      by_cases hk : other = key
      · simp only [if_pos hk, lookup_cons_self, Option.map_some]
      · simp only [if_neg hk, lookup_cons_self]
    · rw [lookup_cons_of_ne h]
      split <;> rw [lookup_cons_of_ne h, ih]

theorem get?_mapEntries {β : Type} (t : Table α) (f : α → β) (key : String) :
    (t.mapEntries f).get? key = (t.get? key).map f := by
  obtain ⟨entries⟩ := t
  simp only [mapEntries, get?]
  induction entries with
  | nil => rfl
  | cons head rest ih =>
    obtain ⟨k, e⟩ := head
    rw [List.map_cons]
    by_cases h : key = k
    · subst h; simp only [lookup_cons_self, Option.map_some]
    · rw [lookup_cons_of_ne h, lookup_cons_of_ne h, ih]

/-- Setting the entry that is there changes nothing. -/
theorem set_of_get? {t : Table α} {key : String} {entry : α} (h : t.get? key = some entry) :
    t.set key entry = t := by
  obtain ⟨entries⟩ := t
  simp only [set, get?, mk.injEq] at h ⊢
  induction entries with
  | nil => cases h
  | cons head rest ih =>
    obtain ⟨k, e⟩ := head
    by_cases hk : k = key
    · subst hk
      rw [lookup_cons_self] at h
      cases h
      exact if_pos rfl
    · rw [lookup_cons_of_ne (fun heq => hk heq.symm)] at h
      rw [setEntry, if_neg hk, ih h]

theorem set_set (t : Table α) (key : String) (old new : α) :
    (t.set key old).set key new = t.set key new := by
  obtain ⟨entries⟩ := t
  simp only [set, mk.injEq]
  induction entries with
  | nil => exact if_pos rfl
  | cons head rest ih =>
    obtain ⟨k, e⟩ := head
    by_cases hk : k = key
    · rw [setEntry, if_pos hk, setEntry, if_pos hk, setEntry, if_pos hk]
    · rw [setEntry, if_neg hk, setEntry, if_neg hk, setEntry, if_neg hk, ih]

theorem mapEntries_set {β : Type} (t : Table α) (f : α → β) (key : String) (entry : α) :
    (t.set key entry).mapEntries f = (t.mapEntries f).set key (f entry) := by
  obtain ⟨entries⟩ := t
  simp only [set, mapEntries, mk.injEq]
  induction entries with
  | nil => rfl
  | cons head rest ih =>
    obtain ⟨k, e⟩ := head
    by_cases hk : k = key
    · rw [setEntry, if_pos hk, List.map_cons, List.map_cons, setEntry, if_pos hk]
    · rw [setEntry, if_neg hk, List.map_cons, List.map_cons, setEntry, if_neg hk, ih]

theorem mem_keys_iff {t : Table α} {key : String} : key ∈ t.keys ↔ t.get? key ≠ none := by
  obtain ⟨entries⟩ := t
  simp only [keys, get?]
  induction entries with
  | nil => simp
  | cons head rest ih =>
      obtain ⟨k, e⟩ := head
      by_cases h : key = k
      · subst h
        simp
      · rw [lookup_cons_of_ne h, List.map_cons, List.mem_cons, ih]
        exact ⟨fun hm => hm.resolve_left h, Or.inr⟩

theorem keys_set_of_some {t : Table α} {key : String} {old : α} (h : t.get? key = some old)
    (entry : α) : (t.set key entry).keys = t.keys := by
  obtain ⟨entries⟩ := t
  simp only [keys, get?, set] at h ⊢
  induction entries with
  | nil => cases h
  | cons head rest ih =>
      obtain ⟨k, e⟩ := head
      by_cases hk : k = key
      · rw [setEntry, if_pos hk, List.map_cons, List.map_cons]
      · rw [lookup_cons_of_ne (fun heq => hk heq.symm)] at h
        rw [setEntry, if_neg hk, List.map_cons, List.map_cons, ih h]

theorem keys_set_of_none {t : Table α} {key : String} (h : t.get? key = none) (entry : α) :
    (t.set key entry).keys = t.keys ++ [key] := by
  obtain ⟨entries⟩ := t
  simp only [keys, get?, set] at h ⊢
  induction entries with
  | nil => rfl
  | cons head rest ih =>
      obtain ⟨k, e⟩ := head
      by_cases hk : k = key
      · subst hk
        rw [lookup_cons_self] at h
        cases h
      · rw [lookup_cons_of_ne (fun heq => hk heq.symm)] at h
        rw [setEntry, if_neg hk, List.map_cons, List.map_cons, ih h, List.cons_append]

theorem nodup_keys_set {t : Table α} (h : t.keys.Nodup) (key : String) (entry : α) :
    (t.set key entry).keys.Nodup := by
  cases hg : t.get? key with
  | some old =>
      rw [keys_set_of_some hg]
      exact h
  | none =>
      rw [keys_set_of_none hg]
      refine List.nodup_append.2 ⟨h, List.pairwise_singleton _ key, ?_⟩
      intro a ha b hb hab
      rw [List.mem_singleton.1 hb] at hab
      exact mem_keys_iff.1 (hab ▸ ha) hg

theorem nodup_keys_keep {t : Table α} (h : t.keys.Nodup) (p : String → α → Bool) :
    (t.keep p).keys.Nodup := by
  refine List.Nodup.sublist ?_ h
  exact List.filter_sublist.map _

theorem nodup_keys_erase {t : Table α} (h : t.keys.Nodup) (key : String) :
    (t.erase key).keys.Nodup := by
  refine List.Nodup.sublist ?_ h
  exact List.filter_sublist.map _

theorem get?_keep_of_none {t : Table α} {key : String} (h : t.get? key = none)
    (p : String → α → Bool) : (t.keep p).get? key = none := by
  obtain ⟨entries⟩ := t
  simp only [keep, get?] at h ⊢
  induction entries with
  | nil => rfl
  | cons head rest ih =>
      obtain ⟨k, e⟩ := head
      by_cases hk : key = k
      · subst hk
        rw [lookup_cons_self] at h
        cases h
      · rw [lookup_cons_of_ne hk] at h
        rw [List.filter_cons]
        split
        · rw [lookup_cons_of_ne hk, ih h]
        · exact ih h

/-- What is kept under a name is what was there, if it satisfies the test, when no name occurs
twice. -/
theorem get?_keep {t : Table α} (hd : t.keys.Nodup) (p : String → α → Bool) (key : String) :
    (t.keep p).get? key = (t.get? key).filter (p key) := by
  obtain ⟨entries⟩ := t
  simp only [keys, keep, get?] at hd ⊢
  induction entries with
  | nil => rfl
  | cons head rest ih =>
      obtain ⟨k, e⟩ := head
      obtain ⟨hk, hrest⟩ := List.nodup_cons.1 hd
      rw [List.filter_cons]
      by_cases heq : key = k
      · subst heq
        rw [lookup_cons_self, Option.filter_some]
        split
        · exact lookup_cons_self ..
        · have hnone : (⟨rest⟩ : Table α).get? key = none := by
            by_cases hg : (⟨rest⟩ : Table α).get? key = none
            · exact hg
            · exact absurd (mem_keys_iff.2 hg) hk
          exact get?_keep_of_none hnone p
      · rw [lookup_cons_of_ne heq]
        split
        · rw [lookup_cons_of_ne heq]
          exact ih hrest
        · exact ih hrest

theorem get?_of_get?_keep {t : Table α} (hd : t.keys.Nodup) {p : String → α → Bool}
    {key : String} {entry : α} (h : (t.keep p).get? key = some entry) :
    t.get? key = some entry :=
  (Option.filter_eq_some_iff.1 ((get?_keep hd p key).symm.trans h)).1

theorem get?_of_mem {t : Table α} (hd : t.keys.Nodup) {key : String} {entry : α}
    (h : (key, entry) ∈ t.entries) : t.get? key = some entry := by
  obtain ⟨entries⟩ := t
  simp only [keys, get?] at hd h ⊢
  induction entries with
  | nil => cases h
  | cons head rest ih =>
      obtain ⟨k, e⟩ := head
      obtain ⟨hk, hrest⟩ := List.nodup_cons.1 hd
      rcases List.mem_cons.1 h with heq | hmem
      · cases heq
        exact lookup_cons_self ..
      · have hne : key ≠ k := by
          rintro rfl
          exact hk (List.mem_map.2 ⟨_, hmem, rfl⟩)
        rw [lookup_cons_of_ne hne]
        exact ih hrest hmem

/-- Nothing is erased under a name without an entry. -/
theorem erase_of_none {t : Table α} {key : String} (h : t.get? key = none) : t.erase key = t := by
  obtain ⟨entries⟩ := t
  simp only [erase, mk.injEq, List.filter_eq_self]
  intro entry hentry
  have hkey : entry.1 ∈ (⟨entries⟩ : Table α).keys := List.mem_map_of_mem hentry
  have hne : entry.1 ≠ key := fun heq => mem_keys_iff.1 (heq ▸ hkey) h
  simpa using hne

end Table

end ScriptHost
