import Mathlib.Data.List.Perm.Basic
import Mathlib.Data.List.Sort
import ScriptHost.Package.Resolver

/-!
# The order of listing

A directory is listed in any order. The entries of every listing have the same names, of directories
and of files, and what is under a name is the same, in one order or another. The files come out in
ascending order, however they are listed. A path shows the names that it is made of.
-/

namespace ScriptHost

namespace FileTree

variable {t u : FileTree} {entries : List (String × FileTree)} {p q : String × FileTree}

/-- A name that an entry of a directory can have. -/
def IsFileName (name : String) : Prop := name ≠ "" ∧ '/' ∉ name.toList

instance (name : String) : Decidable (IsFileName name) :=
  inferInstanceAs (Decidable (name ≠ "" ∧ '/' ∉ name.toList))

/-- The tree is as a listing shows it: no two entries of a directory have one name. -/
inductive IsListed : FileTree → Prop
  | file (content : String) : IsListed (file content)
  | dir {entries : List (String × FileTree)} (names : (entries.map (·.1)).Nodup)
      (valid : ∀ e ∈ entries, IsFileName e.1) (inner : ∀ e ∈ entries, IsListed e.2) :
      IsListed (dir entries)

theorem IsListed.names (h : t.IsListed) : (t.entries.map (·.1)).Nodup := by
  cases h with
  | file => exact .nil
  | dir names => exact names

theorem IsListed.isFileName (h : t.IsListed) (hp : p ∈ t.entries) : IsFileName p.1 := by
  cases h with
  | file => cases hp
  | dir _ valid => exact valid p hp

theorem IsListed.of_mem (h : t.IsListed) (hp : p ∈ t.entries) : p.2.IsListed := by
  cases h with
  | file => cases hp
  | dir _ _ inner => exact inner p hp

@[simp] theorem isListed_file (content : String) : (file content).IsListed := .file content

@[simp] theorem isListed_dir :
    (dir entries).IsListed ↔
      (entries.map (·.1)).Nodup ∧ ∀ e ∈ entries, IsFileName e.1 ∧ e.2.IsListed :=
  ⟨fun h => ⟨h.names, fun _ he => ⟨h.isFileName he, h.of_mem he⟩⟩,
    fun h => .dir h.1 (fun e he => (h.2 e he).1) fun e he => (h.2 e he).2⟩

/-- The same entries under the same names, listed in any order, there and below. -/
inductive Relisted : FileTree → FileTree → Prop
  | file (content : String) : Relisted (file content) (file content)
  | dir {es fs : List (String × FileTree)} (names : (es.map (·.1)).Perm (fs.map (·.1)))
      (inner : ∀ e ∈ es, ∀ f ∈ fs, e.1 = f.1 → Relisted e.2 f.2) : Relisted (dir es) (dir fs)

theorem Relisted.symm (h : Relisted t u) : Relisted u t := by
  induction h with
  | file content => exact .file content
  | dir names _ ih => exact .dir names.symm fun f hf e he hname => ih e he f hf hname.symm

theorem Relisted.isDir_eq (h : Relisted t u) : t.isDir = u.isDir := by
  cases h with
  | file => rfl
  | dir => rfl

theorem Relisted.names (h : Relisted t u) :
    (t.entries.map (·.1)).Perm (u.entries.map (·.1)) := by
  cases h with
  | file => exact .nil
  | dir names => exact names

theorem Relisted.exists_entry (h : Relisted t u) (hp : p ∈ t.entries) :
    ∃ q ∈ u.entries, q.1 = p.1 ∧ Relisted p.2 q.2 := by
  obtain ⟨q, hq, hname⟩ := List.mem_map.1 (h.names.mem_iff.1 (List.mem_map_of_mem hp))
  cases h with
  | file => cases hp
  | dir _ inner => exact ⟨q, hq, hname, inner p hp q hq hname.symm⟩

theorem IsListed.of_relisted (h : t.IsListed) (hr : Relisted t u) : u.IsListed := by
  induction hr with
  | file => exact h
  | @dir es fs names _ ih =>
      have hentry : ∀ f ∈ fs, IsFileName f.1 ∧ f.2.IsListed := by
        intro f hf
        obtain ⟨e, he, hname⟩ := List.mem_map.1 (names.mem_iff.2 (List.mem_map_of_mem hf))
        exact ⟨hname ▸ h.isFileName he, ih e he f hf hname (h.of_mem he)⟩
      exact isListed_dir.2 ⟨names.nodup_iff.1 h.names, hentry⟩

/-- In a directory, a name is that of one entry. -/
theorem IsListed.eq_of_name (h : t.IsListed) (hp : p ∈ t.entries) (hq : q ∈ t.entries)
    (hname : p.1 = q.1) : p = q :=
  List.inj_on_of_nodup_map h.names hp hq hname

theorem IsListed.relisted_self (h : t.IsListed) : Relisted t t := by
  induction h with
  | file content => exact .file content
  | dir names _ _ ih =>
      refine .dir (.refl _) fun e he f hf hname => ?_
      rw [← List.inj_on_of_nodup_map names he hf hname]
      exact ih e he

theorem relisted_of_perm (h : (dir entries).IsListed) {listing : List (String × FileTree)}
    (hp : entries.Perm listing) : Relisted (dir entries) (dir listing) := by
  refine .dir (hp.map _) fun e he f hf hname => ?_
  rw [← h.eq_of_name he (hp.mem_iff.2 hf) hname]
  exact (h.of_mem he).relisted_self

/-- One entry is listed first, and within it the entries are listed anew. -/
theorem exists_relisted_front (h : t.IsListed) (hp : p ∈ t.entries) (hu : Relisted p.2 u) :
    ∃ rest, Relisted t (dir ((p.1, u) :: rest)) := by
  cases h with
  | file => cases hp
  | @dir entries names valid inner =>
      have hlisted : (dir entries).IsListed := .dir names valid inner
      obtain ⟨before, behind, hentries⟩ := List.append_of_mem hp
      have hperm : entries.Perm (p :: (before ++ behind)) := by
        rw [show entries = before ++ p :: behind from hentries]
        exact List.perm_middle
      refine ⟨before ++ behind, .dir (hperm.map _) fun e he f hf hname => ?_⟩
      rcases List.mem_cons.1 hf with rfl | hf
      · rw [hlisted.eq_of_name he hp hname]
        exact hu
      · rw [← hlisted.eq_of_name he (hperm.mem_iff.2 (List.mem_cons_of_mem p hf)) hname]
        exact (inner e he).relisted_self

/-- The directories, or the files, among the entries have the same names in every listing. -/
theorem Relisted.perm_names (h : Relisted t u) (ht : t.IsListed) (wanted : Bool → Bool) :
    ((t.entries.filter fun e => wanted e.2.isDir).map (·.1)).Perm
      ((u.entries.filter fun e => wanted e.2.isDir).map (·.1)) := by
  have hnodup : ∀ {t : FileTree}, t.IsListed →
      ((t.entries.filter fun e => wanted e.2.isDir).map (·.1)).Nodup :=
    fun ht => ht.names.sublist (List.filter_sublist.map _)
  have hsub : ∀ {t u : FileTree}, Relisted t u →
      (t.entries.filter fun e => wanted e.2.isDir).map (·.1) ⊆
        (u.entries.filter fun e => wanted e.2.isDir).map (·.1) := by
    intro t u h name hname
    obtain ⟨p, hp, rfl⟩ := List.mem_map.1 hname
    obtain ⟨hmem, hwanted⟩ := List.mem_filter.1 hp
    obtain ⟨q, hq, hname, hinner⟩ := h.exists_entry hmem
    rw [hinner.isDir_eq] at hwanted
    exact hname ▸ List.mem_map_of_mem (List.mem_filter.2 ⟨hq, hwanted⟩)
  exact (List.perm_ext_iff_of_nodup (hnodup ht) (hnodup (ht.of_relisted h))).2
    fun _ => ⟨(hsub h ·), (hsub h.symm ·)⟩

end FileTree

namespace PackageCache

open FileTree

variable {t u : FileTree} {p q : String × FileTree} {name : String}

/-- The names of the directories among the entries. -/
def directoryNames (t : FileTree) : List String := (directories t).map (·.1)

theorem isDir_of_mem_directories (hp : p ∈ directories t) : t.isDir = true := by
  cases t with
  | file => cases hp
  | dir => rfl

theorem isFileName_of_mem_directories (ht : t.IsListed) (hp : p ∈ directories t) :
    IsFileName p.1 :=
  ht.isFileName (List.mem_filter.1 hp).1

theorem isFileName_of_mem_fileNames (ht : t.IsListed) (h : name ∈ fileNames t) :
    IsFileName name := by
  rw [fileNames, List.mem_mergeSort] at h
  obtain ⟨e, he, rfl⟩ := List.mem_map.1 h
  exact ht.isFileName (List.mem_filter.1 he).1

theorem isListed_of_mem_directories (ht : t.IsListed) (hp : p ∈ directories t) : p.2.IsListed :=
  ht.of_mem (List.mem_filter.1 hp).1

theorem nodup_directoryNames (h : t.IsListed) : (directoryNames t).Nodup :=
  h.names.sublist (List.filter_sublist.map _)

theorem eq_of_directoryName (h : t.IsListed) (hp : p ∈ directories t) (hq : q ∈ directories t)
    (hname : p.1 = q.1) : p = q :=
  List.inj_on_of_nodup_map (nodup_directoryNames h) hp hq hname

theorem exists_directory (h : Relisted t u) (hp : p ∈ directories t) :
    ∃ q ∈ directories u, q.1 = p.1 ∧ Relisted p.2 q.2 := by
  obtain ⟨hmem, hdir⟩ := List.mem_filter.1 hp
  obtain ⟨q, hq, hname, hinner⟩ := h.exists_entry hmem
  exact ⟨q, List.mem_filter.2 ⟨hq, hinner.isDir_eq ▸ hdir⟩, hname, hinner⟩

theorem perm_directoryNames (h : Relisted t u) (ht : t.IsListed) :
    (directoryNames t).Perm (directoryNames u) :=
  h.perm_names ht id

/-- Files are given in ascending order, however they are listed. -/
theorem fileNames_eq (h : Relisted t u) (ht : t.IsListed) : fileNames t = fileNames u :=
  (((List.mergeSort_perm _ _).trans (h.perm_names ht not)).trans
    (List.mergeSort_perm _ _).symm).eq_of_pairwise'
    (List.pairwise_mergeSort' (· ≤ ·) _) (List.pairwise_mergeSort' (· ≤ ·) _)

theorem fileNames_eq_insertionSort (t : FileTree) :
    fileNames t = ((t.entries.filter (!·.2.isDir)).map (·.1)).insertionSort (· ≤ ·) :=
  List.mergeSort_eq_insertionSort _ _

/-! ## Paths -/

/-- The path with a separator at its end. -/
def closed (path : String) : String :=
  if ['/'].isSuffixOf path.toList then path else path ++ "/"

theorem join_eq (path name : String) : join path name = closed path ++ name := by
  rw [join, closed]
  split
  · rfl
  · rfl

theorem isSuffixOf_closed (path : String) : ['/'].isSuffixOf (closed path).toList = true := by
  rw [closed]
  split
  · assumption
  · rw [String.toList_append]
    exact List.isSuffixOf_iff_suffix.2 ⟨path.toList, rfl⟩

/-- A path that ends with the name of a file does not end with a separator. -/
theorem closed_append (path : String) (h : IsFileName name) :
    closed (path ++ name) = path ++ name ++ "/" := by
  have hopen : ¬ ['/'].isSuffixOf (path ++ name).toList = true := by
    intro hsuffix
    rw [String.toList_append, List.isSuffixOf_iff_suffix] at hsuffix
    have hne : name.toList ≠ [] := fun hnil => h.1 (String.toList_eq_nil_iff.1 hnil)
    have hlast : name.toList.getLast hne = '/' := by
      rw [← List.getLast_append_of_ne_nil (l := path.toList) (by simp [hne]) hne]
      exact (hsuffix.getLast (by simp)).symm
    exact h.2 (hlast ▸ List.getLast_mem hne)
  rw [closed, if_neg hopen]

/-- The last separator of a path stands before the name at its end. -/
theorem eq_of_append_eq {front other back rest : List Char} (hback : '/' ∉ back)
    (hrest : '/' ∉ rest) (h : front ++ '/' :: back = other ++ '/' :: rest) :
    front = other ∧ back = rest := by
  rcases List.append_eq_append_iff.1 h with ⟨between, rfl, hbetween⟩ | ⟨between, rfl, hbetween⟩
  · cases between with
    | nil => exact ⟨(List.append_nil _).symm, (List.cons.inj hbetween).2⟩
    | cons c between =>
        obtain ⟨rfl, hmem⟩ := List.cons.inj hbetween
        exact absurd (hmem ▸ List.mem_append_right _ List.mem_cons_self) hback
  · cases between with
    | nil => exact ⟨List.append_nil _, (List.cons.inj hbetween).2.symm⟩
    | cons c between =>
        obtain ⟨rfl, hmem⟩ := List.cons.inj hbetween
        exact absurd (hmem ▸ List.mem_append_right _ List.mem_cons_self) hrest

/-- A path tells the name at its end, and what stands before it. -/
theorem join_inj {path other tail : String} (hname : IsFileName name) (htail : IsFileName tail)
    (h : join path name = join other tail) : closed path = closed other ∧ name = tail := by
  obtain ⟨front, hfront⟩ := List.isSuffixOf_iff_suffix.1 (isSuffixOf_closed path)
  obtain ⟨back, hback⟩ := List.isSuffixOf_iff_suffix.1 (isSuffixOf_closed other)
  have hlist : front ++ '/' :: name.toList = back ++ '/' :: tail.toList := by
    rw [join_eq, join_eq, ← String.toList_inj, String.toList_append, String.toList_append,
      ← hfront, ← hback, List.append_assoc, List.append_assoc] at h
    exact h
  obtain ⟨rfl, hnames⟩ := eq_of_append_eq hname.2 htail.2 hlist
  exact ⟨String.toList_inj.1 (hfront.symm.trans hback), String.toList_inj.1 hnames⟩

theorem closed_join (path : String) (h : IsFileName name) :
    closed (join path name) = join path name ++ "/" := by
  rw [join_eq, closed_append _ h]

/-- So does a path that leads on. -/
theorem closed_join_inj {path other tail : String} (hname : IsFileName name)
    (htail : IsFileName tail) (h : closed (join path name) = closed (join other tail)) :
    closed path = closed other ∧ name = tail := by
  rw [closed_join _ hname, closed_join _ htail, String.append_left_inj] at h
  exact join_inj hname htail h

end PackageCache

end ScriptHost
