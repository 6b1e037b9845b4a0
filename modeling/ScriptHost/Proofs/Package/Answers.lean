import ScriptHost.Proofs.Package.Listings
import ScriptHost.Proofs.Package.Names
import ScriptHost.Proofs.Package.Overtaking

/-!
# Answers of package directories

Of the packages whose names differ in nothing but the case of ASCII letters, the first in the
listing is taken, of versions that are equal the last, and of directories that are read alike any.
So the answer of a package directory may be any of several. Which ones they are is said here without
the order, by what is in the directories; and from that, when there is only one.
-/

namespace ScriptHost

namespace ResolveError

inductive Kind where
  | notFound
  | empty
  | unreadable
deriving DecidableEq

def kind : ResolveError → Kind
  | notFound _ => .notFound
  | empty _ => .empty
  | unreadable _ _ => .unreadable

end ResolveError

namespace PackageCache

open FileTree

variable {legible : String → String} {root : String} {t u : FileTree} {reference : Reference}
  {p q v w : String × FileTree} {name : String} {answer : Except ResolveError Resolved}

/-! ## One package -/

/-- The name of the version that is picked among these in their order. -/
def pick? (legible : String → String) (reference : Reference) (names : List String) :
    Option String :=
  match reference.version with
  | some wanted => names.find? fun name => legible name == wanted
  | none => Version.latest? legible names

/-- The version may be picked among these, in one order or another. -/
def MayPick (legible : String → String) (reference : Reference) (names : List String)
    (name : String) : Prop :=
  match reference.version with
  | some wanted => legible name = wanted ∧ name ∈ names
  | none => Version.Leads legible names name

section Picks

variable {names row : List String} {wanted : String}

theorem mayPick_of_some (h : reference.version = some wanted) :
    MayPick legible reference names name ↔ legible name = wanted ∧ name ∈ names := by
  rw [MayPick, h]

theorem mayPick_of_none (h : reference.version = none) :
    MayPick legible reference names name ↔ Version.Leads legible names name := by
  rw [MayPick, h]

theorem MayPick.mem (h : MayPick legible reference names name) : name ∈ names := by
  cases hversion : reference.version with
  | some wanted => exact ((mayPick_of_some hversion).1 h).2
  | none => exact ((mayPick_of_none hversion).1 h).mem

theorem MayPick.of_perm (h : MayPick legible reference names name) (hp : names.Perm row) :
    MayPick legible reference row name := by
  cases hversion : reference.version with
  | some wanted =>
      obtain ⟨hname, hmem⟩ := (mayPick_of_some hversion).1 h
      exact (mayPick_of_some hversion).2 ⟨hname, hp.mem_iff.1 hmem⟩
  | none => exact (mayPick_of_none hversion).2 (((mayPick_of_none hversion).1 h).of_perm hp)

theorem mayPick_of_pick? (h : pick? legible reference names = some name) :
    MayPick legible reference names name := by
  rw [pick?] at h
  split at h
  · rename_i wanted hversion
    have hname := List.find?_some h
    exact (mayPick_of_some hversion).2 ⟨beq_iff_eq.1 hname, List.mem_of_find?_eq_some h⟩
  · rename_i hversion
    exact (mayPick_of_none hversion).2 (Version.leads_of_latest? h)

theorem not_mayPick_of_pick? (h : pick? legible reference names = none) :
    ¬ MayPick legible reference names name := by
  intro hpick
  rw [pick?] at h
  split at h
  · rename_i wanted hversion
    exact List.find?_eq_none.1 h name hpick.mem
      (beq_iff_eq.2 ((mayPick_of_some hversion).1 hpick).1)
  · obtain ⟨first, rest, rfl⟩ := List.exists_cons_of_ne_nil (List.ne_nil_of_mem hpick.mem)
    cases h

/-- A version that may be picked is picked in some order: one that is asked for, where it comes
first, and without one that is asked for, one that leads. -/
theorem MayPick.exists_row (h : MayPick legible reference names name) (hd : names.Nodup) :
    ∃ row, row.Perm names ∧ pick? legible reference row = some name := by
  cases hversion : reference.version with
  | some wanted =>
      obtain ⟨hname, hmem⟩ := (mayPick_of_some hversion).1 h
      refine ⟨name :: names.erase name, (List.perm_cons_erase hmem).symm, ?_⟩
      rw [pick?, hversion]
      exact List.find?_cons_of_pos (beq_iff_eq.2 hname)
  | none =>
      obtain ⟨row, hrow, hlatest⟩ :=
        (Version.leads_iff hd).1 ((mayPick_of_none hversion).1 h)
      exact ⟨row, hrow, by rw [pick?, hversion]; exact hlatest⟩

end Picks

/-- Which directory is picked depends on the names. -/
theorem map_versionDir? (versions : List (String × FileTree)) :
    (versionDir? legible reference versions).map (·.1) =
      pick? legible reference (versions.map (·.1)) := by
  cases hversion : reference.version with
  | some wanted =>
      simp only [versionDir?, pick?, hversion, List.find?_map]
      rfl
  | none =>
      simp only [versionDir?, pick?, hversion]
      exact Version.latest?_map legible (fun v : String × FileTree => v.1) versions

theorem mayPick_of_versionDir? (h : versionDir? legible reference (directories t) = some v) :
    MayPick legible reference (directoryNames t) v.1 := by
  apply mayPick_of_pick?
  rw [directoryNames, ← map_versionDir?, h, Option.map_some]

theorem not_mayPick_of_versionDir? (h : versionDir? legible reference (directories t) = none) :
    ¬ MayPick legible reference (directoryNames t) name := by
  apply not_mayPick_of_pick?
  rw [directoryNames, ← map_versionDir?, h, Option.map_none]

/-- Directories are listed in the order of their names, the other entries behind them. -/
theorem exists_relisted_names {names : List String} (ht : t.IsListed) (hdir : t.isDir = true)
    (hnames : names.Perm (directoryNames t)) : ∃ u, Relisted t u ∧ directoryNames u = names := by
  cases t with
  | file => cases hdir
  | dir entries =>
      obtain ⟨listing, rfl, hlisting⟩ :
          Relation.Comp (· = List.map (·.1) ·) List.Perm names (directories (dir entries)) := by
        rw [List.eq_map_comp_perm]
        exact hnames
      have hperm : entries.Perm (listing ++ entries.filter (!·.2.isDir)) :=
        (List.filter_append_perm (·.2.isDir) entries).symm.trans (hlisting.symm.append_right _)
      have hall : ∀ e ∈ listing, e.2.isDir = true :=
        fun e he => (List.mem_filter.1 (hlisting.mem_iff.1 he)).2
      have hnone : (entries.filter (!·.2.isDir)).filter (·.2.isDir) = [] := by
        rw [List.filter_filter]
        simp
      refine ⟨_, relisted_of_perm ht hperm, ?_⟩
      rw [directoryNames, directories, FileTree.entries, List.filter_append,
        List.filter_eq_self.2 hall, hnone, List.append_nil]

/-- Where a version may be picked, the package can be listed so that it is. -/
theorem MayPick.exists_listing (h : MayPick legible reference (directoryNames t) name)
    (ht : t.IsListed) : ∃ u, Relisted t u ∧
      ∃ files, versionDir? legible reference (directories u) = some (name, files) := by
  obtain ⟨v, hv, rfl⟩ := List.mem_map.1 h.mem
  obtain ⟨row, hrow, hpick⟩ := h.exists_row (nodup_directoryNames ht)
  obtain ⟨u, hu, rfl⟩ := exists_relisted_names ht (isDir_of_mem_directories hv) hrow
  rw [directoryNames, ← map_versionDir?, Option.map_eq_some_iff] at hpick
  obtain ⟨found, hfound, hname⟩ := hpick
  exact ⟨u, hu, found.2, by rw [hfound, ← hname]⟩

/-! ## Answers -/

/-- The resolver of a directory with this content. -/
def answerOf (legible : String → String) (root : String) (t : FileTree) (reference : Reference) :
    Except ResolveError Resolved :=
  (PackageCache.mk root (.ok t)).resolverReading legible reference

/-- The directory is read as the name of the package that is asked for. -/
def IsMeant (legible : String → String) (reference : Reference) (name : String) : Prop :=
  Text.sameAsciiFold (legible name) reference.name = true

/-- What may be answered in one listing or another: any package that goes by the name may be taken,
and of its versions any that may be picked. -/
inductive MayAnswer (legible : String → String) (root : String) (t : FileTree)
    (reference : Reference) : Except ResolveError Resolved → Prop
  | unreadable (hfile : t.isDir = false) :
      MayAnswer legible root t reference (.error (.unreadable root .notADirectory))
  | noPackage (hdir : t.isDir = true)
      (hnone : ∀ p ∈ directories t, ¬ IsMeant legible reference p.1) :
      MayAnswer legible root t reference (.error (.notFound reference))
  | noVersion {p : String × FileTree} (hp : p ∈ directories t)
      (hname : IsMeant legible reference p.1)
      (hnone : ∀ name, ¬ MayPick legible reference (directoryNames p.2) name) :
      MayAnswer legible root t reference (.error (.notFound reference))
  | version {p v : String × FileTree} (hp : p ∈ directories t)
      (hname : IsMeant legible reference p.1) (hv : v ∈ directories p.2)
      (hpick : MayPick legible reference (directoryNames p.2) v.1) :
      MayAnswer legible root t reference (versionAnswer legible root p v)

theorem versionAnswer_eq (hpackage : q.1 = p.1) (hversion : w.1 = v.1) (h : Relisted v.2 w.2)
    (hv : v.2.IsListed) :
    versionAnswer legible root q w = versionAnswer legible root p v := by
  rw [versionAnswer, versionAnswer, fileNames_eq h hv, hpackage, hversion]

/-- The first package that goes by the name answers. -/
theorem answerOf_of_packageDir?
    (h : packageDir? legible reference.name (directories t) = some p) :
    answerOf legible root t reference = packageAnswer legible root reference p := by
  cases t with
  | file => cases h
  | dir entries => simp only [answerOf, resolverReading, h]

/-- Each answer is one of those that there may be. -/
theorem mayAnswer_answerOf (legible : String → String) (root : String) (t : FileTree)
    (reference : Reference) :
    MayAnswer legible root t reference (answerOf legible root t reference) := by
  cases hfound : packageDir? legible reference.name (directories t) with
  | none =>
      cases t with
      | file content => exact .unreadable rfl
      | dir entries =>
          have hanswer : answerOf legible root (dir entries) reference =
              .error (.notFound reference) := by
            simp only [answerOf, resolverReading, hfound]
          rw [hanswer]
          exact .noPackage rfl fun p hp => List.find?_eq_none.1 hfound p hp
  | some p =>
      have hp := mem_of_packageDir? hfound
      have hname : IsMeant legible reference p.1 := sameAsciiFold_of_packageDir? hfound
      rw [answerOf_of_packageDir? hfound, packageAnswer]
      cases hpicked : versionDir? legible reference (directories p.2) with
      | none => exact .noVersion hp hname fun _ => not_mayPick_of_versionDir? hpicked
      | some v =>
          exact .version hp hname (mem_of_versionDir? hpicked) (mayPick_of_versionDir? hpicked)

/-- What may be answered does not depend on the listing. -/
theorem MayAnswer.of_relisted (h : MayAnswer legible root t reference answer) (ht : t.IsListed)
    (hr : Relisted t u) : MayAnswer legible root u reference answer := by
  cases h with
  | unreadable hfile => exact .unreadable (hr.isDir_eq ▸ hfile)
  | noPackage hdir hnone =>
      refine .noPackage (hr.isDir_eq ▸ hdir) fun q hq hmeant => ?_
      obtain ⟨p, hp, hname, -⟩ := exists_directory hr.symm hq
      exact hnone p hp (hname ▸ hmeant)
  | @noVersion p hp hname hnone =>
      obtain ⟨q, hq, hsame, hinner⟩ := exists_directory hr hp
      have hperm := perm_directoryNames hinner (isListed_of_mem_directories ht hp)
      exact .noVersion hq (hsame ▸ hname) fun name hpick =>
        hnone name (hpick.of_perm hperm.symm)
  | @version p v hp hname hv hpick =>
      obtain ⟨q, hq, hsame, hinner⟩ := exists_directory hr hp
      obtain ⟨w, hw, hversion, hfiles⟩ := exists_directory hinner hv
      have hpackage := isListed_of_mem_directories ht hp
      have hperm := perm_directoryNames hinner hpackage
      rw [← versionAnswer_eq hsame hversion hfiles (isListed_of_mem_directories hpackage hv)]
      exact .version hq (hsame ▸ hname) hw (hversion ▸ hpick.of_perm hperm)

/-- What may be answered is answered in one of the listings: the package is listed first, and of its
versions the one that may be picked comes so that it is. -/
theorem MayAnswer.exists_listing (h : MayAnswer legible root t reference answer)
    (ht : t.IsListed) : ∃ u, Relisted t u ∧ answerOf legible root u reference = answer := by
  have hfirst : ∀ {p : String × FileTree} {u : FileTree}, p ∈ directories t →
      IsMeant legible reference p.1 → Relisted p.2 u →
      ∃ whole, Relisted t whole ∧ answerOf legible root whole reference =
        packageAnswer legible root reference (p.1, u) := by
    intro p u hp hname hu
    obtain ⟨hmem, hdir⟩ := List.mem_filter.1 hp
    obtain ⟨rest, hrest⟩ := exists_relisted_front ht hmem hu
    have hfirst : directories (dir ((p.1, u) :: rest)) =
        (p.1, u) :: rest.filter (·.2.isDir) :=
      List.filter_cons_of_pos (hu.isDir_eq ▸ hdir)
    refine ⟨_, hrest, answerOf_of_packageDir? ?_⟩
    rw [hfirst]
    exact List.find?_cons_of_pos hname
  cases h with
  | unreadable hfile =>
      cases t with
      | file content => exact ⟨_, .file content, rfl⟩
      | dir entries => cases hfile
  | noPackage hdir hnone =>
      refine ⟨t, ht.relisted_self, ?_⟩
      have hanswer := mayAnswer_answerOf legible root t reference
      generalize answerOf legible root t reference = given at hanswer
      cases hanswer with
      | unreadable hfile => exact nomatch hdir.symm.trans hfile
      | noPackage => rfl
      | noVersion hp hname => exact absurd hname (hnone _ hp)
      | version hp hname => exact absurd hname (hnone _ hp)
  | @noVersion p hp hname hnone =>
      obtain ⟨whole, hwhole, hanswer⟩ :=
        hfirst hp hname (isListed_of_mem_directories ht hp).relisted_self
      refine ⟨whole, hwhole, ?_⟩
      rw [hanswer, packageAnswer]
      cases hpicked : versionDir? legible reference (directories p.2) with
      | none => rfl
      | some v => exact absurd (mayPick_of_versionDir? hpicked) (hnone v.1)
  | @version p v hp hname hv hpick =>
      have hpackage := isListed_of_mem_directories ht hp
      obtain ⟨u, hu, files, hpicked⟩ := hpick.exists_listing hpackage
      obtain ⟨whole, hwhole, hanswer⟩ := hfirst hp hname hu
      refine ⟨whole, hwhole, ?_⟩
      obtain ⟨w, hw, hversion, hfiles⟩ := exists_directory hu hv
      have hsame : (v.1, files) = w :=
        eq_of_directoryName (hpackage.of_relisted hu) (mem_of_versionDir? hpicked) hw hversion.symm
      simp only [hanswer, packageAnswer, hpicked, hsame]
      exact versionAnswer_eq rfl hversion hfiles (isListed_of_mem_directories hpackage hv)

/-- What holds of the answers in every two listings holds of every two that may be given. -/
theorem forall_relisted_iff (ht : t.IsListed)
    (same : Except ResolveError Resolved → Except ResolveError Resolved → Prop) :
    (∀ u w, Relisted t u → Relisted t w →
        same (answerOf legible root u reference) (answerOf legible root w reference)) ↔
      ∀ first second, MayAnswer legible root t reference first →
        MayAnswer legible root t reference second → same first second := by
  constructor
  · intro hsame first second hfirst hsecond
    obtain ⟨u, hu, rfl⟩ := hfirst.exists_listing ht
    obtain ⟨w, hw, rfl⟩ := hsecond.exists_listing ht
    exact hsame u w hu hw
  · intro hsame u w hu hw
    have hgiven : ∀ {u}, Relisted t u →
        MayAnswer legible root t reference (answerOf legible root u reference) :=
      fun hu =>
        (mayAnswer_answerOf legible root _ reference).of_relisted (ht.of_relisted hu) hu.symm
    exact hsame _ _ (hgiven hu) (hgiven hw)

/-! ## Decided answers -/

/-- Among these, the version is picked in every order: it is the only one that is read as the one
asked for, or greater than all others. -/
def IsSettled (legible : String → String) (reference : Reference) (names : List String)
    (name : String) : Prop :=
  match reference.version with
  | some wanted => ∀ other ∈ names, legible other = wanted ↔ other = name
  | none => Version.Surpasses legible names name

theorem isSettled_iff {names : List String} :
    name ∈ names ∧ IsSettled legible reference names name ↔
      MayPick legible reference names name ∧
        ∀ other, MayPick legible reference names other → other = name := by
  cases hversion : reference.version with
  | some wanted =>
      simp only [mayPick_of_some hversion, IsSettled, hversion]
      constructor
      · rintro ⟨hmem, hsettled⟩
        exact ⟨⟨(hsettled name hmem).2 rfl, hmem⟩, fun other hother =>
          (hsettled other hother.2).1 hother.1⟩
      · rintro ⟨⟨hname, hmem⟩, honly⟩
        exact ⟨hmem, fun other hother => ⟨fun h => honly other ⟨h, hother⟩, fun h => h ▸ hname⟩⟩
  | none =>
      simp only [mayPick_of_none hversion, IsSettled, hversion]
      constructor
      · rintro ⟨hmem, hsurpasses⟩
        exact ⟨hsurpasses.leads hmem, fun other hother => hsurpasses.eq_of_leads hmem hother⟩
      · rintro ⟨hleads, honly⟩
        exact ⟨hleads.mem, hleads.surpasses honly⟩

/-- No package that goes by the name has a version that may be picked. -/
def IsAbsent (legible : String → String) (t : FileTree) (reference : Reference) : Prop :=
  ∀ p ∈ directories t, IsMeant legible reference p.1 →
    ∀ name, ¬ MayPick legible reference (directoryNames p.2) name

/-- Every package that goes by the name has a version that may be picked, but none of them has
files. -/
def LacksFiles (legible : String → String) (t : FileTree) (reference : Reference) : Prop :=
  ∀ p ∈ directories t, IsMeant legible reference p.1 →
    (∃ name, MayPick legible reference (directoryNames p.2) name) ∧
      ∀ v ∈ directories p.2, MayPick legible reference (directoryNames p.2) v.1 →
        fileNames v.2 = []

/-- No other package goes by the name. -/
def IsOnly (legible : String → String) (t : FileTree) (reference : Reference)
    (p : String × FileTree) : Prop :=
  p ∈ directories t ∧ ∀ q ∈ directories t, IsMeant legible reference q.1 → q = p

/-- The package is not there, or nowhere with files; or it is the only one of the name, and one of
its versions is picked in every order. -/
inductive IsDecided (legible : String → String) (t : FileTree) (reference : Reference) : Prop
  | absent (habsent : IsAbsent legible t reference)
  | empty (hempty : LacksFiles legible t reference)
  | settled {p : String × FileTree} (honly : IsOnly legible t reference p) {name : String}
      (hmem : name ∈ directoryNames p.2)
      (hsettled : IsSettled legible reference (directoryNames p.2) name)

/-- What was found, or else the kind of the error. -/
def outcome (answer : Except ResolveError Resolved) : Except ResolveError.Kind Resolved :=
  answer.mapError ResolveError.kind

theorem outcome_eq_ok_iff {found : Resolved} : outcome answer = .ok found ↔ answer = .ok found := by
  cases answer with
  | error e => exact iff_of_false nofun nofun
  | ok other => rw [outcome, Except.mapError, Except.ok.injEq, Except.ok.injEq]

theorem outcome_versionAnswer_of_nil (hnone : fileNames v.2 = []) :
    outcome (versionAnswer legible root p v) = .error .empty := by
  rw [versionAnswer, hnone]
  rfl

theorem versionAnswer_of_ne_nil (hsome : fileNames v.2 ≠ []) :
    versionAnswer legible root p v = .ok ⟨⟨legible p.1, some (legible v.1)⟩,
      (fileNames v.2).map (join (join (join root p.1) v.1))⟩ := by
  rw [versionAnswer]
  split
  · exact absurd ‹_› hsome
  · rfl

theorem outcome_versionAnswer_ne_notFound :
    outcome (versionAnswer legible root p v) ≠ .error .notFound := by
  by_cases hfiles : fileNames v.2 = []
  · rw [outcome_versionAnswer_of_nil hfiles]
    exact nofun
  · rw [versionAnswer_of_ne_nil hfiles]
    exact nofun

/-- An answer with files shows by their paths where they are. -/
theorem versionAnswer_inj (hpv : IsFileName p.1 ∧ IsFileName v.1) (hv : v.2.IsListed)
    (hqw : IsFileName q.1 ∧ IsFileName w.1) (hw : w.2.IsListed) (hfiles : fileNames v.2 ≠ [])
    (h : outcome (versionAnswer legible root q w) = outcome (versionAnswer legible root p v)) :
    q.1 = p.1 ∧ w.1 = v.1 := by
  rw [versionAnswer_of_ne_nil hfiles] at h
  have hfound := outcome_eq_ok_iff.1 h
  have hothers : fileNames w.2 ≠ [] := by
    intro hnone
    rw [versionAnswer, hnone] at hfound
    cases hfound
  rw [versionAnswer_of_ne_nil hothers] at hfound
  have hpaths := congrArg Resolved.artifacts (Except.ok.inj hfound)
  obtain ⟨file, more, hfile⟩ := List.exists_cons_of_ne_nil hfiles
  obtain ⟨other, others, hother⟩ := List.exists_cons_of_ne_nil hothers
  simp only [hfile, hother, List.map_cons, List.cons.injEq] at hpaths
  have hvalid : IsFileName other ∧ IsFileName file :=
    ⟨isFileName_of_mem_fileNames hw (hother ▸ List.mem_cons_self),
      isFileName_of_mem_fileNames hv (hfile ▸ List.mem_cons_self)⟩
  obtain ⟨hclosed, -⟩ := join_inj hvalid.1 hvalid.2 hpaths.1
  obtain ⟨hpackages, hversions⟩ := closed_join_inj hqw.2 hpv.2 hclosed
  exact ⟨(closed_join_inj hqw.1 hpv.1 hpackages).2, hversions⟩

/-- The outcome where no version of a package is there. -/
theorem MayAnswer.outcome_of_absent (h : MayAnswer legible root t reference answer)
    (habsent : IsAbsent legible t reference) :
    outcome answer = .error (if t.isDir then .notFound else .unreadable) := by
  cases h with
  | unreadable hfile =>
      rw [hfile]
      rfl
  | noPackage hdir =>
      rw [hdir]
      rfl
  | noVersion hp =>
      rw [isDir_of_mem_directories hp]
      rfl
  | version hp hname _ hpick => exact absurd hpick (habsent _ hp hname _)

/-- Where there are packages of the name, each with a version that may be picked, the answer is one
of these. -/
theorem MayAnswer.exists_version (h : MayAnswer legible root t reference answer)
    (hthere : ¬ IsAbsent legible t reference)
    (hall : ∀ p ∈ directories t, IsMeant legible reference p.1 →
      ∃ name, MayPick legible reference (directoryNames p.2) name) :
    ∃ p ∈ directories t, IsMeant legible reference p.1 ∧ ∃ v ∈ directories p.2,
      MayPick legible reference (directoryNames p.2) v.1 ∧
        answer = versionAnswer legible root p v := by
  cases h with
  | unreadable hfile =>
      refine absurd (fun q hq _ _ => ?_) hthere
      cases (isDir_of_mem_directories hq).symm.trans hfile
  | noPackage _ hnone => exact absurd (fun q hq hname => absurd hname (hnone q hq)) hthere
  | noVersion hp hname hnone =>
      obtain ⟨name, hpick⟩ := hall _ hp hname
      exact absurd hpick (hnone name)
  | version hp hname hv hpick => exact ⟨_, hp, hname, _, hv, hpick, rfl⟩

theorem IsDecided.outcome_eq (h : IsDecided legible t reference) (ht : t.IsListed)
    {first second : Except ResolveError Resolved}
    (hfirst : MayAnswer legible root t reference first)
    (hsecond : MayAnswer legible root t reference second) : outcome first = outcome second := by
  by_cases habsent : IsAbsent legible t reference
  · rw [hfirst.outcome_of_absent habsent, hsecond.outcome_of_absent habsent]
  cases h with
  | absent h => exact absurd h habsent
  | empty hempty =>
      have hnone : ∀ {answer}, MayAnswer legible root t reference answer →
          outcome answer = .error .empty := by
        intro answer hanswer
        obtain ⟨p, hp, hname, v, hv, hpick, rfl⟩ :=
          hanswer.exists_version habsent fun p hp hname => (hempty p hp hname).1
        exact outcome_versionAnswer_of_nil ((hempty p hp hname).2 v hv hpick)
      rw [hnone hfirst, hnone hsecond]
  | @settled p honly name hmem hsettled =>
      obtain ⟨hpick, hone⟩ := isSettled_iff.1 ⟨hmem, hsettled⟩
      have hthere : ∀ q ∈ directories t, IsMeant legible reference q.1 →
          ∃ name, MayPick legible reference (directoryNames q.2) name := by
        intro q hq hname
        rw [honly.2 q hq hname]
        exact ⟨name, hpick⟩
      obtain ⟨q, hq, hmeant, v, hv, hvpick, rfl⟩ := hfirst.exists_version habsent hthere
      obtain ⟨r, hr, hagain, w, hw, hwpick, rfl⟩ := hsecond.exists_version habsent hthere
      obtain rfl := honly.2 q hq hmeant
      obtain rfl := honly.2 r hr hagain
      rw [eq_of_directoryName (isListed_of_mem_directories ht honly.1) hv hw
        ((hone _ hvpick).trans (hone _ hwpick).symm)]

theorem isDecided_of_outcome_eq (root : String) (ht : t.IsListed)
    (h : ∀ first second, MayAnswer legible root t reference first →
      MayAnswer legible root t reference second → outcome first = outcome second) :
    IsDecided legible t reference := by
  by_cases habsent : IsAbsent legible t reference
  · exact .absent habsent
  have hpicked : ∀ {p : String × FileTree} {name : String},
      MayPick legible reference (directoryNames p.2) name → ∃ v ∈ directories p.2, v.1 = name :=
    fun hpick => List.mem_map.1 hpick.mem
  have hall : ∀ q ∈ directories t, IsMeant legible reference q.1 →
      ∃ name, MayPick legible reference (directoryNames q.2) name := by
    intro q hq hmeant
    by_contra hnone
    refine habsent fun p hp hname name hpick => ?_
    obtain ⟨v, hv, rfl⟩ := hpicked hpick
    have hsame := h _ _ (.version hp hname hv hpick)
      (.noVersion hq hmeant fun name hpick => hnone ⟨name, hpick⟩)
    exact outcome_versionAnswer_ne_notFound hsame
  by_cases hempty : ∀ p ∈ directories t, IsMeant legible reference p.1 →
      ∀ v ∈ directories p.2, MayPick legible reference (directoryNames p.2) v.1 →
        fileNames v.2 = []
  · exact .empty fun p hp hname => ⟨hall p hp hname, hempty p hp hname⟩
  push Not at hempty
  obtain ⟨p, hp, hname, v, hv, hpick, hfiles⟩ := hempty
  have hvalid : ∀ {q w : String × FileTree}, q ∈ directories t → w ∈ directories q.2 →
      (IsFileName q.1 ∧ IsFileName w.1) ∧ w.2.IsListed := by
    intro q w hq hw
    have hlisted := isListed_of_mem_directories ht hq
    exact ⟨⟨isFileName_of_mem_directories ht hq, isFileName_of_mem_directories hlisted hw⟩,
      isListed_of_mem_directories hlisted hw⟩
  -- Whatever else may be picked would be answered with the same files.
  have hsame : ∀ {q w : String × FileTree}, q ∈ directories t →
      IsMeant legible reference q.1 → w ∈ directories q.2 →
      MayPick legible reference (directoryNames q.2) w.1 → q.1 = p.1 ∧ w.1 = v.1 := by
    intro q w hq hmeant hw hwpick
    obtain ⟨hpv, hvlisted⟩ := hvalid hp hv
    obtain ⟨hqw, hwlisted⟩ := hvalid hq hw
    exact versionAnswer_inj hpv hvlisted hqw hwlisted hfiles
      (h _ _ (.version hq hmeant hw hwpick) (.version hp hname hv hpick))
  have honly : IsOnly legible t reference p := by
    refine ⟨hp, fun q hq hmeant => ?_⟩
    obtain ⟨name, hname'⟩ := hall q hq hmeant
    obtain ⟨w, hw, rfl⟩ := hpicked hname'
    exact eq_of_directoryName ht hq hp (hsame hq hmeant hw hname').1
  have hone : ∀ name, MayPick legible reference (directoryNames p.2) name → name = v.1 := by
    intro name hother
    obtain ⟨w, hw, rfl⟩ := hpicked hother
    exact (hsame hp hname hw hother).2
  obtain ⟨hmem, hsettled⟩ := isSettled_iff.2 ⟨hpick, hone⟩
  exact .settled honly hmem hsettled

theorem MayAnswer.error_cases {e : ResolveError}
    (h : MayAnswer legible root t reference (.error e)) :
    e = .notFound reference ∨ e = .unreadable root .notADirectory ∨ ∃ name, e = .empty name := by
  generalize hanswer : Except.error e = answer at h
  cases h with
  | unreadable => exact .inr (.inl (Except.error.inj hanswer))
  | noPackage => exact .inl (Except.error.inj hanswer)
  | noVersion => exact .inl (Except.error.inj hanswer)
  | @version p v =>
      rw [versionAnswer] at hanswer
      split at hanswer
      · exact .inr (.inr ⟨_, Except.error.inj hanswer⟩)
      · cases hanswer

/-- Answers of one outcome are the same if packages without files go by one name. -/
theorem MayAnswer.eq_of_outcome {first second : Except ResolveError Resolved}
    (hfirst : MayAnswer legible root t reference first)
    (hsecond : MayAnswer legible root t reference second) (h : outcome first = outcome second)
    (hnames : ∀ name other, MayAnswer legible root t reference (.error (.empty name)) →
      MayAnswer legible root t reference (.error (.empty other)) → name = other) :
    first = second := by
  cases first with
  | ok found => exact (outcome_eq_ok_iff.1 h.symm).symm
  | error e =>
      cases second with
      | ok found => exact outcome_eq_ok_iff.1 h
      | error e' =>
          have hkind : e.kind = e'.kind := Except.error.inj h
          rcases hfirst.error_cases with rfl | rfl | ⟨name, rfl⟩
          · rcases hsecond.error_cases with rfl | rfl | ⟨other, rfl⟩
            · rfl
            · cases hkind
            · cases hkind
          · rcases hsecond.error_cases with rfl | rfl | ⟨other, rfl⟩
            · cases hkind
            · rfl
            · cases hkind
          · rcases hsecond.error_cases with rfl | rfl | ⟨other, rfl⟩
            · cases hkind
            · cases hkind
            · rw [hnames name other hfirst hsecond]

/-- In one listing of a package directory or another, the answer is any of those that there may be.
In every two listings it has the same outcome exactly when this is decided by what is in the
directories, and is the same to the letter exactly when packages without files go by one name
besides. -/
theorem same_answers_iff (legible : String → String) (root : String) (t : FileTree)
    (reference : Reference) (ht : t.IsListed) :
    (∀ answer, (∃ u, Relisted t u ∧ answerOf legible root u reference = answer) ↔
        MayAnswer legible root t reference answer) ∧
      ((∀ u w, Relisted t u → Relisted t w →
          outcome (answerOf legible root u reference) =
            outcome (answerOf legible root w reference)) ↔
        IsDecided legible t reference) ∧
      ((∀ u w, Relisted t u → Relisted t w →
          answerOf legible root u reference = answerOf legible root w reference) ↔
        IsDecided legible t reference ∧
          ∀ name other, MayAnswer legible root t reference (.error (.empty name)) →
            MayAnswer legible root t reference (.error (.empty other)) → name = other) := by
  refine ⟨fun answer => ⟨?_, fun h => h.exists_listing ht⟩, ?_, ?_⟩
  · rintro ⟨u, hu, rfl⟩
    exact (mayAnswer_answerOf legible root u reference).of_relisted (ht.of_relisted hu) hu.symm
  · rw [forall_relisted_iff ht fun first second => outcome first = outcome second]
    exact ⟨isDecided_of_outcome_eq root ht, fun h _ _ => h.outcome_eq ht⟩
  · rw [forall_relisted_iff ht (· = ·)]
    constructor
    · intro hsame
      refine ⟨isDecided_of_outcome_eq root ht fun _ _ hfirst hsecond =>
        congrArg outcome (hsame _ _ hfirst hsecond), fun name other hfirst hsecond => ?_⟩
      cases hsame _ _ hfirst hsecond
      rfl
    · rintro ⟨hdecided, hnames⟩ first second hfirst hsecond
      exact hfirst.eq_of_outcome hsecond (hdecided.outcome_eq ht hfirst hsecond) hnames

/-- A package in two versions, with a directory beside the files of one. -/
def kitVersions : FileTree :=
  dir [("1.9", dir [("b.dll", file ""), ("a.dll", file "")]),
    ("1.10", dir [("d.dll", file ""), ("doc", dir []), ("c.dll", file "")])]

/-- The package, with another one and a file beside it. -/
def kitCache : FileTree := dir [("readme", file ""), ("Kits", dir []), ("Kit", kitVersions)]

theorem same_answers_iff_kit :
    kitCache.IsListed ∧ IsDecided id kitCache ⟨"kit", none⟩ ∧
      ∀ u, Relisted kitCache u → answerOf id "/p" u ⟨"kit", none⟩ =
        .ok ⟨⟨"Kit", some "1.10"⟩, ["/p/Kit/1.10/c.dll", "/p/Kit/1.10/d.dll"]⟩ := by
  have hlisted : kitCache.IsListed := by simp [kitCache, kitVersions, IsFileName]
  have honly : IsOnly id kitCache ⟨"kit", none⟩ ("Kit", kitVersions) := by
    have hothers : ∀ q ∈ [("Kits", dir []), ("Kit", kitVersions)],
        IsMeant id ⟨"kit", none⟩ q.1 → q = ("Kit", kitVersions) := by
      intro q hq hmeant
      rcases List.mem_pair.1 hq with rfl | rfl
      · exact absurd hmeant (by rw [IsMeant]; decide +kernel)
      · rfl
    exact ⟨List.mem_cons_of_mem _ List.mem_cons_self, hothers⟩
  have hsettled : IsSettled id ⟨"kit", none⟩ (directoryNames kitVersions) "1.10" := by
    rw [IsSettled]
    decide +kernel
  have hdecided := IsDecided.settled honly (by decide +kernel) hsettled
  have hfound : answerOf id "/p" kitCache ⟨"kit", none⟩ =
      .ok ⟨⟨"Kit", some "1.10"⟩, ["/p/Kit/1.10/c.dll", "/p/Kit/1.10/d.dll"]⟩ := by
    simp only [answerOf, resolverReading, kitCache, packageAnswer, versionAnswer,
      fileNames_eq_insertionSort]
    decide +kernel
  refine ⟨hlisted, hdecided, fun u hu => outcome_eq_ok_iff.1 ?_⟩
  rw [((same_answers_iff id "/p" kitCache ⟨"kit", none⟩ hlisted).2.1.2 hdecided) u kitCache hu
    hlisted.relisted_self, hfound]
  rfl

/-- A package in two versions that are equal. -/
def tiedVersions : FileTree :=
  dir [("1.0", dir [("a.dll", file "")]), ("1.00", dir [("b.dll", file "")])]

/-- Of two packages of one name the first in the listing is taken, and of two equal versions the
last. -/
theorem not_same_answers :
    (¬ ∀ (t u : FileTree), t.IsListed → Relisted t u →
        outcome (answerOf id "/p" u ⟨"kit", some "1.9"⟩) =
          outcome (answerOf id "/p" t ⟨"kit", some "1.9"⟩)) ∧
      ¬ ∀ (t u : FileTree), t.IsListed → Relisted t u →
        outcome (answerOf id "/p" u ⟨"kit", none⟩) =
          outcome (answerOf id "/p" t ⟨"kit", none⟩) := by
  constructor
  · intro hsame
    have hlisted : (dir [("kit", kitVersions), ("Kit", dir [])]).IsListed := by
      simp [kitVersions, IsFileName]
    have h := hsame _ _ hlisted (relisted_of_perm hlisted (List.Perm.swap ..))
    simp only [answerOf, resolverReading, kitVersions, packageAnswer, versionAnswer,
      fileNames_eq_insertionSort] at h
    revert h
    decide +kernel
  · intro hsame
    have hversions : tiedVersions.IsListed := by simp [tiedVersions, IsFileName]
    have hlisted : (dir [("kit", tiedVersions)]).IsListed := by simp [hversions, IsFileName]
    have hrelisted : Relisted (dir [("kit", tiedVersions)])
        (dir [("kit", dir tiedVersions.entries.reverse)]) := by
      refine .dir (.refl _) fun e he f hf _ => ?_
      rw [List.mem_singleton.1 he, List.mem_singleton.1 hf]
      exact relisted_of_perm hversions (List.reverse_perm _).symm
    have h := hsame _ _ hlisted hrelisted
    simp only [answerOf, resolverReading, packageAnswer, versionAnswer,
      fileNames_eq_insertionSort] at h
    revert h
    decide +kernel

end PackageCache

end ScriptHost
