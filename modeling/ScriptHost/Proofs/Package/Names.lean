import ScriptHost.Package.Resolver
import ScriptHost.Proofs.Guard.Verdict
import ScriptHost.Proofs.Text.Capitals

/-!
# Names asked for and names found

A package is checked under the name that was asked for, and attached under the name that its
resolver gives it. The two have the same lower-case form, and the check looks at nothing else.
-/

namespace ScriptHost

namespace Policy

/-- The policy lets the package be attached. -/
def Admits (p : Policy) (package : Reference) : Prop :=
  Guard.checkPackages [package] p = .ok ()

/-- The package belongs to a library that the policy keeps out. -/
def Blocks (p : Policy) (package : Reference) : Prop :=
  p.restrictApis = true ∧
    ∃ library ∈ p.blockedLibraries.names, Guard.isInLibrary library package.name = true

end Policy

namespace Guard

variable {p : Policy}

theorem checkPackages_eq_ok_iff {packages : List Reference} :
    checkPackages packages p = .ok () ↔
      (p.restrictApis = true → ∀ package ∈ packages, checkPackage p package = .ok ()) := by
  rw [checkPackages]
  split
  · rename_i hrestrict
    rw [forM_eq_ok_iff]
    exact ⟨fun h _ => h, fun h => h hrestrict⟩
  · rename_i hrestrict
    exact iff_of_true rfl fun h => absurd h hrestrict

/-- Packages pass together when each of them passes. -/
theorem checkPackages_eq_ok_iff_admits {packages : List Reference} :
    checkPackages packages p = .ok () ↔ ∀ package ∈ packages, p.Admits package := by
  simp only [Policy.Admits, checkPackages_eq_ok_iff, List.mem_singleton, forall_eq]
  exact ⟨fun h package hmem hrestrict => h hrestrict package hmem,
    fun h hrestrict package hmem => h package hmem hrestrict⟩

theorem checkPackage_eq_ok_iff {package : Reference} :
    checkPackage p package = .ok () ↔
      ∀ library ∈ p.blockedLibraries.names, isInLibrary library package.name = false := by
  rw [checkPackage]
  split
  · rename_i library hfound
    refine iff_of_false nofun fun h => ?_
    have hblocked := List.find?_some hfound
    rw [h library (List.mem_of_find?_eq_some hfound)] at hblocked
    cases hblocked
  · rename_i hnone
    refine iff_of_true rfl fun library hlibrary => ?_
    exact Bool.eq_false_iff.2 (List.find?_eq_none.1 hnone library hlibrary)

end Guard

namespace Policy

variable {p : Policy} {asked found package : Reference}

/-- A policy admits what it does not block. -/
theorem admits_iff_not_blocks : p.Admits package ↔ ¬ p.Blocks package := by
  simp only [Admits, Guard.checkPackages_eq_ok_iff, List.mem_singleton, forall_eq,
    Guard.checkPackage_eq_ok_iff, Blocks, not_and, not_exists, Bool.not_eq_true]

/-- Whether a package is blocked depends on the lower-case form of its name. -/
theorem blocks_of_lowercase (hname : Text.lowercase found.name = Text.lowercase asked.name)
    (h : p.Blocks found) : p.Blocks asked := by
  obtain ⟨hrestrict, library, hlibrary, hin⟩ := h
  rw [Guard.isInLibrary, hname] at hin
  exact ⟨hrestrict, library, hlibrary, hin⟩

/-- A package is admitted under any name with the same lower-case form. -/
theorem Admits.of_lowercase (h : p.Admits asked)
    (hname : Text.lowercase found.name = Text.lowercase asked.name) : p.Admits found :=
  admits_iff_not_blocks.2 fun hblocks =>
    admits_iff_not_blocks.1 h (blocks_of_lowercase hname hblocks)

end Policy

/-! ## The names that resolvers give -/

theorem Text.lowercase_eq_of_sameAsciiFold {a b : String} (h : sameAsciiFold a b = true) :
    lowercase a = lowercase b := by
  have hfold : foldText a = foldText b := congrArg String.ofList (beq_iff_eq.1 h)
  rw [← lowercase_foldText a, hfold, lowercase_foldText]

/-- The latest of some candidates is one of them. -/
theorem Version.mem_of_latest? {α : Type} {version : α → String} {candidates : List α} {best : α}
    (h : latest? version candidates = some best) : best ∈ candidates := by
  have hfold : ∀ (rest : List α) (a : α), rest.foldl
      (fun best next => if compare (version best) (version next) = .gt then best else next) a ∈
        a :: rest := by
    intro rest
    induction rest with
    | nil => exact fun a => List.mem_singleton_self a
    | cons b rest ih =>
        intro a
        rw [List.foldl_cons]
        split
        · exact List.mem_cons.2 ((List.mem_cons.1 (ih a)).imp_right (List.mem_cons_of_mem b))
        · exact List.mem_cons_of_mem a (ih b)
  cases candidates with
  | nil => cases h
  | cons a rest =>
      cases h
      exact hfold rest a

namespace PackageCache

variable {legible : String → String} {c : PackageCache} {reference : Reference} {found : Resolved}
  {name root : String} {packages versions : List (String × FileTree)} {p v : String × FileTree}

theorem sameAsciiFold_of_packageDir? (h : packageDir? legible name packages = some p) :
    Text.sameAsciiFold (legible p.1) name = true := by
  have hmeant := List.find?_some h
  exact hmeant

theorem mem_of_packageDir? (h : packageDir? legible name packages = some p) : p ∈ packages :=
  List.mem_of_find?_eq_some h

theorem mem_of_versionDir? (h : versionDir? legible reference versions = some v) :
    v ∈ versions := by
  rw [versionDir?] at h
  split at h
  · exact List.mem_of_find?_eq_some h
  · exact Version.mem_of_latest? h

/-- A package that is found goes by what its directories are read as. -/
theorem reference_of_versionAnswer (h : versionAnswer legible root p v = .ok found) :
    found.reference = ⟨legible p.1, some (legible v.1)⟩ := by
  rw [versionAnswer] at h
  split at h
  · cases h
  · cases h
    rfl

/-- What is found is in the directory of a version, in that of a package. -/
theorem resolverReading_eq_ok (h : c.resolverReading legible reference = .ok found) :
    ∃ t p v, c.tree = .ok t ∧ packageDir? legible reference.name (directories t) = some p ∧
      versionDir? legible reference (directories p.2) = some v ∧
      versionAnswer legible c.root p v = .ok found := by
  rw [resolverReading] at h
  split at h
  · cases h
  · cases h
  · rename_i entries htree
    split at h
    · cases h
    · rename_i p hpackage
      rw [packageAnswer] at h
      split at h
      · cases h
      · rename_i v hversion
        exact ⟨_, p, v, htree, hpackage, hversion, h⟩

end PackageCache

namespace Resolver

/-- What is found has the name that was asked for, but for the case of its letters. -/
def KeepsNames (r : Resolver) : Prop :=
  ∀ {asked found}, r asked = .ok found →
    Text.lowercase found.reference.name = Text.lowercase asked.name

/-- The resolver of a catalogue or of a package directory, whatever is in there and however names
are read. -/
inductive IsBuiltIn : Resolver → Prop
  | catalogue (c : Catalogue) : IsBuiltIn c.resolver
  | directory (legible : String → String) (c : PackageCache) :
      IsBuiltIn (c.resolverReading legible)

theorem keepsNames_catalogue (c : Catalogue) : KeepsNames c.resolver := by
  intro asked found h
  have hname : ∀ release ∈ c.releasesOf asked.name,
      Text.lowercase release.name = Text.lowercase asked.name :=
    fun release hmem => beq_iff_eq.1 (List.mem_filter.1 hmem).2
  rw [Catalogue.resolver] at h
  split at h
  · rename_i release hfound
    cases h
    apply hname release
    split at hfound
    · exact List.mem_of_find?_eq_some hfound
    · exact Version.mem_of_latest? hfound
  · cases h

theorem keepsNames_directory (legible : String → String) (c : PackageCache) :
    KeepsNames (c.resolverReading legible) := by
  intro asked found h
  obtain ⟨t, p, v, -, hpackage, -, hfound⟩ := PackageCache.resolverReading_eq_ok h
  rw [PackageCache.reference_of_versionAnswer hfound]
  exact Text.lowercase_eq_of_sameAsciiFold (PackageCache.sameAsciiFold_of_packageDir? hpackage)

theorem IsBuiltIn.keepsNames {r : Resolver} (h : r.IsBuiltIn) : r.KeepsNames := by
  cases h with
  | catalogue c => exact keepsNames_catalogue c
  | directory legible c => exact keepsNames_directory legible c

end Resolver

end ScriptHost
