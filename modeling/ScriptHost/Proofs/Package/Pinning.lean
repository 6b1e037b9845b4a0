import Mathlib.Data.List.Pairwise
import Mathlib.Data.String.Basic
import ScriptHost.Proofs.Package.Listings
import ScriptHost.Proofs.Package.Names
import ScriptHost.Proofs.Package.Versions

/-!
# Pinned references

A package that is found goes by the name and the version that its resolver gives it, and what is
found under these goes by them, too. In a catalogue it is the same package: a release takes the
place of one of the same package and version. In a package directory, the names of two versions may
be read alike where they are no texts; then it is the first of them.
-/

namespace ScriptHost

namespace Resolver

/-- What is found is found again under its own reference. -/
def Pins (r : Resolver) : Prop :=
  ∀ {asked found}, r asked = .ok found → r found.reference = .ok found

/-- What is found under the reference of what was found goes by this reference, too. -/
def IsSteady (r : Resolver) : Prop :=
  ∀ {asked found again}, r asked = .ok found → r found.reference = .ok again →
    again.reference = found.reference

theorem Pins.isSteady {r : Resolver} (h : r.Pins) : r.IsSteady := by
  intro asked found again hfound hagain
  cases (h hfound).symm.trans hagain
  rfl

end Resolver

/-! ## Catalogues -/

namespace Catalogue

/-- Versions ascend, and there is one release for each package and version. -/
def InOrder (releases : List Release) : Prop :=
  releases.Pairwise fun r s => r.version ≤ s.version ∧ ¬ Same r s

theorem inOrder_place (r : Release) {releases : List Release} (h : InOrder releases) :
    InOrder (place r releases) := by
  induction releases with
  | nil => exact List.pairwise_singleton _ r
  | cons s rest ih =>
      obtain ⟨hs, hrest⟩ := List.pairwise_cons.1 h
      rw [place]
      split
      · rename_i hless
        refine List.pairwise_cons.2 ⟨fun t ht => ?_, h⟩
        have hle : s.version ≤ t.version := by
          rcases List.mem_cons.1 ht with rfl | ht
          · exact le_refl _
          · exact (hs t ht).1
        have hbelow : r.version < t.version := lt_of_lt_of_le hless hle
        exact ⟨le_of_lt hbelow, fun hsame => ne_of_lt hbelow hsame.1⟩
      · rename_i hnot
        split
        · rename_i hsame
          refine List.pairwise_cons.2 ⟨fun t ht => ?_, hrest⟩
          obtain ⟨hle, hdiffer⟩ := hs t ht
          exact ⟨hsame.1 ▸ hle, fun hrt =>
            hdiffer ⟨hsame.1.symm.trans hrt.1, hsame.2.symm.trans hrt.2⟩⟩
        · rename_i hdiffer
          refine List.pairwise_cons.2 ⟨fun t ht => ?_, ih hrest⟩
          rcases mem_of_mem_place ht with rfl | ht
          · exact ⟨not_lt.1 hnot, fun hsame => hdiffer ⟨hsame.1.symm, hsame.2.symm⟩⟩
          · exact hs t ht

theorem inOrder_ofReleases (rs : List Release) : InOrder (ofReleases rs).releases := by
  have hfold : ∀ (rs : List Release) (c : Catalogue), InOrder c.releases →
      InOrder (rs.foldl register c).releases := by
    intro rs
    induction rs with
    | nil => exact fun _ h => h
    | cons r rs ih => exact fun c h => ih (c.register r) (inOrder_place r h)
  exact hfold rs empty .nil

theorem InOrder.eq_of_same {releases : List Release} (h : InOrder releases) {r s : Release}
    (hr : r ∈ releases) (hs : s ∈ releases) (hsame : Same r s) : r = s := by
  by_contra hne
  have hdiffer : releases.Pairwise fun r s => ¬ Same r s := h.imp fun hrs => hrs.2
  have : Std.Symm fun r s : Release => ¬ Same r s :=
    ⟨fun _ _ hrs hsr => hrs ⟨hsr.1.symm, hsr.2.symm⟩⟩
  exact hdiffer.forall hr hs hne hsame

theorem resolver_eq_ok {c : Catalogue} {asked : Reference} {found : Resolved}
    (h : c.resolver asked = .ok found) :
    ∃ release ∈ c.releasesOf asked.name, found = release.resolved := by
  rw [resolver] at h
  split at h
  · rename_i release hfound
    cases h
    refine ⟨release, ?_, rfl⟩
    split at hfound
    · exact List.mem_of_find?_eq_some hfound
    · exact Version.mem_of_latest? hfound
  · cases h

/-- What a catalogue has found has a name and a version that only it has. -/
theorem pins_ofReleases (rs : List Release) : (ofReleases rs).resolver.Pins := by
  intro asked found h
  obtain ⟨release, hmem, rfl⟩ := resolver_eq_ok h
  obtain ⟨hreleased, hname⟩ := List.mem_filter.1 hmem
  have hown : release ∈ (ofReleases rs).releasesOf release.name :=
    List.mem_filter.2 ⟨hreleased, beq_self_eq_true _⟩
  have hfind : ((ofReleases rs).releasesOf release.name).find?
      (fun r : Release => r.version == release.version) = some release := by
    have hsome : (((ofReleases rs).releasesOf release.name).find?
        fun r : Release => r.version == release.version).isSome :=
      List.find?_isSome.2 ⟨release, hown, by simp⟩
    obtain ⟨s, hs⟩ := Option.isSome_iff_exists.1 hsome
    have hversion : s.version = release.version := by simpa using List.find?_some hs
    obtain ⟨hsmem, hsname⟩ := List.mem_filter.1 (List.mem_of_find?_eq_some hs)
    rw [hs, (inOrder_ofReleases rs).eq_of_same hsmem hreleased ⟨hversion, beq_iff_eq.1 hsname⟩]
  simp only [resolver, Release.resolved, hfind]

end Catalogue

/-! ## Package directories -/

namespace PackageCache

variable {legible : String → String} {c : PackageCache} {t : FileTree} {asked : Reference}
  {found : Resolved} {name version : String} {packages versions : List (String × FileTree)}
  {p v : String × FileTree}

/-- What the versions of a package are read as, in the order of listing. -/
def versionNames (legible : String → String) (c : PackageCache) (name : String) : List String :=
  match c.tree with
  | .error _ => []
  | .ok t =>
    match packageDir? legible name (directories t) with
    | none => []
    | some p => (directories p.2).map (legible ·.1)

/-- A package that goes by a name goes by what its directory is read as. -/
theorem packageDir?_legible (h : packageDir? legible name packages = some p) :
    packageDir? legible (legible p.1) packages = some p := by
  have hfold : Text.foldAscii (legible p.1) = Text.foldAscii name :=
    beq_iff_eq.1 (sameAsciiFold_of_packageDir? h)
  simp only [packageDir?, Text.sameAsciiFold, hfold] at h ⊢
  exact h

/-- Under its own reference, a package that is found is the same, and the first of its versions
answers that is read so. -/
theorem resolverReading_reference (htree : c.tree = .ok t)
    (hpackage : packageDir? legible name (directories t) = some p) (hv : v ∈ directories p.2) :
    ∃ w, (directories p.2).find? (legible ·.1 == legible v.1) = some w ∧
      legible w.1 = legible v.1 ∧
      c.resolverReading legible ⟨legible p.1, some (legible v.1)⟩ =
        versionAnswer legible c.root p w := by
  have hsome : ((directories p.2).find? (legible ·.1 == legible v.1)).isSome :=
    List.find?_isSome.2 ⟨v, hv, beq_self_eq_true _⟩
  obtain ⟨w, hw⟩ := Option.isSome_iff_exists.1 hsome
  have hname := List.find?_some hw
  refine ⟨w, hw, beq_iff_eq.1 hname, ?_⟩
  have hfirst : versionDir? legible ⟨legible p.1, some (legible v.1)⟩ (directories p.2) = some w :=
    hw
  cases t with
  | file => cases hpackage
  | dir entries =>
      rw [resolverReading, htree]
      simp only [packageDir?_legible hpackage, packageAnswer, hfirst]

/-- A version that nothing else is read as is the first that is read so. -/
theorem find?_of_count_eq_one (hv : v ∈ versions)
    (hone : (versions.map (legible ·.1)).count (legible v.1) = 1) :
    versions.find? (legible ·.1 == legible v.1) = some v := by
  rw [List.count_eq_countP, List.countP_map, List.countP_eq_length_filter,
    List.length_eq_one_iff] at hone
  obtain ⟨w, hw⟩ := hone
  have hmem : v ∈ versions.filter ((· == legible v.1) ∘ (legible ·.1)) :=
    List.mem_filter.2 ⟨hv, beq_self_eq_true _⟩
  rw [hw, List.mem_singleton] at hmem
  rw [← List.head?_filter, hmem]
  exact congrArg List.head? (hmem ▸ hw)

/-- What is found in a package directory is found again if its version was asked for, or nothing
else there is read as its version. -/
theorem pinned_resolverReading (h : c.resolverReading legible asked = .ok found)
    (hversion : found.reference.version = some version)
    (hone : asked.version = some version ∨
      (versionNames legible c asked.name).count version = 1) :
    c.resolverReading legible found.reference = .ok found := by
  obtain ⟨t, p, v, htree, hpackage, hpicked, hfound⟩ := resolverReading_eq_ok h
  have hreference := reference_of_versionAnswer hfound
  rw [hreference, Option.some.injEq] at hversion
  subst hversion
  obtain ⟨w, hw, -, hagain⟩ := resolverReading_reference htree hpackage (mem_of_versionDir? hpicked)
  have hsame : w = v := by
    apply Option.some.inj
    rw [← hw]
    rcases hone with hasked | hone
    · rwa [versionDir?, hasked] at hpicked
    · simp only [versionNames, htree, hpackage] at hone
      exact find?_of_count_eq_one (mem_of_versionDir? hpicked) hone
  rw [hreference, hagain, hsame, hfound]

theorem version_of_resolverReading (h : c.resolverReading legible asked = .ok found) :
    ∃ version, found.reference.version = some version := by
  obtain ⟨t, p, v, -, -, -, hanswer⟩ := resolverReading_eq_ok h
  exact ⟨legible v.1, by rw [reference_of_versionAnswer hanswer]⟩

/-- Where no two versions of a package are read alike, whatever is found is found again. -/
theorem pins_resolverReading (h : ∀ name, (versionNames legible c name).Nodup) :
    (c.resolverReading legible).Pins := by
  intro asked found hfound
  obtain ⟨t, p, v, htree, hpackage, hpicked, hanswer⟩ := resolverReading_eq_ok hfound
  have hversion : found.reference.version = some (legible v.1) := by
    rw [reference_of_versionAnswer hanswer]
  refine pinned_resolverReading hfound hversion (Or.inr ?_)
  apply List.count_eq_one_of_mem (h asked.name)
  simp only [versionNames, htree, hpackage]
  exact List.mem_map_of_mem (mem_of_versionDir? hpicked)

theorem isSteady_resolverReading (legible : String → String) (c : PackageCache) :
    (c.resolverReading legible).IsSteady := by
  intro asked found again h hagain
  obtain ⟨t, p, v, htree, hpackage, hpicked, hfound⟩ := resolverReading_eq_ok h
  obtain ⟨w, -, hname, hanswer⟩ :=
    resolverReading_reference htree hpackage (mem_of_versionDir? hpicked)
  have hreference := reference_of_versionAnswer hfound
  rw [hreference, hanswer] at hagain
  rw [reference_of_versionAnswer hagain, hreference, hname]

end PackageCache

namespace Resolver

/-- The resolver of a catalogue that releases were registered in, or of a package directory. -/
inductive IsShipped : Resolver → Prop
  | catalogue (rs : List Release) : IsShipped (Catalogue.ofReleases rs).resolver
  | directory (legible : String → String) (c : PackageCache) :
      IsShipped (c.resolverReading legible)

variable {r : Resolver}

theorem IsShipped.isBuiltIn (h : r.IsShipped) : r.IsBuiltIn := by
  cases h with
  | catalogue rs => exact .catalogue _
  | directory legible c => exact .directory legible c

theorem IsShipped.isSteady (h : r.IsShipped) : r.IsSteady := by
  cases h with
  | catalogue rs => exact Pins.isSteady (Catalogue.pins_ofReleases rs)
  | directory legible c => exact PackageCache.isSteady_resolverReading legible c

end Resolver

namespace PackageCache

/-- A package in two versions whose names are a byte each and no texts: every character of these
names stands for a byte. -/
def garbledCache : PackageCache :=
  ⟨"/p", .ok (.dir [("kit",
    .dir [("ÿ", .dir [("a.dll", .file "")]), ("þ", .dir [("b.dll", .file "")])])])⟩

/-- A name as it is read when a byte that is not ASCII stands alone in it: as the character that
replaces what is no text. -/
def readByte (name : String) : String := if name.toList.all (·.val < 128) then name else "\uFFFD"

/-- The names themselves are not alike. -/
theorem nodup_garbledCache (name : String) : (versionNames id garbledCache name).Nodup := by
  rw [versionNames, garbledCache]
  dsimp only
  split
  · exact List.nodup_nil
  · rename_i p hp
    have hmem := mem_of_packageDir? hp
    obtain rfl := List.mem_singleton.1 hmem
    decide +kernel

/-- Under the name that both versions are read as, the first of them is found. -/
theorem garbledCache_first : ∀ name ∈ ["kit", "KIT"],
    garbledCache.resolverReading readByte ⟨name, some "\uFFFD"⟩ =
      .ok ⟨⟨"kit", some "\uFFFD"⟩, ["/p/kit/ÿ/a.dll"]⟩ := by
  simp only [resolverReading, garbledCache, packageAnswer, versionAnswer,
    fileNames_eq_insertionSort]
  decide +kernel

/-- Of two versions that are read alike the last is picked when none is asked for, and the first
under the reference of what was found. -/
theorem not_pins_of_isShipped : ¬ ∀ {r : Resolver}, r.IsShipped → r.Pins := by
  intro hpins
  have hlatest : garbledCache.resolverReading readByte ⟨"kit", none⟩ =
      .ok ⟨⟨"kit", some "\uFFFD"⟩, ["/p/kit/þ/b.dll"]⟩ := by
    simp only [resolverReading, garbledCache, packageAnswer, versionAnswer,
      fileNames_eq_insertionSort]
    decide +kernel
  have hfirst := garbledCache_first "kit" List.mem_cons_self
  have hagain := hpins (.directory readByte garbledCache) hlatest
  exact absurd (hfirst.symm.trans hagain) (by decide +kernel)

end PackageCache

end ScriptHost
