import ScriptHost.Proofs.Package.Names
import ScriptHost.Settings.Basic

/-!
# Tighter policies

A policy is tighter than another one when it forbids and blocks all that the other does, and leaves
no place open that the other closes. It then refuses, under one rule or another, whatever the other
refuses, sizes apart. Settings tighten the policy of their preset: their lists extend those of the
preset, and where they list allowed places the preset has no such list.
-/

namespace ScriptHost

/-- The policy restricts what the other one restricts: its lists hold the entries of the other, and
of the places only those that the other allows are left. -/
structure Policy.Tightens (p base : Policy) : Prop where
  restrictApis : base.restrictApis = true → p.restrictApis = true
  forbiddenApis : ∀ entry ∈ base.forbiddenApis, entry ∈ p.forbiddenApis
  blockedPaths : ∀ root ∈ base.blockedPaths, root ∈ p.blockedPaths
  blockedLibraries : ∀ library ∈ base.blockedLibraries, library ∈ p.blockedLibraries
  /-- A policy that lists no allowed places allows them all. -/
  allowedPaths : base.allowedPaths.names = [] ∨
    p.allowedPaths.names ≠ [] ∧ ∀ root ∈ p.allowedPaths, root ∈ base.allowedPaths

namespace Guard

namespace Rules

/-- The rules hold those of the other policy, and of the allowed roots only those that the other
allows are left. -/
structure Tightens (r base : Rules) : Prop where
  forbidden : ∀ pattern ∈ base.forbidden, pattern ∈ r.forbidden
  libraries : ∀ library ∈ base.libraries, library ∈ r.libraries
  blockedRoots : ∀ root ∈ base.blockedRoots, root ∈ r.blockedRoots
  allowedRoots : base.allowedRoots = [] ∨
    r.allowedRoots ≠ [] ∧ ∀ root ∈ r.allowedRoots, root ∈ base.allowedRoots

theorem tightens_ofPolicy {p base : Policy} (h : p.Tightens base) :
    (ofPolicy p).Tightens (ofPolicy base) where
  forbidden pattern hpattern := by
    obtain ⟨entry, hentry, hof⟩ := List.mem_filterMap.1 hpattern
    exact List.mem_filterMap.2 ⟨entry, h.forbiddenApis entry hentry, hof⟩
  libraries library hlibrary := by
    obtain ⟨entry, hentry, hof⟩ := List.mem_filterMap.1 hlibrary
    exact List.mem_filterMap.2 ⟨entry, h.blockedLibraries entry hentry, hof⟩
  blockedRoots root hroot := by
    obtain ⟨entry, hentry, hof⟩ := List.mem_map.1 hroot
    exact List.mem_map.2 ⟨entry, h.blockedPaths entry hentry, hof⟩
  allowedRoots := by
    rcases h.allowedPaths with hnone | ⟨hsome, hleft⟩
    · exact .inl (List.map_eq_nil_iff.2 hnone)
    · refine .inr ⟨fun hnil => hsome (List.map_eq_nil_iff.1 hnil), fun root hroot => ?_⟩
      obtain ⟨entry, hentry, hof⟩ := List.mem_map.1 hroot
      exact List.mem_map.2 ⟨entry, hleft entry hentry, hof⟩

variable {r base : Rules} {loc : Location}

theorem Tightens.checkName (h : r.Tightens base) {words : List String}
    (hok : r.checkName words loc = .ok ()) : base.checkName words loc = .ok () := by
  obtain ⟨hforbidden, hlibraries⟩ := checkName_eq_ok_iff.1 hok
  refine checkName_eq_ok_iff.2 ⟨fun pattern hpattern => ?_, fun library hlibrary => ?_⟩
  · exact hforbidden pattern (h.forbidden pattern hpattern)
  · exact hlibraries library (h.libraries library hlibrary)

theorem Tightens.checkPath (h : r.Tightens base) {value : String} {path : List Char}
    (hok : r.checkPath value path loc = .ok ()) : base.checkPath value path loc = .ok () := by
  obtain ⟨hhome, hup, hblocked, hallowed⟩ := checkPath_eq_ok_iff.1 hok
  refine checkPath_eq_ok_iff.2 ⟨hhome, hup, fun root hroot => ?_, ?_⟩
  · exact hblocked root (h.blockedRoots root hroot)
  · rcases h.allowedRoots with hnone | ⟨hsome, hleft⟩
    · exact .inl hnone
    · obtain ⟨root, hroot, hunder⟩ := hallowed.resolve_left hsome
      exact .inr ⟨root, hleft root hroot, hunder⟩

theorem Tightens.checkText (h : r.Tightens base) {value : String}
    (hok : r.checkText value loc = .ok ()) : base.checkText value loc = .ok () := by
  obtain ⟨hname, hpath⟩ := checkText_eq_ok_iff.1 hok
  refine checkText_eq_ok_iff.2 ⟨fun hreads => ?_, fun path hfound => ?_⟩
  · exact h.checkName (hname hreads)
  · exact h.checkPath (hpath path hfound)

theorem Tightens.checkItem (h : r.Tightens base) {item : Placed Item}
    (hok : r.checkItem item = .ok ()) : base.checkItem item = .ok () := by
  obtain ⟨val, loc⟩ := item
  cases val with
  | name words => exact Tightens.checkName h hok
  | text value => exact Tightens.checkText h hok

end Rules

variable {p base : Policy}

/-- A source that a tighter policy accepts is accepted, unless it is too large. -/
theorem checkSource_of_tightens (h : p.Tightens base) {source : String}
    (hsize : source.utf8ByteSize ≤ base.maxSourceBytes) (hok : checkSource source p = .ok ()) :
    checkSource source base = .ok () := by
  refine checkSource_eq_ok_iff.2 ⟨hsize, fun hrestrict => ?_⟩
  obtain ⟨items, hscan, hitems⟩ := (checkSource_eq_ok_iff.1 hok).2 (h.restrictApis hrestrict)
  exact ⟨items, hscan, fun item hitem => (Rules.tightens_ofPolicy h).checkItem (hitems item hitem)⟩

/-- Packages that a tighter policy accepts are accepted. -/
theorem checkPackages_of_tightens (h : p.Tightens base) {packages : List Reference}
    (hok : checkPackages packages p = .ok ()) : checkPackages packages base = .ok () := by
  refine checkPackages_eq_ok_iff.2 fun hrestrict package hpackage => ?_
  have hpass := checkPackages_eq_ok_iff.1 hok (h.restrictApis hrestrict) package hpackage
  refine checkPackage_eq_ok_iff.2 fun library hlibrary => ?_
  exact checkPackage_eq_ok_iff.1 hpass library (h.blockedLibraries library hlibrary)

/-- What is refused for another reason than its size is not too large. -/
theorem size_le_of_error {source : String} {v : Violation}
    (h : checkSource source base = .error v)
    (hreason : ∀ size limit, v ≠ .sourceTooLarge size limit) :
    source.utf8ByteSize ≤ base.maxSourceBytes := by
  by_contra hsize
  rw [checkSource, if_pos (Nat.not_le.1 hsize)] at h
  cases h
  exact hreason _ _ rfl

end Guard

/-! ## Settings -/

theorem Preset.allowedPaths_policy (preset : Preset) : preset.policy.allowedPaths.names = [] := by
  cases preset with
  | production => rfl
  | permissive => rfl

/-- Settings that do not lift the restrictions tighten the policy of their preset. -/
theorem PolicySettings.tightens_toPolicy {s : PolicySettings}
    (hrestrict : s.toPolicy.restrictApis = true) : s.toPolicy.Tightens s.preset.policy where
  restrictApis _ := hrestrict
  forbiddenApis _ hentry := NameSet.mem_insertAll.2 (.inr hentry)
  blockedPaths _ hroot := NameSet.mem_insertAll.2 (.inr hroot)
  blockedLibraries _ hlibrary := NameSet.mem_insertAll.2 (.inr hlibrary)
  allowedPaths := .inl s.preset.allowedPaths_policy

namespace Guard

/-- Under settings that restrict names, every source and every package list that the bare preset
refuses is refused, a source that is too large for the preset apart. -/
theorem refused_under_settings (s : PolicySettings) (hrestrict : s.toPolicy.restrictApis = true) :
    (∀ source v, checkSource source s.preset.policy = .error v →
        (∀ size limit, v ≠ .sourceTooLarge size limit) →
          ∃ w, checkSource source s.toPolicy = .error w) ∧
      ∀ packages v, checkPackages packages s.preset.policy = .error v →
        ∃ w, checkPackages packages s.toPolicy = .error w := by
  have htight := PolicySettings.tightens_toPolicy hrestrict
  refine ⟨fun source v hrefused hreason => ?_, fun packages v hrefused => ?_⟩
  · apply eq_error_of_ne_ok
    intro hok
    have hpass := checkSource_of_tightens htight (size_le_of_error hrefused hreason) hok
    rw [hpass] at hrefused
    cases hrefused
  · apply eq_error_of_ne_ok
    intro hok
    rw [checkPackages_of_tightens htight hok] at hrefused
    cases hrefused

/-- Settings with entries of every kind; they allow a place that the preset blocks. -/
def kitSettings : PolicySettings :=
  { PolicySettings.ofPreset .production with
    forbiddenApis := ["Kit.Run"]
    blockedPaths := ["/srv"]
    allowedPaths := ["/etc", "/tmp"]
    blockedLibraries := ["Kit.Net"] }

theorem refused_under_settings_allowed :
    (kitSettings.toPolicy.restrictApis = true ∧
      checkSource "\"/etc/hosts\"" .production =
        .error (.blockedPath "/etc/hosts" "/etc" ⟨1, 1⟩) ∧
      checkPackages [⟨"System.Management.Kit", none⟩] .production =
        .error (.blockedPackage "System.Management.Kit" "System.Management")) ∧
      (∃ w, checkSource "\"/etc/hosts\"" kitSettings.toPolicy = .error w) ∧
        ∃ w, checkPackages [⟨"System.Management.Kit", none⟩] kitSettings.toPolicy = .error w := by
  have hsource : checkSource "\"/etc/hosts\"" .production =
      .error (.blockedPath "/etc/hosts" "/etc" ⟨1, 1⟩) := by decide +kernel
  have hpackages : checkPackages [⟨"System.Management.Kit", none⟩] .production =
      .error (.blockedPackage "System.Management.Kit" "System.Management") := by decide +kernel
  obtain ⟨hsources, hlists⟩ := refused_under_settings kitSettings rfl
  exact ⟨⟨rfl, hsource, hpackages⟩, hsources _ _ hsource nofun, hlists _ _ hpackages⟩

end Guard

end ScriptHost
