import ScriptHost.Proofs.Package.Names
import ScriptHost.Proofs.Text.Sigma

/-!
# The name spaces of libraries

A library that a policy blocks takes its name space with it: no package passes under the name of
the library, nor under a name that goes on behind it with a full stop, however the ASCII letters
are written. A library whose name ends in a capital sigma has this for the names that do not go
on with a letter, since the sigma is written in another way before a letter.
-/

namespace ScriptHost.Guard

variable {p : Policy} {library package : String}

theorem isInLibrary_congr {package' : String}
    (h : Text.lowercase package = Text.lowercase package') :
    isInLibrary library package = isInLibrary library package' := by
  rw [isInLibrary, isInLibrary, h]

theorem isInLibrary_self (library : String) : isInLibrary library library = true := by
  rw [isInLibrary, beq_self_eq_true, Bool.true_or]

/-- A name behind that of a library and a full stop is in the name space of the library, unless
the library ends in a capital sigma and a cased character comes next. -/
theorem isInLibrary_member_iff (library member : String) :
    isInLibrary library (library ++ "." ++ member) = true ↔
      (Text.endsInSigma [] library.toList = true → Text.meetsCased member.toList = false) := by
  rw [isInLibrary, beq_false_of_ne (Text.lowercase_stop_ne library member), Bool.false_or,
    List.isPrefixOf_iff_prefix, Text.lowercase_isPrefix_iff]

/-- The package has the name of the library, or a name in its name space, up to the case of
ASCII letters. The name does not go on with a letter behind a library that ends in a capital
sigma. -/
def Names (library package : String) : Prop :=
  Text.sameAsciiFold package library = true ∨
    ∃ member, Text.sameAsciiFold package (library ++ "." ++ member) = true ∧
      (Text.endsInSigma [] library.toList = true → Text.meetsCased member.toList = false)

theorem Names.isInLibrary (h : Names library package) : isInLibrary library package = true := by
  rcases h with hself | ⟨member, hmember, hsigma⟩
  · rw [isInLibrary_congr (Text.lowercase_eq_of_sameAsciiFold hself), isInLibrary_self]
  · rw [isInLibrary_congr (Text.lowercase_eq_of_sameAsciiFold hmember), isInLibrary_member_iff]
    exact hsigma

/-! ## The check -/

theorem checkPackage_error {found : Reference} {v : Violation}
    (h : checkPackage p found = .error v) :
    ∃ rule ∈ p.blockedLibraries.names, isInLibrary rule found.name = true ∧
      v = .blockedPackage found.name rule := by
  rw [checkPackage] at h
  split at h
  · rename_i rule hrule
    cases h
    have hin := List.find?_some hrule
    exact ⟨rule, List.mem_of_find?_eq_some hrule, hin, rfl⟩
  · cases h

/-- A package of a blocked library does not pass, wherever it stands among the packages. The
error names a package and a library that it is in. -/
theorem checkPackages_of_names {packages : List Reference} {asked : Reference}
    (hrestrict : p.restrictApis = true) (hlibrary : library ∈ p.blockedLibraries.names)
    (hasked : asked ∈ packages) (hnames : Names library asked.name) :
    ∃ found ∈ packages, ∃ rule ∈ p.blockedLibraries.names, isInLibrary rule found.name = true ∧
      checkPackages packages p = .error (.blockedPackage found.name rule) := by
  have hfails : checkPackages packages p ≠ .ok () := by
    intro hpass
    have hasked := checkPackages_eq_ok_iff.1 hpass hrestrict asked hasked
    have hout := checkPackage_eq_ok_iff.1 hasked library hlibrary
    rw [hnames.isInLibrary] at hout
    cases hout
  obtain ⟨v, hv⟩ := eq_error_of_ne_ok hfails
  rw [hv]
  rw [checkPackages, if_pos hrestrict] at hv
  obtain ⟨found, hfound, herror⟩ := exists_error_of_forM hv
  obtain ⟨rule, hrule, hin, rfl⟩ := checkPackage_error herror
  exact ⟨found, hfound, rule, hrule, hin, rfl⟩

/-- A policy that blocks one library, whose name ends in a capital sigma. -/
def sigmaPolicy : Policy :=
  { Policy.production with blockedLibraries := .ofList ["KitΣ"] }

/-- Two packages, the second of which is in the name space of that library. -/
def sigmaPackages : List Reference := [⟨"Json", none⟩, ⟨"KITΣ.2b", some "1.0"⟩]

theorem checkPackages_of_names_digit :
    (sigmaPolicy.restrictApis = true ∧ "KitΣ" ∈ sigmaPolicy.blockedLibraries.names) ∧
      ∃ found ∈ sigmaPackages, ∃ rule ∈ sigmaPolicy.blockedLibraries.names,
        isInLibrary rule found.name = true ∧
          checkPackages sigmaPackages sigmaPolicy =
            .error (.blockedPackage found.name rule) := by
  have hlibrary : "KitΣ" ∈ sigmaPolicy.blockedLibraries.names := by decide +kernel
  have hnames : Names "KitΣ" "KITΣ.2b" := .inr ⟨"2B", by decide +kernel, by decide +kernel⟩
  have hasked : ⟨"KITΣ.2b", some "1.0"⟩ ∈ sigmaPackages := .tail _ (.head _)
  exact ⟨⟨rfl, hlibrary⟩, checkPackages_of_names rfl hlibrary hasked hnames⟩

/-- The sigma that ends the name of the library is in its final form there, and in the other form
before a letter. -/
theorem not_checkPackages_of_sigma :
    ¬ ∀ (p : Policy) (packages : List Reference) (library member : String) (asked : Reference),
      p.restrictApis = true → library ∈ p.blockedLibraries.names → asked ∈ packages →
        Text.sameAsciiFold asked.name (library ++ "." ++ member) = true →
          checkPackages packages p ≠ .ok () := by
  intro h
  exact h sigmaPolicy [⟨"KitΣ.Net", none⟩] "KitΣ" "Net" ⟨"KitΣ.Net", none⟩ rfl (by decide +kernel)
    (List.mem_singleton_self _) (by decide +kernel) (by decide +kernel)

end ScriptHost.Guard
