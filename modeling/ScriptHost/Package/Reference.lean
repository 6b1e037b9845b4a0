import ScriptHost.Text.Blank
import ScriptHost.Text.Case
import ScriptHost.Text.Split

/-!
# Package references

A package is asked for by name, with a version or without one; without one the latest
version is meant. A resolved reference also lists the files of the package.
-/

namespace ScriptHost

/-- A package name, with a version unless the latest is meant. -/
structure Reference where
  name : String
  version : Option String
deriving DecidableEq, Repr

namespace Reference

/-- A version text that asks for a version: not empty, and not the word for the latest. -/
def isPinning (version : List Char) : Bool :=
  !version.isEmpty && !Text.sameAsciiFold (String.ofList version) "latest"

/-- The reference written as `name` or `name@version`, unless the name is blank. The name
ends at the first `@`. -/
def parse? (spec : String) : Option Reference :=
  let written := Text.trimChars spec.toList
  let (name, version) :=
    match Text.splitOnce '@' written with
    | some (name, version) => (Text.trimChars name, some (Text.trimChars version))
    | none => (written, none)
  if name.isEmpty then none
  else some ⟨String.ofList name, (version.filter isPinning).map String.ofList⟩

/-- The version, or the word for the latest. -/
def versionLabel (r : Reference) : String := r.version.getD "latest"

/-- The written form. -/
def render (r : Reference) : String := r.name ++ "@" ++ r.versionLabel

/-- The same package in the same version; the case of ASCII letters in names is ignored. -/
def sameAs (a b : Reference) : Bool :=
  Text.sameAsciiFold a.name b.name && a.version == b.version

end Reference

/-- A reference with the files that make up the package. -/
structure Resolved where
  reference : Reference
  artifacts : List String
deriving DecidableEq, Repr

end ScriptHost
