import ScriptHost.FileTree
import ScriptHost.Package.Reference
import ScriptHost.Package.Version

/-!
# Resolvers

A resolver finds the files of a package and pins its version. There are two: a catalogue
kept in memory, and a directory laid out as package, version, files.
-/

namespace ScriptHost

inductive ResolveError where
  | notFound (reference : Reference)
  | empty (name : String)
  | unreadable (path : String) (reason : FileError)
deriving DecidableEq, Repr

def ResolveError.message : ResolveError → String
  | notFound r => "package '" ++ r.name ++ "' (" ++ r.versionLabel ++ ") was not found"
  | empty name => "package '" ++ name ++ "' has no artifacts"
  | unreadable path reason =>
    "failed to read package cache at " ++ path ++ ": " ++ reason.message

/-- A way to find packages. -/
abbrev Resolver := Reference → Except ResolveError Resolved

/-! ## Catalogues -/

/-- A version of a package in a catalogue. -/
structure Release where
  name : String
  version : String
  artifacts : List String
deriving DecidableEq, Repr

namespace Release

/-- The release of the package with the given name, in lower case. -/
def isOf (r : Release) (folded : String) : Bool := Text.lowercase r.name == folded

/-- The release as a resolved reference. -/
def resolved (r : Release) : Resolved := ⟨⟨r.name, some r.version⟩, r.artifacts⟩

end Release

/-- Releases in ascending order of the texts of their versions, with one release for each
package name, in lower case, and version. -/
structure Catalogue where
  releases : List Release

namespace Catalogue

def empty : Catalogue := ⟨[]⟩

/-- The releases with one more; it takes the place of the release of the same package and
version. -/
def place (r : Release) : List Release → List Release
  | [] => [r]
  | s :: rest =>
    if r.version < s.version then r :: s :: rest
    else if r.version = s.version ∧ Text.lowercase r.name = Text.lowercase s.name then r :: rest
    else s :: place r rest

/-- The catalogue with one more release. -/
def register (c : Catalogue) (r : Release) : Catalogue := ⟨place r c.releases⟩

def ofReleases (rs : List Release) : Catalogue := rs.foldl register empty

/-- The releases of a package. -/
def releasesOf (c : Catalogue) (name : String) : List Release :=
  c.releases.filter (·.isOf (Text.lowercase name))

/-- The resolver of a catalogue. -/
def resolver (c : Catalogue) : Resolver := fun reference =>
  let candidates := c.releasesOf reference.name
  let found :=
    match reference.version with
    | some wanted => candidates.find? (fun r : Release => r.version == wanted)
    | none => Version.latest? Release.version candidates
  match found with
  | some release => .ok release.resolved
  | none => .error (.notFound reference)

end Catalogue

/-! ## Package directories -/

/-- A package directory: where it is, and what is there. -/
structure PackageCache where
  root : String
  tree : Except FileError FileTree

namespace PackageCache

/-- A path with a name behind it. -/
def join (path name : String) : String :=
  if ['/'].isSuffixOf path.toList then path ++ name else path ++ "/" ++ name

/-- The directories among the entries. -/
def directories (t : FileTree) : List (String × FileTree) := t.entries.filter (·.2.isDir)

/-- The names of the files among the entries, in ascending order. -/
def fileNames (t : FileTree) : List String :=
  ((t.entries.filter (!·.2.isDir)).map (·.1)).mergeSort (fun a b => decide (a ≤ b))

section

variable (legible : String → String)

/-- The directory of a package, whatever the case of ASCII letters in its name. -/
def packageDir? (name : String) (packages : List (String × FileTree)) :
    Option (String × FileTree) :=
  packages.find? fun p => Text.sameAsciiFold (legible p.1) name

/-- The directory of the version that a reference asks for. -/
def versionDir? (reference : Reference) (versions : List (String × FileTree)) :
    Option (String × FileTree) :=
  match reference.version with
  | some wanted => versions.find? fun v => legible v.1 == wanted
  | none => Version.latest? (fun v => legible v.1) versions

/-- The answer with the files of a version, if there are any. -/
def versionAnswer (root : String) (p v : String × FileTree) : Except ResolveError Resolved :=
  match fileNames v.2 with
  | [] => .error (.empty (legible p.1))
  | names =>
    .ok ⟨⟨legible p.1, some (legible v.1)⟩, names.map (join (join (join root p.1) v.1))⟩

/-- The answer with the version that is picked in a package, if one is. -/
def packageAnswer (root : String) (reference : Reference) (p : String × FileTree) :
    Except ResolveError Resolved :=
  match versionDir? legible reference (directories p.2) with
  | none => .error (.notFound reference)
  | some v => versionAnswer legible root p v

/-- The resolver of a package directory. The names of directories need not be texts: packages and
versions go by what their names are read as, and paths are made of the names themselves. -/
def resolverReading (c : PackageCache) : Resolver := fun reference =>
  match c.tree with
  | .error e => .error (.unreadable c.root e)
  | .ok (.file _) => .error (.unreadable c.root .notADirectory)
  | .ok (.dir entries) =>
    match packageDir? legible reference.name (directories (.dir entries)) with
    | none => .error (.notFound reference)
    | some p => packageAnswer legible c.root reference p

end

/-- The resolver of a package directory in which all names are texts. -/
def resolver (c : PackageCache) : Resolver := c.resolverReading id

end PackageCache

end ScriptHost
