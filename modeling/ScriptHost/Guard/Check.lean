import ScriptHost.Guard.FilePath
import ScriptHost.Guard.Item
import ScriptHost.Guard.Pattern
import ScriptHost.Guard.Violation
import ScriptHost.Package.Reference
import ScriptHost.Policy

/-!
# Checking sources and packages

The items of a source are checked one by one against a policy, and the first violation is
reported. It is a filter over what the source mentions: a name or path put together while
the script runs is beyond it.
-/

namespace ScriptHost.Guard

/-- A policy made ready for comparison. -/
structure Rules where
  forbidden : List Pattern
  libraries : List Pattern
  /-- The blocked roots as written and in normal form. -/
  blockedRoots : List (String × List Char)
  allowedRoots : List (List Char)

def Rules.ofPolicy (p : Policy) : Rules where
  forbidden := p.forbiddenApis.names.filterMap Pattern.ofEntry?
  libraries := p.blockedLibraries.names.filterMap Pattern.ofEntry?
  blockedRoots := p.blockedPaths.names.map fun root => (root, normalizePath root)
  allowedRoots := p.allowedPaths.names.map normalizePath

namespace Rules

/-- Check a chain of words. -/
def checkName (r : Rules) (words : List String) (loc : Location) : Except Violation Unit :=
  let chain := words.map Text.lowercase
  match r.forbidden.find? (·.occurs chain) with
  | some pattern => .error (.forbiddenApi pattern.entry loc)
  | none =>
    match r.libraries.find? (fun p => p.occurs chain || p.tailOccurs chain) with
    | some library => .error (.blockedLibrary library.entry loc)
    | none => .ok ()

/-- Check a path in normal form; `value` is the text that holds it. -/
def checkPath (r : Rules) (value : String) (path : List Char) (loc : Location) :
    Except Violation Unit :=
  if ['~'].isPrefixOf path then .error (.blockedPath value "~" loc)
  else if goesUp path then .error (.blockedPath value ".." loc)
  else
    match r.blockedRoots.find? (fun root => isUnder path root.2) with
    | some (rule, _) => .error (.blockedPath value rule loc)
    | none =>
      if r.allowedRoots.isEmpty || r.allowedRoots.any (isUnder path) then .ok ()
      else .error (.pathNotAllowed value loc)

/-- The start of a text up to the first comma, where a look-up by name puts the name. -/
def nameCandidate (value : String) : List Char :=
  Text.trimChars (value.toList.takeWhile (· != ','))

/-- A text that could be a name: words and dots. -/
def readsAsName (cs : List Char) : Bool :=
  !cs.isEmpty && cs.all fun c => Text.isWordPart c || c == '.'

/-- Check a text, first as a name and then as a path. -/
def checkText (r : Rules) (value : String) (loc : Location) : Except Violation Unit := do
  let candidate := nameCandidate value
  if readsAsName candidate then
    r.checkName (Text.splitAt '.' (String.ofList candidate)) loc
  match pathOfText? value with
  | none => return ()
  | some path => r.checkPath value path loc

/-- Check an item. -/
def checkItem (r : Rules) (item : Placed Item) : Except Violation Unit :=
  match item.val with
  | .name words => r.checkName words item.loc
  | .text value => r.checkText value item.loc

end Rules

/-- Check a source text. The limit on its size always holds, the other rules only while the
policy restricts names. -/
def checkSource (source : String) (p : Policy) : Except Violation Unit := do
  if p.maxSourceBytes < source.utf8ByteSize then
    throw (.sourceTooLarge source.utf8ByteSize p.maxSourceBytes)
  if p.restrictApis then
    match scan source with
    | .error e => throw (.unscannable e.val.reason e.loc)
    | .ok items => items.forM (Rules.ofPolicy p).checkItem

/-- A package is the library, or lies in its name space, when letters are compared in lower
case. -/
def isInLibrary (library package : String) : Bool :=
  let blocked := Text.lowercase library
  let name := Text.lowercase package
  name == blocked || (blocked.toList ++ ['.']).isPrefixOf name.toList

/-- Check a package against the libraries that the policy blocks. -/
def checkPackage (p : Policy) (package : Reference) : Except Violation Unit :=
  match p.blockedLibraries.names.find? (isInLibrary · package.name) with
  | some library => .error (.blockedPackage package.name library)
  | none => .ok ()

/-- Check the packages that a request asks for. -/
def checkPackages (packages : List Reference) (p : Policy) : Except Violation Unit :=
  if p.restrictApis then packages.forM (checkPackage p) else .ok ()

end ScriptHost.Guard
