import ScriptHost.Text.Blank
import ScriptHost.Text.Case
import ScriptHost.Text.Split

/-!
# File paths in texts

A text that reads as a file path is brought into a normal form: small letters, single
slashes, no slash at the end. Paths are compared with the roots of a policy by whole
segments.
-/

namespace ScriptHost.Guard

/-- The characters behind `start`, if the text starts with it. -/
def behind? (start : String) (cs : List Char) : Option (List Char) :=
  if start.toList.isPrefixOf cs then some (cs.drop start.toList.length) else none

/-- The path without the scheme of a file address. -/
def dropScheme (cs : List Char) : List Char :=
  ((behind? "file://" cs).or (behind? "FILE://" cs)).getD cs

/-- Forward slashes, one at a time. -/
def singleSlashes (afterSlash : Bool) : List Char → List Char
  | [] => []
  | c :: cs =>
    if c = '/' ∨ c = '\\' then
      if afterSlash then singleSlashes true cs else '/' :: singleSlashes true cs
    else c :: singleSlashes false cs

/-- The path without slashes at its end; the root keeps its slash. -/
def dropEndSlashes (cs : List Char) : List Char :=
  let kept := (cs.reverse.dropWhile (· == '/')).reverse
  if kept.isEmpty then cs.take 1 else kept

/-- The normal form of a path. -/
def normalizePath (path : String) : List Char :=
  dropEndSlashes
    ((singleSlashes false (dropScheme (Text.trimChars path.toList))).flatMap Text.lowerChar)

/-- A letter, a colon and a slash of either kind. -/
def startsWithDrive : List Char → Bool
  | letter :: ':' :: slash :: _ => letter.isAlpha && (slash == '\\' || slash == '/')
  | _ => false

/-- What a relative path, a path from the root, or a path from home starts with. -/
def pathStarts : List String := ["/", "\\", "~", "./", "../", ".\\", "..\\"]

/-- The trimmed text reads as a path. -/
def readsAsPath (cs : List Char) : Bool :=
  startsWithDrive cs || pathStarts.any (·.toList.isPrefixOf cs) ||
    "file://".toList.isPrefixOf (Text.lowerAfter [] cs)

/-- The normal form of a text that reads as a path. -/
def pathOfText? (value : String) : Option (List Char) :=
  if readsAsPath (Text.trimChars value.toList) then some (normalizePath value) else none

/-- The path is the root or lies under it; both are in normal form. -/
def isUnder (path root : List Char) : Bool :=
  if root = ['/'] then ['/'].isPrefixOf path
  else path == root || (root ++ ['/']).isPrefixOf path

/-- A segment of the path goes up. -/
def goesUp (path : List Char) : Bool :=
  (path.splitOn '/').contains ['.', '.']

end ScriptHost.Guard
