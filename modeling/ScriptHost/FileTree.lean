import ScriptHost.Text.Split

/-!
# File trees

A directory with everything in it, as a listing shows it. Paths are followed from such a
directory, segment by segment; what lies outside of it is known only as far as it is put
there. A path that cannot be followed fails at its first segment that does not lead on.
-/

namespace ScriptHost

/-- Why a path does not lead to what is wanted. -/
inductive FileError where
  | missing
  | notADirectory
  | isADirectory
  | nameTooLong
  /-- No path holds the character that ends a text in memory. -/
  | notAPath
deriving DecidableEq, Repr

def FileError.message : FileError → String
  | missing => "No such file or directory (os error 2)"
  | notADirectory => "Not a directory (os error 20)"
  | isADirectory => "Is a directory (os error 21)"
  | nameTooLong => "File name too long (os error 36)"
  | notAPath => "file name contained an unexpected NUL byte"

/-- A file with its content, or a directory with its entries in the order of listing. -/
inductive FileTree where
  | file (content : String)
  | dir (entries : List (String × FileTree))

namespace FileTree

/-! ## Paths -/

/-- A path starts with a separator or ends with one. -/
def startsAtRoot (path : String) : Bool := path.toList.head? == some '/'

def endsOpen (path : String) : Bool := path.toList.getLast? == some '/'

/-- The segments between the separators of a path. -/
def innerSegments (path : String) : List String := (Text.splitAt '/' path).filter (· ≠ "")

/-- The root as a segment of its own, at the start of a path. -/
def rootSegment (path : String) : List String := if startsAtRoot path then ["/"] else []

/-- The segments of a path. A separator at the end asks for a directory, as the segment does
that stays in place. -/
def segments (path : String) : List String :=
  rootSegment path ++ innerSegments path ++ (if endsOpen path then ["."] else [])

/-- The names passed so far, the last first, with one more segment: one that stays in place
adds nothing, and one that leads out takes a name away. -/
def addSegment (passed : List String) (s : String) : List String :=
  if s = "." then passed
  else if s = ".." then
    match passed with
    | [] => [s]
    | last :: before =>
      if last = "/" then passed else if last = ".." then s :: passed else before
  else s :: passed

/-- The names that lead straight to the end of a path. -/
def names (path : String) : List String := ((segments path).foldl addSegment []).reverse

/-- The bytes of the longest name, and of the longest path. -/
def maxName : Nat := 255

def maxPath : Nat := 4095

/-- What makes a path unfit to be followed. -/
def flaw? (path : String) : Option FileError :=
  if path.toList.contains '\x00' then some .notAPath
  else if path = "" then some .missing
  else if maxPath < path.utf8ByteSize then some .nameTooLong
  else none

/-! ## Looking -/

def isDir : FileTree → Bool
  | dir _ => true
  | file _ => false

/-- The entries of a directory; a file has none. -/
def entries : FileTree → List (String × FileTree)
  | dir es => es
  | file _ => []

/-- The entry with a name; without one, an empty directory. -/
def entryOrEmpty (name : String) (t : FileTree) : FileTree :=
  (t.entries.lookup name).getD (dir [])

/-- The entry of a directory with a name. -/
def entry (name : String) (t : FileTree) : Except FileError FileTree :=
  if maxName < name.utf8ByteSize then .error .nameTooLong
  else
    match t.entries.lookup name with
    | some inner => .ok inner
    | none => .error .missing

/-- What stands at the end of a path from a directory, which lies in others, the innermost
first. Beyond the outermost there are directories of which only what is put there is known; but
nothing is beyond the root. -/
def follow (rooted : Bool) (above : List FileTree) (t : FileTree) :
    List String → Except FileError FileTree
  | [] => .ok t
  | s :: path =>
    if !t.isDir then .error .notADirectory
    else if s = "." then t.follow rooted above path
    else if s = "/" then (t.entryOrEmpty s).follow true [] path
    else if s = ".." then
      match above with
      | outer :: above => outer.follow rooted above path
      | [] => (if rooted then t else t.entryOrEmpty s).follow rooted [] path
    else
      match t.entry s with
      | .ok inner => inner.follow rooted (t :: above) path
      | .error e => .error e

/-- What a path leads to. -/
def locate (t : FileTree) (path : String) : Except FileError FileTree :=
  match flaw? path with
  | some e => .error e
  | none => t.follow false [] (segments path)

/-- The content of the file that a path leads to. -/
def read (t : FileTree) (path : String) : Except FileError String :=
  match t.locate path with
  | .ok (file content) => .ok content
  | .ok (dir _) => .error .isADirectory
  | .error e => .error e

/-- The content of a file, if the path leads to one. -/
def read? (t : FileTree) (path : String) : Option String := (t.read path).toOption

/-! ## Changing -/

/-- The entries with one of them set. -/
def setEntry (name : String) (inner : FileTree) :
    List (String × FileTree) → List (String × FileTree)
  | [] => [(name, inner)]
  | (n, t) :: rest => if n = name then (n, inner) :: rest else (n, t) :: setEntry name inner rest

/-- The tree with a node put at the end of some names, with the directories on the way to
it. -/
def put (t : FileTree) (node : FileTree) : List String → FileTree
  | [] => node
  | s :: path => dir (setEntry s ((t.entryOrEmpty s).put node path) t.entries)

/-- The tree with a file written. -/
def write (t : FileTree) (path content : String) : FileTree :=
  t.put (file content) (names path)

/-- The tree with a directory made, unless it is there. -/
def makeDir (t : FileTree) (path : String) : FileTree :=
  match t.locate path with
  | .ok (dir _) => t
  | _ => t.put (dir []) (names path)

/-- Whether a file can be written under a name in a directory: it may be there, but no
directory may. -/
def checkPlace (name : String) (parent : FileTree) : Except FileError Unit :=
  if !parent.isDir then .error .notADirectory
  else
    match parent.entry name with
    | .ok (dir _) => .error .isADirectory
    | .ok (file _) | .error .missing => .ok ()
    | .error e => .error e

/-- The tree with a file written into a directory that is there. A path that does not end with
a name can only mean a directory. -/
def create (t : FileTree) (path content : String) : Except FileError FileTree :=
  let inner := innerSegments path
  let last := inner.getLast?.getD "."
  match flaw? path with
  | some e => .error e
  | none =>
    if last = "." ∨ last = ".." then
      (t.locate path).bind fun _ => .error .isADirectory
    else do
      let parent ← t.follow false [] (rootSegment path ++ inner.dropLast)
      if endsOpen path && parent.isDir then .error .isADirectory
      else
        parent.checkPlace last
        return t.write path content

end FileTree

end ScriptHost
