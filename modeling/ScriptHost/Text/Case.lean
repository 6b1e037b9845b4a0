import ScriptHost.Text.CaseTable

/-!
# Letter case

Lower-case forms of characters and of whole texts, and comparison up to the case of the
ASCII letters. Only the capital sigma looks at its neighbours: at the end of a word it
goes to the final form.
-/

namespace ScriptHost.Text

/-- The character that `runs` sends `c` to, if any. -/
def lowerInRuns (runs : List (Nat × Nat × Nat × Nat)) (c : Char) : Option Char :=
  runs.findSome? fun (first, last, step, target) =>
    if first ≤ c.toNat && c.toNat ≤ last && (c.toNat - first) % step == 0 then
      some (Char.ofNat (target + (c.toNat - first)))
    else none

/-- The lower-case form of a character by itself. -/
def lowerChar (c : Char) : List Char :=
  if c.val < 128 then [c.toLower]
  else if c == 'İ' then ['i', '\u0307']
  else [(lowerInRuns lowerRuns c).getD c]

/-- A character with the Cased property. -/
def isCased (c : Char) : Bool :=
  if c.val < 128 then c.isAlpha else inRanges casedRanges c

/-- A character with the Case_Ignorable property. -/
def isCaseIgnorable (c : Char) : Bool :=
  if c.val < 128 then c == '\'' || c == '.' || c == ':' || c == '^' || c == '\x60'
  else inRanges caseIgnorableRanges c

/-- The first character that is not case-ignorable is cased. -/
def meetsCased (cs : List Char) : Bool :=
  match cs.dropWhile isCaseIgnorable with
  | [] => false
  | c :: _ => isCased c

/-- The lower-case form of `cs` standing after `before`, which is given backwards. -/
def lowerAfter (before : List Char) : List Char → List Char
  | [] => []
  | c :: cs =>
    let form :=
      if c == 'Σ' then
        if meetsCased before && !meetsCased cs then ['ς'] else ['σ']
      else lowerChar c
    form ++ lowerAfter (c :: before) cs

/-- The lower-case form of a text. -/
def lowercase (s : String) : String :=
  String.ofList (lowerAfter [] s.toList)

/-- The characters with each ASCII capital made small. -/
def foldAscii (s : String) : List Char :=
  s.toList.map Char.toLower

/-- Equality up to the case of the ASCII letters. -/
def sameAsciiFold (a b : String) : Bool :=
  foldAscii a == foldAscii b

end ScriptHost.Text
