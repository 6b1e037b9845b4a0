/-!
# Arguments

The words behind a command's name, sorted into options with their values and the words that
are neither. An option is named by a long word or by a letter; letters may be written
together, and a value may be joined to its option or follow it. Behind a pair of dashes
nothing is an option.
-/

namespace ScriptHost.CommandLine

/-- The options. -/
inductive Name where
  | config
  | preset
  | json
  | verbose
  | help
  | version
  | output
  | force
  | eval
  | package
deriving DecidableEq, Repr

namespace Name

/-- The word that names an option. -/
def long : Name → String
  | config => "config"
  | preset => "preset"
  | json => "json"
  | verbose => "verbose"
  | help => "help"
  | version => "version"
  | output => "output"
  | force => "force"
  | eval => "eval"
  | package => "package"

/-- The letter that names an option. -/
def letter? : Name → Option Char
  | config => some 'c'
  | verbose => some 'v'
  | help => some 'h'
  | version => some 'V'
  | output => some 'o'
  | force => some 'f'
  | eval => some 'e'
  | package => some 'p'
  | preset | json => none

/-- The option has a value. -/
def hasValue : Name → Bool
  | config | preset | output | eval | package => true
  | json | verbose | help | version | force => false

/-- The option may be given several times. -/
def repeats : Name → Bool
  | package => true
  | _ => false

/-- The option ends the reading at once. -/
def stops : Name → Bool
  | help | version => true
  | _ => false

end Name

/-- What has been given: the options, each with its value or the empty text, and the other
words, all in order. -/
structure Given where
  options : List (Name × String)
  words : List String
deriving DecidableEq, Repr

namespace Given

def none : Given := ⟨[], []⟩

/-- An option has been given. -/
def has (g : Given) (n : Name) : Bool := (g.options.lookup n).isSome

/-- The value given for an option. -/
def value? (g : Given) (n : Name) : Option String := g.options.lookup n

/-- All the values given for an option. -/
def values (g : Given) (n : Name) : List String :=
  (g.options.filter (·.1 = n)).map (·.2)

/-- One more option, unless it has been given before and may not be repeated. -/
def add (g : Given) (n : Name) (value : String) : Option Given :=
  if g.has n && !n.repeats then Option.none
  else some { g with options := g.options ++ [(n, value)] }

end Given

/-- How the reading of some words ended. -/
inductive Sorted where
  /-- All words are sorted. -/
  | all (g : Given)
  /-- A word that names a command came up; the rest belongs to the command. -/
  | command (g : Given) (name : String) (rest : List String)
  /-- An option that ends the reading came up. -/
  | stopped (n : Name)
  | misuse
deriving DecidableEq, Repr

/-- What may stand among the words: the options, the commands, how many other words, and
which values an option takes. -/
structure Grammar where
  options : List Name
  commands : List String
  words : Nat
  accepts : Name → String → Bool

/-- Where the reading stands: what has been given, and the option that waits for its value. -/
structure Sorting where
  given : Given
  pending : Option Name

/-- The outcome of one word. -/
inductive Step where
  | next (s : Sorting)
  | stop (n : Name)
  | fail

namespace Grammar

/-- The option that a word names. -/
def longOption? (g : Grammar) (word : List Char) : Option Name :=
  g.options.find? fun n => n.long.toList = word

/-- The option that a letter names. -/
def letterOption? (g : Grammar) (letter : Char) : Option Name :=
  g.options.find? fun n => n.letter? = some letter

/-- Give an option its value. -/
def giveValue (g : Grammar) (given : Given) (n : Name) (value : String) : Step :=
  if g.accepts n value then
    match given.add n value with
    | some given => .next ⟨given, none⟩
    | none => .fail
  else .fail

/-- Give an option without a value. -/
def giveFlag (given : Given) (n : Name) : Step :=
  if n.stops then .stop n
  else
    match given.add n "" with
    | some given => .next ⟨given, none⟩
    | none => .fail

/-- The text before the first sign of equality, and the text behind it, if there is one. -/
def splitValue (word : List Char) : List Char × Option (List Char) :=
  match word.span (· != '=') with
  | (name, _ :: value) => (name, some value)
  | (name, []) => (name, none)

/-- A word behind two dashes. -/
def long (g : Grammar) (given : Given) (word : List Char) : Step :=
  let (name, value) := splitValue word
  match g.longOption? name, value with
  | none, _ => .fail
  | some n, some value =>
    if n.hasValue then g.giveValue given n (String.ofList value) else .fail
  | some n, none => if n.hasValue then .next ⟨given, some n⟩ else giveFlag given n

/-- Letters behind one dash. -/
def letters (g : Grammar) (given : Given) : List Char → Step
  | [] => .next ⟨given, none⟩
  | c :: cs =>
    match g.letterOption? c with
    | none => .fail
    | some n =>
      if n.hasValue then
        match cs with
        | [] => .next ⟨given, some n⟩
        | '=' :: value => g.giveValue given n (String.ofList value)
        | value => g.giveValue given n (String.ofList value)
      else
        match giveFlag given n with
        | .next s => g.letters s.given cs
        | other => other

/-- A word that is neither an option nor a value. -/
def word (g : Grammar) (given : Given) (w : String) : Option Given :=
  if given.words.length < g.words && w ≠ "" then some { given with words := given.words ++ [w] }
  else none

/-- Sort words of which none is an option. -/
def plainWords (g : Grammar) (given : Given) : List String → Sorted
  | [] => .all given
  | w :: ws =>
    match g.word given w with
    | some given => g.plainWords given ws
    | none => .misuse

/-- Sort words. -/
def sort (g : Grammar) (s : Sorting) : List String → Sorted
  | [] => if s.pending.isSome then .misuse else .all s.given
  | w :: ws =>
    let continue_ : Step → Sorted := fun step =>
      match step with
      | .next s => g.sort s ws
      | .stop n => .stopped n
      | .fail => .misuse
    match w.toList, s.pending with
    | '-' :: '-' :: [], some _ => .misuse
    | '-' :: '-' :: [], none => g.plainWords s.given ws
    | '-' :: '-' :: _, some _ => .misuse
    | '-' :: '-' :: name, none => continue_ (g.long s.given name)
    | '-' :: _ :: _, some _ => .misuse
    | '-' :: c :: cs, none => continue_ (g.letters s.given (c :: cs))
    | _, some n => continue_ (g.giveValue s.given n w)
    | _, none =>
      if g.commands.contains w then .command s.given w ws
      else
        match g.word s.given w with
        | some given => g.sort ⟨given, none⟩ ws
        | none => .misuse

/-- Sort words with nothing given yet. -/
def read (g : Grammar) (ws : List String) : Sorted := g.sort ⟨.none, none⟩ ws

end Grammar

end ScriptHost.CommandLine
