import CommitStatus.Decimal.Integer
import CommitStatus.Status.Basic

/-!
# The arguments of the command line

A command line names a command; options and arguments of the command follow in any order. An option is written with two
hyphens, and its value stands behind it or behind an equals sign. Behind `--` all are arguments. A single hyphen is an
argument. Asking for help counts before anything that may be wrong with the other options and arguments, but not before
an option that does not exist.

* `Invocation.read` finds the command, `pieces?` cuts its arguments into options and arguments, and `Verb.read` reads
  the command that they make.
-/

namespace CommitStatus.CommandLine

/-! ## Options -/

/-- Whether a word is an option by its form. -/
def isOption (word : String) : Bool := word.toList.head? = some '-' && word.toList.length ≠ 1

/-- The name of an option and the value behind its first equals sign. -/
def splitOption (word : String) : String × Option String :=
  let s := word.toList
  (String.ofList (s.takeWhile (· != '=')), ((s.dropWhile (· != '=')).tail?).map String.ofList)

/-- The names of the options that a command takes, those with a value and those without. -/
structure OptionNames where
  valued : List String
  plain : List String
  deriving DecidableEq, Repr

/-- A piece of a command line. -/
inductive Piece
  | valued (name value : String)
  | plain (name : String)
  | argument (text : String)
  deriving DecidableEq, Repr

/-- A single option, given with its value if it has one. -/
def OptionNames.single? (names : OptionNames) (word : String) : Option Piece :=
  match splitOption word with
  | (name, some value) => if names.valued.contains name then some (.valued name value) else none
  | (name, none) => if names.plain.contains name then some (.plain name) else none

/-- The pieces of a command line; nothing when an option does not exist, lacks its value or must not have one. -/
def pieces? (names : OptionNames) : List String → Option (List Piece)
  | [] => some []
  | word :: rest =>
    if word = "--" then some (rest.map .argument)
    else if !isOption word then (pieces? names rest).map (.argument word :: ·)
    else if names.valued.contains word then
      match rest with
      | [] => none
      | value :: rest => (pieces? names rest).map (.valued word value :: ·)
    else
      match names.single? word with
      | none => none
      | some piece => (pieces? names rest).map (piece :: ·)

/-- The option that asks for help. -/
def helpOption : String := "--help"

/-! ## Commands -/

/-- The names of the commands. -/
inductive Verb
  | serve
  | report (kind : EventKind)
  | checkUrl
  deriving DecidableEq, Repr

/-- A command with all that it needs. -/
inductive Command
  /-- Run the web part. -/
  | serve (host : String) (port workers : Int)
  /-- Handle an event, which is read from a file or from standard input. -/
  | report (kind : EventKind) (payload : String)
  /-- Check a URL. -/
  | checkUrl (url : Option String) (cloud : Bool)
  deriving DecidableEq, Repr

/-- What a command line asks for. -/
inductive Reading (α : Type)
  | help
  | misuse
  | read (value : α)
  deriving DecidableEq, Repr

namespace Verb

/-- All commands. -/
def all : List Verb := [.serve, .report .checkout, .report .completed, .checkUrl]

/-- The word for a command. -/
def word : Verb → String
  | .serve => "serve"
  | .report kind => kind.word
  | .checkUrl => "check-url"

/-- The command for a word. -/
def ofWord? (word : String) : Option Verb := all.find? (·.word == word)

/-- A command is found under its word. -/
theorem ofWord?_word (v : Verb) : ofWord? v.word = some v := by
  rcases v with _ | (_ | _) | _ <;> decide +kernel

/-- The options of a command. -/
def optionNames : Verb → OptionNames
  | .serve => ⟨["--host", "--port", "--workers"], [helpOption]⟩
  | .report _ => ⟨[], [helpOption]⟩
  | .checkUrl => ⟨[], [helpOption, "--cloud", "--no-cloud"]⟩

end Verb

/-- The arguments among pieces. -/
def arguments (pieces : List Piece) : List String :=
  pieces.filterMap fun p => match p with
    | .argument text => some text
    | _ => none

/-- The value of an option; of several the last counts. -/
def valueOf? (name : String) : List Piece → Option String
  | [] => none
  | p :: rest =>
    match valueOf? name rest, p with
    | some v, _ => some v
    | none, .valued n v => if n = name then some v else none
    | none, _ => none

/-- Which of two opposite options comes last; neither means no. -/
def isSet (yes no : String) (pieces : List Piece) : Bool :=
  (pieces.filterMap fun p =>
    if p = .plain yes then some true else if p = .plain no then some false else none).getLast?.getD false

/-- The number that an option gives, or its default. -/
def numberOf? (name : String) (default : Int) (pieces : List Piece) : Option Int :=
  match valueOf? name pieces with
  | none => some default
  | some text => (Decimal.Integer.read 10 text.toList).toOption

/-- The command that pieces make, if they make one. -/
def Verb.command? (v : Verb) (pieces : List Piece) : Option Command :=
  match v, arguments pieces with
  | .serve, [] => do
    let port ← numberOf? "--port" 8000 pieces
    let workers ← numberOf? "--workers" 1 pieces
    return .serve ((valueOf? "--host" pieces).getD "0.0.0.0") port workers
  | .report kind, [payload] => some (.report kind payload)
  | .checkUrl, [] => some (.checkUrl none (isSet "--cloud" "--no-cloud" pieces))
  | .checkUrl, [url] => some (.checkUrl (some url) (isSet "--cloud" "--no-cloud" pieces))
  | _, _ => none

/-- Read the words behind the name of a command. -/
def Verb.read (v : Verb) (words : List String) : Reading Command :=
  match pieces? v.optionNames words with
  | none => .misuse
  | some pieces =>
    if pieces.contains (.plain helpOption) then .help
    else match v.command? pieces with
      | none => .misuse
      | some c => .read c

/-! ## Command lines -/

/-- A command and the words behind its name. -/
structure Invocation where
  verb : Verb
  words : List String
  deriving DecidableEq, Repr

/-- Cut off the options before the name of the command: whether help is asked for, and the rest. Help is the only such
option. -/
def beforeCommand : List String → Option (Bool × List String)
  | [] => some (false, [])
  | word :: rest =>
    if word = "--" then some (false, rest)
    else if word = helpOption then (beforeCommand rest).map fun (_, rest) => (true, rest)
    else if isOption word then none
    else some (false, word :: rest)

/-- Find the command of a command line. -/
def Invocation.read (words : List String) : Reading Invocation :=
  match beforeCommand words with
  | none => .misuse
  | some (true, _) => .help
  | some (false, []) => .misuse
  | some (false, word :: rest) =>
    match Verb.ofWord? word with
    | none => .misuse
    | some verb => .read ⟨verb, rest⟩

end CommitStatus.CommandLine
