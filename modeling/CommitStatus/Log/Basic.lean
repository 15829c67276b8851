import CommitStatus.Text.Quoted

/-!
# The program's log

Records have a level and come from the program itself or from its web part. How much of the program's own records is
kept is set by a number or by the name of a level.

* `Level.name` and `Level.number` are the standard levels, `levelNumber?` and `levelName` turn names and numbers of all
  levels into each other;
* `Verbosity.threshold?` is the number from which on records are kept: that of the name that is asked for
  (`threshold?_ofName`).
-/

namespace CommitStatus

/-- The levels of records. -/
inductive Level
  | debug
  | info
  | warning
  | error
  deriving DecidableEq, Repr

/-- The name of a level. -/
def Level.name : Level → String
  | .debug => "DEBUG"
  | .info => "INFO"
  | .warning => "WARNING"
  | .error => "ERROR"

/-- The number of a level. -/
def Level.number : Level → Int
  | .debug => 10
  | .info => 20
  | .warning => 30
  | .error => 40

/-- The names of levels, also of those that the program does not use, with their numbers. -/
def levelNames : List (String × Int) :=
  [("CRITICAL", 50), ("FATAL", 50), ("ERROR", 40), ("WARNING", 30), ("WARN", 30), ("INFO", 20), ("DEBUG", 10),
    ("NOTSET", 0)]

/-- The number of a level with a name. -/
def levelNumber? (name : String) : Option Int := levelNames.lookup name

/-- The name that stands for a number or for a name without level. -/
def strangeLevel (shown : String) : String := "Level " ++ shown

/-- No level has the name of a strange one: none begins with the letter L. -/
theorem levelNumber?_strangeLevel (shown : String) : levelNumber? (strangeLevel shown) = none := by
  have differs : ∀ name ∈ levelNames.map Prod.fst, strangeLevel shown ≠ name := by
    intro name hname heq
    have hhead : name.toList.head? = some 'L' := by
      rw [← heq, strangeLevel, String.toList_append]
      rfl
    have hall : ∀ n ∈ levelNames.map Prod.fst, n.toList.head? ≠ some 'L' := by decide
    exact hall name hname hhead
  exact List.lookup_eq_none_iff.mpr fun p hp => bne_iff_ne.mpr (differs p.1 (List.mem_map_of_mem hp))

/-- The name of a level with a number; a number between the standard ones is its own name. -/
def levelName (number : Int) : String :=
  match levelNames.find? (·.2 == number) with
  | some (name, _) => name
  | none => strangeLevel (toString number)

/-- From which level on records are kept: a number, or a name that may be that of no level. -/
inductive Verbosity
  | number (n : Int)
  | named (name : String)
  deriving DecidableEq, Repr

namespace Verbosity

/-- The verbosity that a name asks for. A name of no level is kept under a strange level's name. -/
def ofName (name : String) : Verbosity :=
  match levelNumber? name with
  | some n => .number n
  | none => .named (strangeLevel name)

/-- The number from which on records are kept, if there is such a level. -/
def threshold? : Verbosity → Option Int
  | .number n => some n
  | .named name => levelNumber? name

/-- A name asks for the level that has it, or for none. -/
theorem threshold?_ofName (name : String) : (ofName name).threshold? = levelNumber? name := by
  unfold ofName
  split
  · rename_i n h
    exact h.symm
  · rename_i h
    exact (levelNumber?_strangeLevel name).trans h.symm

/-- What is said of a name that no level has. -/
def unknownMessage : Verbosity → String
  | .number n => "Unknown level: " ++ toString n
  | .named name => "Unknown level: " ++ Text.quoted name

end Verbosity

/-- The parts of the program that write records. -/
inductive Channel
  | program
  | web
  deriving DecidableEq, Repr

/-- A record of the log; the flag tells that what went wrong is described behind the message. -/
structure LogRecord where
  channel : Channel
  level : Level
  message : String
  hasTrouble : Bool
  deriving DecidableEq, Repr

/-- Whether a record is kept. The web part's records are not held back. -/
def LogRecord.isKept (threshold : Int) (r : LogRecord) : Bool := r.channel = .web || threshold ≤ r.level.number

end CommitStatus
