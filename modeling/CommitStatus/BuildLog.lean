import CommitStatus.Log.Basic
import CommitStatus.Trouble

/-!
# The log of a build

What is said of one build while its events are handled: lines, and errors with the trouble behind them. It is kept as a
list of texts for an answer, or written as running text.

* `BuildLog.entries` and `BuildLog.text` are the two forms.
-/

namespace CommitStatus

/-- Something said of a build. -/
inductive Remark
  | line (text : String)
  | error (text : String) (trouble : Option Trouble)
  deriving DecidableEq, Repr

namespace Remark

/-- The texts of a remark in a list; the description of a trouble ends its own line. -/
def entries : Remark → List String
  | .line text => [text]
  | .error text none => ["ERROR: " ++ text]
  | .error text (some t) => ["ERROR: " ++ text, t.line ++ "\n"]

/-- A remark as running text. -/
def text : Remark → String
  | .line text => text ++ "\n"
  | .error text none => "ERROR: " ++ text ++ "\n"
  | .error text (some t) => "ERROR: " ++ text ++ "\n" ++ (t.line ++ "\n")

/-- The message of a record about a build. -/
def about (name text : String) : String := "[" ++ name ++ "] " ++ text

/-- The record of an error, which both forms of the log make. -/
def errorRecord (name text : String) (trouble : Option Trouble) : LogRecord :=
  ⟨.program, .error, about name text, trouble.isSome⟩

/-- The record that a remark leaves in the program's log; that of a line is left only when the lines are kept as a
list. -/
def logRecord? (name : String) (isList : Bool) : Remark → Option LogRecord
  | .line text => if isList then some ⟨.program, .info, about name text, false⟩ else none
  | .error text trouble => some (errorRecord name text trouble)

end Remark

/-- The log of a build. -/
abbrev BuildLog := List Remark

namespace BuildLog

/-- The log as a list of texts. -/
def entries (log : BuildLog) : List String := log.flatMap Remark.entries

/-- The log as running text. -/
def text (log : BuildLog) : String := String.join (log.map Remark.text)

/-- The records that the remarks leave in the program's log. -/
def logRecords (name : String) (isList : Bool) (log : BuildLog) : List LogRecord :=
  log.filterMap (Remark.logRecord? name isList)

end BuildLog

end CommitStatus
