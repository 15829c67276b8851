import CommitStatus.Build.Reader

/-!
# Commit statuses

What Bitbucket is told of a commit: the state of its build, a description, and a key under which a later status takes
the place of this one.

* `Status.check` reads a status from a document;
* `State.ofWord?_word`: a state is read back from its word.
-/

namespace CommitStatus

/-- The state of a commit's build. -/
inductive State
  | successful
  | failed
  | inProgress
  | stopped
  deriving DecidableEq, Repr

namespace State

/-- All states, in the order in which messages list them. -/
def all : List State := [.successful, .failed, .inProgress, .stopped]

/-- The word for a state. -/
def word : State → String
  | .successful => "SUCCESSFUL"
  | .failed => "FAILED"
  | .inProgress => "INPROGRESS"
  | .stopped => "STOPPED"

/-- The state that a word stands for. -/
def ofWord? (s : String) : Option State := all.find? (·.word == s)

theorem ofWord?_word (s : State) : ofWord? s.word = some s := by cases s <;> decide

end State

/-- The status of a commit. -/
structure Status where
  hash : String
  description : String
  state : State
  url : String
  key : String
  name : String
  deriving DecidableEq, Repr

namespace Status

open Json.Check

/-- Read a status. -/
def check : Json.Value → Checked Status :=
  object fun m =>
    ((required "hash" text m).map Status.mk)
      |>.ap (required "description" text m)
      |>.ap (required "state" (listed (State.all.map State.word) State.ofWord?) m)
      |>.ap (required "url" text m)
      |>.ap (required "key" text m)
      |>.ap (required "name" text m)

/-- The title of a status in reports of its faults. -/
def title : String := "BitbucketBuildStatus"

/-- What is sent: all but the hash, which is a part of the address. -/
def payload (s : Status) : Json.Value :=
  .object [("state", .string s.state.word), ("key", .string s.key), ("name", .string s.name), ("url", .string s.url),
    ("description", .string s.description)]

/-- All of a status. -/
def toJson (s : Status) : Json.Value :=
  .object [("hash", .string s.hash), ("description", .string s.description), ("state", .string s.state.word),
    ("url", .string s.url), ("key", .string s.key), ("name", .string s.name)]

end Status

end CommitStatus
