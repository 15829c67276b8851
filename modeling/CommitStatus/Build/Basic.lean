import CommitStatus.Build.Revision
import CommitStatus.Decimal.Integer

/-!
# Builds and their events

A build belongs to a job, has a number within it, and a result once it is over. Two events report a build: the checkout
of its sources, and its completion.

* `Build.id` names a build among all builds.
-/

namespace CommitStatus

/-- How a build ended. -/
inductive Result
  | success
  | unstable
  | failure
  | notBuilt
  | aborted
  deriving DecidableEq, Repr

namespace Result

/-- All results, in the order in which messages list them. -/
def all : List Result := [.success, .unstable, .failure, .notBuilt, .aborted]

/-- The word for a result. -/
def word : Result → String
  | .success => "SUCCESS"
  | .unstable => "UNSTABLE"
  | .failure => "FAILURE"
  | .notBuilt => "NOT_BUILT"
  | .aborted => "ABORTED"

/-- The result that a word stands for. -/
def ofWord? (s : String) : Option Result := all.find? (·.word == s)

theorem ofWord?_word (r : Result) : ofWord? r.word = some r := by cases r <;> decide

end Result

/-- The folder or project that holds a job. -/
structure Folder where
  fullName : String
  deriving DecidableEq, Repr

/-- A job. Its URL is relative to the root of the build server. -/
structure Job where
  fullName : String
  url : String
  parent : Folder
  deriving DecidableEq, Repr

/-- One run of a job. -/
structure Build where
  number : Int
  fullDisplayName : String
  description : Option String
  result : Option Result
  job : Job
  url : Option String
  revision : Option Revision
  deriving DecidableEq, Repr

namespace Build

/-- The number of a build as text. -/
def numberText (b : Build) : String := String.ofList (Decimal.Integer.text b.number)

/-- The name of a build among all builds. -/
def id (b : Build) : String := b.job.fullName ++ "#" ++ b.numberText

/-- A build as messages show it. -/
def shown (b : Build) : String := "Build(" ++ b.id ++ ")"

/-- The hash of the commit that a build is about. -/
def hash? (b : Build) : Option String := b.revision.bind Revision.hash?

end Build

/-- What is reported of a build. -/
inductive EventKind
  | checkout
  | completed
  deriving DecidableEq, Repr

namespace EventKind

/-- The word for a kind of event. -/
def word : EventKind → String
  | .checkout => "checkout"
  | .completed => "completed"

/-- The title of an event in reports of its faults. -/
def title : EventKind → String
  | .checkout => "CheckoutEvent"
  | .completed => "CompletedEvent"

end EventKind

/-- A report of a build. -/
inductive Event
  | checkout (build : Build) (workspace : Option String)
  | completed (build : Build)
  deriving DecidableEq, Repr

namespace Event

/-- The build of an event. -/
def build : Event → Build
  | .checkout build _ => build
  | .completed build => build

/-- The kind of an event. -/
def kind : Event → EventKind
  | .checkout .. => .checkout
  | .completed _ => .completed

end Event

end CommitStatus
