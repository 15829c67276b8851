import CommitStatus.Status.Basic

/-!
# Counters

What the program counts, by a label each: requests, events, statuses that were sent, those that were not and why,
errors, and runs from the command line.

* `Counter.sample` is the name of a counter with its label;
* `tally` sums up increments.
-/

namespace CommitStatus

/-- Why an event does not lead to a status. -/
inductive SkipReason
  | disabled
  | noRevision
  | noHash
  | invalidUrl
  | noState
  deriving DecidableEq, Repr

/-- The word for a reason. -/
def SkipReason.word : SkipReason → String
  | .disabled => "disabled"
  | .noRevision => "no_revision"
  | .noHash => "no_hash"
  | .invalidUrl => "invalid_url"
  | .noState => "no_state"

/-- Where an error is counted. -/
inductive ErrorContext
  | event (kind : EventKind)
  | dispatch
  deriving DecidableEq, Repr

/-- The word for a context. -/
def ErrorContext.word : ErrorContext → String
  | .event kind => kind.word
  | .dispatch => "event_dispatch"

/-- A counter with its label. -/
inductive Counter
  | request (path : String)
  | event (kind : EventKind)
  | notification (state : State)
  | skipped (reason : SkipReason)
  | error (context : ErrorContext)
  | commandLine (kind : EventKind)
  deriving DecidableEq, Repr

/-- The families of counters. -/
inductive CounterFamily
  | request
  | event
  | notification
  | skipped
  | error
  | commandLine
  deriving DecidableEq, Repr

/-- The name of a family. -/
def CounterFamily.name : CounterFamily → String
  | .request => "bbstatus_num_req"
  | .event => "bbstatus_num_event"
  | .notification => "bbstatus_notification"
  | .skipped => "bbstatus_notification_skipped"
  | .error => "bbstatus_error_counter"
  | .commandLine => "bbstatus_cli_notification"

/-- What a family counts. -/
def CounterFamily.help : CounterFamily → String
  | .request => "Total number of requests"
  | .event => "Total number of build events"
  | .notification => "Number of build statuses posted to Bitbucket"
  | .skipped => "Number of build events that did not result in a build status"
  | .error => "Total number of errors"
  | .commandLine => "Number of build statuses posted from the command line"

/-- The name of a family's label. -/
def CounterFamily.label : CounterFamily → String
  | .request => "path"
  | .event => "event"
  | .notification => "state"
  | .skipped => "reason"
  | .error => "context"
  | .commandLine => "event"

namespace Counter

/-- The family of a counter. -/
def family : Counter → CounterFamily
  | .request _ => .request
  | .event _ => .event
  | .notification _ => .notification
  | .skipped _ => .skipped
  | .error _ => .error
  | .commandLine _ => .commandLine

/-- The label of a counter. -/
def value : Counter → String
  | .request path => path
  | .event kind => kind.word
  | .notification state => state.word
  | .skipped reason => reason.word
  | .error context => context.word
  | .commandLine kind => kind.word

/-- The name of a counter with its label. -/
def sample (c : Counter) : String := c.family.name ++ "_total\x7b" ++ c.family.label ++ "=" ++ c.value ++ "\x7d"

end Counter

/-- The sums of increments, each counter once. -/
def tally : List Counter → List (Counter × Nat)
  | [] => []
  | c :: rest => (c, rest.count c + 1) :: (tally rest).filter (·.1 ≠ c)

end CommitStatus
