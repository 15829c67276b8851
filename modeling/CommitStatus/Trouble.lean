import CommitStatus.Text.Quoted

/-!
# What goes wrong while statuses are sent

Bitbucket may refuse a status or may not be reached, a client for it may not be had, and the look-up of sources and
revisions may fail. A trouble has a name and a message; what is cancelled is no trouble that a build's log reports.

* `Trouble.message` words a trouble, `Trouble.line` is its line in a build's log.
-/

namespace CommitStatus

/-- The kinds of failures that come from outside. -/
inductive TroubleKind
  | runtime
  | value
  | system
  | key
  | timeout
  | connection
  | cancelled
  deriving DecidableEq, Repr

/-- What went wrong. -/
inductive Trouble
  /-- A failure from outside, with its text if it has one. -/
  | raised (kind : TroubleKind) (text : Option String)
  /-- A user's name for authentication holds a colon. -/
  | colonInUsername
  /-- There is no room for a single client. -/
  | noRoom
  /-- Bitbucket's answer to a status is an error. -/
  | refused (status : Int) (body : String) (url : String)
  deriving DecidableEq, Repr

/-- The name of a kind. -/
def TroubleKind.name : TroubleKind → String
  | .runtime => "RuntimeError"
  | .value => "ValueError"
  | .system => "OSError"
  | .key => "KeyError"
  | .timeout => "TimeoutError"
  | .connection => "ClientConnectionError"
  | .cancelled => "CancelledError"

/-- All kinds. -/
def TroubleKind.all : List TroubleKind := [.runtime, .value, .system, .key, .timeout, .connection, .cancelled]

/-- The kind with a name. -/
def TroubleKind.ofName? (name : String) : Option TroubleKind := all.find? (·.name == name)

/-- The full name of a kind. -/
def TroubleKind.fullName : TroubleKind → String
  | .connection => "aiohttp.client_exceptions.ClientConnectionError"
  | .cancelled => "asyncio.exceptions.CancelledError"
  | k => k.name

namespace Trouble

/-- The name of a trouble. -/
def name : Trouble → String
  | .raised kind _ => kind.name
  | .colonInUsername => "ValueError"
  | .noRoom => "ValueError"
  | .refused .. => "BitbucketRequestError"

/-- The full name of a trouble. -/
def fullName : Trouble → String
  | .raised kind _ => kind.fullName
  | .refused .. => "bbstatus.bitbucket.api.BitbucketRequestError"
  | t => t.name

/-- The wording of a trouble. A missing key is quoted. -/
def message : Trouble → String
  | .raised _ none => ""
  | .raised .key (some text) => Text.quoted text
  | .raised _ (some text) => text
  | .colonInUsername => "A \":\" is not allowed in login (RFC 1945#section-11.1)"
  | .noRoom => "value too large"
  | .refused status body url => "Bitbucket responded " ++ toString status ++ " for " ++ url ++ ": " ++ body

/-- The line of a trouble in a build's log: its full name, and the message unless that is empty. -/
def line (t : Trouble) : String := if t.message.isEmpty then t.fullName else t.fullName ++ ": " ++ t.message

/-- Whether the work was called off, which is passed on and never reported. -/
def isCancelled : Trouble → Bool
  | .raised .cancelled _ => true
  | _ => false

/-- Whether a trouble is one of the system: a time that ran out is among these. -/
def isSystem : Trouble → Bool
  | .raised .system _ => true
  | .raised .timeout _ => true
  | _ => false

end Trouble

end CommitStatus
