import CommitStatus.Log.Basic
import CommitStatus.Source.Basic
import CommitStatus.Trouble

/-!
# Clients

A client sends statuses to one repository. On Bitbucket Cloud the address of a status names the repository; on a server
of one's own statuses belong to commits, whatever repository they are in.

* `Client.statusUrl` is the address of a status;
* `Source.login` is the authentication that a source asks for.
-/

namespace CommitStatus

/-- Where a client sends statuses. -/
inductive Host
  | cloud
  | server (url : String)
  deriving DecidableEq, Repr

/-- A user's name and token. -/
structure Login where
  username : String
  token : String
  deriving DecidableEq, Repr

/-- A client; the number tells it from all others that were built. -/
structure Client where
  number : Nat
  host : Host
  owner : String
  repository : String
  login : Option Login
  deriving DecidableEq, Repr

/-- A status that is sent. -/
structure Post where
  url : String
  status : Status
  login : Option Login
  deriving DecidableEq, Repr

/-- Where the statuses of a source go. -/
def Source.host (s : Source) : Host := if s.isCloud then .cloud else .server s.serverUrl

namespace Client

/-- Whether a client sends to Bitbucket Cloud. -/
def isCloud (c : Client) : Bool := c.host = .cloud

/-- The address of the status of a commit. -/
def statusUrl (c : Client) (hash : String) : String :=
  match c.host with
  | .cloud =>
    cloudApiUrl ++ "/2.0/repositories/" ++ c.owner ++ "/" ++ c.repository ++ "/commit/" ++ hash ++ "/statuses/build"
  | .server url => url ++ "/rest/build-status/1.0/commits/" ++ hash

/-- What a client sends for a status. -/
def postOf (c : Client) (status : Status) : Post := ⟨c.statusUrl status.hash, status, c.login⟩

/-- A client as messages show it. -/
def shown (c : Client) : String :=
  (if c.isCloud then "BitbucketCloudApiClient(" else "BitbucketServerApiClient(") ++ c.owner ++ "/" ++ c.repository ++
    ")"

end Client

/-- A client of no particular kind, which has no address for statuses, as messages show it. -/
def abstractClientShown (owner repository : String) : String := "BitbucketApi(" ++ owner ++ "/" ++ repository ++ ")"

/-- The warning that a token is missing. -/
def missingTokenRecord (name : String) (s : Source) : LogRecord :=
  ⟨.web, .warning, "Environment variable " ++ name ++ " is not set, posting anonymously for " ++ s.shown, false⟩

/-- The authentication that a source asks for, with what is logged. There is none without credentials or token, and a
user's name cannot hold a colon. -/
def Source.login (env : Environment) (s : Source) : List LogRecord × Except Trouble (Option Login) :=
  match s.credentials with
  | none => ([], .ok none)
  | some c =>
    match c.token? env with
    | none => ([missingTokenRecord c.tokenVariable s], .ok none)
    | some token =>
      if c.username.toList.contains ':' then ([], .error .colonInUsername) else ([], .ok (some ⟨c.username, token⟩))

end CommitStatus
