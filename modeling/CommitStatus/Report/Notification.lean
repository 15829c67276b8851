import CommitStatus.BuildLog
import CommitStatus.Client.Pool
import CommitStatus.Counter
import CommitStatus.Markers
import CommitStatus.Status.Description
import CommitStatus.Url.Root

/-!
# Notifications

A build is reported to Bitbucket by one status: for the commit of its revision, under the key of its job or branch, with
the state of its result. A notification may be skipped, and then the reason is counted.

* `Notifier.prepare` makes the status of a build, `Notifier.finish` sends it, `Notifier.notify` does both;
* an `Outcome` is what became of it.
-/

namespace CommitStatus

/-- What changes while builds are reported: the markers, the clients, and the answers that are still to come. -/
structure World where
  markers : Markers
  clients : ClientPool
  replies : List Reply
  deriving DecidableEq, Repr

/-- What became of a build's report: the world afterwards, what was said in the build's log, counted, logged and sent,
and the trouble that ended it. -/
structure Outcome where
  world : World
  remarks : BuildLog
  counted : List Counter
  records : List LogRecord
  posts : List Post
  trouble : Option Trouble
  deriving DecidableEq, Repr

namespace Outcome

/-- Nothing happened. -/
def start (w : World) : Outcome := ⟨w, [], [], [], [], none⟩

/-- Say a line. -/
def say (text : String) (o : Outcome) : Outcome := { o with remarks := o.remarks ++ [.line text] }

/-- Say lines. -/
def sayAll (texts : List String) (o : Outcome) : Outcome := { o with remarks := o.remarks ++ texts.map .line }

/-- Count something. -/
def count (c : Counter) (o : Outcome) : Outcome := { o with counted := o.counted ++ [c] }

/-- Log something. -/
def log (records : List LogRecord) (o : Outcome) : Outcome := { o with records := o.records ++ records }

/-- End in trouble. -/
def fail (t : Trouble) (o : Outcome) : Outcome := { o with trouble := some t }

/-- Skip the notification. -/
def skip (reason : SkipReason) (o : Outcome) : Outcome := o.count (.skipped reason)

end Outcome

/-- A status that is to be sent, and the client for it. -/
structure Sending where
  client : Client
  status : Status
  deriving DecidableEq, Repr

/-- How builds are reported: how their sources and revisions are found, the root URL of the build server, and the
environment that holds the tokens. -/
structure Notifier where
  findSource : Job → Except Trouble (Option Source)
  findRevision : Source → Build → Except Trouble (Option Revision)
  rootUrl : Option String
  env : Environment

/-- Builds bring their revisions along, and sources are found by their patterns. -/
def Notifier.usual (sources : List Source) (rootUrl : Option String) (env : Environment) : Notifier :=
  ⟨fun job => .ok (findSource? sources job), fun _ build => .ok build.revision, rootUrl, env⟩

namespace Notifier

/-- The URL of a build, if Bitbucket can link to it. -/
def linkFor (n : Notifier) (cloud : Bool) (build : Build) : Except UrlError String :=
  match Url.ofBuild n.rootUrl build with
  | .error e => .error e
  | .ok url =>
    match Url.check cloud url with
    | .error e => .error e
    | .ok () => .ok url

/-- What is said when a build cannot be linked to. -/
def noLinkLine (e : UrlError) : String :=
  "Can not determine Jenkins root URL or Jenkins URL is not a valid URL regarding Bitbucket API. Commit status " ++
    "notifications are disabled until a root URL is configured in Jenkins global configuration. \n" ++ e.name ++ ": " ++
    e.message

/-- The status of a build. -/
def statusOf (build : Build) (state : State) (url key hash : String) : Status :=
  ⟨hash, describe build.result (Description.keep? build.description), state, url, key, build.fullDisplayName⟩

/-- Send a status, and say and count what became of it. -/
def sendStatus (build : Build) (client : Client) (status : Status) (o : Outcome) : Outcome :=
  match o.world.clients.send o.world.replies client status with
  | (posts, clients, replies, trouble) =>
    let o := { o with world := { o.world with clients, replies }, posts := o.posts ++ posts }
    match trouble with
    | some t => o.fail t
    | none =>
      let o := o.count (.notification status.state)
      if build.result.isSome then o.say "[Bitbucket] Build result notified" else o

/-- Make the status of a build for a client: the outcome so far, and the status if one is to be sent. -/
def draft (n : Notifier) (policy : Policy) (build : Build) (client : Client) (key hash : String) (o : Outcome) :
    Outcome × Option Sending :=
  match n.linkFor client.isCloud build with
  | .error e => ((o.say (noLinkLine e)).skip .invalidUrl, none)
  | .ok url =>
    let o := o.sayAll (Description.lines build.description)
    match policy.state? client.isCloud build.result with
    | none => ((o.say "[Bitbucket] Skip result notification").skip .noState, none)
    | some state => (o, some ⟨client, statusOf build state url key hash⟩)

/-- What is said before a build is reported. -/
def openingLine : Revision → String
  | .pullRequest .. => "[Bitbucket] Notifying pull request build result"
  | _ => "[Bitbucket] Notifying commit build result"

/-- Prepare the report of a build of a source: the outcome so far, and the status if one is to be sent. -/
def prepare (n : Notifier) (source : Source) (build : Build) (w : World) : Outcome × Option Sending :=
  let o := Outcome.start w
  if source.policy.notificationsDisabled then (o.skip .disabled, none)
  else match n.findRevision source build with
    | .error t => (o.fail t, none)
    | .ok none => (o.skip .noRevision, none)
    | .ok (some revision) =>
      match revision.hash? with
      | none => (o.skip .noHash, none)
      | some hash =>
        let o := o.say (openingLine revision)
        let key := statusKey build revision.branch source.policy.shareKeyBetweenBranchAndPr
        match w.clients.obtain n.env source revision.pullRequest? with
        | (clients, records, result) =>
          let o := { o with world := { o.world with clients } }.log records
          match result with
          | .error t => (o.fail t, none)
          | .ok client => n.draft source.policy build client key hash o

/-- Send what a report has prepared, if there is anything to send. -/
def finish (build : Build) : Outcome × Option Sending → Outcome
  | (o, none) => o
  | (o, some s) => sendStatus build s.client s.status o

/-- Report a build of a source. -/
def notify (n : Notifier) (source : Source) (build : Build) (w : World) : Outcome :=
  finish build (n.prepare source build w)

end Notifier

end CommitStatus
