import CommitStatus.Settings
import CommitStatus.Source.File
import CommitStatus.Url.Escaped
import CommitStatus.Web.Event
import CommitStatus.Web.Metrics

/-!
# The web part

A service that takes events as requests, and tells that it runs and what it counted. It starts only when its log level
is known, its sources can be had and its markers have a directory; the first of these that fails is reported.

* `App.start?` starts the service;
* `Route.find?` is the route of a path: slashes at the end do not matter, and each route is found (`find?_path`);
* `App.respond` answers a request.
-/

namespace CommitStatus.Web

/-- Why the service does not start. -/
inductive StartError
  | level (v : Verbosity)
  | sources (e : SourcesError)
  | store (e : Markers.StoreError)
  deriving DecidableEq, Repr

/-- The wording of what keeps the service from starting. -/
def StartError.message : StartError → String
  | .level v => v.unknownMessage
  | .sources e => e.summary
  | .store e => e.message

/-- The service while it runs: how builds are reported, what changes with them, the number of its sources, and what was
counted. -/
structure App where
  notifier : Notifier
  world : World
  sourceCount : Nat
  counted : List Counter

/-- Start the service. -/
def App.start? (settings : Settings) (env : Environment) (sources : Except SourcesError (List Source))
    (markers : Markers) (replies : List Reply) : Except StartError App :=
  match settings.verbosity.threshold? with
  | none => .error (.level settings.verbosity)
  | some _ =>
    match sources with
    | .error e => .error (.sources e)
    | .ok sources =>
      match Markers.directory none settings.markerDirectory with
      | .error e => .error (.store e)
      | .ok _ =>
        let clients := ClientPool.empty ClientPool.usualCapacity settings.dryRun
        .ok ⟨Notifier.usual sources settings.rootUrl env, ⟨markers, clients, replies⟩, sources.length, []⟩

/-! ## Routes -/

/-- What the service can be asked for. -/
inductive Route
  | status
  | event (kind : EventKind)
  | metrics
  deriving DecidableEq, Repr

namespace Route

/-- All routes. -/
def all : List Route := [.status, .event .checkout, .event .completed, .metrics]

/-- The path of a route. -/
def path : Route → String
  | .status => "/status"
  | .event kind => "/" ++ kind.word
  | .metrics => "/metrics"

/-- The only method of a route. -/
def method : Route → String
  | .event _ => "POST"
  | _ => "GET"

/-- The route of a path. -/
def find? (path : String) : Option Route :=
  let path := String.ofList (Text.trimRightBy (· == '/') path.toList)
  all.find? (·.path == path)

/-- A route is found under its path. -/
theorem find?_path (r : Route) : find? r.path = some r := by
  rcases r with _ | (_ | _) | _ <;> decide +kernel

end Route

/-! ## Requests -/

/-- A request. -/
structure Request where
  method : String
  path : String
  body : List UInt8
  deriving DecidableEq, Repr

/-- The path of a request as it is counted: escaped, with one slash before it. -/
def Request.countedPath (r : Request) : String :=
  let path := r.path.toList
  String.ofList ('/' :: Url.escaped (if path.head? = some '/' then path.drop 1 else path))

/-- The answer to a request. -/
inductive Response
  | text (s : String)
  | event (answer : Answer)
  | metrics (lines : List String)
  | notFound
  | wrongMethod
  deriving DecidableEq, Repr

/-- The status of an answer. -/
def Response.status : Response → Nat
  | .text _ => 200
  | .event answer => answer.status
  | .metrics _ => 200
  | .notFound => 404
  | .wrongMethod => 405

/-- What became of a request: the service afterwards, the answer unless the work was called off, and what was sent and
logged. -/
structure Exchange where
  app : App
  response : Option Response
  posts : List Post
  records : List LogRecord

namespace App

/-- Count a request, unless it asks for the metrics under their very path. -/
def countRequest (a : App) (path : String) : App :=
  if path = Route.metrics.path then a else { a with counted := a.counted ++ [.request path] }

/-- An answer that changes nothing more. -/
def reply (a : App) (r : Response) : Exchange := ⟨a, some r, [], []⟩

/-- Answer a request that a route takes. -/
def follow (a : App) (body : List UInt8) : Route → Exchange
  | .status => a.reply (.text "ok")
  | .metrics => a.reply (.metrics (metricsLines a.counted))
  | .event kind =>
    let (o, answer) := processEvent a.notifier kind body a.world
    ⟨{ a with world := o.world, counted := a.counted ++ o.counted }, answer.map .event, o.posts, o.records⟩

/-- Answer a request. It is counted whether or not there is such a route. -/
def respond (a : App) (r : Request) : Exchange :=
  let path := r.countedPath
  let a := a.countRequest path
  match Route.find? path with
  | none => a.reply .notFound
  | some route => if r.method = route.method then a.follow r.body route else a.reply .wrongMethod

end App

end CommitStatus.Web
