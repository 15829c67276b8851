import CommitStatus.CommandLine.Arguments
import CommitStatus.Text.Control
import CommitStatus.Web.App

/-!
# Runs from the command line

A run reads its command, and reports an event, checks a URL or starts the web part. Runs share the markers and
Bitbucket's answers; each has clients of its own. A run that reports an event does so only when the event, the sources
and the markers can be had. After that it is counted, and the count is pushed if there is where to push it.

* `run` is a run, `Ending.exitCode?` is what it exits with;
* `reportEvent` reports an event, `checkAddress` checks a URL, `serve` starts the web part.
-/

namespace CommitStatus.CommandLine

/-! ## How runs end -/

/-- What a run breaks off with. -/
inductive Failure
  | start (e : Web.StartError)
  /-- The event is no text. -/
  | unreadable (e : Text.Utf8.Misread)
  | trouble (t : Trouble)
  deriving DecidableEq, Repr

/-- How a run ends. -/
inductive Ending
  | success
  | help
  | misuse
  /-- The URL that was to be checked is missing or refused. -/
  | urlRefused
  /-- The event is refused. -/
  | eventRefused (e : Invalid)
  /-- The sources are invalid or the markers have no directory. -/
  | notConfigured
  | failed (f : Failure)
  deriving DecidableEq, Repr

/-- What a run exits with; work that is called off ends it otherwise. -/
def Ending.exitCode? : Ending → Option Nat
  | .success => some 0
  | .help => some 0
  | .misuse => some 2
  | .urlRefused => some 1
  | .eventRefused _ => some 2
  | .notConfigured => some 2
  | .failed (.trouble t) => if t.isCancelled then none else some 1
  | .failed _ => some 1

/-- How the web part is run. -/
structure Serving where
  host : String
  port : Int
  workers : Int
  deriving DecidableEq, Repr

/-- A single worker needs no process of its own. -/
def Serving.isSingle (s : Serving) : Bool := s.workers = 1

/-- The wording of a failure. -/
def Failure.message : Failure → String
  | .start e => e.message
  | .unreadable e => e.message
  | .trouble t => t.line

/-! ## What a run is given and what it gives -/

/-- What a run finds: the settings, the environment, files, standard input, and what becomes of a push. -/
structure Surroundings where
  settings : Settings
  env : Environment
  file : String → Option (List UInt8)
  input : List UInt8
  pushTrouble : Option Trouble

/-- What runs share: the markers and the answers that are still to come. -/
structure Shared where
  markers : Markers
  replies : List Reply
  deriving DecidableEq, Repr

/-- What became of a run: how it ended, what is shared afterwards, what was written, counted, logged and sent, the
gateways to which counts were pushed, whether a session with Bitbucket was opened, and how the web part was run. -/
structure Run where
  ending : Ending
  shared : Shared
  output : String
  complaint : String
  counted : List Counter
  records : List LogRecord
  posts : List Post
  pushes : List String
  opened : Bool
  served : Option Serving

/-- A run that ends at once. -/
def Run.stop (ending : Ending) (shared : Shared) : Run := ⟨ending, shared, "", "", [], [], [], [], false, none⟩

/-- A line on a stream that is no terminal. -/
def echoed (text : String) : String := String.ofList (Text.withoutControls text.toList) ++ "\n"

/-- How the program is used. -/
def usage : String :=
  "Usage: serve [--host TEXT] [--port INTEGER] [--workers INTEGER]\n" ++
  "       checkout PAYLOAD\n" ++
  "       completed PAYLOAD\n" ++
  "       check-url [--cloud | --no-cloud] [URL]\n"

/-- A run that only shows how the program is used. -/
def Run.usageShown (ending : Ending) (shared : Shared) : Run :=
  match ending with
  | .help => { Run.stop .help shared with output := usage }
  | ending => { Run.stop ending shared with complaint := usage }

/-! ## Checking a URL -/

/-- Check a URL, or the configured root URL when none or an empty one is given. -/
def checkAddress (s : Surroundings) (shared : Shared) (url : Option String) (cloud : Bool) : Run :=
  match (url.filter (!·.isEmpty)).orElse fun _ => s.settings.rootUrl with
  | none => { Run.stop .urlRefused shared with complaint := echoed "No URL given and JENKINS_URL is not set" }
  | some url =>
    match Url.check cloud url with
    | .error e => { Run.stop .urlRefused shared with complaint := echoed (url ++ ": " ++ e.message) }
    | .ok () => { Run.stop .success shared with output := echoed (url ++ ": ok") }

/-! ## Reporting an event -/

/-- The name of standard input among files. -/
def standardInput : String := "-"

/-- The octets of an event. -/
def Surroundings.payload? (s : Surroundings) (path : String) : Option (List UInt8) :=
  if path = standardInput then some s.input else s.file path

/-- The record that says why the program is not set up. -/
def setupRecord (message : String) : LogRecord := ⟨.program, .error, message, false⟩

/-- What is said of a sources file that is invalid. -/
def invalidSourcesMessage (path : String) (e : SourcesError) : String :=
  "Invalid sources file " ++ path ++ ":\n" ++ e.summary

/-- The record of a push that failed. -/
def pushRecord (gateway : String) : LogRecord :=
  ⟨.program, .warning, "Could not push metrics to " ++ gateway, true⟩

/-- Push the counts, if there is where to push them. Trouble of the system is only logged. -/
def push (s : Surroundings) (r : Run) : Run :=
  match s.settings.pushGateway with
  | none => r
  | some gateway =>
    let r := { r with pushes := r.pushes ++ [gateway] }
    match s.pushTrouble with
    | none => r
    | some t =>
      if t.isSystem then { r with records := r.records ++ [pushRecord gateway] }
      else { r with ending := .failed (.trouble t) }

/-- Report an event with sources: the run is counted and the count pushed unless the work was called off. -/
def dispatch (s : Surroundings) (shared : Shared) (sources : List Source) (event : Event) : Run :=
  let notifier := Notifier.usual sources s.settings.rootUrl s.env
  let clients := ClientPool.empty ClientPool.usualCapacity s.settings.dryRun
  let o := notifier.handle event ⟨shared.markers, clients, shared.replies⟩
  let r : Run :=
    { ending := .success
      shared := ⟨o.world.markers, o.world.replies⟩
      output := o.remarks.text
      complaint := ""
      counted := o.counted
      records := o.records
      posts := o.posts
      pushes := []
      opened := true
      served := none }
  match o.trouble with
  | some t => { r with ending := .failed (.trouble t) }
  | none => push s { r with counted := r.counted ++ [.commandLine event.kind] }

/-- The complaint about an event that is refused. -/
def refusalText (e : Invalid) : String := "Invalid event payload:\n" ++ e.headline ++ "\n"

/-- Report an event once it was read. -/
def reportRead (s : Surroundings) (shared : Shared) (event : Event) : Run :=
  match SourcesFile.load (s.file s.settings.sourcesPath) with
  | .error e =>
    if e.isInvalidConfig then
      { Run.stop .notConfigured shared with records := [setupRecord (invalidSourcesMessage s.settings.sourcesPath e)] }
    else Run.stop (.failed (.start (.sources e))) shared
  | .ok sources =>
    match Markers.directory none s.settings.markerDirectory with
    | .error .notConfigured =>
      { Run.stop .notConfigured shared with records := [setupRecord Markers.StoreError.notConfigured.message] }
    | .error e => Run.stop (.failed (.start (.store e))) shared
    | .ok _ => dispatch s shared sources event

/-- Report an event, which is read as a text with the ends of its lines made line feeds. A payload that is not there is
a misuse. -/
def reportEvent (s : Surroundings) (shared : Shared) (kind : EventKind) (path : String) : Run :=
  match s.payload? path with
  | none => Run.usageShown .misuse shared
  | some octets =>
    match Text.Utf8.decode octets with
    | .error e => Run.stop (.failed (.unreadable e)) shared
    | .ok text =>
      match Event.readText kind (Text.unixLines text) with
      | .error e => { Run.stop (.eventRefused e) shared with complaint := refusalText e }
      | .ok event => reportRead s shared event

/-! ## Running the web part -/

/-- Run the web part, if it starts. -/
def serve (s : Surroundings) (shared : Shared) (serving : Serving) : Run :=
  let sources := SourcesFile.load (s.file s.settings.sourcesPath)
  match Web.App.start? s.settings s.env sources shared.markers shared.replies with
  | .error e => Run.stop (.failed (.start e)) shared
  | .ok _ => { Run.stop .success shared with served := some serving }

/-! ## Runs -/

/-- Carry out a command. -/
def perform (s : Surroundings) (shared : Shared) : Command → Run
  | .serve host port workers => serve s shared ⟨host, port, workers⟩
  | .report kind payload => reportEvent s shared kind payload
  | .checkUrl url cloud => checkAddress s shared url cloud

/-- Hold back the records below the log level. -/
def Run.quietened (threshold : Int) (r : Run) : Run := { r with records := r.records.filter (·.isKept threshold) }

/-- A run. The log level has to be known before the words behind the command are read. -/
def run (s : Surroundings) (shared : Shared) (words : List String) : Run :=
  match Invocation.read words with
  | .help => Run.usageShown .help shared
  | .misuse => Run.usageShown .misuse shared
  | .read invocation =>
    match s.settings.verbosity.threshold? with
    | none => Run.stop (.failed (.start (.level s.settings.verbosity))) shared
    | some threshold =>
      match invocation.verb.read invocation.words with
      | .help => Run.usageShown .help shared
      | .misuse => Run.usageShown .misuse shared
      | .read command => (perform s shared command).quietened threshold

/-- The event file that a command line names. -/
def payloadPath? (words : List String) : Option String :=
  match Invocation.read words with
  | .read invocation =>
    match invocation.verb.read invocation.words with
    | .read (.report _ path) => some path
    | _ => none
  | _ => none

end CommitStatus.CommandLine
