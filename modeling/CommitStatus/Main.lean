import CommitStatus.CommandLine.Run
import CommitStatus.Json.Reader
import CommitStatus.Json.Writer

/-!
# The program

Carries out the command line: reads what a run needs from the system, runs, and writes what the run gave. Markers are
kept in a file of their directory. There is no connection to Bitbucket here, so only dry runs send their statuses, and
the web part does not listen.
-/

namespace CommitStatus.Program

open CommandLine

/-- The variables of the environment with given names. -/
def readVariables (names : List String) : IO Environment := do
  let found ← names.filterMapM fun name => do return (← IO.getEnv name).map (name, ·)
  return .ofList found

/-- The octets of a file, if it can be read. -/
def readFile? (path : String) : IO (Option (List UInt8)) := do
  try
    return some (← IO.FS.readBinFile path).toList
  catch _ => return none

/-- The file that keeps the markers. -/
def markersPath (directory : String) : String := directory ++ "/markers.json"

/-- The markers that a text holds. -/
def markersOf (text : List Char) : Markers :=
  match Json.read? 1 text with
  | some (.array items) => ⟨items.filterMap fun v => match v with
    | .string key => some key
    | _ => none⟩
  | _ => .empty

/-- Read the markers. -/
def readMarkers : Option String → IO Markers
  | none => return .empty
  | some directory => do
    let octets ← readFile? (markersPath directory)
    return ((octets.bind Text.Utf8.decode?).map markersOf).getD .empty

/-- Write the markers. -/
def writeMarkers (directory : Option String) (m : Markers) : IO Unit :=
  match directory with
  | none => return
  | some directory => do
    IO.FS.createDirAll directory
    IO.FS.writeFile (markersPath directory) (Json.Value.array (m.keys.map .string)).text

/-- The variables that hold the tokens of sources. -/
def tokenVariables (octets : Option (List UInt8)) : List String :=
  match SourcesFile.load octets with
  | .ok sources => sources.filterMap fun s => s.credentials.map (·.tokenVariable)
  | .error _ => []

/-- All that can be read on standard input. -/
partial def readInput (input : IO.FS.Stream) (octets : List UInt8) : IO (List UInt8) := do
  let chunk ← input.read 65536
  if chunk.isEmpty then return octets else readInput input (octets ++ chunk.toList)

/-- What a run finds. -/
def surroundings (settings : Settings) (words : List String) : IO Surroundings := do
  let sources ← readFile? settings.sourcesPath
  let env ← readVariables (tokenVariables sources)
  let path := (payloadPath? words).getD ""
  let isInput := path == standardInput
  let payload ← if isInput then pure none else readFile? path
  let input ← if isInput then readInput (← IO.getStdin) [] else pure []
  let file (name : String) := if name = path then payload else if name = settings.sourcesPath then sources else none
  return ⟨settings, env, file, input, some (.raised .system none)⟩

/-- The answer to a status while there is no connection. -/
def noConnection : Reply := .failure (.raised .connection (some "no connection"))

/-- Write what a run gave. -/
def report (r : Run) : IO UInt32 := do
  (← IO.getStdout).putStr r.output
  let errors ← IO.getStderr
  errors.putStr r.complaint
  for record in r.records do
    errors.putStrLn (record.level.name ++ " - " ++ record.message)
  match r.ending with
  | .failed f => errors.putStrLn f.message
  | _ => pure ()
  if r.served.isSome then
    errors.putStrLn "The web part does not listen here"
    return 1
  return (r.ending.exitCode?.getD 1).toUInt32

/-- Run with settings. -/
def runWith (settings : Settings) (words : List String) : IO UInt32 := do
  let s ← surroundings settings words
  let markers ← readMarkers settings.markerDirectory
  let r := run s ⟨markers, [noConnection]⟩ words
  unless r.shared.markers = markers do
    writeMarkers settings.markerDirectory r.shared.markers
  report r

end CommitStatus.Program

/-- Run the program. -/
def main (words : List String) : IO UInt32 := do
  let env ← CommitStatus.Program.readVariables CommitStatus.Settings.variableNames
  match CommitStatus.Settings.ofEnvironment env with
  | .error text =>
    (← IO.getStderr).putStrLn (CommitStatus.Settings.timeoutMessage text)
    return 1
  | .ok settings => CommitStatus.Program.runWith settings words
