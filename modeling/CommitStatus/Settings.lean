import CommitStatus.Decimal.Notation
import CommitStatus.Decimal.Reader
import CommitStatus.Environment
import CommitStatus.Log.Basic

/-!
# Settings

The program is set up by variables of the environment. Those that are not set have a default.

* `Settings.ofEnvironment` reads the settings.
-/

namespace CommitStatus

/-- The settings of the program. -/
structure Settings where
  /-- The root URL of the build server. -/
  rootUrl : Option String
  sourcesPath : String
  markerDirectory : Option String
  verbosity : Verbosity
  relayToken : Option String
  relayChat : Option String
  /-- The seconds that sending a status may take. -/
  timeout : Decimal.Binary64
  dryRun : Bool
  pushGateway : Option String
  deriving DecidableEq, Repr

namespace Settings

/-- The settings when no variable is set. -/
def default : Settings where
  rootUrl := none
  sourcesPath := "bbstatus.yml"
  markerDirectory := none
  verbosity := .number Level.warning.number
  relayToken := none
  relayChat := none
  timeout := Decimal.Binary64.ofDecimal false 30 0
  dryRun := false
  pushGateway := none

/-- The names of the variables that set the program up. -/
def variableNames : List String :=
  ["JENKINS_URL", "SOURCES_CONFIG", "DISKCACHE_DIR", "OVERRIDE_LOGGING", "TELEGRAM_TOKEN", "TELEGRAM_CHAT_ID",
    "HTTP_TIMEOUT", "DRY_RUN", "PUSH_GATEWAY"]

/-- The wording for a time limit that is no number. -/
def timeoutMessage (text : String) : String := "could not convert string to float: " ++ Text.quoted text

/-- The time limit that a variable sets, or the text that is no number. -/
def timeoutOf : Option String → Except String Decimal.Binary64
  | none => .ok default.timeout
  | some text =>
    match Decimal.Binary64.read? text.toList with
    | some x => .ok x
    | none => .error text

/-- The settings of an environment, or the text of a time limit that is no number. Only the very word `true` asks for
a dry run. -/
def ofEnvironment (env : Environment) : Except String Settings :=
  (timeoutOf (env "HTTP_TIMEOUT")).map fun timeout =>
    { rootUrl := env "JENKINS_URL"
      sourcesPath := (env "SOURCES_CONFIG").getD default.sourcesPath
      markerDirectory := env "DISKCACHE_DIR"
      verbosity := ((env "OVERRIDE_LOGGING").map Verbosity.ofName).getD default.verbosity
      relayToken := env "TELEGRAM_TOKEN"
      relayChat := env "TELEGRAM_CHAT_ID"
      timeout
      dryRun := env "DRY_RUN" = some "true"
      pushGateway := env "PUSH_GATEWAY" }

end Settings

end CommitStatus
