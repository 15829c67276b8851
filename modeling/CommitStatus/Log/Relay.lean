import CommitStatus.Datum.Moment
import CommitStatus.Log.Basic
import CommitStatus.Settings

/-!
# Relaying the log

Warnings and errors can be relayed to a chat. They are written there as in the program's own log: a line with the time,
the name of the logging part, the level and the text.

* `Settings.relay?` is the relay, if one is set up;
* `recordLine` is the line of a record.
-/

namespace CommitStatus

/-- A relay to a chat. -/
structure Relay where
  token : String
  chat : Option String
  deriving DecidableEq, Repr

/-- The service that relays. -/
def Relay.provider : String := "telegram"

/-- The least level that is relayed. -/
def Relay.threshold : Int := Level.warning.number

/-- The relay, which needs a token, be it empty. -/
def Settings.relay? (s : Settings) : Option Relay := s.relayToken.map fun token => ⟨token, s.relayChat⟩

/-- A number with zeros in front, up to a width. -/
def padded (width n : Nat) : String := String.ofList (Decimal.padLeft width (Decimal.Integer.naturalText n))

/-- A moment in a log line. -/
def Moment.stamp (m : Moment) : String :=
  padded 4 m.date.year ++ "-" ++ padded 2 m.date.month ++ "-" ++ padded 2 m.date.day ++ " " ++ padded 2 m.hour ++ ":" ++
    padded 2 m.minute ++ ":" ++ padded 2 m.second ++ "," ++ padded 3 (m.microsecond / 1000)

/-- The line of a record. -/
def recordLine (m : Moment) (part : String) (level : Int) (text : String) : String :=
  m.stamp ++ " " ++ part ++ " " ++ levelName level ++ " - " ++ text

end CommitStatus
