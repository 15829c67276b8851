import CommitStatus.Source.Reader
import CommitStatus.Text.Lines
import CommitStatus.Yaml.Data

/-!
# The sources file

Sources are held in a YAML file. An empty file has no sources.

* `SourcesFile.load` reads the sources of a file, or says why it cannot.
-/

namespace CommitStatus

/-- Why the sources of a file cannot be had. -/
inductive SourcesError
  | noFile
  | notUtf8 (e : Text.Utf8.Misread)
  /-- The text is no YAML text. -/
  | notYaml (raw : String)
  /-- The text holds a scalar that cannot be what its tag says. -/
  | unreadable (e : Yaml.Failure)
  | refused (raw : String) (e : Invalid)
  deriving DecidableEq, Repr

namespace SourcesError

/-- Whether the file is reported as invalid, as opposed to a failure in reading it. -/
def isInvalidConfig : SourcesError → Bool
  | .notYaml _ => true
  | .refused .. => true
  | _ => false

/-- The name of an error. -/
def name : SourcesError → String
  | .noFile => "FileNotFoundError"
  | .notUtf8 _ => "UnicodeDecodeError"
  | .notYaml _ => "InvalidSourcesConfig"
  | .unreadable e => e.name
  | .refused .. => "InvalidSourcesConfig"

/-- What is wrong with a file, in a few words. -/
def summary : SourcesError → String
  | .noFile => "no such file"
  | .notUtf8 e => e.message
  | .notYaml _ => "no YAML text"
  | .unreadable e => e.message
  | .refused _ e => e.headline

end SourcesError

namespace SourcesFile

/-- How deep the settings of sources lie in a file: within the file, the list, a source and one of its records. -/
def depth : Nat := 5

/-- The sources of plain data; null stands for none. -/
def ofDatum : Datum → Except Invalid (List Source)
  | .null => .ok []
  | v => (Source.checkAll v).titled Source.listTitle

/-- The sources of a text. -/
def ofText (raw : List Char) : Except SourcesError (List Source) :=
  match Yaml.read depth raw with
  | .error .malformed => .error (.notYaml (String.ofList raw))
  | .error e => .error (.unreadable e)
  | .ok v =>
    match ofDatum v with
    | .ok sources => .ok sources
    | .error e => .error (.refused (String.ofList raw) e)

/-- The sources of a file, given its octets if it is there. -/
def load : Option (List UInt8) → Except SourcesError (List Source)
  | none => .error .noFile
  | some octets =>
    match Text.Utf8.decode octets with
    | .error e => .error (.notUtf8 e)
    | .ok s => ofText (Text.unixLines s)

end SourcesFile

end CommitStatus
