import CommitStatus.Datum.Basic
import CommitStatus.Source.Basic
import CommitStatus.Text.Utf8

/-!
# Reading sources

Sources are read from plain data. Settings of more than one word may be spelt with hyphens or with low lines, but not
both at once; no other keys are allowed, so that a misspelt setting is never lost.

* `Record.settings` collects what the settings of a record need, and reports all other keys;
* `Source.check` and `Source.checkAll` read sources.
-/

namespace CommitStatus

/-! ## Scalars and lists -/

namespace Datum

/-- A text, or octets that are one. -/
def checkText : Datum → Checked String
  | .text s => .valid s
  | .octets bytes =>
    match Text.Utf8.decode? bytes with
    | some s => .valid (String.ofList s)
    | none => .fault .notUnicode
  | _ => .fault .notText

/-- The truth value that a word stands for. -/
def flagWord? (s : List Char) : Option Bool :=
  let word := String.ofList (s.map Char.toLower)
  if ["1", "t", "y", "on", "yes", "true"].contains word then some true
  else if ["0", "f", "n", "no", "off", "false"].contains word then some false
  else none

/-- The truth value of one and zero. -/
def flagNumber? (n : Int) : Option Bool := if n = 1 then some true else if n = 0 then some false else none

/-- A truth value that could be read, or the fault that it could not. -/
def flagOr : Option Bool → Checked Bool
  | some b => .valid b
  | none => .fault .unreadableFlag

/-- A truth value, a word for one, or a number that is one or zero. -/
def checkFlag : Datum → Checked Bool
  | .bool b => .valid b
  | .text s => flagOr (flagWord? s.toList)
  | .octets bytes => flagOr ((Text.Utf8.decode? bytes).bind flagWord?)
  | .int n => if fits n then flagOr (flagNumber? n) else .fault .notFlag
  | .float x =>
    match x.toInt? with
    | some n => if Decimal.Integer.isWithin64 n then flagOr (flagNumber? n) else .fault .notFlag
    | none => .fault .notFlag
  | _ => .fault .notFlag

/-- A list of which each item passes a check. -/
def checkList {α : Type} (check : Datum → Checked α) : Datum → Checked (List α)
  | .sequence items => Checked.each check 0 items
  | .set items => Checked.each check 0 items
  | _ => .fault .notList

end Datum

/-! ## Records -/

namespace Record

open Datum (Entries)

/-- The spellings of a setting, in the order in which they count. -/
abbrev Spellings := List String

/-- The spelling under which a setting is given, with its value. -/
def given? (spellings : Spellings) (m : Entries) : Option (String × Datum) :=
  spellings.findSome? fun name => (Datum.member? name m).map (name, ·)

/-- A setting that may be left out. -/
def setting {α : Type} (spellings : Spellings) (default : Checked α) (check : Datum → Checked α) (m : Entries) :
    Checked α :=
  match given? spellings m with
  | some (name, v) => (check v).under (.member name)
  | none => default

/-- The fault that a setting is missing. -/
def missing {α : Type} (spellings : Spellings) : Checked α :=
  (Checked.fault .missing).under (.member (spellings.head?.getD ""))

/-- The fault of a key that gives none of the settings. -/
def keyFault? (used : List String) (key : Datum) : Option Fault :=
  match key with
  | .text s => if used.contains s then none else some ⟨[.member s], .unknownKey⟩
  | key => some ⟨[key.step], .keyNotText⟩

/-- The faults of all keys that give none of the settings. -/
def strayKeys (known : List Spellings) (m : Entries) : List Fault :=
  let used := known.filterMap fun spellings => (given? spellings m).map (·.1)
  m.filterMap fun (key, _) => keyFault? used key

/-- A mapping of settings, read as a record; the faults of its keys come behind those of the settings. -/
def settings {α : Type} (model : String) (known : List Spellings) (check : Entries → Checked α) : Datum → Checked α
  | .mapping m =>
    match check m, strayKeys known m with
    | result, [] => result
    | result, strays => .invalid (result.faults ++ strays)
  | _ => .fault (.notMapping model)

end Record

/-! ## The records of a source -/

open Record Datum

/-- The spellings of a setting of several words. -/
def spelt (words : List String) : Spellings := ["-".intercalate words, "_".intercalate words]

namespace Traits

/-- The settings of the traits. -/
def known : List Spellings :=
  [spelt ["notifications", "disabled"], spelt ["send", "success", "for", "unstable"],
    spelt ["disable", "notification", "for", "not", "built"], spelt ["exclude", "origin", "pr", "branches"]]

/-- A trait, which is off when it is left out. -/
def flag (words : List String) (m : Entries) : Checked Bool := setting (spelt words) (.valid false) checkFlag m

/-- Read traits. -/
def check : Datum → Checked Traits :=
  settings "SourceTraits" known fun m =>
    ((flag ["notifications", "disabled"] m).map Traits.mk)
      |>.ap (flag ["send", "success", "for", "unstable"] m)
      |>.ap (flag ["disable", "notification", "for", "not", "built"] m)
      |>.ap (flag ["exclude", "origin", "pr", "branches"] m)

end Traits

namespace Credentials

/-- The settings of credentials. -/
def known : List Spellings := [["username"], spelt ["token", "env"]]

/-- Read credentials. -/
def check : Datum → Checked Credentials :=
  settings "Credentials" known fun m =>
    ((setting ["username"] (missing ["username"]) checkText m).map Credentials.mk)
      |>.ap (setting (spelt ["token", "env"]) (missing (spelt ["token", "env"])) checkText m)

/-- Read credentials that may be null. -/
def checkOptional : Datum → Checked (Option Credentials)
  | .null => .valid none
  | v => (check v).map some

end Credentials

namespace Source

/-- The settings of a source. -/
def known : List Spellings :=
  [spelt ["server", "url"], spelt ["repo", "owner"], ["repository"], ["credentials"], ["jobs"], ["traits"]]

/-- Read a URL, without the slashes at its end. -/
def checkServerUrl (v : Datum) : Checked String :=
  (checkText v).map fun s => String.ofList (Text.trimRightBy (· == '/') s.toList)

/-- Read a source. -/
def check : Datum → Checked Source :=
  settings "BitbucketSource" known fun m =>
    ((setting (spelt ["server", "url"]) (.valid cloudUrl) checkServerUrl m).map Source.mk)
      |>.ap (setting (spelt ["repo", "owner"]) (missing (spelt ["repo", "owner"])) checkText m)
      |>.ap (setting ["repository"] (missing ["repository"]) checkText m)
      |>.ap (setting ["credentials"] (.valid none) Credentials.checkOptional m)
      |>.ap (setting ["jobs"] (.valid []) (checkList checkText) m)
      |>.ap (setting ["traits"] (.valid .plain) Traits.check m)

/-- The title of a source in reports of its faults. -/
def title : String := "BitbucketSource"

/-- Read all sources. -/
def checkAll : Datum → Checked (List Source) :=
  settings "SourcesConfig" [["sources"]] fun m => setting ["sources"] (.valid []) (checkList check) m

/-- The title of a list of sources in reports of its faults. -/
def listTitle : String := "SourcesConfig"

end Source

end CommitStatus
