import CommitStatus.Json.Value
import CommitStatus.Source.Reader

/-!
# Writing sources

All settings of a source are written, those that were left out with the values they have then. Settings of several
words are spelt with hyphens or with low lines.

* `Source.toJson` writes a source in one of the two spellings.
-/

namespace CommitStatus

open Json (Value)

/-- A way to spell settings of several words. -/
inductive Spelling
  | hyphens
  | lowLines
  deriving DecidableEq, Repr

/-- A setting in one of the spellings. -/
def Spelling.name : Spelling → List String → String
  | .hyphens, words => "-".intercalate words
  | .lowLines, words => "_".intercalate words

/-- Write traits. -/
def Traits.toJson (sp : Spelling) (t : Traits) : Value :=
  .object [(sp.name ["notifications", "disabled"], .bool t.notificationsDisabled),
    (sp.name ["send", "success", "for", "unstable"], .bool t.sendSuccessForUnstable),
    (sp.name ["disable", "notification", "for", "not", "built"], .bool t.disableNotificationForNotBuilt),
    (sp.name ["exclude", "origin", "pr", "branches"], .bool t.excludeOriginPrBranches)]

/-- Write credentials. -/
def Credentials.toJson (sp : Spelling) (c : Credentials) : Value :=
  .object [("username", .string c.username), (sp.name ["token", "env"], .string c.tokenVariable)]

/-- Write a source. -/
def Source.toJson (sp : Spelling) (s : Source) : Value :=
  .object [(sp.name ["server", "url"], .string s.serverUrl), (sp.name ["repo", "owner"], .string s.repoOwner),
    ("repository", .string s.repository), ("credentials", (s.credentials.map (Credentials.toJson sp)).getD .null),
    ("jobs", .array (s.jobs.map .string)), ("traits", s.traits.toJson sp)]

end CommitStatus
