import CommitStatus.Build.Basic
import CommitStatus.Json.Value

/-!
# Writing events

All fields of an event are written, those without a value as null.

* `Event.toJson` and `Build.toJson` write the parts.
-/

namespace CommitStatus

open Json (Value)

/-- A text or null. -/
def textOrNull : Option String → Value
  | none => .null
  | some s => .string s

/-- Write a branch. -/
def BranchHead.toJson (h : BranchHead) : Value := .object [("name", .string h.name)]

/-- Write a pull request's head. -/
def PullRequestHead.toJson (h : PullRequestHead) : Value :=
  .object [("id", .string h.id), ("name", .string h.name), ("origin_name", .string h.originName),
    ("repo_owner", .string h.repoOwner), ("repository", .string h.repository), ("target", textOrNull h.target)]

/-- Write a revision. -/
def Revision.toJson : Revision → Value
  | .commit head hash => .object [("kind", .string "git"), ("head", head.toJson), ("hash", .string hash)]
  | .untracked head => .object [("kind", .string "opaque"), ("head", head.toJson)]
  | .pullRequest head pull =>
    .object [("kind", .string "pull-request"), ("head", head.toJson), ("pull", pull.toJson)]

/-- Write a job. -/
def Job.toJson (j : Job) : Value :=
  .object [("full_name", .string j.fullName), ("url", .string j.url),
    ("parent", .object [("full_name", .string j.parent.fullName)])]

/-- Write a build. -/
def Build.toJson (b : Build) : Value :=
  .object [("number", .int b.number), ("full_display_name", .string b.fullDisplayName),
    ("description", textOrNull b.description), ("result", textOrNull (b.result.map Result.word)),
    ("job", b.job.toJson), ("url", textOrNull b.url), ("revision", (b.revision.map Revision.toJson).getD .null)]

/-- Write an event. -/
def Event.toJson : Event → Value
  | .checkout build workspace => .object [("build", build.toJson), ("workspace", textOrNull workspace)]
  | .completed build => .object [("build", build.toJson)]

end CommitStatus
