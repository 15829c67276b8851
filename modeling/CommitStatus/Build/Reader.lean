import CommitStatus.Build.Basic
import CommitStatus.Build.Number
import CommitStatus.Json.Check
import CommitStatus.Json.Shown
import CommitStatus.Text.Utf8

/-!
# Reading events

Events come as JSON texts of UTF-8 octets. What is missing or misshapen is reported with its place. The revision of a
build says of which kind it is; the revision within a pull request need not.

* `Event.check` reads an event from a document, `Event.readText` from a text, `Event.read` from octets;
* `Build.check`, `Revision.check` read the parts.
-/

namespace CommitStatus

open Json (Value Members)
open Json.Check

/-- How deeply arrays and objects may be nested in an event. -/
def maxDepth : Nat := 200

/-- Read a branch. -/
def BranchHead.check : Value → Checked BranchHead :=
  object fun m => (required "name" text m).map BranchHead.mk

/-- Read a pull request's head. -/
def PullRequestHead.check : Value → Checked PullRequestHead :=
  object fun m =>
    ((required "id" text m).map PullRequestHead.mk)
      |>.ap (required "name" text m)
      |>.ap (required "origin_name" text m)
      |>.ap (required "repo_owner" text m)
      |>.ap (required "repository" text m)
      |>.ap (optional "target" text m)

namespace Revision

/-- The kind of a revision may be left out or has to be the given word. -/
def checkKind (word : String) (m : Members) : Checked Unit :=
  let wrong : Checked Unit := (Checked.fault (.notWord word)).under (.member "kind")
  match Json.member? "kind" m with
  | none => .valid ()
  | some (.string s) => if s = word then .valid () else wrong
  | some _ => wrong

/-- Read a commit. -/
def checkCommit : Value → Checked Revision :=
  object fun m =>
    ((checkKind "git" m).map fun _ head hash => Revision.commit head hash)
      |>.ap (required "head" BranchHead.check m)
      |>.ap (required "hash" text m)

/-- Read a branch whose commit is not known. -/
def checkUntracked : Value → Checked Revision :=
  object fun m =>
    ((checkKind "opaque" m).map fun _ head => Revision.untracked head)
      |>.ap (required "head" BranchHead.check m)

/-- Read the revision within a pull request: a commit if it can be read so, else a branch. Where it is neither, the
faults of both readings are reported. -/
def checkPull (v : Value) : Checked Revision :=
  match checkCommit v, checkUntracked v with
  | .valid r, _ => .valid r
  | _, .valid r => .valid r
  | asCommit, asUntracked =>
    .invalid ((asCommit.under (.member "GitRevision")).faults ++ (asUntracked.under (.member "OpaqueRevision")).faults)

/-- Read a pull request. -/
def checkPullRequest : Value → Checked Revision :=
  object fun m =>
    ((checkKind "pull-request" m).map fun _ head pull => Revision.pullRequest head pull)
      |>.ap (required "head" PullRequestHead.check m)
      |>.ap (required "pull" checkPull m)

/-- The words for the kinds of revisions. -/
def kinds : List String := ["git", "pull-request", "opaque"]

/-- Read a revision by the kind that it gives. -/
def check : Value → Checked Revision
  | .object m =>
    match Json.member? "kind" m with
    | none => .fault .noTag
    | some (.string "git") => (checkCommit (.object m)).under (.member "git")
    | some (.string "pull-request") => (checkPullRequest (.object m)).under (.member "pull-request")
    | some (.string "opaque") => (checkUntracked (.object m)).under (.member "opaque")
    | some tag => .fault (.unknownTag tag.shown kinds)
  | _ => .fault .notTagged

/-- The title of a revision in reports of its faults. -/
def title : String := "tagged-union[GitRevision,PullRequestRevision,OpaqueRevision]"

end Revision

/-- Read a folder. -/
def Folder.check : Value → Checked Folder :=
  object fun m => (required "full_name" text m).map Folder.mk

/-- Read a job. -/
def Job.check : Value → Checked Job :=
  object fun m =>
    ((required "full_name" text m).map Job.mk)
      |>.ap (required "url" text m)
      |>.ap (required "parent" Folder.check m)

/-- Read a result. -/
def Result.check : Value → Checked Result := listed (Result.all.map Result.word) Result.ofWord?

namespace Build

/-- Read a build. -/
def check : Value → Checked Build :=
  object fun m =>
    ((required "number" Number.check m).map Build.mk)
      |>.ap (required "full_display_name" text m)
      |>.ap (optional "description" text m)
      |>.ap (optional "result" Result.check m)
      |>.ap (required "job" Job.check m)
      |>.ap (optional "url" text m)
      |>.ap (optional "revision" Revision.check m)

/-- The title of a build in reports of its faults. -/
def title : String := "Build"

end Build

namespace Event

/-- Read an event. -/
def check : EventKind → Value → Checked Event
  | .checkout => object fun m =>
    ((required "build" Build.check m).map Event.checkout).ap (optional "workspace" text m)
  | .completed => object fun m => (required "build" Build.check m).map Event.completed

end Event

/-- Read a JSON text, and the value in it by a check. -/
def Json.checkChars {α : Type} (check : Value → Checked α) (s : List Char) : Checked α :=
  match Json.read? maxDepth s with
  | none => .fault .notJson
  | some v => check v

/-- Read octets as a JSON text, and the value in it by a check. -/
def Json.checkOctets {α : Type} (check : Value → Checked α) (octets : List UInt8) : Checked α :=
  match Text.Utf8.decode? octets with
  | none => .fault .notJson
  | some s => checkChars check s

/-- Read an event from a text. -/
def Event.readText (kind : EventKind) (s : List Char) : Except Invalid Event :=
  (Json.checkChars (Event.check kind) s).titled kind.title

/-- Read an event from octets. -/
def Event.read (kind : EventKind) (octets : List UInt8) : Except Invalid Event :=
  (Json.checkOctets (Event.check kind) octets).titled kind.title

end CommitStatus
