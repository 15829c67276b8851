import CommitStatus.Status.Basic
import CommitStatus.Text.Blank

/-!
# From results to states

A source's policy bends how the result of a build shows on its commit: an unstable build may count as successful, and a
build that was skipped may be kept from showing as successful, which Bitbucket Cloud has a state of its own for.

* `Policy.state?` is the state for a result, if there is one;
* `describe` is the description that goes with it.
-/

namespace CommitStatus

/-- How a source wants its builds to be shown. -/
structure Policy where
  notificationsDisabled : Bool
  sendSuccessForUnstable : Bool
  disableNotificationForNotBuilt : Bool
  shareKeyBetweenBranchAndPr : Bool
  deriving DecidableEq, Repr

/-- The state for the result of a build; a build without one is in progress. -/
def Policy.state? (policy : Policy) (cloud : Bool) : Option Result → Option State
  | none => some .inProgress
  | some .success => some .successful
  | some .unstable => some (if policy.sendSuccessForUnstable then .successful else .failed)
  | some .failure => some .failed
  | some .notBuilt =>
    if policy.disableNotificationForNotBuilt then (if cloud then some .stopped else none) else some .successful
  | some .aborted => some .failed

/-- The description of a build that brings none along. -/
def defaultDescription : Option Result → String
  | none => "The build is in progress..."
  | some .success => "This commit looks good."
  | some .unstable => "This commit has test failures."
  | some .failure => "There was a failure building this commit."
  | some .notBuilt => "This commit was not built (probably the build was skipped)"
  | some .aborted => "Something is wrong with the build of this commit."

/-- The description of a build: its own unless that is blank. -/
def describe (result : Option Result) : Option String → String
  | none => defaultDescription result
  | some d => if Text.isBlankText d then defaultDescription result else d

/-- The key of a build's status: one for each job, or one that a branch shares with its pull request. -/
def statusKey (build : Build) (branch : String) (shared : Bool) : String :=
  if shared then build.job.parent.fullName ++ "/" ++ branch else build.job.url

end CommitStatus
