import CommitStatus.Build.Basic
import CommitStatus.Environment
import CommitStatus.Source.Glob
import CommitStatus.Status.Outcome
import CommitStatus.Text.Blank

/-!
# Sources

A source ties jobs to a repository on Bitbucket: it names the repository, the jobs by patterns, the credentials for
posting, and how builds are to be shown. The first source that matches a job counts.

* `Source.matchesJob` and `findSource?` find the source of a job;
* `Source.policy` is how its builds are shown.
-/

namespace CommitStatus

/-- How a source wants its builds to be shown. -/
structure Traits where
  notificationsDisabled : Bool
  sendSuccessForUnstable : Bool
  disableNotificationForNotBuilt : Bool
  excludeOriginPrBranches : Bool
  deriving DecidableEq, Repr

/-- A user, and the variable of the environment that holds the user's token. -/
structure Credentials where
  username : String
  tokenVariable : String
  deriving DecidableEq, Repr

/-- The token of a user, if its variable is set. -/
def Credentials.token? (env : Environment) (c : Credentials) : Option String := env c.tokenVariable

/-- A repository and the jobs that report to it. -/
structure Source where
  serverUrl : String
  repoOwner : String
  repository : String
  credentials : Option Credentials
  jobs : List String
  traits : Traits
  deriving DecidableEq, Repr

/-- The URL of Bitbucket Cloud, which a source has unless it names another. -/
def cloudUrl : String := "https://bitbucket.org"

/-- The URL of Bitbucket Cloud's interface. -/
def cloudApiUrl : String := "https://api.bitbucket.org"

/-- Nothing out of the ordinary. -/
def Traits.plain : Traits := ⟨false, false, false, false⟩

namespace Source

/-- Whether a source lies on Bitbucket Cloud. -/
def isCloud (s : Source) : Bool := s.serverUrl = cloudUrl || s.serverUrl = cloudApiUrl

/-- Whether one of a source's patterns stands for a job. -/
def matchesJob (s : Source) (job : String) : Bool := s.jobs.any fun pattern => Glob.isMatch pattern job

/-- A source as messages show it. -/
def shown (s : Source) : String :=
  "BitbucketSource(" ++ s.serverUrl ++ ", " ++ s.repoOwner ++ "/" ++ s.repository ++ ")"

/-- How the builds of a source are shown. A source that leaves out the branches of pull requests lets a branch and its
pull request share a key. -/
def policy (s : Source) : Policy :=
  ⟨s.traits.notificationsDisabled, s.traits.sendSuccessForUnstable, s.traits.disableNotificationForNotBuilt,
    s.traits.excludeOriginPrBranches⟩

end Source

/-- The first source that matches a job. -/
def findSource? (sources : List Source) (job : Job) : Option Source := sources.find? (·.matchesJob job.fullName)

end CommitStatus
