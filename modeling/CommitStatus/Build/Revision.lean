/-!
# Revisions

What a build was made of: a commit, a head without a known commit, or a pull request that wraps one of these. A pull
request inside another has no commit of its own that counts.

* `Revision.hash?` is the commit of a revision, taken out of at most one pull request;
* `hash?_pullRequest_pullRequest`: a wrapped pull request gives none.
-/

namespace CommitStatus

/-- A branch. -/
structure BranchHead where
  name : String
  deriving DecidableEq, Repr

/-- A pull request: its own name, the branch it comes from, and the repository that holds that branch. -/
structure PullRequestHead where
  id : String
  name : String
  originName : String
  repoOwner : String
  repository : String
  target : Option String
  deriving DecidableEq, Repr

/-- What a build was made of. -/
inductive Revision
  /-- A commit of a branch. -/
  | commit (head : BranchHead) (hash : String)
  /-- A branch whose commit is not known. -/
  | untracked (head : BranchHead)
  /-- A pull request and the revision that it asks to pull. -/
  | pullRequest (head : PullRequestHead) (pull : Revision)
  deriving DecidableEq, Repr

namespace Revision

/-- The word for the kind of a revision. -/
def kind : Revision → String
  | .commit .. => "git"
  | .untracked _ => "opaque"
  | .pullRequest .. => "pull-request"

/-- The hash of a plain commit. -/
def plainHash? : Revision → Option String
  | .commit _ hash => some hash
  | _ => none

/-- The hash of the commit that a status is about: a pull request is opened once. -/
def hash? : Revision → Option String
  | .pullRequest _ pull => pull.plainHash?
  | revision => revision.plainHash?

/-- The branch that a status is about: for a pull request the branch it comes from. -/
def branch : Revision → String
  | .commit head _ => head.name
  | .untracked head => head.name
  | .pullRequest head _ => head.originName

/-- The pull request of a revision. -/
def pullRequest? : Revision → Option PullRequestHead
  | .pullRequest head _ => some head
  | _ => none

theorem hash?_pullRequest_pullRequest (outer inner : PullRequestHead) (pull : Revision) :
    hash? (.pullRequest outer (.pullRequest inner pull)) = none := rfl

end Revision

end CommitStatus
