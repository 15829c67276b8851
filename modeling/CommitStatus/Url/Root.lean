import CommitStatus.Build.Basic
import CommitStatus.Text.Blank
import CommitStatus.Url.Split

/-!
# The root URL of the build server

Statuses link to builds, so the build server has to have a URL that Bitbucket accepts: with a scheme and a host that
is neither this machine nor the placeholder of an unconfigured server, and for Bitbucket Cloud has a point in it. The
URL of a build is the one it brings along, or is made from the root, its job's URL and its number.

* `Url.check` accepts a URL or gives the first rule that it breaks, `Url.accept` gives back what is accepted;
* `Url.ofBuild` is the URL of a build.
-/

namespace CommitStatus

/-- Why a URL cannot be linked to. -/
inductive UrlError
  /-- There is no root URL. -/
  | notConfigured
  | malformed
  | localhost
  /-- The host is the placeholder of an unconfigured server. -/
  | placeholder
  /-- The host has no point in it. -/
  | notQualified
  deriving DecidableEq, Repr

namespace UrlError

/-- The name of an error. -/
def name : UrlError → String
  | .notConfigured => "RootUrlNotConfigured"
  | _ => "InvalidRootUrl"

/-- The wording of an error. -/
def message : UrlError → String
  | .notConfigured => "Could not determine Jenkins URL."
  | .malformed => "Bad Jenkins URL"
  | .localhost => "Jenkins URL cannot start with http://localhost"
  | .placeholder => "Could not determine Jenkins URL."
  | .notQualified =>
    "Please use a fully qualified name or an IP address for Jenkins URL, this is required by Bitbucket cloud"

end UrlError

namespace Url

/-- The host of an unconfigured server. -/
def placeholderHost : String := "unconfigured-jenkins-location"

/-- The rules for the host of a URL. -/
def checkHost (cloud : Bool) (host : List Char) : Except UrlError Unit :=
  if host.isEmpty then .error .malformed
  else if host = "localhost".toList then .error .localhost
  else if host = placeholderHost.toList then .error .placeholder
  else if cloud && !host.contains '.' then .error .notQualified
  else .ok ()

/-- The host and port of a URL with a scheme, unless these are malformed. -/
def place? (url : String) : Option Authority := do
  let (_, rest) ← scheme? (clean url.toList)
  let place ← Authority.read? ((authority? rest).getD [])
  if portFits place.port then some place else none

/-- Check that a URL can be linked to. -/
def check (cloud : Bool) (url : String) : Except UrlError Unit :=
  match place? url with
  | none => .error .malformed
  | some place => checkHost cloud place.host

/-- A URL that can be linked to, as it stands. -/
def accept (cloud : Bool) (url : String) : Except UrlError String := (check cloud url).map fun _ => url

/-- A text without slashes at its end. -/
def withoutSlashes (s : String) : String := String.ofList (Text.trimRightBy (· == '/') s.toList)

/-- The URL of a build, with the root URL of the server. -/
def ofBuild (root : Option String) (build : Build) : Except UrlError String :=
  match root with
  | none => .error .notConfigured
  | some root =>
    if root.isEmpty then .error .notConfigured
    else match build.url with
      | some url => .ok url
      | none =>
        let job := String.ofList (Text.trimBy (· == '/') build.job.url.toList)
        .ok (withoutSlashes root ++ "/" ++ job ++ "/" ++ build.numberText ++ "/")

end Url

end CommitStatus
