import CommitStatus.Text.Lines

/-!
# Descriptions of builds

Bitbucket refuses long descriptions. One that begins like markup or has more than two lines is dropped, and the build's
log says why.

* `Description.objection?` says why a description is dropped;
* `Description.keep?` is the description that is kept, `Description.lines` are the lines for the log.
-/

namespace CommitStatus.Description

/-- Why a description is dropped. -/
inductive Objection
  | markup
  | manyLines
  deriving DecidableEq, Repr

/-- The line for the build's log. -/
def Objection.line : Objection → String
  | .markup => "Not sending the build description to Bitbucket, as it appears to be HTML."
  | .manyLines => "Not sending the build description to Bitbucket, as it contains more than 2 lines of text."

/-- The first reason to drop a description. -/
def objection? (description : String) : Option Objection :=
  if description.toList.head? = some '<' then some .markup
  else if 2 < Text.lineCount description then some .manyLines
  else none

/-- The description that is kept. -/
def keep? (description : Option String) : Option String :=
  description.filter fun d => (objection? d).isNone

/-- The lines for the build's log. -/
def lines (description : Option String) : List String :=
  ((description.bind objection?).map Objection.line).toList

end CommitStatus.Description
