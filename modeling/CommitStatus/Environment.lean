/-!
# The environment

What surrounds a run of the program: variables, each with a text or not set.
-/

namespace CommitStatus

/-- The variables of the environment. -/
abbrev Environment := String → Option String

/-- The variables of a list of names and texts; of two with one name the first counts. -/
def Environment.ofList (texts : List (String × String)) : Environment := fun name => List.lookup name texts

end CommitStatus
