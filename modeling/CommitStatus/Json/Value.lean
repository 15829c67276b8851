import CommitStatus.Decimal.Binary64

/-!
# JSON values

Numbers without fraction and exponent are integers of any size, all others are binary floating point. An object keeps
its members as they were written; where a name is given more than once, the last member counts.

* `member? name members` is the value that a name has (`member?_append`, `member?_cons_of_ne`).
-/

namespace CommitStatus.Json

/-- A JSON value. -/
inductive Value
  | null
  | bool (b : Bool)
  | int (n : Int)
  | float (x : Decimal.Binary64)
  | string (s : String)
  | array (items : List Value)
  | object (members : List (String × Value))
  deriving Repr, Inhabited

/-- The members of an object. -/
abbrev Members := List (String × Value)

/-- The value of a name: that of its last member. -/
def member? (name : String) : Members → Option Value
  | [] => none
  | (key, value) :: rest =>
    match member? name rest with
    | some found => some found
    | none => if key = name then some value else none

theorem member?_append (name : String) (a b : Members) :
    member? name (a ++ b) = (member? name b).or (member? name a) := by
  induction a with
  | nil => simp [member?]
  | cons m a ih =>
    obtain ⟨key, value⟩ := m
    simp only [List.cons_append, member?, ih]
    cases member? name b <;> simp

theorem member?_cons_of_ne {name key : String} (h : key ≠ name) (value : Value) (rest : Members) :
    member? name ((key, value) :: rest) = member? name rest := by
  simp only [member?, h, if_false]
  cases member? name rest <;> rfl

end CommitStatus.Json
