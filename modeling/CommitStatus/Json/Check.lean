import CommitStatus.Fault
import CommitStatus.Json.Value

/-!
# Checks of JSON documents

The parts from which records are read: members that must or may be there, texts, words of a list. An object is seen
through `member?` only, so members that no check asks for, and the order of members, change nothing.

* `Check.required` and `Check.optional` read a member.
-/

namespace CommitStatus.Json.Check

variable {α : Type}

/-- A text. -/
def text : Value → Checked String
  | .string s => .valid s
  | _ => .fault .notText

/-- An object, read by its members. -/
def object (check : Members → Checked α) : Value → Checked α
  | .object members => check members
  | _ => .fault .notObject

/-- A member that must be there. -/
def required (name : String) (check : Value → Checked α) (members : Members) : Checked α :=
  (match member? name members with
    | some v => check v
    | none => .fault .missing).under (.member name)

/-- A member that may be missing or null. -/
def optional (name : String) (check : Value → Checked α) (members : Members) : Checked (Option α) :=
  match member? name members with
  | none => .valid none
  | some .null => .valid none
  | some v => ((check v).map some).under (.member name)

/-- One of the words that a function reads. -/
def listed (words : List String) (ofWord? : String → Option α) : Value → Checked α
  | .string s =>
    match ofWord? s with
    | some a => .valid a
    | none => .fault (.notListed words)
  | _ => .fault (.notListed words)

end CommitStatus.Json.Check
