import CommitStatus.Text.Quoted

/-!
# Faults of a document

A document that does not fit what is asked of it has one or more faults. Each has a path into the document and a cause;
causes are worded in one place. `Checked` holds a value or all faults of a document, in the order of its parts.

* `Cause.kind` names a cause, `Cause.message?` words it;
* `Checked.ap` joins the parts of a record: the faults of all parts are kept;
* `Invalid.headline` is the first line of a report.
-/

namespace CommitStatus

/-- A step from a value to one of its parts. -/
inductive Step
  | member (name : String)
  | item (index : Int)
  deriving DecidableEq, Repr

/-- What is wrong at a place. -/
inductive Cause
  /-- The text is no JSON text. -/
  | notJson
  | missing
  | notText
  /-- Octets that are no text. -/
  | notUnicode
  | notObject
  /-- Neither a mapping nor a record of the named kind. -/
  | notMapping (model : String)
  /-- No object, where the object's tag decides how it is read. -/
  | notTagged
  | notList
  | notInteger
  | unreadableInteger
  | integerTooLarge
  | fractional
  | notFinite
  /-- None of the listed words. -/
  | notListed (words : List String)
  /-- Not the one word that is possible. -/
  | notWord (word : String)
  | noTag
  | unknownTag (shown : String) (known : List String)
  | unknownKey
  | keyNotText
  | notFlag
  | unreadableFlag
  deriving DecidableEq, Repr

/-- The name of a cause. -/
def Cause.kind : Cause → String
  | .notJson => "json_invalid"
  | .missing => "missing"
  | .notText => "string_type"
  | .notUnicode => "string_unicode"
  | .notObject => "model_type"
  | .notMapping _ => "model_type"
  | .notTagged => "dict_type"
  | .notList => "list_type"
  | .notInteger => "int_type"
  | .unreadableInteger => "int_parsing"
  | .integerTooLarge => "int_parsing_size"
  | .fractional => "int_from_float"
  | .notFinite => "finite_number"
  | .notListed _ => "enum"
  | .notWord _ => "literal_error"
  | .noTag => "union_tag_not_found"
  | .unknownTag .. => "union_tag_invalid"
  | .unknownKey => "extra_forbidden"
  | .keyNotText => "invalid_key"
  | .notFlag => "bool_type"
  | .unreadableFlag => "bool_parsing"

/-- A word between apostrophes. -/
def inMarks (word : String) : String := "'" ++ word ++ "'"

/-- Words between apostrophes, with commas between them and `or` before the last. -/
def alternatives : List String → String
  | [] => ""
  | [a] => inMarks a
  | [a, b] => inMarks a ++ " or " ++ inMarks b
  | a :: rest => inMarks a ++ ", " ++ alternatives rest

/-- The wording of a cause. What is wrong with a text that is no JSON is not worded. -/
def Cause.message? : Cause → Option String
  | .notJson => none
  | .missing => some "Field required"
  | .notText => some "Input should be a valid string"
  | .notUnicode => some "Input should be a valid string, unable to parse raw data as a unicode string"
  | .notObject => some "Input should be an object"
  | .notMapping model => some ("Input should be a valid dictionary or instance of " ++ model)
  | .notTagged => some "Input should be an object"
  | .notList => some "Input should be a valid list"
  | .notInteger => some "Input should be a valid integer"
  | .unreadableInteger => some "Input should be a valid integer, unable to parse string as an integer"
  | .integerTooLarge => some "Unable to parse input string as an integer, exceeded maximum size"
  | .fractional => some "Input should be a valid integer, got a number with a fractional part"
  | .notFinite => some "Input should be a finite number"
  | .notListed words => some ("Input should be " ++ alternatives words)
  | .notWord word => some ("Input should be " ++ inMarks word)
  | .noTag => some "Unable to extract tag using discriminator 'kind'"
  | .unknownTag shown known => some ("Input tag " ++ inMarks shown ++
      " found using 'kind' does not match any of the expected tags: " ++ ", ".intercalate (known.map inMarks))
  | .unknownKey => some "Extra inputs are not permitted"
  | .keyNotText => some "Keys should be strings"
  | .notFlag => some "Input should be a valid boolean"
  | .unreadableFlag => some "Input should be a valid boolean, unable to interpret input"

/-- A fault of a document: where it is and what it is. -/
structure Fault where
  path : List Step
  cause : Cause
  deriving DecidableEq, Repr

/-- A value, or the faults that a document has instead. -/
inductive Checked (α : Type)
  | valid (value : α)
  | invalid (faults : List Fault)
  deriving DecidableEq, Repr

namespace Checked

variable {α β : Type}

/-- A document with one fault, at its root. -/
def fault (cause : Cause) : Checked α := .invalid [⟨[], cause⟩]

/-- Apply a function to the value. -/
def map (f : α → β) : Checked α → Checked β
  | .valid a => .valid (f a)
  | .invalid faults => .invalid faults

/-- Join a part to the parts before it. The faults of all parts are kept, in their order. -/
def ap : Checked (α → β) → Checked α → Checked β
  | .valid f, .valid a => .valid (f a)
  | .valid _, .invalid faults => .invalid faults
  | .invalid faults, .valid _ => .invalid faults
  | .invalid faults, .invalid more => .invalid (faults ++ more)

/-- Place a part of a document: its faults lie behind a step. -/
def under (step : Step) : Checked α → Checked α
  | .valid a => .valid a
  | .invalid faults => .invalid (faults.map fun f => { f with path := step :: f.path })

/-- The faults; a value has none. -/
def faults : Checked α → List Fault
  | .valid _ => []
  | .invalid faults => faults

/-- Check each of a list, placed by its index from `start` on. -/
def each (check : α → Checked β) : Nat → List α → Checked (List β)
  | _, [] => .valid []
  | start, a :: rest =>
    (((check a).under (.item start)).map fun b => (b :: ·)).ap (each check (start + 1) rest)

end Checked

/-- A document that is refused: what it was read as, and its faults. -/
structure Invalid where
  title : String
  faults : List Fault
  deriving DecidableEq, Repr

/-- The first line of a report. -/
def Invalid.headline (e : Invalid) : String :=
  toString e.faults.length ++ " validation error" ++ (if e.faults.length = 1 then "" else "s") ++ " for " ++ e.title

/-- Give the faults of a document a title. -/
def Checked.titled {α : Type} (title : String) : Checked α → Except Invalid α
  | .valid a => .ok a
  | .invalid faults => .error ⟨title, faults⟩

end CommitStatus
