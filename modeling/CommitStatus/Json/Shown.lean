import CommitStatus.Decimal.Integer
import CommitStatus.Decimal.Notation
import CommitStatus.Json.Value
import CommitStatus.Text.Quoted

/-!
# JSON values in messages

A text that stands alone is shown as it is; within an array or object, texts and names are quoted. Each name of an
object is shown once, with the value of its last member.

* `Value.shown` shows a value.
-/

namespace CommitStatus.Json

/-- The members of an object, their values already shown, and the closing brace. -/
def shownMembers : List (String × List Char) → List Char
  | [] => ['}']
  | [(key, shown)] => (Text.quoted key).toList ++ ':' :: ' ' :: (shown ++ ['}'])
  | (key, shown) :: rest => (Text.quoted key).toList ++ ':' :: ' ' :: (shown ++ ',' :: ' ' :: shownMembers rest)

mutual

/-- A value within another, shown. -/
def Value.quotedChars : Value → List Char
  | .null => "None".toList
  | .bool b => (if b then "True" else "False").toList
  | .int n => Decimal.Integer.text n
  | .float x => x.text.toList
  | .string s => (Text.quoted s).toList
  | .array items => '[' :: quotedItems items
  | .object members => '{' :: shownMembers (quotedMembers members)

/-- The items of an array and its closing bracket. -/
def quotedItems : List Value → List Char
  | [] => [']']
  | [v] => v.quotedChars ++ [']']
  | v :: rest => v.quotedChars ++ ',' :: ' ' :: quotedItems rest

/-- The members of an object, with their values shown; a later member gives its value to an earlier one of its name. -/
def quotedMembers : List (String × Value) → List (String × List Char)
  | [] => []
  | (key, v) :: rest =>
    let later := quotedMembers rest
    match later.find? (·.1 = key) with
    | some (_, shown) => (key, shown) :: later.filter (·.1 ≠ key)
    | none => (key, v.quotedChars) :: later

end

/-- A value, shown. -/
def Value.shown : Value → String
  | .string s => s
  | v => String.ofList v.quotedChars

end CommitStatus.Json
