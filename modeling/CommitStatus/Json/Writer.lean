import CommitStatus.Decimal.Integer
import CommitStatus.Decimal.Notation
import CommitStatus.Json.Value

/-!
# Writing JSON

Values are written without white space. In strings the quotation mark, the backslash and the control characters are
escaped.

* `Value.text` writes a value.
-/

namespace CommitStatus.Json

/-- One character of a string. -/
def escaped (c : Char) : List Char :=
  if c == '"' || c == '\\' then ['\\', c]
  else if c.toNat < 0x20 then '\\' :: 'u' :: Text.hex 4 c.toNat
  else [c]

/-- A string with its marks. -/
def stringText (s : String) : List Char := '"' :: (s.toList.flatMap escaped ++ ['"'])

/-- A floating-point number; the words for the values that are no numbers begin with a capital. -/
def floatText : Decimal.Binary64 → String
  | .nan => "NaN"
  | .infinite negative => if negative then "-Infinity" else "Infinity"
  | x => x.text

mutual

/-- The text of a value. -/
def Value.chars : Value → List Char
  | .null => "null".toList
  | .bool b => (if b then "true" else "false").toList
  | .int n => Decimal.Integer.text n
  | .float x => (floatText x).toList
  | .string s => stringText s
  | .array items => '[' :: itemChars items
  | .object members => '{' :: memberChars members

/-- The items of an array and its closing bracket. -/
def itemChars : List Value → List Char
  | [] => [']']
  | [v] => v.chars ++ [']']
  | v :: rest => v.chars ++ ',' :: itemChars rest

/-- The members of an object and its closing brace. -/
def memberChars : List (String × Value) → List Char
  | [] => ['}']
  | [(key, v)] => stringText key ++ ':' :: (v.chars ++ ['}'])
  | (key, v) :: rest => stringText key ++ ':' :: (v.chars ++ ',' :: memberChars rest)

end

/-- The text of a value. -/
def Value.text (v : Value) : String := String.ofList v.chars

end CommitStatus.Json
