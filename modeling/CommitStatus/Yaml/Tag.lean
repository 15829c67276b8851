import CommitStatus.Text.CodePoint
import CommitStatus.Yaml.Timestamp

/-!
# Tags

A node's tag says what it stands for. A plain scalar without a tag is tried as a truth value, a number, the mark of a
merge, null, a moment and the mark of a default value, in this order and by its first character, and is a text
otherwise.

* `Tag.ofPlain` finds the tag of a plain scalar, `Tag.ofName` the tag with a given name.
-/

namespace CommitStatus.Yaml

/-- What a node stands for. -/
inductive Tag
  | null
  | bool
  | int
  | float
  | timestamp
  | binary
  | text
  | sequence
  | mapping
  | set
  | orderedMapping
  | pairs
  | merge
  | default
  /-- A tag that stands for nothing here. -/
  | other
  deriving DecidableEq, Repr

namespace Tag

/-- The names of tags behind what they have in common. -/
def names : List (String × Tag) :=
  [("null", .null), ("bool", .bool), ("int", .int), ("float", .float), ("timestamp", .timestamp), ("binary", .binary),
    ("str", .text), ("seq", .sequence), ("map", .mapping), ("set", .set), ("omap", .orderedMapping), ("pairs", .pairs),
    ("merge", .merge), ("value", .default)]

/-- What the names of tags have in common. -/
def stem : String := "tag:yaml.org,2002:"

/-- The tag with a given name. -/
def ofName (name : String) : Tag := ((names.find? fun (n, _) => stem ++ n == name).map (·.2)).getD .other

/-! ## The forms of plain scalars -/

/-- The words for truth values. -/
def truthWords : List String :=
  ["yes", "Yes", "YES", "no", "No", "NO", "true", "True", "TRUE", "false", "False", "FALSE", "on", "On", "ON", "off",
    "Off", "OFF"]

/-- The words for null. -/
def nullWords : List String := ["~", "null", "Null", "NULL"]

/-- Drop one sign. -/
def dropSign : List Char → List Char
  | '+' :: rest => rest
  | '-' :: rest => rest
  | s => s

/-- A digit or low line. -/
def isDigitOrLine (c : Char) : Bool := c.isDigit || c == '_'

/-- Parts of one or two digits, each below sixty and behind a colon; the rest begins with none. -/
def sixties : Nat → List Char → Nat × List Char
  | 0, s => (0, s)
  | fuel + 1, s =>
    match s with
    | ':' :: a :: b :: rest =>
      if '0' ≤ a && a ≤ '5' && b.isDigit then
        let (n, rest) := sixties fuel rest
        (n + 1, rest)
      else if a.isDigit then
        let (n, rest) := sixties fuel (b :: rest)
        (n + 1, rest)
      else (0, s)
    | [':', a] => if a.isDigit then (1, []) else (0, s)
    | _ => (0, s)

/-- Digits and low lines that begin with a digit, and the rest. -/
def digits? (s : List Char) : Option (List Char) :=
  match s with
  | c :: _ => if c.isDigit then some (s.dropWhile isDigitOrLine) else none
  | [] => none

/-- Nothing, or the exponent of a number, whose sign has to be there. -/
def isExponent : List Char → Bool
  | [] => true
  | e :: sign :: digits =>
    (e == 'e' || e == 'E') && (sign == '+' || sign == '-') && !digits.isEmpty && digits.all Char.isDigit
  | _ => false

/-- The rest of a number from its point on. -/
def isFraction : List Char → Bool
  | '.' :: rest => isExponent (rest.dropWhile isDigitOrLine)
  | _ => false

/-- A number with a point in it, or a word for a value that is no number. -/
def isFloat (s : List Char) : Bool :=
  let body := dropSign s
  let word := String.ofList body
  [".inf", ".Inf", ".INF"].contains word || [".nan", ".NaN", ".NAN"].contains (String.ofList s) ||
    (match digits? body with
      | some rest =>
        let (n, behind) := sixties rest.length rest
        isFraction rest || (0 < n && behind.head? == some '.' && behind.tail.all isDigitOrLine)
      | none =>
        match s with
        | '.' :: c :: rest => c.isDigit && isExponent (rest.dropWhile isDigitOrLine)
        | _ => false)

/-- Whether a text is not empty and all of a class. -/
def isRun (p : Char → Bool) (s : List Char) : Bool := !s.isEmpty && s.all p

/-- A whole number: in base two, eight, ten or sixteen, or in parts below sixty. -/
def isInt (s : List Char) : Bool :=
  match dropSign s with
  | ['0'] => true
  | '0' :: 'b' :: rest => isRun (fun c => c == '0' || c == '1' || c == '_') rest
  | '0' :: 'x' :: rest =>
    isRun (fun c => isDigitOrLine c || ('a' ≤ c && c ≤ 'f') || ('A' ≤ c && c ≤ 'F')) rest
  | '0' :: rest => isRun (fun c => ('0' ≤ c && c ≤ '7') || c == '_') rest
  | c :: rest =>
    let behind := rest.dropWhile isDigitOrLine
    let (_, rest) := sixties behind.length behind
    c.isDigit && rest.isEmpty
  | [] => false

/-- The tag of a scalar by its form. -/
def ofForm (s : List Char) : Tag :=
  let word := String.ofList s
  if truthWords.contains word then .bool
  else if isFloat s then .float
  else if isInt s then .int
  else if word == "<<" then .merge
  else if nullWords.contains word then .null
  else if (Timestamp.parse? s).any (·.isUsual) then .timestamp
  else if word == "=" then .default
  else if word == "!" || word == "&" || word == "*" then .other
  else .text

/-- A text without the line feed at its end. -/
def dropLineFeed (s : List Char) : List Char := if s.getLast? == some '\n' then s.dropLast else s

/-- The tag of a plain scalar. Its form does not count a line feed at the end, but a line feed alone is a text. -/
def ofPlain (codes : List Nat) : Tag :=
  match codes.map Text.ofCodePoint with
  | [] => .null
  | ['\n'] => .text
  | s => ofForm (dropLineFeed s)

end Tag

end CommitStatus.Yaml
