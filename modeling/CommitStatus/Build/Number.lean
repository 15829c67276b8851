import CommitStatus.Fault
import CommitStatus.Json.Reader

/-!
# Build numbers

A build number is an integer of any size, a whole number within 64 bits, a truth value, or a text that writes an
integer: with white space around it, a plus sign, leading zeros, single low lines between digits, or a point with zeros
behind it. The forms of a text are those of pydantic 2.13; other releases differ in odd ones, such as zeros behind a
minus sign or a point with nothing behind it.

* `Number.check` reads a number from a JSON value;
* `Number.tidy` brings a text to the plain form.
-/

namespace CommitStatus.Build.Number

open CommitStatus.Decimal

/-- An integer in plain form: an optional minus sign and digits without a zero in front. The length counts the sign. -/
inductive Plain
  | integer (n : Int)
  | tooLong
  | other

/-- A zero in front of something else. -/
def zeroInFront : List Char → Bool
  | '0' :: _ :: _ => true
  | _ => false

/-- Read what stands behind a sign, or behind none. Too long a run of digits is told before what comes after it. -/
def plainFrom (negative : Bool) (s : List Char) : Plain :=
  let digits := s.takeWhile Char.isDigit
  if digits.isEmpty || zeroInFront s then .other
  else if Integer.maxDigits < digits.length + negative.toNat then .tooLong
  else if digits.length < s.length then .other
  else
    let n := Json.digitsValue digits
    .integer (if negative then -(n : Int) else n)

/-- Read a text in plain form. -/
def plain : List Char → Plain
  | '-' :: rest => plainFrom true rest
  | s => plainFrom false s

/-- Drop a plus sign that no minus sign follows. -/
def dropPlus : List Char → List Char
  | '+' :: '-' :: rest => '+' :: '-' :: rest
  | '+' :: rest => rest
  | s => s

/-- A character that begins a number without a zero in front: a minus sign or a digit. -/
def beginsNumber (c : Char) : Bool := c == '-' || ('1' ≤ c && c ≤ '9')

/-- What is left of a number behind zeros and low lines; the character before is given, as a text of zeros only keeps
its last character and a point keeps the character before it. -/
def behindZeros (before : Char) : List Char → Option (List Char)
  | [] => some [before]
  | c :: rest =>
    if c == '0' || c == '_' then behindZeros c rest
    else if beginsNumber c then some (c :: rest)
    else if c == '.' then some (before :: c :: rest)
    else none

/-- Drop the zeros in front of a number; nothing when the text does not begin as a number does. -/
def dropZeros : List Char → Option (List Char)
  | '0' :: rest => behindZeros '0' rest
  | c :: rest => if beginsNumber c then some (c :: rest) else none
  | [] => none

/-- Drop the zeros in front of a number and those behind its minus sign. -/
def dropSignedZeros : List Char → Option (List Char)
  | '-' :: rest => (dropZeros rest).map ('-' :: ·)
  | s => dropZeros s

/-- Drop a point with zeros behind it and nothing else. -/
def dropFraction (s : List Char) : List Char :=
  match s.reverse with
  | '0' :: rest => match rest.dropWhile (· == '0') with
    | '.' :: rest => rest.reverse
    | _ => s
  | _ => s

/-- Whether a text has two low lines side by side. -/
def doubleLowLine : List Char → Bool
  | '_' :: '_' :: _ => true
  | _ :: rest => doubleLowLine rest
  | [] => false

/-- Drop single low lines between characters; nothing when there are others. -/
def dropLowLines (s : List Char) : Option (List Char) :=
  if s.head? == some '_' || s.getLast? == some '_' || doubleLowLine s then none else some (s.filter (· != '_'))

/-- Bring a text to the plain form; nothing when that changes nothing. -/
def tidy (s : List Char) : Option (List Char) :=
  match dropSignedZeros (dropPlus (Text.trimBy Text.isSpace s)) with
  | none => none
  | some t =>
    let t := dropFraction t
    let t := (dropLowLines t).getD t
    if t = s then none else some t

/-- A number in a text. Too long a number is told as such only where nothing has to be tidied. -/
def ofText (s : List Char) : Checked Int :=
  match plain s with
  | .integer n => .valid n
  | .tooLong => .fault .integerTooLarge
  | .other =>
    match (tidy s).map plain with
    | some (.integer n) => .valid n
    | _ => .fault .unreadableInteger

/-- A number that is written with a fraction or an exponent: whole, and within 64 bits. -/
def ofFloat (x : Binary64) : Checked Int :=
  if !x.isFinite then .fault .notFinite
  else match x.toInt? with
    | none => .fault .fractional
    | some n => if Integer.isWithin64 n then .valid n else .fault .integerTooLarge

/-- A number in a document. -/
def check : Json.Value → Checked Int
  | .int n => .valid n
  | .float x => ofFloat x
  | .bool b => .valid (if b then 1 else 0)
  | .string s => ofText s.toList
  | _ => .fault .notInteger

end CommitStatus.Build.Number
