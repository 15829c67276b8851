import CommitStatus.Decimal.Integer
import CommitStatus.Json.Value

/-!
# Reading JSON

One value with white space around it. Beside the standard's numbers, the words `NaN`, `Infinity` and `-Infinity` are
read. The text before the point of a number is at most 4300 characters long, and non-empty arrays and objects are
nested no deeper than the reader is told.

* `Json.read? depth s` reads a text;
* `Json.number?`, `Json.stringBody?` read the parts.
-/

namespace CommitStatus.Json

open CommitStatus.Decimal (Binary64 Integer.ofDigits Integer.maxDigits)

/-- White space between the parts. -/
def isGap (c : Char) : Bool := c == ' ' || c == '\n' || c == '\r' || c == '\t'

/-- Drop the white space in front. -/
def skip (s : List Char) : List Char := s.dropWhile isGap

/-- The value of a hexadecimal digit. -/
def hexValue? (c : Char) : Option Nat :=
  if c.isDigit then some (c.toNat - 48)
  else if 'a' ≤ c && c ≤ 'f' then some (c.toNat - 87)
  else if 'A' ≤ c && c ≤ 'F' then some (c.toNat - 55)
  else none

/-- The number that four hexadecimal digits write. -/
def unit? (a b c d : Char) : Option Nat := do
  return (((← hexValue? a) * 16 + (← hexValue? b)) * 16 + (← hexValue? c)) * 16 + (← hexValue? d)

/-- The character of a short escape. -/
def shortEscape? : Char → Option Char
  | '"' => some '"'
  | '\\' => some '\\'
  | '/' => some '/'
  | 'b' => some (Char.ofNat 8)
  | 'f' => some (Char.ofNat 12)
  | 'n' => some '\n'
  | 'r' => some '\r'
  | 't' => some '\t'
  | _ => none

/-- The rest of a string behind its opening mark, up to its closing mark, and what follows. The characters so far are
held in reverse order. An escaped unit above U+D7FF and below U+E000 is read only as a pair. -/
def stringBody? : List Char → List Char → Option (String × List Char)
  | acc, '"' :: rest => some (String.ofList acc.reverse, rest)
  | acc, '\\' :: 'u' :: a :: b :: c :: d :: rest =>
    match unit? a b c d with
    | none => none
    | some n =>
      if n < 0xD800 || 0xE000 ≤ n then stringBody? (Char.ofNat n :: acc) rest
      else if 0xDC00 ≤ n then none
      else match rest with
        | '\\' :: 'u' :: a :: b :: c :: d :: rest =>
          match unit? a b c d with
          | none => none
          | some m =>
            if 0xDC00 ≤ m && m < 0xE000 then
              stringBody? (Char.ofNat (0x10000 + (n - 0xD800) * 0x400 + (m - 0xDC00)) :: acc) rest
            else none
        | _ => none
  | acc, '\\' :: c :: rest =>
    match shortEscape? c with
    | none => none
    | some c => stringBody? (c :: acc) rest
  | acc, c :: rest => if c.toNat < 0x20 then none else stringBody? (c :: acc) rest
  | _, [] => none

/-- The number that digits write. -/
def digitsValue (digits : List Char) : Nat := Integer.ofDigits 10 (digits.map (·.toNat - 48))

/-- A fraction, if a point comes next: its digits and the rest. -/
def fraction? : List Char → Option (List Char × List Char)
  | '.' :: rest =>
    let digits := rest.takeWhile Char.isDigit
    if digits.isEmpty then none else some (digits, rest.dropWhile Char.isDigit)
  | s => some ([], s)

/-- An exponent, if its letter comes next: its value and the rest. -/
def exponent? : List Char → Option (Option Int × List Char)
  | c :: rest =>
    if c == 'e' || c == 'E' then
      let (negative, rest) := Decimal.Integer.splitSign rest
      let digits := rest.takeWhile Char.isDigit
      if digits.isEmpty then none
      else
        let n : Int := digitsValue digits
        some (some (if negative then -n else n), rest.dropWhile Char.isDigit)
    else some (none, c :: rest)
  | [] => some (none, [])

/-- A number without its minus sign. -/
def magnitude? (negative : Bool) (s : List Char) : Option (Value × List Char) :=
  let digits := s.takeWhile Char.isDigit
  let zeroInFront := match digits with
    | '0' :: _ :: _ => true
    | _ => false
  if digits.isEmpty || zeroInFront || Integer.maxDigits < digits.length + negative.toNat then none
  else do
    let (fraction, rest) ← fraction? (s.dropWhile Char.isDigit)
    let (exponent, rest) ← exponent? rest
    let n := digitsValue (digits ++ fraction)
    if fraction.isEmpty && exponent.isNone then return (.int (if negative then -(n : Int) else n), rest)
    else return (.float (Binary64.ofDecimal negative n (exponent.getD 0 - fraction.length)), rest)

/-- A word at the head of a text. -/
def word? (word : String) (s : List Char) : Option (List Char) :=
  if word.toList.isPrefixOf s then some (s.drop word.length) else none

/-- A number. -/
def number? : List Char → Option (Value × List Char)
  | '-' :: rest =>
    match word? "Infinity" rest with
    | some rest => some (.float (.infinite true), rest)
    | none => magnitude? true rest
  | s => magnitude? false s

/-- A value without parts. -/
def atom? (s : List Char) : Option (Value × List Char) :=
  match s with
  | '"' :: rest => (stringBody? [] rest).map fun (text, rest) => (.string text, rest)
  | 'n' :: _ => (word? "null" s).map (.null, ·)
  | 't' :: _ => (word? "true" s).map (.bool true, ·)
  | 'f' :: _ => (word? "false" s).map (.bool false, ·)
  | 'N' :: _ => (word? "NaN" s).map (.float .nan, ·)
  | 'I' :: _ => (word? "Infinity" s).map (.float (.infinite false), ·)
  | _ => number? s

mutual

/-- A value at the head of a text. The depth bounds how many more arrays and objects may be opened within each other. -/
def value? : Nat → Nat → List Char → Option (Value × List Char)
  | 0, _, _ => none
  | fuel + 1, depth, '[' :: rest =>
    match skip rest with
    | ']' :: rest => some (.array [], rest)
    | rest => if depth = 0 then none else items? fuel (depth - 1) [] rest
  | fuel + 1, depth, '{' :: rest =>
    match skip rest with
    | '}' :: rest => some (.object [], rest)
    | rest => if depth = 0 then none else members? fuel (depth - 1) [] rest
  | _ + 1, _, s => atom? s

/-- The items of an array from one of them on; the items so far are held in reverse order. -/
def items? : Nat → Nat → List Value → List Char → Option (Value × List Char)
  | 0, _, _, _ => none
  | fuel + 1, depth, acc, s =>
    match value? fuel depth s with
    | none => none
    | some (v, rest) =>
      match skip rest with
      | ',' :: rest => items? fuel depth (v :: acc) (skip rest)
      | ']' :: rest => some (.array (v :: acc).reverse, rest)
      | _ => none

/-- The members of an object from one of them on; the members so far are held in reverse order. -/
def members? : Nat → Nat → Members → List Char → Option (Value × List Char)
  | 0, _, _, _ => none
  | fuel + 1, depth, acc, s =>
    match s with
    | '"' :: rest =>
      match stringBody? [] rest with
      | none => none
      | some (key, rest) =>
        match skip rest with
        | ':' :: rest =>
          match value? fuel depth (skip rest) with
          | none => none
          | some (v, rest) =>
            match skip rest with
            | ',' :: rest => members? fuel depth ((key, v) :: acc) (skip rest)
            | '}' :: rest => some (.object ((key, v) :: acc).reverse, rest)
            | _ => none
        | _ => none
    | _ => none

end

/-- Read a text. Between two steps of the reader at least one character is read. -/
def read? (depth : Nat) (s : List Char) : Option Value :=
  match value? (2 * s.length + 2) depth (skip s) with
  | some (v, rest) => if (skip rest).isEmpty then some v else none
  | none => none

end CommitStatus.Json
