import CommitStatus.Decimal.Binary64
import CommitStatus.Decimal.Integer

/-!
# Decimal numbers in text

A written number may have white space around it, a sign, single low lines between digits, a fraction and an exponent;
its digits may be of any script. The words for infinity and for not a number are read in any case.

* `Binary64.read?` reads the nearest value to a written number.
-/

namespace CommitStatus.Decimal

/-- Drop the low lines that stand between two digits; nothing when one stands elsewhere. -/
def joinDigits : List Char → Option (List Char)
  | [] => some []
  | '_' :: _ => none
  | c :: '_' :: d :: rest =>
    if c.isDigit && d.isDigit then (joinDigits (d :: rest)).map (c :: ·) else none
  | c :: rest => (joinDigits rest).map (c :: ·)

/-- Digits of any script in ASCII. What is neither a digit nor ASCII belongs to no number. -/
def asciiDigits (s : List Char) : List Char :=
  s.map fun c => match Text.digitValue? c with
    | some d => Char.ofNat (48 + d)
    | none => if c.toNat < 128 then c else '?'

/-- An exponent, with or without a sign, that ends the text. -/
def exponent? (s : List Char) : Option Int :=
  let (negative, digits) := Integer.splitSign s
  if digits.isEmpty || !digits.all Char.isDigit then none
  else
    let n := Integer.ofDigits 10 (digits.map (·.toNat - 48))
    some (if negative then -(n : Int) else n)

/-- A number without sign: digits, of which some may stand behind a point, and an exponent. -/
def unsigned? (negative : Bool) (s : List Char) : Option Binary64 :=
  let whole := s.takeWhile Char.isDigit
  let rest := s.dropWhile Char.isDigit
  let (fraction, rest) := match rest with
    | '.' :: rest => (rest.takeWhile Char.isDigit, rest.dropWhile Char.isDigit)
    | rest => ([], rest)
  let digits := whole ++ fraction
  if digits.isEmpty then none
  else
    let value (power : Int) :=
      Binary64.ofDecimal negative (Integer.ofDigits 10 (digits.map (·.toNat - 48))) (power - fraction.length)
    match rest with
    | [] => some (value 0)
    | c :: rest => if c == 'e' || c == 'E' then (exponent? rest).map value else none

/-- Read the nearest value to a written number. -/
def Binary64.read? (s : List Char) : Option Binary64 := do
  let s ← joinDigits (asciiDigits (Text.trimBy Text.isSpace s))
  let (negative, body) := Integer.splitSign s
  let word := String.ofList (body.map Char.toLower)
  if word == "inf" || word == "infinity" then some (.infinite negative)
  else if word == "nan" then some .nan
  else unsigned? negative body

end CommitStatus.Decimal
