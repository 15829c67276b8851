import CommitStatus.Decimal.Shortest
import CommitStatus.Text.Blank

/-!
# The written form of a value

A value is written with the fewest digits that read back. When the decimal point falls at most sixteen digits behind
the first digit and at most three zeros before it, the point stands in its place, with a digit on either side of it;
otherwise the point follows the first digit and an exponent of two digits or more is added.

* `Binary64.text` writes a value.
-/

namespace CommitStatus.Decimal

/-- Where the written form of a value puts the decimal point, and how wide an exponent is. -/
structure Layout where
  lowestPoint : Int
  highestPoint : Int
  exponentWidth : Nat

/-- The layout of all values that the program writes. -/
def layout : Layout := ⟨-3, 16, 2⟩

/-- Zeros in front, up to a width. -/
def padLeft (width : Nat) (s : List Char) : List Char := List.replicate (width - s.length) '0' ++ s

/-- Digits with the point behind the first `point` of them, or behind a zero when there are none such. -/
def positional (digits : List Char) (point : Int) : List Char :=
  if point ≤ 0 then '0' :: '.' :: List.replicate (-point).toNat '0' ++ digits
  else
    let n := point.toNat
    if digits.length ≤ n then digits ++ List.replicate (n - digits.length) '0' ++ ['.', '0']
    else digits.take n ++ '.' :: digits.drop n

/-- Digits with the point behind the first of them, and an exponent. -/
def scientific (width : Nat) (digits : List Char) (point : Int) : List Char :=
  let e := point - 1
  let mark := if e < 0 then '-' else '+'
  let fraction := if digits.length ≤ 1 then [] else '.' :: digits.drop 1
  digits.take 1 ++ fraction ++ 'e' :: mark :: padLeft width (Nat.toDigits 10 e.natAbs)

/-- The written form of the magnitude of a positive value. -/
def magnitudeText (significand : Nat) (exponent : Int) : List Char :=
  let (n, power) := shortest significand exponent
  let all := Nat.toDigits 10 n
  let point := power + all.length
  let digits := Text.trimRightBy (· == '0') all
  if layout.lowestPoint ≤ point && point ≤ layout.highestPoint then positional digits point
  else scientific layout.exponentWidth digits point

/-- The written form of a value. -/
def Binary64.text : Binary64 → String
  | .nan => "nan"
  | .infinite negative => if negative then "-inf" else "inf"
  | .finite negative m e =>
    let body := if m = 0 then ['0', '.', '0'] else magnitudeText m e
    String.ofList (if negative then '-' :: body else body)

end CommitStatus.Decimal
