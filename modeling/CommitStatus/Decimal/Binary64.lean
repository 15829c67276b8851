/-!
# Binary floating point of 64 bits

The values of the format, held exactly: a finite value is a sign, a significand below 2^53 and an exponent of two. A
ratio of natural numbers is rounded to the nearest value, a half to the even neighbour.

* `Binary64.ofRatio` rounds a ratio, `Binary64.ofDecimal` a decimal number;
* `Binary64.toInt?` gives the integer that a value is.
-/

namespace CommitStatus.Decimal

/-- The values of the format. -/
inductive Binary64
  | nan
  | infinite (negative : Bool)
  | finite (negative : Bool) (significand : Nat) (exponent : Int)
  deriving DecidableEq, Repr, Inhabited

/-- The quotient to the nearest integer, a half to the even one. -/
def roundHalfEven (num den : Nat) : Nat :=
  let q := num / den
  let r := num % den
  if 2 * r < den then q else if den < 2 * r then q + 1 else q + q % 2

namespace Binary64

/-- Zero with a sign. -/
def zero (negative : Bool) : Binary64 := .finite negative 0 (-1074)

/-- The ratio divided by a power of two, as a ratio. -/
def scaled (num den : Nat) (exponent : Int) : Nat × Nat :=
  if 0 ≤ exponent then (num, den * Nat.pow 2 exponent.toNat) else (num * Nat.pow 2 (-exponent).toNat, den)

/-- Round a positive ratio with a given exponent, moving a significand of 2^53 to the next exponent. -/
def ofScaled (negative : Bool) (num den : Nat) (exponent : Int) : Binary64 :=
  let (n, d) := scaled num den exponent
  let m := roundHalfEven n d
  let (m, exponent) := if m = Nat.pow 2 53 then (Nat.pow 2 52, exponent + 1) else (m, exponent)
  if 971 < exponent then .infinite negative else .finite negative m exponent

/-- The nearest value to a ratio. Its exponent is the least that leaves the significand below 2^53, and no less
than -1074. -/
def ofRatio (negative : Bool) (num den : Nat) : Binary64 :=
  if num = 0 then zero negative
  else
    let guess : Int := max ((num.log2 : Int) - den.log2 - 53) (-1074)
    let (n, d) := scaled num den guess
    ofScaled negative num den (if n < d * Nat.pow 2 53 then guess else guess + 1)

/-- The nearest value to `digits` times a power of ten. A power that is out of range beside the number of digits is
not worked out. -/
def ofDecimal (negative : Bool) (digits : Nat) (power : Int) : Binary64 :=
  if digits = 0 then zero negative
  else if 400 < power then .infinite negative
  else if 0 ≤ power then ofRatio negative (digits * Nat.pow 10 power.toNat) 1
  else if (digits.log2 : Int) + 1081 < -power * 3 then zero negative
  else ofRatio negative digits (Nat.pow 10 (-power).toNat)

/-- The magnitude of a finite value as a ratio. -/
def ratio (significand : Nat) (exponent : Int) : Nat × Nat :=
  if 0 ≤ exponent then (significand * Nat.pow 2 exponent.toNat, 1) else (significand, Nat.pow 2 (-exponent).toNat)

/-- The integer that a value is. -/
def toInt? : Binary64 → Option Int
  | .finite negative m e =>
    let (n, d) := ratio m e
    if n % d = 0 then some (if negative then -(n / d : Nat) else (n / d : Nat)) else none
  | _ => none

/-- A finite value. -/
def isFinite : Binary64 → Bool
  | .finite .. => true
  | _ => false

end Binary64

end CommitStatus.Decimal
