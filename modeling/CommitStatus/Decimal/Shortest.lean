import CommitStatus.Decimal.Binary64

/-!
# The shortest decimal of a value

Of the decimals that read back as a value, those with the fewest digits, and of these the nearest. With a given number
of digits only the two neighbours of the value on that grid can be the nearest, so these are tried for one digit, for
two, and so on; seventeen digits are always enough.

* `shortest m e` gives the digits and the position of the decimal point behind the first of them.
-/

namespace CommitStatus.Decimal

/-- Whether a decimal reads back as the value. -/
def readsBack (significand : Nat) (exponent : Int) (digits : Nat) (power : Int) : Bool :=
  Binary64.ofDecimal false digits power == .finite false significand exponent

/-- The number of digits before the decimal point, or minus the number of zeros behind it: the least `p` with the ratio
below 10^p, for ratios within the range of the format. -/
def magnitude (num den : Nat) : Int := ((Nat.toDigits 10 (num * Nat.pow 10 330 / den)).length : Int) - 330

/-- The nearest decimal with digits of one grid that reads back. -/
def onGrid? (significand : Nat) (exponent : Int) (power : Int) : Option Nat :=
  let (num, den) := Binary64.ratio significand exponent
  let (n, d) := if 0 ≤ power then (num, den * Nat.pow 10 power.toNat) else (num * Nat.pow 10 (-power).toNat, den)
  let low := n / d
  let nearest := roundHalfEven n d
  let other := if nearest = low then low + 1 else low
  if readsBack significand exponent nearest power then some nearest
  else if readsBack significand exponent other power then some other
  else none

/-- The first grid with a decimal that reads back, from `used` digits on. -/
def shortestFrom (significand : Nat) (exponent : Int) (point : Int) : Nat → Nat → Nat × Int
  | 0, used => ((onGrid? significand exponent (point - used)).getD 0, point - used)
  | left + 1, used =>
    match onGrid? significand exponent (point - used) with
    | some digits => (digits, point - used)
    | none => shortestFrom significand exponent point left (used + 1)

/-- The shortest decimal of a positive value: its digits, and the power of ten that they count. -/
def shortest (significand : Nat) (exponent : Int) : Nat × Int :=
  let (num, den) := Binary64.ratio significand exponent
  shortestFrom significand exponent (magnitude num den) 16 1

end CommitStatus.Decimal
