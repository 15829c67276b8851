import CommitStatus.Decimal.Binary64

/-!
# Sums and products of values

Sums and products are worked out exactly and rounded once. A finite value is an integer times a power of two here.

* `Binary64.add` and `Binary64.mul`;
* `Binary64.ofInt?` is the nearest value to an integer, unless that is out of range.
-/

namespace CommitStatus.Decimal.Binary64

/-- An integer with a sign, as a significand. -/
def signed (negative : Bool) (significand : Nat) : Int := if negative then -(significand : Int) else significand

/-- The nearest value to an integer times a power of two; of a zero the sign is given. -/
def ofDyadic (zeroNegative : Bool) (n : Int) (exponent : Int) : Binary64 :=
  if n = 0 then zero zeroNegative
  else if 0 ≤ exponent then ofRatio (n < 0) (n.natAbs * Nat.pow 2 exponent.toNat) 1
  else ofRatio (n < 0) n.natAbs (Nat.pow 2 (-exponent).toNat)

/-- The sum of two values. -/
def add : Binary64 → Binary64 → Binary64
  | .nan, _ => .nan
  | _, .nan => .nan
  | .infinite a, .infinite b => if a = b then .infinite a else .nan
  | .infinite a, _ => .infinite a
  | _, .infinite b => .infinite b
  | .finite a m e, .finite b n f =>
    let low := min e f
    ofDyadic (a && b) (signed a m * Nat.pow 2 (e - low).toNat + signed b n * Nat.pow 2 (f - low).toNat) low

/-- The product of two values. -/
def mul : Binary64 → Binary64 → Binary64
  | .nan, _ => .nan
  | _, .nan => .nan
  | .infinite a, .infinite b => .infinite (a != b)
  | .infinite a, .finite b n _ => if n = 0 then .nan else .infinite (a != b)
  | .finite a m _, .infinite b => if m = 0 then .nan else .infinite (a != b)
  | .finite a m e, .finite b n f => ofDyadic (a != b) (signed a m * signed b n) (e + f)

/-- The nearest value to an integer, unless it is out of range. -/
def ofInt? (n : Int) : Option Binary64 :=
  match ofDyadic false n 0 with
  | .infinite _ => none
  | v => some v

end CommitStatus.Decimal.Binary64
