import CommitStatus.Datum.Basic
import CommitStatus.Decimal.Arithmetic
import CommitStatus.Decimal.Reader
import CommitStatus.Text.LowerCase
import CommitStatus.Text.Split
import CommitStatus.Yaml.Base64
import CommitStatus.Yaml.Failure
import CommitStatus.Yaml.Tag

/-!
# The values of scalars

A scalar's tag says how its text is read. Numbers may have low lines anywhere, and may be written in parts below sixty
with colons between them.

* `Scalar.value` reads a scalar.
-/

namespace CommitStatus.Yaml.Scalar

open Decimal (Binary64 Integer.read)
open Text (pieces)

/-- An integer in a base. -/
def integer (base : Nat) (s : List Char) : Except Failure Int :=
  match Integer.read base s with
  | .ok n => .ok n
  | .error e => .error (.integer e)

/-- The sign in front of a number without low lines, and the number behind it. -/
def signed (s : List Char) : Except Failure (Bool × List Char) :=
  match s.filter (· != '_') with
  | [] => .error .noDigits
  | '-' :: rest => .ok (true, rest)
  | '+' :: rest => .ok (false, rest)
  | rest => .ok (false, rest)

/-- The sum of parts that count sixties each, the last of them ones. -/
def sixties (parts : List Int) : Int := parts.foldl (fun n p => n * 60 + p) 0

/-- An integer without sign: in base two, eight, ten or sixteen, or in parts below sixty. -/
def magnitude (s : List Char) : Except Failure Int :=
  match s with
  | [] => .error .noDigits
  | ['0'] => .ok 0
  | '0' :: 'b' :: rest => integer 2 rest
  | '0' :: 'x' :: rest => integer 16 rest
  | '0' :: rest => integer 8 ('0' :: rest)
  | s => if s.contains ':' then ((pieces ':' s).mapM (integer 10)).map sixties else integer 10 s

/-- An integer. -/
def int (s : List Char) : Except Failure Int := do
  let (negative, s) ← signed s
  let n ← magnitude s
  return if negative then -n else n

/-- A floating-point number in base ten. -/
def decimal (s : List Char) : Except Failure Binary64 :=
  match Binary64.read? s with
  | some x => .ok x
  | none => .error (.number (String.ofList s))

/-- The sum of parts, the ones first, each with its power of sixty. -/
def partSum : Nat → Binary64 → List Binary64 → Except Failure Binary64
  | _, sum, [] => .ok sum
  | power, sum, x :: rest =>
    match Binary64.ofInt? power with
    | none => .error .tooManyParts
    | some p => partSum (power * 60) (sum.add (x.mul p)) rest

/-- A floating-point number: a word, a number in base ten, or parts below sixty. -/
def float (s : List Char) : Except Failure Binary64 := do
  let (negative, s) ← signed (Text.lower s)
  let sign (x : Binary64) := x.mul (.finite negative 1 0)
  if String.ofList s == ".inf" then return .infinite negative
  else if String.ofList s == ".nan" then return .nan
  else if s.contains ':' then
    let parts ← (pieces ':' s).mapM decimal
    return sign (← partSum 1 (.zero false) parts.reverse)
  else return sign (← decimal s)

/-- A truth value: the words count in any case. -/
def truth (s : List Char) : Except Failure Bool :=
  let word := String.ofList (Text.lower s)
  if ["yes", "true", "on"].contains word then .ok true
  else if ["no", "false", "off"].contains word then .ok false
  else .error (.truth word)

/-- Octets, written in ASCII. -/
def octets (s : List Char) : Except Failure (List UInt8) :=
  if s.all (·.toNat < 128) then
    match Base64.decode? s with
    | some bytes => .ok bytes
    | none => .error .malformed
  else .error .malformed

/-- A date or moment. -/
def moment (s : List Char) : Except Failure Datum :=
  match Timestamp.parse? (Tag.dropLineFeed s) with
  | none => .error .noMoment
  | some f =>
    match f.clock with
    | none =>
      match f.date.objection? with
      | some e => .error (.calendar e)
      | none => .ok (.date f.date)
    | some clock =>
      let m := clock.toMoment f.date
      match m.objection? with
      | some e => .error (.calendar e)
      | none => .ok (.moment m)

/-- The value of a scalar with given code points. Two halves of a pair make up a character in a text only; no other value
has a half in it. In what is said of a scalar that is misread, halves are shown by the replacement character. -/
def value (tag : Tag) (codes : List Nat) : Except Failure Datum :=
  let s := codes.map Text.ofCodePoint
  match tag with
  | .null => .ok .null
  | .bool => (truth s).map .bool
  | .int => (int s).map .int
  | .float => (float s).map .float
  | .timestamp => moment s
  | .binary => (octets s).map .octets
  | .text => .ok (.text (String.ofList (Text.ofCodePoints codes)))
  | _ => .error .malformed

end CommitStatus.Yaml.Scalar
