import CommitStatus.Text.Blank
import CommitStatus.Text.Digit
import CommitStatus.Text.Quoted

/-!
# Integers in text

A written integer may have white space around it, a sign, the mark of its base, and single low lines between its
digits, which may be digits of any script. In a base that is not a power of two at most 4300 digits are read.

* `Integer.read base s` reads an integer;
* `Integer.text n` writes one in base ten;
* `Integer.Misread.message` words a misreading.
-/

namespace CommitStatus.Decimal.Integer

/-- Why a text is not read as an integer. -/
inductive Misread
  | notInteger (base : Nat) (text : String)
  | tooLong (digits : Nat)
  deriving DecidableEq, Repr

/-- The most digits that are read in a base that is not a power of two. -/
def maxDigits : Nat := 4300

/-- The value of a digit or letter in a base of at most 36. -/
def digitIn? (base : Nat) (c : Char) : Option Nat :=
  let value := match Text.digitValue? c with
    | some d => some d
    | none =>
      if 'a' ≤ c && c ≤ 'z' then some (c.toNat - 87) else if 'A' ≤ c && c ≤ 'Z' then some (c.toNat - 55) else none
  value.filter (· < base)

/-- The digits at the head of a text with single low lines between them, and the rest; nothing when there is no digit
or a low line is out of place. The flag tells that a digit has to come next. -/
def digitRun (base : Nat) : Bool → List Char → Option (List Nat × List Char)
  | due, [] => if due then none else some ([], [])
  | due, c :: rest =>
    match digitIn? base c with
    | some d => (digitRun base false rest).map fun (ds, rest) => (d :: ds, rest)
    | none => if due then none else if c == '_' then digitRun base true rest else some ([], c :: rest)

/-- The number that digits write in a base. -/
def ofDigits (base : Nat) (digits : List Nat) : Nat := digits.foldl (fun n d => n * base + d) 0

/-- A sign at the head of a text: whether it is a minus, and the rest. -/
def splitSign : List Char → Bool × List Char
  | '-' :: rest => (true, rest)
  | '+' :: rest => (false, rest)
  | s => (false, s)

/-- The letter in the mark of a base. -/
def baseLetter? : Nat → Option Char
  | 2 => some 'b'
  | 8 => some 'o'
  | 16 => some 'x'
  | _ => none

/-- Drop the mark of the base, and a low line behind it. -/
def dropMark (base : Nat) : List Char → List Char
  | '0' :: c :: rest =>
    if baseLetter? base == some c.toLower then match rest with
      | '_' :: rest => rest
      | rest => rest
    else '0' :: c :: rest
  | s => s

/-- Read an integer in a base. -/
def read (base : Nat) (s : List Char) : Except Misread Int :=
  let wrong := Misread.notInteger base (String.ofList s)
  let (negative, body) := splitSign (Text.trimBy Text.isSpace s)
  match digitRun base true (dropMark base body) with
  | none => .error wrong
  | some (digits, rest) =>
    if (baseLetter? base).isNone && maxDigits < digits.length then .error (.tooLong digits.length)
    else if rest.isEmpty then .ok (if negative then -(ofDigits base digits : Int) else ofDigits base digits)
    else .error wrong

/-- The first two hundred characters of the quoted text stand for it. -/
def Misread.message : Misread → String
  | .notInteger base text =>
    s!"invalid literal for int() with base {base}: " ++ String.ofList ((Text.quoted text).toList.take 200)
  | .tooLong digits =>
    s!"Exceeds the limit ({maxDigits} digits) for integer string conversion: value has {digits} digits; " ++
      "use sys.set_int_max_str_digits() to increase the limit"

/-- The digits of a natural number in base ten. -/
def naturalText (n : Nat) : List Char := Nat.toDigits 10 n

/-- An integer in base ten, with a minus sign before its digits when it is negative. -/
def text : Int → List Char
  | .ofNat n => naturalText n
  | .negSucc n => '-' :: naturalText (n + 1)

/-- The least integer of 64 bits. -/
def least64 : Int := -9223372036854775808

/-- The greatest integer of 64 bits. -/
def greatest64 : Int := 9223372036854775807

/-- Whether an integer that was written with a fraction fits into 64 bits; the least one is not taken for such. -/
def isWithin64 (n : Int) : Bool := least64 < n && n ≤ greatest64

end CommitStatus.Decimal.Integer
