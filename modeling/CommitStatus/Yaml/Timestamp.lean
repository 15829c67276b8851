import CommitStatus.Datum.Moment

/-!
# Written dates and moments

A date is a year of four digits, a month and a day; a moment adds a time of the day, behind a letter or gaps, perhaps
with a fraction of a second and an offset.

* `Timestamp.parse?` takes a text apart;
* `Timestamp.Fields.isUsual` tells the forms that stand for dates and moments without a tag.
-/

namespace CommitStatus.Yaml.Timestamp

/-- The time of a moment. -/
structure Clock where
  hour : Nat
  minute : Nat
  second : Nat
  fraction : List Char
  offset : Option Int

/-- The parts of a date or moment; the flag tells that month and day have two digits each. -/
structure Fields where
  date : Date
  isPadded : Bool
  clock : Option Clock

/-- The forms that need no tag: a date has all its digits, a moment may lack some. -/
def Fields.isUsual (f : Fields) : Bool := f.isPadded || f.clock.isSome

/-- The number that digits write. -/
def number (digits : List Char) : Nat := digits.foldl (fun n c => n * 10 + (c.toNat - 48)) 0

/-- Exactly `n` digits, and the rest. -/
def digits? (n : Nat) (s : List Char) : Option (Nat × List Char) :=
  let d := s.take n
  if d.length = n && d.all Char.isDigit then some (number d, s.drop n) else none

/-- One or two digits, whether there are two, and the rest. -/
def oneOrTwo? (s : List Char) : Option (Nat × Bool × List Char) :=
  match digits? 2 s with
  | some (n, rest) => some (n, true, rest)
  | none => (digits? 1 s).map fun (n, rest) => (n, false, rest)

/-- The rest behind a character that has to come next. -/
def expect? (c : Char) : List Char → Option (List Char)
  | d :: rest => if d = c then some rest else none
  | [] => none

/-- A gap. -/
def isGap (c : Char) : Bool := c == ' ' || c == '\t'

/-- The offset at the end of a moment, in minutes. -/
def offset? (s : List Char) : Option (Option Int) :=
  match s.dropWhile isGap with
  | [] => if s.isEmpty then some none else none
  | ['Z'] => some (some 0)
  | sign :: rest => do
    if sign != '+' && sign != '-' then none
    let (hours, _, rest) ← oneOrTwo? rest
    let minutes ← match rest with
      | [] => some 0
      | rest => do
        let (n, rest) ← digits? 2 (← expect? ':' rest)
        if rest.isEmpty then some n else none
    let total : Int := hours * 60 + minutes
    some (some (if sign == '-' then -total else total))

/-- The time of a moment, from its hour on. -/
def clock? (s : List Char) : Option Clock := do
  let (hour, _, s) ← oneOrTwo? s
  let (minute, s) ← digits? 2 (← expect? ':' s)
  let (second, s) ← digits? 2 (← expect? ':' s)
  let (fraction, s) := match s with
    | '.' :: rest => (rest.takeWhile Char.isDigit, rest.dropWhile Char.isDigit)
    | s => ([], s)
  return ⟨hour, minute, second, fraction, ← offset? s⟩

/-- What stands before the hour: a letter or gaps. -/
def separator? : List Char → Option (List Char)
  | 'T' :: rest => some rest
  | 't' :: rest => some rest
  | c :: rest => if isGap c then some (rest.dropWhile isGap) else none
  | [] => none

/-- The parts of a date or moment. -/
def parse? (s : List Char) : Option Fields := do
  let (year, s) ← digits? 4 s
  let (month, padded, s) ← oneOrTwo? (← expect? '-' s)
  let (day, padded', s) ← oneOrTwo? (← expect? '-' s)
  let clock ← if s.isEmpty then some none else (separator? s).bind fun s => (clock? s).map some
  return ⟨⟨year, month, day⟩, padded && padded', clock⟩

/-- The microseconds of a fraction: its first six digits. -/
def microseconds (fraction : List Char) : Nat :=
  let d := fraction.take 6
  number (d ++ List.replicate (6 - d.length) '0')

/-- The moment of a date and a time. -/
def Clock.toMoment (date : Date) (c : Clock) : Moment :=
  ⟨date, c.hour, c.minute, c.second, microseconds c.fraction, c.offset⟩

end CommitStatus.Yaml.Timestamp
