import CommitStatus.Decimal.Integer

/-!
# Dates and moments

Days of the calendar and times of a day, with the offset from universal time if one is given.

* `Date.objection?` and `Moment.objection?` say what is out of range;
* `Moment.same` compares two moments: with offsets as instants, without as written.
-/

namespace CommitStatus

/-- A day. -/
structure Date where
  year : Nat
  month : Nat
  day : Nat
  deriving DecidableEq, Repr

/-- A time of a day; the offset is in minutes. -/
structure Moment where
  date : Date
  hour : Nat
  minute : Nat
  second : Nat
  microsecond : Nat
  offset : Option Int
  deriving DecidableEq, Repr

/-- What is out of range. -/
inductive CalendarError
  | year (year : Nat)
  | month
  | day
  | hour
  | minute
  | second
  /-- An offset, in seconds, of a day or more. -/
  | offset (seconds : Int)
  deriving DecidableEq, Repr

/-- A span of time, given in seconds, as messages show it: whole days, rounded down, and the seconds beyond. -/
def spanText (seconds : Int) : String :=
  let days := seconds / 86400
  let rest := seconds % 86400
  let parts := (if days = 0 then [] else [s!"days={days}"]) ++ (if rest = 0 then [] else [s!"seconds={rest}"])
  "datetime.timedelta(" ++ (if parts.isEmpty then "0" else ", ".intercalate parts) ++ ")"

/-- The wording of what is out of range. -/
def CalendarError.message : CalendarError → String
  | .year y => s!"year {y} is out of range"
  | .month => "month must be in 1..12"
  | .day => "day is out of range for month"
  | .hour => "hour must be in 0..23"
  | .minute => "minute must be in 0..59"
  | .second => "second must be in 0..59"
  | .offset seconds =>
    "offset must be a timedelta strictly between -timedelta(hours=24) and timedelta(hours=24), not " ++
      spanText seconds ++ "."

namespace Date

/-- A leap year. -/
def isLeap (year : Nat) : Bool := year % 4 = 0 && (year % 100 ≠ 0 || year % 400 = 0)

/-- The days of a month. -/
def daysIn (year month : Nat) : Nat :=
  if month = 2 then (if isLeap year then 29 else 28) else if [4, 6, 9, 11].contains month then 30 else 31

/-- What is out of range in a date. -/
def objection? (d : Date) : Option CalendarError :=
  if d.year < 1 || 9999 < d.year then some (.year d.year)
  else if d.month < 1 || 12 < d.month then some .month
  else if d.day < 1 || daysIn d.year d.month < d.day then some .day
  else none

/-- The number of days before a date, counted from the first day of the year 1. -/
def ordinal (d : Date) : Nat :=
  let y := d.year - 1
  let months := ((List.range d.month).drop 1).map (daysIn d.year)
  y * 365 + y / 4 - y / 100 + y / 400 + months.foldl (· + ·) 0 + (d.day - 1)

/-- A date as messages show it. -/
def shown (d : Date) : String := s!"datetime.date({d.year}, {d.month}, {d.day})"

end Date

namespace Moment

/-- What is out of range in a moment, the offset apart. -/
def timeObjection? (m : Moment) : Option CalendarError :=
  match m.date.objection? with
  | some e => some e
  | none =>
    if 23 < m.hour then some .hour
    else if 59 < m.minute then some .minute
    else if 59 < m.second then some .second
    else none

/-- What is out of range in a moment. -/
def objection? (m : Moment) : Option CalendarError :=
  match m.offset with
  | some minutes => if 1440 ≤ minutes.natAbs then some (.offset (minutes * 60)) else m.timeObjection?
  | none => m.timeObjection?

/-- The microseconds before a moment, counted from the first day of the year 1 and without regard to the offset. -/
def microseconds (m : Moment) : Int :=
  (((m.date.ordinal * 24 + m.hour) * 60 + m.minute) * 60 + m.second : Nat) * 1000000 + m.microsecond

/-- Whether two moments are the same. -/
def same (a b : Moment) : Bool :=
  match a.offset, b.offset with
  | none, none => a.microseconds = b.microseconds
  | some x, some y => a.microseconds - x * 60000000 = b.microseconds - y * 60000000
  | _, _ => false

/-- A moment as messages show it. Seconds and smaller units are left out where they are zero. -/
def shown (m : Moment) : String :=
  let seconds := if m.microsecond = 0 then (if m.second = 0 then [] else [m.second]) else [m.second, m.microsecond]
  let numbers := [m.date.year, m.date.month, m.date.day, m.hour, m.minute] ++ seconds
  let zone := match m.offset with
    | none => []
    | some 0 => ["tzinfo=datetime.timezone.utc"]
    | some minutes => ["tzinfo=datetime.timezone(" ++ spanText (minutes * 60) ++ ")"]
  "datetime.datetime(" ++ ", ".intercalate (numbers.map toString ++ zone) ++ ")"

end Moment

end CommitStatus
