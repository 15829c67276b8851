import CommitStatus.Counter

/-!
# The metrics page

The counters in the text form that a metrics collector reads: for each family a line on what it counts and a line on
its type, and behind them a line for each of its counters that is not zero.

* `metricsLines` are the lines of the page.
-/

namespace CommitStatus.Web

/-- The families on the page. What is counted on the command line is pushed instead. -/
def pageFamilies : List CounterFamily := [.request, .event, .notification, .skipped, .error]

/-- One character of a label. -/
def labelChar (c : Char) : List Char :=
  if c == '\\' || c == '"' then ['\\', c] else if c == '\n' then ['\\', 'n'] else [c]

/-- A label between quotation marks. -/
def labelText (label : String) : String := String.ofList ('"' :: (label.toList.flatMap labelChar ++ ['"']))

/-- The name of a family's counters. -/
def totalName (f : CounterFamily) : String := f.name ++ "_total"

/-- The line of a counter and its value. -/
def sampleLine (c : Counter) (n : Nat) : String :=
  totalName c.family ++ "\x7b" ++ c.family.label ++ "=" ++ labelText c.value ++ "\x7d " ++ toString n ++ ".0"

/-- The lines of a family among the sums of all counters. -/
def familyLines (sums : List (Counter × Nat)) (f : CounterFamily) : List String :=
  ("# HELP " ++ totalName f ++ " " ++ f.help) :: ("# TYPE " ++ totalName f ++ " counter") ::
    (sums.filter (·.1.family = f)).map fun (c, n) => sampleLine c n

/-- The lines of the page. -/
def metricsLines (counted : List Counter) : List String := pageFamilies.flatMap (familyLines (tally counted))

end CommitStatus.Web
