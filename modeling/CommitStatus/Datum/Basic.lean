import CommitStatus.Datum.Moment
import CommitStatus.Decimal.Notation
import CommitStatus.Fault
import CommitStatus.Json.Value

/-!
# Plain data

What a configuration holds: scalars of several kinds, sequences, sets, and mappings from scalars. A mapping has each
key once; numbers are the same key when they are equal, whatever their kinds, and a truth value counts as one or zero.

* `Datum.insert` puts an entry into a mapping: a new value takes the place of an old one;
* `member?` finds the value of a text;
* `Datum.ofJson` turns JSON into plain data.
-/

namespace CommitStatus

open Decimal (Binary64)

/-- A piece of plain data. -/
inductive Datum
  | null
  | bool (b : Bool)
  | int (n : Int)
  | float (x : Binary64)
  | text (s : String)
  | octets (bytes : List UInt8)
  | date (d : Date)
  | moment (m : Moment)
  | sequence (items : List Datum)
  | set (items : List Datum)
  | mapping (entries : List (Datum × Datum))
  deriving Repr, Inhabited

namespace Datum

/-- A number as a key: whole numbers of all kinds are integers. -/
inductive NumberKey
  | whole (n : Int)
  | other (x : Binary64)
  deriving DecidableEq

/-- The number that a scalar is as a key. -/
def numberKey? : Datum → Option NumberKey
  | .bool b => some (.whole (if b then 1 else 0))
  | .int n => some (.whole n)
  | .float x => some (match x.toInt? with
    | some n => .whole n
    | none => .other x)
  | _ => none

/-- Whether two scalars are the same key. What is not a number is no key but itself. -/
def sameKey (a b : Datum) : Bool :=
  match a, b with
  | .null, .null => true
  | .text s, .text t => s = t
  | .octets s, .octets t => s = t
  | .date s, .date t => s = t
  | .moment s, .moment t => s.same t
  | a, b =>
    match a.numberKey?, b.numberKey? with
    | some k, some l => k = l && k ≠ .other .nan
    | _, _ => false

/-- The entries of a mapping. -/
abbrev Entries := List (Datum × Datum)

/-- Put an entry into a mapping. A key that is there already stays where and what it is. -/
def insert (key value : Datum) : Entries → Entries
  | [] => [(key, value)]
  | (k, v) :: rest => if sameKey k key then (k, value) :: rest else (k, v) :: insert key value rest

/-- The mapping of entries in their order. -/
def ofEntries (entries : Entries) : Entries := entries.foldl (fun m (k, v) => insert k v m) []

/-- The value of a text in a mapping. -/
def member? (name : String) : Entries → Option Datum
  | [] => none
  | (.text s, v) :: rest => if s = name then some v else member? name rest
  | _ :: rest => member? name rest

/-- Whether a number is within 64 bits. -/
def fits (n : Int) : Bool := Decimal.Integer.least64 ≤ n && n ≤ Decimal.Integer.greatest64

/-- The step to the value of a key in a report. -/
def step : Datum → Step
  | .text s => .member s
  | .bool b => .item (if b then 1 else 0)
  | .int n => if fits n then .item n else .member (String.ofList (Decimal.Integer.text n))
  | .float x => .member x.text
  | .octets bytes => .member (Text.quotedOctets bytes)
  | .date d => .member d.shown
  | .moment m => .member m.shown
  | _ => .member "None"

mutual

/-- JSON as plain data. -/
def ofJson : Json.Value → Datum
  | .null => .null
  | .bool b => .bool b
  | .int n => .int n
  | .float x => .float x
  | .string s => .text s
  | .array items => .sequence (ofJsonItems items)
  | .object members => .mapping (ofEntries (ofJsonMembers members))

/-- The items of an array as plain data. -/
def ofJsonItems : List Json.Value → List Datum
  | [] => []
  | v :: rest => ofJson v :: ofJsonItems rest

/-- The members of an object as entries. -/
def ofJsonMembers : List (String × Json.Value) → Entries
  | [] => []
  | (key, v) :: rest => (.text key, ofJson v) :: ofJsonMembers rest

end

end Datum

end CommitStatus
