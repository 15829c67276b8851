import CommitStatus.Text.Printable

/-!
# Quoted text in messages

Messages show a text between apostrophes, or between quotation marks when it holds an apostrophe and no quotation mark.
The backslash and the chosen mark are escaped, a tab, line feed and carriage return have their letters, and any other
character that does not show itself is written by its code point in two, four or eight hexadecimal digits.

* `quoted s` is the quoted form of a text, `quotedOctets` that of octets.
-/

namespace CommitStatus.Text

/-- A hexadecimal digit in lower case. -/
def hexDigit (n : Nat) : Char := if n < 10 then Char.ofNat (48 + n) else Char.ofNat (87 + n)

/-- The last `width` hexadecimal digits of a number. -/
def hex : Nat → Nat → List Char
  | 0, _ => []
  | width + 1, n => hex width (n / 16) ++ [hexDigit (n % 16)]

/-- The mark around a quoted text. -/
def delimiter (s : List Char) : Char := if s.contains '\'' && !s.contains '"' then '"' else '\''

/-- One character of a quoted text. -/
def quotedChar (mark c : Char) : List Char :=
  if c == mark || c == '\\' then ['\\', c]
  else if c == '\t' then ['\\', 't']
  else if c == '\n' then ['\\', 'n']
  else if c == '\r' then ['\\', 'r']
  else if isPrintable c then [c]
  else if c.toNat < 0x100 then '\\' :: 'x' :: hex 2 c.toNat
  else if c.toNat < 0x10000 then '\\' :: 'u' :: hex 4 c.toNat
  else '\\' :: 'U' :: hex 8 c.toNat

/-- A text as messages show it. -/
def quoted (s : String) : String :=
  let mark := delimiter s.toList
  String.ofList (mark :: s.toList.flatMap (quotedChar mark) ++ [mark])

/-- Octets as messages show them: as a text with the letter b before it, in which only ASCII shows itself. -/
def quotedOctets (bytes : List UInt8) : String :=
  let s := bytes.map fun b => Char.ofNat b.toNat
  let mark := delimiter s
  let octet (c : Char) := if c.toNat < 0x7F then quotedChar mark c else '\\' :: 'x' :: hex 2 c.toNat
  String.ofList ('b' :: mark :: s.flatMap octet ++ [mark])

end CommitStatus.Text
