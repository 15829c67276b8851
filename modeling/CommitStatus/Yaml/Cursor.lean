/-!
# A place in a YAML text

A cursor holds the rest of a text and where it begins: how many characters, lines and columns come before. The mark of
byte order, which has no width, opens no column. Line ends are line feeds, next lines and the two separators; texts
come with all other line ends turned into line feeds.

* `Cursor.eat` moves over characters, `Cursor.lineBreak?` over the end of a line.
-/

namespace CommitStatus.Yaml

/-- The end of a line. -/
def isBreak (c : Char) : Bool := c == '\n' || c.toNat == 0x85 || c.toNat == 0x2028 || c.toNat == 0x2029

/-- A space or a tab. -/
def isGap (c : Char) : Bool := c == ' ' || c == '\t'

/-- A place in a text. -/
structure Cursor where
  rest : List Char
  index : Nat
  line : Nat
  column : Nat

namespace Cursor

/-- The beginning of a text. -/
def start (s : List Char) : Cursor := ⟨s, 0, 0, 0⟩

/-- Move over the next character. -/
def next (c : Cursor) : Cursor :=
  match c.rest with
  | [] => c
  | ch :: rest =>
    if isBreak ch then ⟨rest, c.index + 1, c.line + 1, 0⟩
    else ⟨rest, c.index + 1, c.line, if ch.toNat = 0xFEFF then c.column else c.column + 1⟩

/-- Move over some characters. -/
def eat : Nat → Cursor → Cursor
  | 0, c => c
  | n + 1, c => eat n c.next

/-- The next character. -/
def peek? (c : Cursor) : Option Char := c.rest.head?

/-- Whether the next character is in a class; the end of the text is in none. -/
def sees (p : Char → Bool) (c : Cursor) : Bool := c.rest.head?.any p

/-- Whether the character behind the next `n` is a gap or the end of a line or the text. -/
def blankAt (n : Nat) (c : Cursor) : Bool := (c.rest.drop n).head?.all fun ch => isGap ch || isBreak ch

/-- Whether the text or a line ends here. -/
def atLineEnd (c : Cursor) : Bool := c.rest.head?.all isBreak

/-- The characters of a class that come next, and the place behind them. -/
def span (p : Char → Bool) (c : Cursor) : List Char × Cursor :=
  let s := c.rest.takeWhile p
  (s, c.eat s.length)

/-- Move over the characters of a class. -/
def skip (p : Char → Bool) (c : Cursor) : Cursor := c.eat (c.rest.takeWhile p).length

/-- Move to the end of the line. -/
def skipLine (c : Cursor) : Cursor := c.skip fun ch => !isBreak ch

/-- What the end of a line stands for within a text, if a line ends here: the separators stand for themselves. -/
def lineBreak? (c : Cursor) : Option (Char × Cursor) :=
  match c.rest with
  | [] => none
  | ch :: _ => if isBreak ch then some (if ch.toNat < 0x2028 then '\n' else ch, c.next) else none

/-- Whether three equal marks of a document stand here, with a gap or the end of a line or the text behind them. -/
def atDocumentMark (c : Cursor) : Bool :=
  match c.rest with
  | '-' :: '-' :: '-' :: _ => c.blankAt 3
  | '.' :: '.' :: '.' :: _ => c.blankAt 3
  | _ => false

end Cursor

end CommitStatus.Yaml
