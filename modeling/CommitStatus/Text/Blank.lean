/-!
# White space

A character is blank when it is white space by its bidirectional class (`isBlank`) or, more narrowly, when it has the
white-space property (`isSpace`): the second class lacks the four information separators.

* `trimBy p` drops the characters of a class at both ends of a text.
-/

namespace CommitStatus.Text

/-- White space in the wide sense, with the information separators U+001C to U+001F. -/
def isBlank (c : Char) : Bool :=
  let n := c.toNat
  (9 ≤ n && n ≤ 13) || (28 ≤ n && n ≤ 32) || n == 0x85 || n == 0xA0 || n == 0x1680 || (0x2000 ≤ n && n ≤ 0x200A) ||
    n == 0x2028 || n == 0x2029 || n == 0x202F || n == 0x205F || n == 0x3000

/-- White space in the narrow sense. -/
def isSpace (c : Char) : Bool :=
  isBlank c && !(28 ≤ c.toNat && c.toNat ≤ 31)

/-- Drop the characters of a class at the end. -/
def trimRightBy (p : Char → Bool) (s : List Char) : List Char := (s.reverse.dropWhile p).reverse

/-- Drop the characters of a class at both ends. -/
def trimBy (p : Char → Bool) (s : List Char) : List Char := trimRightBy p (s.dropWhile p)

/-- A text of blanks only, the empty text among them. -/
def isBlankText (s : String) : Bool := s.toList.all isBlank

end CommitStatus.Text
