/-!
# Text from code points

A code point of the surrogate ranges is one half of a pair: a high and a low one together stand for a character of the
upper planes. A text holds characters only, so a half that stands alone is shown by the replacement character.

* `ofCodePoint` gives the character of one code point, `ofCodePoints` the text of code points with its pairs;
* `codePoints` gives the code points of a text, among which there are no halves.
-/

namespace CommitStatus.Text

/-- A code point that begins a pair. -/
def isHighSurrogate (n : Nat) : Bool := 0xD800 ≤ n && n < 0xDC00

/-- A code point that ends a pair. -/
def isLowSurrogate (n : Nat) : Bool := 0xDC00 ≤ n && n < 0xE000

/-- The character of a code point by itself. -/
def ofCodePoint (n : Nat) : Char :=
  if isHighSurrogate n || isLowSurrogate n then Char.ofNat 0xFFFD else Char.ofNat n

/-- The code points of a text. -/
def codePoints (s : String) : List Nat := s.toList.map Char.toNat

/-- The text of code points. Halves of pairs do not outlive this: two that fit stand for a character from then on. -/
def ofCodePoints : List Nat → List Char
  | a :: b :: rest =>
    if isHighSurrogate a && isLowSurrogate b then
      Char.ofNat (0x10000 + (a - 0xD800) * 0x400 + (b - 0xDC00)) :: ofCodePoints rest
    else ofCodePoint a :: ofCodePoints (b :: rest)
  | [a] => [ofCodePoint a]
  | [] => []

end CommitStatus.Text
