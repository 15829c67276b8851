/-!
# Lines

A line ends at one of the line-breaking characters; a carriage return with a line feed after it is one break. A break
at the very end of a text opens no further line.

* `lines` splits a text into its lines without their breaks, `lineCount` counts them.
* `length_lines`: the two agree.
* `unixLines` is a text as it is read from a file: each carriage return, also one before a line feed, is a line feed.
-/

namespace CommitStatus.Text

/-- The characters that end a line. -/
def isLineBreak (c : Char) : Bool :=
  let n := c.toNat
  (10 ≤ n && n ≤ 13) || (28 ≤ n && n ≤ 30) || n == 0x85 || n == 0x2028 || n == 0x2029

/-- The lines of a text that continues the line `open_` (its characters in reverse order), if one is open. -/
def linesFrom : Option (List Char) → List Char → List (List Char)
  | none, [] => []
  | some l, [] => [l.reverse]
  | l, '\r' :: '\n' :: rest => (l.getD []).reverse :: linesFrom none rest
  | l, c :: rest =>
    if isLineBreak c then (l.getD []).reverse :: linesFrom none rest else linesFrom (some (c :: l.getD [])) rest

/-- The lines of a text, without their breaks. -/
def lines (s : List Char) : List (List Char) := linesFrom none s

/-- The number of lines of a text: one per break, and one more when text follows the last break. -/
def lineCountFrom : Bool → List Char → Nat
  | openLine, [] => if openLine then 1 else 0
  | _, '\r' :: '\n' :: rest => 1 + lineCountFrom false rest
  | _, c :: rest => if isLineBreak c then 1 + lineCountFrom false rest else lineCountFrom true rest

/-- The number of lines of a text. -/
def lineCount (s : String) : Nat := lineCountFrom false s.toList

theorem length_linesFrom (l : Option (List Char)) (s : List Char) :
    (linesFrom l s).length = lineCountFrom l.isSome s := by
  fun_induction linesFrom l s with
  | case1 => rfl
  | case2 => rfl
  | case3 l rest ih => simp [lineCountFrom, ih, Nat.add_comm]
  | case4 l c rest hne hb ih =>
    rw [lineCountFrom.eq_3 _ _ _ hne]
    simp [hb, ih, Nat.add_comm]
  | case5 l c rest hne hb ih =>
    rw [lineCountFrom.eq_3 _ _ _ hne]
    simp [hb, ih]

/-- The count of the lines is the number of lines. -/
theorem length_lines (s : String) : (lines s.toList).length = lineCount s := length_linesFrom none s.toList

/-- Turn all ends of lines into line feeds. -/
def unixLines : List Char → List Char
  | '\r' :: '\n' :: rest => '\n' :: unixLines rest
  | '\r' :: rest => '\n' :: unixLines rest
  | c :: rest => c :: unixLines rest
  | [] => []

end CommitStatus.Text
