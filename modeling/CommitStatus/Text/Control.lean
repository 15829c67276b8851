/-!
# Control sequences of terminals

A control sequence is an escape character and an opening bracket, then digits, semicolons and question marks, then an
ASCII letter.

* `withoutControls s` is `s` without its control sequences.
-/

namespace CommitStatus.Text

/-- The characters within a control sequence. -/
def isParameter (c : Char) : Bool := c.isDigit || c == ';' || c == '?'

/-- What stands behind the control sequence at the head of a text, if there is one; the text begins behind the opening
bracket. -/
def afterControl? : List Char → Option (List Char)
  | [] => none
  | c :: rest => if isParameter c then afterControl? rest else if c.isAlpha then some rest else none

theorem afterControl?_length {s t : List Char} (h : afterControl? s = some t) : t.length < s.length := by
  induction s with
  | nil => simp [afterControl?] at h
  | cons c rest ih =>
    unfold afterControl? at h
    split at h
    · exact Nat.lt_succ_of_lt (ih h)
    · split at h
      · cases h
        exact Nat.lt_succ_self _
      · cases h

/-- A text without its control sequences. -/
def withoutControls : List Char → List Char
  | [] => []
  | '\x1b' :: '[' :: rest =>
    match _h : afterControl? rest with
    | some rest' => withoutControls rest'
    | none => '\x1b' :: '[' :: withoutControls rest
  | c :: rest => c :: withoutControls rest
termination_by s => s.length
decreasing_by
  · have := afterControl?_length _h
    simp only [List.length_cons]
    omega
  · simp only [List.length_cons]
    omega
  · exact Nat.lt_succ_self _

end CommitStatus.Text
