import CommitStatus.Text.Split

/-!
# Job patterns

A pattern stands for a set of job names: `*` for any text, `?` for any one character, a closed bracket for one
character among its members and ranges, or, behind an exclamation mark, for one character that is not among them. An
unclosed bracket and all other characters stand for themselves.

* `Glob.ofText` reads a pattern as a list of pieces;
* `Glob.Describes` says which names a list of pieces stands for, by recursion on the pieces;
* `Glob.accepts` decides it by keeping all rests of the name that the pieces so far may leave;
* `describes_star` and `describes_one` unfold the first piece.
-/

namespace CommitStatus.Glob

open Text

/-- A part of a bracket. -/
inductive Member
  | one (c : Char)
  | range (low high : Char)
  deriving DecidableEq, Repr

/-- A part of a pattern. -/
inductive Piece
  | star
  | any
  | exactly (c : Char)
  | oneOf (negated : Bool) (members : List Member)
  deriving DecidableEq, Repr

/-- The members of a bracket, from the left: a hyphen between two characters makes a range of them, and a range that
runs backwards has no characters. -/
def members : List Char → List Member
  | a :: '-' :: b :: rest => if a ≤ b then .range a b :: members rest else members rest
  | a :: rest => .one a :: members rest
  | [] => []

/-- The bracket that a text between brackets writes. It is negated when an exclamation mark comes first, also when
nothing but ranges that run backwards stand before the mark. -/
def bracket : List Char → Piece
  | '!' :: body => .oneOf true (members body)
  | body =>
    match members body with
    | .one '!' :: rest => .oneOf true rest
    | .range '!' high :: rest => .oneOf true (.one '-' :: .one high :: rest)
    | all => .oneOf false all

/-- Cut a text behind an opening bracket at the closing one. A closing bracket that comes first is a member. -/
def closed? (s : List Char) : Option (List Char × List Char) :=
  let (mark, s) := match s with
    | '!' :: rest => (['!'], rest)
    | s => ([], s)
  let (first, s) := match s with
    | ']' :: rest => ([']'], rest)
    | s => ([], s)
  (after? ']' s).map fun rest => (mark ++ first ++ before ']' s, rest)

/-- The pieces of a pattern, read with enough fuel for its characters. -/
def readPieces : Nat → List Char → List Piece
  | 0, _ => []
  | _, [] => []
  | fuel + 1, '*' :: rest => .star :: readPieces fuel rest
  | fuel + 1, '?' :: rest => .any :: readPieces fuel rest
  | fuel + 1, '[' :: rest =>
    match closed? rest with
    | some (body, rest) => bracket body :: readPieces fuel rest
    | none => .exactly '[' :: readPieces fuel rest
  | fuel + 1, c :: rest => .exactly c :: readPieces fuel rest

/-- The pieces of a pattern. -/
def ofText (pattern : String) : List Piece := readPieces pattern.toList.length pattern.toList

/-- Whether a character is a member. -/
def Member.has (c : Char) : Member → Bool
  | .one d => c = d
  | .range low high => low ≤ c && c ≤ high

/-- Whether a piece for one character admits it. -/
def Piece.admits (c : Char) : Piece → Bool
  | .star => false
  | .any => true
  | .exactly d => c = d
  | .oneOf negated members => members.any (·.has c) != negated

/-- The names that a list of pieces stands for. -/
def Describes : List Piece → List Char → Prop
  | [], name => name = []
  | .star :: rest, name => ∃ any tail, name = any ++ tail ∧ Describes rest tail
  | p :: rest, name => ∃ c tail, name = c :: tail ∧ p.admits c = true ∧ Describes rest tail

theorem describes_star {rest : List Piece} {name : List Char} :
    Describes (.star :: rest) name ↔ ∃ any tail, name = any ++ tail ∧ Describes rest tail := by simp [Describes]

theorem describes_one {p : Piece} (hp : p ≠ .star) {rest : List Piece} {name : List Char} :
    Describes (p :: rest) name ↔ ∃ c tail, name = c :: tail ∧ p.admits c = true ∧ Describes rest tail := by
  cases p <;> simp_all [Describes]

/-- All rests of a text, the text itself among them. -/
def rests : List Char → List (List Char)
  | [] => [[]]
  | c :: s => (c :: s) :: rests s

/-- What a piece may leave of the rests of a name, the longest of which comes first. -/
def leave (open_ : List (List Char)) : Piece → List (List Char)
  | .star =>
    match open_ with
    | [] => []
    | s :: _ => rests s
  | p =>
    open_.filterMap fun s => match s with
      | [] => none
      | c :: rest => if p.admits c then some rest else none

/-- Whether a list of pieces stands for a name. -/
def accepts (pieces : List Piece) (name : List Char) : Bool :=
  (pieces.foldl leave [name]).any List.isEmpty

/-- Whether a pattern stands for a name. -/
def isMatch (pattern name : String) : Bool := accepts (ofText pattern) name.toList

end CommitStatus.Glob
