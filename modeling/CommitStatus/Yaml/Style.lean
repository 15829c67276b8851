import CommitStatus.Yaml.Cursor
import CommitStatus.Yaml.Failure

/-!
# The styles of scalars

A scalar is plain, between marks, or a block of lines. In plain scalars and between marks the end of a line stands for
a space, and an empty line for the end of a line; a block keeps its lines, or folds them in the same way.

* `plain` reads a plain scalar, `quoted` one between marks, `block` a block.
-/

namespace CommitStatus.Yaml.Style

/-- The text that stands for a line end and the line ends behind it. -/
def folded (first : Char) (more : List Char) : List Char :=
  if first != '\n' then first :: more else if more.isEmpty then [' '] else more

/-! ## Between marks -/

section Quoted

/-- The line ends that come next, with gaps around them. No mark of a document may begin a line. -/
def breaks? : Nat → Cursor → Option (List Char × Cursor)
  | 0, _ => none
  | fuel + 1, c =>
    if c.atDocumentMark then none
    else
      let c := c.skip isGap
      match c.lineBreak? with
      | some (b, c) => (breaks? fuel c).map fun (bs, c) => (b :: bs, c)
      | none => some ([], c)

/-- The character of an escape of one letter. -/
def letterEscape? (c : Char) : Option Nat :=
  match c with
  | '0' => some 0
  | 'a' => some 7
  | 'b' => some 8
  | 't' => some 9
  | '\t' => some 9
  | 'n' => some 10
  | 'v' => some 11
  | 'f' => some 12
  | 'r' => some 13
  | 'e' => some 27
  | ' ' => some 32
  | '"' => some 34
  | '\\' => some 92
  | '/' => some 47
  | 'N' => some 0x85
  | '_' => some 0xA0
  | 'L' => some 0x2028
  | 'P' => some 0x2029
  | _ => none

/-- The number of digits of an escape by code point. -/
def escapeWidth? : Char → Option Nat
  | 'x' => some 2
  | 'u' => some 4
  | 'U' => some 8
  | _ => none

/-- The value of a hexadecimal digit. -/
def hexValue? (c : Char) : Option Nat :=
  if c.isDigit then some (c.toNat - 48)
  else if 'a' ≤ c && c ≤ 'f' then some (c.toNat - 87)
  else if 'A' ≤ c && c ≤ 'F' then some (c.toNat - 55)
  else none

/-- The number that hexadecimal digits write. -/
def hexNumber? (s : List Char) : Option Nat :=
  s.foldl (fun n c => do return (← n) * 16 + (← hexValue? c)) (some 0)

/-- The code point that an escape gives, if there is one. -/
def codePoint (n : Nat) : Except Failure Nat :=
  if n < 0x110000 then .ok n else if n < 0x80000000 then .error .codePoint else .error .codePointWidth

/-- What an escape behind its backslash stands for. An escaped line end stands for nothing. -/
def escape (c : Cursor) : Except Failure (List Nat × Cursor) :=
  match c.rest with
  | [] => .error .malformed
  | ch :: rest =>
    match letterEscape? ch, escapeWidth? ch with
    | some n, _ => .ok ([n], c.next)
    | none, some width =>
      let digits := rest.take width
      match hexNumber? digits with
      | some n => if digits.length = width then (codePoint n).map fun n => ([n], c.eat (width + 1))
        else .error .malformed
      | none => .error .malformed
    | none, none =>
      match c.lineBreak? with
      | none => .error .malformed
      | some (_, c) =>
        match breaks? (c.rest.length + 1) c with
        | some (bs, c) => .ok (bs.map Char.toNat, c)
        | none => .error .malformed

/-- What gaps and line ends between the words of a scalar stand for. -/
def gap (c : Cursor) : Except Failure (List Char × Cursor) :=
  let (spaces, c) := c.span isGap
  match c.lineBreak? with
  | none => .ok (spaces, c)
  | some (b, c) =>
    match breaks? (c.rest.length + 1) c with
    | some (bs, c) => .ok (folded b bs, c)
    | none => .error .malformed

/-- The rest of a scalar up to its closing mark; what was read is held in reverse order. It is given by its code points,
as escapes may write halves of pairs. -/
def quotedFrom (mark : Char) : Nat → Cursor → List Nat → Except Failure (List Nat × Cursor)
  | 0, _, _ => .error .malformed
  | fuel + 1, c, acc =>
    match c.rest with
    | [] => .error .malformed
    | ch :: rest =>
      if ch == mark then
        if mark == '\'' && rest.head? == some '\'' then quotedFrom mark fuel (c.eat 2) (ch.toNat :: acc)
        else .ok (acc.reverse, c.next)
      else if mark == '"' && ch == '\\' then
        match escape c.next with
        | .error e => .error e
        | .ok (ns, c) => quotedFrom mark fuel c (ns.reverse ++ acc)
      else if isGap ch || isBreak ch then
        match gap c with
        | .error e => .error e
        | .ok (s, c) => quotedFrom mark fuel c ((s.map Char.toNat).reverse ++ acc)
      else quotedFrom mark fuel c.next (ch.toNat :: acc)

/-- A scalar between marks, from its opening mark on. -/
def quoted (mark : Char) (c : Cursor) : Except Failure (List Nat × Cursor) :=
  quotedFrom mark (c.rest.length + 1) c.next []

end Quoted

/-! ## Plain scalars -/

section Plain

/-- A character that parts the items of a flow collection. -/
def isFlowMark (c : Char) : Bool := c == ',' || c == '[' || c == ']' || c == '{' || c == '}'

/-- Whether a colon with this behind it is the mark of a value. -/
def endsKey (flow : Bool) (behind : List Char) : Bool :=
  behind.head?.all fun c => isGap c || isBreak c || (flow && isFlowMark c)

/-- The number of characters up to a gap, the end of a line or a mark. -/
def wordLength (flow : Bool) : List Char → Nat
  | [] => 0
  | c :: rest =>
    if isGap c || isBreak c then 0
    else if c == ':' && endsKey flow rest then 0
    else if flow && (isFlowMark c || c == '?') then 0
    else wordLength flow rest + 1

/-- The line ends behind the first one, with spaces around them; nothing when a document's mark begins a line. -/
def plainBreaks? : Nat → Cursor → Option (List Char) × Cursor
  | 0, c => (none, c)
  | fuel + 1, c =>
    if c.atDocumentMark then (none, c)
    else
      let c := c.skip (· == ' ')
      match c.lineBreak? with
      | none => (some [], c)
      | some (b, c) =>
        let (more, c) := plainBreaks? fuel c
        (more.map (b :: ·), c)

/-- What stands between two words: its text, unless the scalar ends with the word before, whether a line ends in it,
and the place behind it. -/
def between (c : Cursor) : Option (List Char) × Bool × Cursor :=
  let (spaces, c) := c.span (· == ' ')
  match c.lineBreak? with
  | none => (if spaces.isEmpty then none else some spaces, false, c)
  | some (b, c) =>
    let (more, c) := plainBreaks? (c.rest.length + 1) c
    (more.map (folded b), true, c)

/-- The words of a plain scalar behind some text, which is held in reverse order. A word has to stand at the indent or
behind it, and a comment ends the scalar. -/
def plainFrom (flow : Bool) (indent : Int) : Nat → Cursor → List Char → Bool → List Char → String × Bool × Cursor
  | 0, c, _, crossed, acc => (String.ofList acc.reverse, crossed, c)
  | fuel + 1, c, pending, crossed, acc =>
    let n := if c.sees (· == '#') then 0 else wordLength flow c.rest
    if n = 0 then (String.ofList acc.reverse, crossed, c)
    else
      let acc := (c.rest.take n).reverse ++ (pending.reverse ++ acc)
      match between (c.eat n) with
      | (none, crossed, c) => (String.ofList acc.reverse, crossed, c)
      | (some pending, crossed, c) =>
        if c.sees (· == '#') || (!flow && (c.column : Int) < indent) then (String.ofList acc.reverse, crossed, c)
        else plainFrom flow indent fuel c pending crossed acc

/-- A plain scalar: its text, whether a line ends behind its last word, and the place behind it. -/
def plain (flow : Bool) (indent : Int) (c : Cursor) : String × Bool × Cursor :=
  plainFrom flow indent (c.rest.length + 1) c [] false []

end Plain

/-! ## Blocks -/

section Block

/-- What becomes of the line ends at the end of a block. -/
inductive Chomping
  | strip
  | clip
  | keep
  deriving DecidableEq, Repr

/-- The sign for the line ends at the end. -/
def chomping? : Option Char → Option Chomping
  | some '+' => some .keep
  | some '-' => some .strip
  | _ => none

/-- The digit for the indent, which is not zero. -/
def increment? : Option Char → Option Nat
  | some c => if '1' ≤ c && c ≤ '9' then some (c.toNat - 48) else none
  | none => none

/-- The header of a block behind its mark: sign and digit in either order. -/
def header (c : Cursor) : Chomping × Option Nat × Cursor :=
  match chomping? c.peek? with
  | some chomping =>
    match increment? c.next.peek? with
    | some n => (chomping, some n, c.eat 2)
    | none => (chomping, none, c.next)
  | none =>
    match increment? c.peek? with
    | none => (.clip, none, c)
    | some n =>
      match chomping? c.next.peek? with
      | some chomping => (chomping, some n, c.eat 2)
      | none => (.clip, some n, c.next)

/-- The rest of a line that may hold spaces and a comment, with its end. -/
def emptyLine? (c : Cursor) : Option Cursor :=
  let c := c.skip (· == ' ')
  let c := if c.sees (· == '#') then c.skipLine else c
  if c.atLineEnd then some c.next else none

/-- The empty lines in front of a block, the widest column among their spaces and those of the first line, and the
place behind these. -/
def leading : Nat → Cursor → Nat → List Char → List Char × Nat × Cursor
  | 0, c, widest, acc => (acc.reverse, widest, c)
  | fuel + 1, c, widest, acc =>
    let c := c.skip (· == ' ')
    let widest := max widest c.column
    match c.lineBreak? with
    | none => (acc.reverse, widest, c)
    | some (b, c) => leading fuel c widest (b :: acc)

/-- Move over spaces up to a column. -/
def indentTo : Nat → Nat → Cursor → Cursor
  | 0, _, c => c
  | fuel + 1, indent, c => if c.column < indent && c.sees (· == ' ') then indentTo fuel indent c.next else c

/-- The empty lines that come next, with at most the block's indent in front of them. -/
def emptyLines (indent : Nat) : Nat → Cursor → List Char → List Char × Cursor
  | 0, c, acc => (acc.reverse, c)
  | fuel + 1, c, acc =>
    let c := indentTo indent indent c
    match c.lineBreak? with
    | none => (acc.reverse, c)
    | some (b, c) => emptyLines indent fuel c (b :: acc)

/-- The end of a block: its last line end and the empty lines behind it. -/
def chomped (chomping : Chomping) (last empty : List Char) : List Char :=
  match chomping with
  | .strip => []
  | .clip => last
  | .keep => last ++ empty

/-- The lines of a block from one of them on; the text before is held in reverse order, the empty lines before apart. -/
def blockLines (folding : Bool) (chomping : Chomping) (indent : Nat) :
    Nat → Cursor → List Char → List Char → List Char → String × Cursor
  | 0, c, last, empty, acc => (String.ofList (acc.reverse ++ chomped chomping last empty), c)
  | fuel + 1, c, last, empty, acc =>
    if c.column != indent || c.rest.isEmpty then (String.ofList (acc.reverse ++ chomped chomping last empty), c)
    else
      let words := !c.sees isGap
      let (line, c) := c.span fun ch => !isBreak ch
      let acc := line.reverse ++ (empty.reverse ++ acc)
      let (last, c) := match c.lineBreak? with
        | some (b, c) => ([b], c)
        | none => ([], c)
      let (empty, c) := emptyLines indent (c.rest.length + 1) c []
      let goesOn := c.column == indent && !c.rest.isEmpty
      let joint :=
        if !goesOn then []
        else if folding && last == ['\n'] && words && !c.sees isGap then (if empty.isEmpty then [' '] else [])
        else last
      blockLines folding chomping indent fuel c last empty (joint ++ acc)

/-- A block, from its mark on; `outer` is the indent of the lines around it. -/
def block (folding : Bool) (outer : Int) (c : Cursor) : Except Failure (String × Cursor) :=
  let (chomping, increment, c) := header c.next
  if !(c.atLineEnd || c.sees (· == ' ')) then .error .malformed
  else match emptyLine? c with
    | none => .error .malformed
    | some c =>
      let least := (max (outer + 1) 1).toNat
      let fuel := c.rest.length + 1
      match increment with
      | none =>
        let (empty, widest, c) := leading fuel c 0 []
        .ok (blockLines folding chomping (max least widest) fuel c [] empty [])
      | some n =>
        let indent := least + n - 1
        let (empty, c) := emptyLines indent fuel c []
        .ok (blockLines folding chomping indent fuel c [] empty [])

end Block

end CommitStatus.Yaml.Style
