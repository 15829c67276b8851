import CommitStatus.Text.CodePoint
import CommitStatus.Text.Utf8
import CommitStatus.Yaml.Style

/-!
# Tokens of YAML

A text is cut into tokens. Indents open and close blocks, which have tokens of their own. Whether a scalar or a
collection is the key of a mapping shows only at the colon behind it; so the place before it is kept pending, and the
key's mark, with the start of the mapping if need be, is put there when the colon comes. A pending key lasts to the end
of its line and for at most 1024 characters.

* `Token.scan` gives the tokens of a text, up to the place where a rule is broken.
-/

namespace CommitStatus.Yaml

/-- A directive in front of a document. -/
inductive Directive
  /-- The major version of the format. -/
  | version (major : Nat)
  /-- The meaning of a tag's handle. -/
  | handle (name : String) (meaning : String)
  | other
  deriving DecidableEq, Repr

/-- A token. -/
inductive Token
  | directive (d : Directive)
  | documentStart
  | documentEnd
  | blockSequenceStart
  | blockMappingStart
  | blockEnd
  | flowSequenceStart
  | flowSequenceEnd
  | flowMappingStart
  | flowMappingEnd
  | blockEntry
  | flowEntry
  | key
  | value
  | alias (name : String)
  | anchor (name : String)
  | tag (handle : Option String) (suffix : String)
  | scalar (codes : List Nat) (isPlain : Bool)
  deriving DecidableEq, Repr

/-- A place that may turn out to be before a key: the number of tokens before it, whether there has to be a key, and
where the text stands. -/
structure PendingKey where
  before : Nat
  required : Bool
  index : Nat
  line : Nat
  column : Nat

/-- What is known while a text is cut. Tokens are held in reverse order; there is a pending key for each level of flow
collections, the innermost first, and one for the block around them. -/
structure Lexer where
  cursor : Cursor
  tokens : List Token
  count : Nat
  indent : Int
  indents : List Int
  keyAllowed : Bool
  pending : Option PendingKey
  outer : List (Option PendingKey)

namespace Lexer

/-- Before the first token. -/
def start (s : List Char) : Lexer := ⟨.start s, [], 0, -1, [], true, none, []⟩

/-- Whether a flow collection is open. -/
def inFlow (l : Lexer) : Bool := !l.outer.isEmpty

/-- Add a token. -/
def push (t : Token) (l : Lexer) : Lexer := { l with tokens := t :: l.tokens, count := l.count + 1 }

/-- Move to another place. -/
def goto (c : Cursor) (l : Lexer) : Lexer := { l with cursor := c }

/-- Move over `n` characters, which are a token. -/
def mark (n : Nat) (t : Token) (l : Lexer) : Lexer := (l.goto (l.cursor.eat n)).push t

/-- Say whether a key may come next. -/
def allowKey (b : Bool) (l : Lexer) : Lexer := { l with keyAllowed := b }

/-! ### Pending keys -/

/-- Whether a pending key is out of reach. -/
def isStale (c : Cursor) (k : PendingKey) : Bool := k.line != c.line || 1024 < c.index - k.index

/-- Give up a pending key; one that has to be there cannot be given up. -/
def giveUp : Option PendingKey → Except Failure (Option PendingKey)
  | some k => if k.required then .error .malformed else .ok none
  | none => .ok none

/-- Give up a pending key that is out of reach. -/
def giveUpStale (c : Cursor) : Option PendingKey → Except Failure (Option PendingKey)
  | some k => if isStale c k then giveUp (some k) else .ok (some k)
  | none => .ok none

/-- Give up all pending keys that are out of reach. -/
def dropStale (l : Lexer) : Except Failure Lexer := do
  let pending ← giveUpStale l.cursor l.pending
  let outer ← l.outer.mapM (giveUpStale l.cursor)
  return { l with pending, outer }

/-- Give up the pending key of this level. -/
def dropKey (l : Lexer) : Except Failure Lexer := do
  return { l with pending := ← giveUp l.pending }

/-- Keep this place pending, if a key may stand here. -/
def saveKey (l : Lexer) : Except Failure Lexer :=
  if l.keyAllowed then do
    let l ← l.dropKey
    let c := l.cursor
    return { l with pending := some ⟨l.count, !l.inFlow && l.indent == c.column, c.index, c.line, c.column⟩ }
  else .ok l

/-! ### Indents -/

/-- Close the blocks that are indented further than a column. -/
def unwindFrom : Int → Int → List Int → List Token → Nat → Int × List Int × List Token × Nat
  | _, indent, [], tokens, count => (indent, [], tokens, count)
  | column, indent, i :: indents, tokens, count =>
    if column < indent then unwindFrom column i indents (.blockEnd :: tokens) (count + 1)
    else (indent, i :: indents, tokens, count)

/-- Close the blocks that are indented further than a column, unless a flow collection is open. -/
def unwind (column : Int) (l : Lexer) : Lexer :=
  if l.inFlow then l
  else
    let (indent, indents, tokens, count) := unwindFrom column l.indent l.indents l.tokens l.count
    { l with indent, indents, tokens, count }

/-- Open a block at a column, if that is indented further than the block around it. -/
def openBlock (column : Nat) (t : Token) (l : Lexer) : Lexer :=
  if l.indent < column then { l.push t with indent := column, indents := l.indent :: l.indents } else l

end Lexer

/-! ## Tags, anchors and directives -/

namespace Token

/-- A character of a name. -/
def isNameChar (c : Char) : Bool := c.isAlphanum || c == '-' || c == '_'

/-- The name of an anchor behind its mark, with a gap, the end of a line or a mark behind it. -/
def anchorName? (c : Cursor) : Option (String × Cursor) :=
  let (name, c) := c.span isNameChar
  if name.isEmpty then none
  else if c.blankAt 0 || c.sees ("?:,]\x7d%@`".toList.contains ·) then some (String.ofList name, c)
  else none

/-- A character of the text of a tag, escapes apart. -/
def isTagChar (c : Char) : Bool := c.isAlphanum || "-;/?:@&=+$,_.!~*'()[]".toList.contains c

/-- Escaped octets that come next. -/
def escapedOctets? : Nat → Cursor → List UInt8 → Option (List UInt8 × Cursor)
  | 0, c, acc => some (acc.reverse, c)
  | fuel + 1, c, acc =>
    match c.rest with
    | '%' :: a :: b :: _ =>
      match Style.hexNumber? [a, b] with
      | some n => escapedOctets? fuel (c.eat 3) (UInt8.ofNat n :: acc)
      | none => none
    | '%' :: _ => none
    | _ => some (acc.reverse, c)

/-- The text of a tag; what was read is held in reverse order. -/
def tagText : Nat → Cursor → List Char → Option (List Char × Cursor)
  | 0, c, acc => some (acc.reverse, c)
  | fuel + 1, c, acc =>
    let (s, c) := c.span isTagChar
    let acc := s.reverse ++ acc
    if c.sees (· == '%') then
      match escapedOctets? (c.rest.length + 1) c [] with
      | none => none
      | some (octets, c) =>
        match Text.Utf8.decode? octets with
        | none => none
        | some s => tagText fuel c (s.reverse ++ acc)
    else some (acc.reverse, c)

/-- The text of a tag, which is not empty. -/
def tagText? (c : Cursor) : Option (String × Cursor) :=
  match tagText (c.rest.length + 1) c [] with
  | some (s, rest) => if rest.index = c.index then none else some (String.ofList s, rest)
  | none => none

/-- The handle of a tag: one mark, or a name between two. -/
def handle? (c : Cursor) : Option (String × Cursor) :=
  match c.rest with
  | '!' :: ' ' :: _ => some ("!", c.next)
  | '!' :: _ =>
    let (name, behind) := c.next.span isNameChar
    if behind.sees (· == '!') then some (String.ofList ('!' :: name ++ ['!']), behind.next) else none
  | _ => none

/-- Whether a space or the end of a line or the text comes next. -/
def atSpace (c : Cursor) : Bool := c.atLineEnd || c.sees (· == ' ')

/-- A tag, from its mark on. -/
def tag? (c : Cursor) : Option (Token × Cursor) := do
  let word := c.rest.tail.takeWhile fun ch => !(ch == ' ' || isBreak ch)
  let (handle, suffix, c) ← do
    if word.head? == some '<' then
      let (suffix, c) ← tagText? (c.eat 2)
      if c.sees (· == '>') then some (none, suffix, c.next) else none
    else if c.blankAt 1 then some (none, "!", c.next)
    else
      let (handle, c) ← if word.contains '!' then handle? c else some ("!", c.next)
      let (suffix, c) ← tagText? c
      some (some handle, suffix, c)
  if atSpace c then some (.tag handle suffix, c) else none

/-- The number of a version. -/
def versionNumber? (c : Cursor) : Except Failure (Nat × Cursor) :=
  let (digits, c) := c.span Char.isDigit
  if digits.isEmpty then .error .malformed
  else match Decimal.Integer.read 10 digits with
    | .ok n => .ok (n.toNat, c)
    | .error e => .error (.integer e)

/-- What is there, or the failure of a broken rule. -/
def orMalformed {α : Type} : Option α → Except Failure α
  | some a => .ok a
  | none => .error .malformed

/-- The value of a directive. -/
def directiveValue (name : String) (c : Cursor) : Except Failure (Directive × Cursor) :=
  if name == "YAML" then do
    let (major, c) ← versionNumber? (c.skip (· == ' '))
    if !c.sees (· == '.') then throw .malformed
    let (_, c) ← versionNumber? c.next
    if atSpace c then return (.version major, c) else throw .malformed
  else if name == "TAG" then do
    let (handle, c) ← orMalformed (handle? (c.skip (· == ' ')))
    if !c.sees (· == ' ') then throw .malformed
    let (meaning, c) ← orMalformed (tagText? (c.skip (· == ' ')))
    if atSpace c then return (.handle handle meaning, c) else throw .malformed
  else return (.other, c.skipLine)

/-- A directive, from its mark on, with the rest of its line. -/
def directive? (c : Cursor) : Except Failure (Token × Cursor) := do
  let (name, c) := c.next.span isNameChar
  if name.isEmpty || !atSpace c then throw .malformed
  let (d, c) ← directiveValue (String.ofList name) c
  let c ← orMalformed (Style.emptyLine? c)
  return (.directive d, c)

/-! ## Cutting a text -/

/-- Move over spaces, comments and line ends. At the end of a line outside flow collections a key becomes possible. -/
def skipToToken : Nat → Lexer → Lexer
  | 0, l => l
  | fuel + 1, l =>
    let c := l.cursor.skip (· == ' ')
    let c := if c.sees (· == '#') then c.skipLine else c
    match c.lineBreak? with
    | none => l.goto c
    | some (_, c) => skipToToken fuel ((l.goto c).allowKey (l.keyAllowed || !l.inFlow))

/-- A mark that opens a flow collection. -/
def openFlow (t : Token) (l : Lexer) : Except Failure Lexer := do
  let l ← l.saveKey
  return { l.mark 1 t with outer := l.pending :: l.outer, pending := none, keyAllowed := true }

/-- A mark that closes a flow collection. -/
def closeFlow (t : Token) (l : Lexer) : Except Failure Lexer :=
  match l.outer with
  | [] => .error .malformed
  | pending :: outer => do
    let l ← l.dropKey
    return { l.mark 1 t with outer, pending, keyAllowed := false }

/-- A mark before an entry or key of a block, which may open the block. -/
def blockMark (opening t : Token) (l : Lexer) : Except Failure Lexer := do
  if !l.inFlow && !l.keyAllowed then throw .malformed
  let l := if l.inFlow then l else l.openBlock l.cursor.column opening
  let l ← l.dropKey
  return l.mark 1 t

/-- The mark before a value. A pending key gets its own mark, and opens a block unless one is open at its column. -/
def valueMark (l : Lexer) : Except Failure Lexer :=
  match l.pending with
  | none => do return (← blockMark .blockMappingStart .value l).allowKey (!l.inFlow)
  | some k =>
    let newer := l.tokens.take (l.count - k.before)
    let older := l.tokens.drop (l.count - k.before)
    let l := { l with pending := none, keyAllowed := false }
    let l :=
      if !l.inFlow && l.indent < (k.column : Int) then
        { l with
          tokens := newer ++ Token.key :: Token.blockMappingStart :: older, count := l.count + 2,
          indent := k.column, indents := l.indent :: l.indents }
      else { l with tokens := newer ++ Token.key :: older, count := l.count + 1 }
    .ok (l.mark 1 .value)

/-- A mark of a document or a directive: it closes all blocks. -/
def betweenDocuments (l : Lexer) : Except Failure Lexer := do
  return (← (l.unwind (-1)).dropKey).allowKey false

/-- A token that may be a key, read by a reader of its text. -/
def keyable (read : Lexer → Except Failure (Token × Cursor)) (l : Lexer) : Except Failure Lexer := do
  let l ← l.saveKey
  let (t, c) ← read l
  return ((l.goto c).push t).allowKey false

/-- An alias or anchor. -/
def named (make : String → Token) : Lexer → Except Failure Lexer :=
  keyable fun l => do
    let (name, c) ← orMalformed (anchorName? l.cursor.next)
    return (make name, c)

/-- A scalar between marks. -/
def quotedScalar (mark : Char) : Lexer → Except Failure Lexer :=
  keyable fun l => do
    let (codes, c) ← Style.quoted mark l.cursor
    return (.scalar codes false, c)

/-- A block scalar. -/
def blockScalar (folding : Bool) (l : Lexer) : Except Failure Lexer := do
  let l ← (l.allowKey true).dropKey
  let (text, c) ← Style.block folding l.indent l.cursor
  return (l.goto c).push (.scalar (Text.codePoints text) false)

/-- A plain scalar. A key may come behind it when it ends with the end of a line. -/
def plainScalar (l : Lexer) : Except Failure Lexer := do
  let l ← l.saveKey
  let (text, crossed, c) := Style.plain l.inFlow (l.indent + 1) l.cursor
  return ((l.goto c).push (.scalar (Text.codePoints text) true)).allowKey crossed

/-- Whether a plain scalar may begin with a character that has others behind it. -/
def beginsPlain (flow : Bool) (ch : Char) (c : Cursor) : Bool :=
  if isGap ch || isBreak ch then false
  else if !"-?:,[]\x7b\x7d#&*!|>'\"%@`".toList.contains ch then true
  else !c.blankAt 1 && (ch == '-' || (!flow && (ch == '?' || ch == ':')))

/-- The next token, at a place where one begins. -/
def next (ch : Char) (l : Lexer) : Except Failure Lexer :=
  let c := l.cursor
  if ch == '%' && c.column == 0 then do
    let l ← betweenDocuments l
    let (t, c) ← directive? l.cursor
    return (l.goto c).push t
  else if c.column == 0 && c.atDocumentMark then do
    return (← betweenDocuments l).mark 3 (if ch == '-' then .documentStart else .documentEnd)
  else if ch == '[' then openFlow .flowSequenceStart l
  else if ch == '{' then openFlow .flowMappingStart l
  else if ch == ']' then closeFlow .flowSequenceEnd l
  else if ch == '}' then closeFlow .flowMappingEnd l
  else if ch == ',' then do return ((← l.dropKey).mark 1 .flowEntry).allowKey true
  else if ch == '-' && c.blankAt 1 then do
    return (← blockMark .blockSequenceStart .blockEntry l).allowKey true
  else if ch == '?' && (l.inFlow || c.blankAt 1) then do
    return (← blockMark .blockMappingStart .key l).allowKey (!l.inFlow)
  else if ch == ':' && (l.inFlow || c.blankAt 1) then valueMark l
  else if ch == '*' then named .alias l
  else if ch == '&' then named .anchor l
  else if ch == '!' then keyable (fun l => orMalformed (tag? l.cursor)) l
  else if ch == '|' && !l.inFlow then blockScalar false l
  else if ch == '>' && !l.inFlow then blockScalar true l
  else if ch == '\'' || ch == '"' then quotedScalar ch l
  else if beginsPlain l.inFlow ch c then plainScalar l
  else .error .malformed

/-- Go to the next token over at most so many lines, closing the blocks that end before it. -/
def approach (lines : Nat) (l : Lexer) : Except Failure Lexer := do
  let l ← (skipToToken lines l).dropStale
  return l.unwind l.cursor.column

/-- Cut the rest of a text: the last state, and the failure that ended it. The fuel exceeds the number of characters
that are left, as every token takes one or more. -/
def scanFrom : Nat → Lexer → Lexer × Option Failure
  | 0, l => (l, none)
  | fuel + 1, l =>
    match approach (fuel + 1) l with
    | .error e => (l, some e)
    | .ok l =>
      match l.cursor.rest with
      | [] =>
        match (l.unwind (-1)).dropKey with
        | .ok l => (l, none)
        | .error e => (l, some e)
      | ch :: _ =>
        match next ch l with
        | .error e => (l, some e)
        | .ok l => scanFrom fuel l

/-- A character that may stand in a text. -/
def isAllowed (c : Char) : Bool :=
  let n := c.toNat
  n == 0x9 || n == 0xA || n == 0xD || (0x20 ≤ n && n ≤ 0x7E) || n == 0x85 || (0xA0 ≤ n && n ≤ 0xFFFD) || 0x10000 ≤ n

/-- The tokens of a text, and the failure that ended it. -/
def scan (s : List Char) : List Token × Option Failure :=
  if !s.all isAllowed then ([], some .malformed)
  else
    let c := Cursor.start s
    let l := (Lexer.start s).goto (if c.sees (·.toNat == 0xFEFF) then c.next else c)
    let (l, failure) := scanFrom (s.length + 1) l
    (l.tokens.reverse, failure)

end Token

end CommitStatus.Yaml
