import CommitStatus.Yaml.Tag
import CommitStatus.Yaml.Token

/-!
# Nodes of YAML

The tokens of a text make up at most one document: a tree of scalars, sequences and mappings. A node with an anchor is
held apart under its name and referred to wherever it stands, also within itself.

* `Document.ofTokens` reads the document of a text.
-/

namespace CommitStatus.Yaml

/-- A node of a document. A scalar is held by its code points until its tag is applied. -/
inductive Node
  | scalar (tag : Tag) (codes : List Nat)
  | sequence (tag : Tag) (items : List Node)
  | mapping (tag : Tag) (entries : List (Node × Node))
  | reference (anchor : String)
  deriving Repr, Inhabited

/-- A document: its root and the nodes with anchors. -/
structure Document where
  root : Node
  anchors : List (String × Node)
  deriving Repr

/-- The node that a reference refers to; any other node is itself. -/
def Document.resolve (d : Document) : Node → Node
  | .reference anchor => (d.anchors.lookup anchor).getD (.scalar .null [])
  | node => node

namespace Node

/-- The node that stands where nothing is written. -/
def nothing : Node := .scalar .null []

/-- What is left to read, with the anchors that are given so far and the nodes of those that are complete. -/
structure Rest where
  tokens : List Token
  names : List String
  anchors : List (String × Node)

/-- What does not change within a document: the meanings of the handles of tags, and the failure in which the tokens
end, if they do not end with the text. -/
structure Setting where
  handles : List (String × String)
  ending : Option Failure

/-- Go on behind some tokens. -/
def Rest.at (r : Rest) (tokens : List Token) : Rest := { r with tokens }

/-- The failure of a token that cannot come next. -/
def unexpected (s : Setting) : List Token → Failure
  | [] => s.ending.getD .malformed
  | _ => .malformed

/-- The name of a tag. -/
def tagName (s : Setting) (handle : Option String) (suffix : String) : Except Failure String :=
  match handle with
  | none => .ok suffix
  | some h =>
    match s.handles.lookup h with
    | some meaning => .ok (meaning ++ suffix)
    | none => .error .malformed

/-- The anchor and tag in front of a node, in either order. -/
def properties (s : Setting) : List Token → Except Failure (Option String × Option String × List Token)
  | .anchor name :: .tag h t :: rest => do return (some name, some (← tagName s h t), rest)
  | .tag h t :: .anchor name :: rest => do return (some name, some (← tagName s h t), rest)
  | .anchor name :: rest => .ok (some name, none, rest)
  | .tag h t :: rest => do return (none, some (← tagName s h t), rest)
  | tokens => .ok (none, none, tokens)

/-- The tag of a node that has a name for it or not; the mark alone is no name. -/
def tagOf (usual : Tag) : Option String → Tag
  | none => usual
  | some name => if name == "!" then usual else Tag.ofName name

/-- The tag of a scalar. -/
def scalarTag (codes : List Nat) (isPlain : Bool) : Option String → Tag
  | none => if isPlain then Tag.ofPlain codes else .text
  | some name => if name == "!" then Tag.ofPlain codes else Tag.ofName name

/-- Nothing behind an anchor or tag; without these something has to come next. -/
def empty (s : Setting) (tag : Option String) (anchored : Bool) (r : Rest) : Except Failure (Node × Rest) :=
  if anchored || tag.isSome then .ok (.scalar (scalarTag [] true tag) [], r) else .error (unexpected s r.tokens)

/-- The tokens behind the comma between two items; before the first there is none. -/
def afterComma (s : Setting) (first : Bool) (tokens : List Token) : Except Failure (List Token) :=
  if first then .ok tokens
  else match tokens with
    | .flowEntry :: rest => .ok rest
    | tokens => .error (unexpected s tokens)

mutual

/-- A node. Blocks are read only where they are allowed, and the entries of a sequence without a start only as the
value or key of a mapping in a block. -/
def read (s : Setting) (block bare : Bool) : Nat → Rest → Except Failure (Node × Rest)
  | 0, _ => .error .malformed
  | fuel + 1, r =>
    match r.tokens with
    | .alias name :: rest => if r.names.contains name then .ok (.reference name, r.at rest) else .error .malformed
    | tokens => do
      let (anchor, tag, tokens) ← properties s tokens
      match anchor with
      | none => content s block bare tag false fuel (r.at tokens)
      | some name =>
        if r.names.contains name then throw .malformed
        let (node, r) ← content s block bare tag true fuel { r with tokens, names := name :: r.names }
        return (.reference name, { r with anchors := (name, node) :: r.anchors })

/-- A node behind its anchor and tag; with one of these, nothing may follow. -/
def content (s : Setting) (block bare : Bool) (tag : Option String) (anchored : Bool) :
    Nat → Rest → Except Failure (Node × Rest)
  | 0, _ => .error .malformed
  | fuel + 1, r =>
    match r.tokens with
    | .scalar codes isPlain :: rest => .ok (.scalar (scalarTag codes isPlain tag) codes, r.at rest)
    | .flowSequenceStart :: rest => do
      let (items, r) ← flowItems s true [] fuel (r.at rest)
      return (.sequence (tagOf .sequence tag) items, r)
    | .flowMappingStart :: rest => do
      let (entries, r) ← flowEntries s true [] fuel (r.at rest)
      return (.mapping (tagOf .mapping tag) entries, r)
    | .blockEntry :: _ =>
      if bare then do
        let (items, r) ← bareItems s [] fuel r
        return (.sequence (tagOf .sequence tag) items, r)
      else empty s tag anchored r
    | .blockSequenceStart :: rest =>
      if block then do
        let (items, r) ← blockItems s [] fuel (r.at rest)
        return (.sequence (tagOf .sequence tag) items, r)
      else empty s tag anchored r
    | .blockMappingStart :: rest =>
      if block then do
        let (entries, r) ← blockEntries s [] fuel (r.at rest)
        return (.mapping (tagOf .mapping tag) entries, r)
      else empty s tag anchored r
    | _ => empty s tag anchored r

/-- The entries of a sequence in a block, the items so far in reverse order. -/
def blockItems (s : Setting) (acc : List Node) : Nat → Rest → Except Failure (List Node × Rest)
  | 0, _ => .error .malformed
  | fuel + 1, r =>
    match r.tokens with
    | .blockEnd :: rest => .ok (acc.reverse, r.at rest)
    | .blockEntry :: .blockEntry :: rest => blockItems s (nothing :: acc) fuel (r.at (.blockEntry :: rest))
    | .blockEntry :: .blockEnd :: rest => blockItems s (nothing :: acc) fuel (r.at (.blockEnd :: rest))
    | .blockEntry :: rest => do
      let (node, r) ← read s true false fuel (r.at rest)
      blockItems s (node :: acc) fuel r
    | tokens => .error (unexpected s tokens)

/-- The entries of a sequence without a start, the items so far in reverse order. -/
def bareItems (s : Setting) (acc : List Node) : Nat → Rest → Except Failure (List Node × Rest)
  | 0, _ => .error .malformed
  | fuel + 1, r =>
    match r.tokens with
    | .blockEntry :: rest =>
      match rest with
      | .blockEntry :: _ | .key :: _ | .value :: _ | .blockEnd :: _ => bareItems s (nothing :: acc) fuel (r.at rest)
      | _ => do
        let (node, r) ← read s true false fuel (r.at rest)
        bareItems s (node :: acc) fuel r
    | _ => .ok (acc.reverse, r)

/-- A key or value in a block behind its mark; it may be missing. -/
def blockPart (s : Setting) : Nat → Rest → Except Failure (Node × Rest)
  | 0, _ => .error .malformed
  | fuel + 1, r =>
    match r.tokens with
    | .key :: _ | .value :: _ | .blockEnd :: _ => .ok (nothing, r)
    | _ => read s true true fuel r

/-- The entries of a mapping in a block, those so far in reverse order. -/
def blockEntries (s : Setting) (acc : List (Node × Node)) : Nat → Rest → Except Failure (List (Node × Node) × Rest)
  | 0, _ => .error .malformed
  | fuel + 1, r =>
    match r.tokens with
    | .blockEnd :: rest => .ok (acc.reverse, r.at rest)
    | .key :: rest => do
      let (key, r) ← blockPart s fuel (r.at rest)
      match r.tokens with
      | .value :: rest => do
        let (value, r) ← blockPart s fuel (r.at rest)
        blockEntries s ((key, value) :: acc) fuel r
      | _ => blockEntries s ((key, nothing) :: acc) fuel r
    | tokens => .error (unexpected s tokens)

/-- A key or value in a flow collection behind its mark; it may be missing. -/
def flowPart (s : Setting) : Nat → Rest → Except Failure (Node × Rest)
  | 0, _ => .error .malformed
  | fuel + 1, r =>
    match r.tokens with
    | .value :: _ | .flowEntry :: _ | .flowSequenceEnd :: _ | .flowMappingEnd :: _ => .ok (nothing, r)
    | _ => read s false false fuel r

/-- A key behind its mark with its value, if there is one. -/
def flowPair (s : Setting) : Nat → Rest → Except Failure ((Node × Node) × Rest)
  | 0, _ => .error .malformed
  | fuel + 1, r => do
    let (key, r) ← flowPart s fuel r
    match r.tokens with
    | .value :: rest => do
      let (value, r) ← flowPart s fuel (r.at rest)
      return ((key, value), r)
    | _ => return ((key, nothing), r)

/-- The items of a flow sequence, those so far in reverse order. A pair of key and value is a mapping of its own. -/
def flowItems (s : Setting) (first : Bool) (acc : List Node) : Nat → Rest → Except Failure (List Node × Rest)
  | 0, _ => .error .malformed
  | fuel + 1, r =>
    match r.tokens with
    | .flowSequenceEnd :: rest => .ok (acc.reverse, r.at rest)
    | tokens =>
      match afterComma s first tokens with
      | .error e => .error e
      | .ok (.flowSequenceEnd :: rest) => .ok (acc.reverse, r.at rest)
      | .ok (.key :: rest) => do
        let (pair, r) ← flowPair s fuel (r.at rest)
        flowItems s false (.mapping .mapping [pair] :: acc) fuel r
      | .ok tokens => do
        let (node, r) ← read s false false fuel (r.at tokens)
        flowItems s false (node :: acc) fuel r

/-- The entries of a flow mapping, those so far in reverse order. A node alone is a key. -/
def flowEntries (s : Setting) (first : Bool) (acc : List (Node × Node)) :
    Nat → Rest → Except Failure (List (Node × Node) × Rest)
  | 0, _ => .error .malformed
  | fuel + 1, r =>
    match r.tokens with
    | .flowMappingEnd :: rest => .ok (acc.reverse, r.at rest)
    | tokens =>
      match afterComma s first tokens with
      | .error e => .error e
      | .ok (.flowMappingEnd :: rest) => .ok (acc.reverse, r.at rest)
      | .ok (.key :: rest) => do
        let (pair, r) ← flowPair s fuel (r.at rest)
        flowEntries s false (pair :: acc) fuel r
      | .ok tokens => do
        let (node, r) ← read s false false fuel (r.at tokens)
        flowEntries s false ((node, nothing) :: acc) fuel r

end

/-- The meanings that handles have unless a directive gives them another. -/
def usualHandles : List (String × String) := [("!", "!"), ("!!", Tag.stem)]

/-- The directives in front of a document: the meanings of handles, and what follows. -/
def directives : Bool → List (String × String) → List Token → Except Failure (List (String × String) × List Token)
  | versioned, handles, .directive (.version major) :: rest =>
    if versioned || major != 1 then .error .malformed else directives true handles rest
  | versioned, handles, .directive (.handle name meaning) :: rest =>
    if (handles.lookup name).isSome then .error .malformed else directives versioned ((name, meaning) :: handles) rest
  | versioned, handles, .directive .other :: rest => directives versioned handles rest
  | _, handles, tokens => .ok (handles, tokens)

/-- Drop the marks at the end of a document. -/
def dropEnds (tokens : List Token) : List Token := tokens.dropWhile (· == .documentEnd)

/-- A document whose directives are read. Nothing may be in it. -/
def documentFrom (s : Setting) (tokens : List Token) : Except Failure (Document × List Token) :=
  match tokens with
  | .directive _ :: _ | .documentStart :: _ | .documentEnd :: _ | [] => .ok (⟨nothing, []⟩, tokens)
  | _ => do
    let (root, r) ← read s true false (3 * tokens.length + 3) ⟨tokens, [], []⟩
    return (⟨root, r.anchors⟩, r.tokens)

/-- The first document, if there is one. It has a mark at its start, unless it has neither directives nor a mark. -/
def firstDocument (ending : Option Failure) (tokens : List Token) : Except Failure (Option Document × List Token) :=
  match tokens with
  | [] => .ok (none, [])
  | .directive _ :: _ | .documentStart :: _ => do
    let (handles, rest) ← directives false [] tokens
    match rest with
    | .documentStart :: rest => do
      let (d, rest) ← documentFrom ⟨handles ++ usualHandles, ending⟩ rest
      return (some d, rest)
    | rest => throw (unexpected ⟨[], ending⟩ rest)
  | _ => do
    let s : Setting := ⟨usualHandles, ending⟩
    let (root, r) ← read s true false (3 * tokens.length + 3) ⟨tokens, [], []⟩
    return (some ⟨root, r.anchors⟩, r.tokens)

end Node

/-- The document of a text, which has at most one, from its tokens and the failure in which they end. -/
def Document.ofTokens (tokens : List Token) (ending : Option Failure) : Except Failure (Option Document) := do
  let (d, rest) ← Node.firstDocument ending tokens
  if !(Node.dropEnds rest).isEmpty then throw .malformed
  match ending with
  | some e => throw e
  | none => return d

end CommitStatus.Yaml
