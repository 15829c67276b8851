import CommitStatus.Yaml.Node
import CommitStatus.Yaml.Scalar

/-!
# Data of a YAML document

A document stands for plain data. The entries of a mapping that is merged into another come before its own, and a later
entry counts more than an earlier one. Scalars are read level by level, the outermost first; the first of them that
cannot be read is reported. The mark of a default value is a text as a key, and wherever that key is referred to later
on. Data is built to a given depth, as a node may lie within itself.

* `Yaml.read depth s` gives the data of a text.
-/

namespace CommitStatus.Yaml

namespace Node

/-- The tag of a node. -/
def tag : Node → Tag
  | .scalar tag _ => tag
  | .sequence tag _ => tag
  | .mapping tag _ => tag
  | .reference _ => .other

/-- A key as it is read: the mark of a default value is a text. -/
def asKey : Node → Node
  | .scalar .default codes => .scalar .text codes
  | .sequence .default items => .sequence .text items
  | .mapping .default entries => .mapping .text entries
  | n => n

/-- Whether nodes with a tag are made of other nodes. -/
def isCollection (tag : Tag) : Bool :=
  [Tag.sequence, Tag.mapping, Tag.set, Tag.orderedMapping, Tag.pairs].contains tag

mutual

/-- The number of nodes in a node. -/
def size : Node → Nat
  | .scalar .. => 1
  | .sequence _ items => sizeItems items + 1
  | .mapping _ entries => sizeEntries entries + 1
  | .reference _ => 1

/-- The number of nodes in items. -/
def sizeItems : List Node → Nat
  | [] => 0
  | n :: rest => n.size + sizeItems rest

/-- The number of nodes in entries. -/
def sizeEntries : List (Node × Node) → Nat
  | [] => 0
  | (k, v) :: rest => k.size + v.size + sizeEntries rest

end

end Node

namespace Document

open Node (isCollection)

/-- The number of nodes in a document. -/
def size (d : Document) : Nat := d.root.size + (d.anchors.map (·.2.size)).foldl (· + ·) 0

/-- The entries of a node that is a mapping. -/
def entries? (d : Document) (n : Node) : Option (List (Node × Node)) :=
  match d.resolve n with
  | .mapping _ entries => some entries
  | _ => none

/-! ## Merging -/

/-- The entries of a mapping that are not merged from others. -/
def ownEntries (d : Document) (entries : List (Node × Node)) : List (Node × Node) :=
  entries.filterMap fun (k, v) => if (d.resolve k).tag = .merge then none else some (k.asKey, v)

/-- The values under the keys for merging. -/
def mergeValues (d : Document) (entries : List (Node × Node)) : List Node :=
  entries.filterMap fun (k, v) => if (d.resolve k).tag = .merge then some v else none

/-- The mappings that a value merges, the last one first; nothing when the value is no mapping or sequence of such. -/
def mergeSources? (d : Document) (v : Node) : Option (List Node) :=
  match d.resolve v with
  | .mapping .. => some [v]
  | .sequence _ items => if items.all fun n => (d.entries? n).isSome then some items.reverse else none
  | _ => none

/-- The anchor of a reference. -/
def anchor? : Node → Option String
  | .reference name => some name
  | _ => none

/-- The entries of a mapping behind those that it merges. A mapping that is being merged already gives its own entries
only. -/
def merged (d : Document) : Nat → List String → List (Node × Node) → Option (List (Node × Node))
  | 0, _, entries => some (d.ownEntries entries)
  | fuel + 1, opened, entries => do
    let sources ← (d.mergeValues entries).mapM d.mergeSources?
    let parts ← sources.flatten.mapM fun n =>
      let inner := (d.entries? n).getD []
      match anchor? n with
      | none => merged d fuel opened inner
      | some name => if opened.contains name then some (d.ownEntries inner) else merged d fuel (name :: opened) inner
    return parts.flatten ++ d.ownEntries entries

/-- The entries of a mapping, all merges done. -/
def allEntries (d : Document) (n : Node) (entries : List (Node × Node)) : Except Failure (List (Node × Node)) :=
  if (d.mergeValues entries).isEmpty then .ok (d.ownEntries entries)
  else match d.merged d.size (anchor? n).toList entries with
    | some entries => .ok entries
    | none => .error .malformed

/-! ## Scalars -/

/-- The text of a scalar, or of the default value of a mapping, or of that value's default value, and so on. A mark of a
default value is always one here, also when it became a text as the key of another mapping. -/
def defaultText? (d : Document) : Nat → Node → Option (List Nat)
  | 0, _ => none
  | fuel + 1, n =>
    match d.resolve n with
    | .scalar _ codes => some codes
    | .mapping _ entries =>
      match entries.find? fun (k, _) => (d.resolve k).tag = .default with
      | some (_, v) => defaultText? d fuel v
      | none => none
    | _ => none

/-- The text of a scalar; that of a mapping is the text of its default value. -/
def scalarText? (d : Document) (n : Node) : Option (List Nat) :=
  match d.resolve n with
  | .scalar _ codes => some codes
  | .mapping .. => d.defaultText? d.size n
  | _ => none

/-- The value of a node with the tag of a scalar. -/
def scalar (d : Document) (n : Node) : Except Failure Datum :=
  let node := d.resolve n
  match d.scalarText? n with
  | none => .error .malformed
  | some codes =>
    match node, node.tag with
    | .mapping .., .timestamp => .error .mappingAsMoment
    | _, tag => Scalar.value tag codes

/-- The value of a node as a text. -/
def text (d : Document) (n : Node) : Except Failure Datum :=
  match d.scalarText? n with
  | none => .error .malformed
  | some codes => Scalar.value .text codes

/-- The value of a node that is not made of others. The mark of a default value is a text if it was a key; the anchors
of keys are given. -/
def leaf (d : Document) (keys : List String) (n : Node) : Except Failure Datum :=
  if (d.resolve n).tag = .default ∧ (anchor? n).any keys.contains then d.text n else d.scalar n

/-! ## The first failure -/

/-- A part of a collection: a node and whether it is a key, or the failure of the collection's shape there. -/
abbrev Part := Except Failure (Node × Bool)

/-- The parts of a mapping. -/
def partsOfEntries (entries : List (Node × Node)) : List Part :=
  entries.flatMap fun (k, v) => [.ok (k, true), .ok (v, false)]

/-- The parts of a collection in the order in which they are read. -/
def parts (d : Document) (n : Node) : List Part :=
  match d.resolve n with
  | .sequence .sequence items => items.map fun i => .ok (i, false)
  | .sequence tag items =>
    if tag = .orderedMapping || tag = .pairs then
      items.flatMap fun i => match d.entries? i with
        | some [(k, v)] => [.ok (k, false), .ok (v, false)]
        | _ => [.error .malformed]
    else [.error .malformed]
  | .mapping tag entries =>
    if tag = .mapping || tag = .set then
      match d.allEntries n entries with
      | .ok entries => partsOfEntries entries
      | .error e => [.error e]
    else [.error .malformed]
  | _ => [.error .malformed]

/-- The anchors of the keys among parts. -/
def keyAnchors (parts : List Part) : List String :=
  parts.filterMap fun
    | .ok (n, true) => anchor? n
    | _ => none

/-- Read the parts of a collection: the collections among them, in reverse order, and the anchors that were seen.
Scalars are read at once; a collection is no key. The anchors of all keys so far are given. -/
def readParts (d : Document) (keys : List String) :
    List Part → List Node → List String → Except Failure (List Node × List String)
  | [], found, seen => .ok (found, seen)
  | .error e :: _, _, _ => .error e
  | .ok (n, isKey) :: rest, found, seen =>
    let tag := (d.resolve n).tag
    if isCollection tag then
      if isKey then .error .malformed
      else match anchor? n with
        | none => readParts d keys rest (n :: found) seen
        | some name =>
          if seen.contains name then readParts d keys rest found seen
          else readParts d keys rest (n :: found) (name :: seen)
    else match d.leaf keys n with
      | .error e => .error e
      | .ok _ => readParts d keys rest found seen

/-- Read collections and those within them, level by level. The keys of a collection are keys before any part of it is
read. -/
def readLevels (d : Document) : Nat → List String → List Node → List String → Except Failure Unit
  | 0, _, _, _ => .ok ()
  | _, _, [], _ => .ok ()
  | fuel + 1, keys, n :: queue, seen =>
    let parts := d.parts n
    let keys := keyAnchors parts ++ keys
    match d.readParts keys parts [] seen with
    | .error e => .error e
    | .ok (found, seen) => readLevels d fuel keys (queue ++ found.reverse) seen

/-- The first failure of a document. -/
def check (d : Document) : Except Failure Unit := do
  let (found, seen) ← d.readParts [] [.ok (d.root, false)] [] []
  d.readLevels (d.size * d.size + 1) [] found seen

/-! ## Building data -/

/-- The entries of a mapping as data. -/
def buildEntries (d : Document) (make : Node → Datum) (n : Node) (entries : List (Node × Node)) : Datum.Entries :=
  Datum.ofEntries ((((d.allEntries n entries).toOption).getD []).map fun (k, v) => (make k, make v))

/-- The data of a node that is not made of others, in a document without failures: each mark of a default value that can
be read was a key. -/
def leafData (d : Document) (n : Node) : Datum := ((d.leaf (d.anchors.map (·.1)) n).toOption).getD .null

/-- The data of a node, with nothing in the collections below a depth. -/
def build (d : Document) : Nat → Node → Datum
  | 0, n =>
    match d.resolve n, (d.resolve n).tag with
    | .sequence .., _ => .sequence []
    | .mapping .., .mapping => .mapping []
    | .mapping .., .set => .set []
    | _, _ => d.leafData n
  | depth + 1, n =>
    let node := d.resolve n
    match node, node.tag with
    | .sequence _ items, .sequence => .sequence (items.map (build d depth))
    | .sequence _ items, .orderedMapping | .sequence _ items, .pairs =>
      .sequence (items.map fun i =>
        .sequence (((d.entries? i).getD []).flatMap fun (k, v) => [build d depth k, build d depth v]))
    | .mapping _ entries, .mapping => .mapping (buildEntries d (build d depth) n entries)
    | .mapping _ entries, .set => .set ((buildEntries d (build d depth) n entries).map (·.1))
    | _, _ => d.leafData n

end Document

/-- The data of a text; a text without a document stands for null. -/
def read (depth : Nat) (s : List Char) : Except Failure Datum := do
  let (tokens, ending) := Token.scan s
  match ← Document.ofTokens tokens ending with
  | none => return .null
  | some d =>
    d.check
    return d.build depth d.root

end CommitStatus.Yaml
