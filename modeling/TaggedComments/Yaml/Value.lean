import TaggedComments.Text.Stream
import TaggedComments.Yaml.Cell
import TaggedComments.Yaml.Document
import TaggedComments.Yaml.Merge
import TaggedComments.Yaml.Scalar

/-!
# Values of documents

The nodes of a document stand for a value. Scalars are read where they are met; a collection is
only begun there, and filled when all that were begun before it have been. So of several faults the
one in the collection that was begun first counts.

- `Builder` fills the cells of collections, `Document.data` is the value of a document.
- `Yaml.readable` is the text of a file as far as it can be read.
- `Yaml.read` is the value of a file.
-/

namespace TaggedComments.Yaml

/-- What has been made of a document. -/
structure Building where
  /-- The nodes. -/
  graph : Graph
  /-- What stands for the nodes that have been met. -/
  parts : Array (Option Part)
  /-- The collections: one for every node, then the pairs. -/
  cells : Cells
  /-- The nodes of the collections that have been begun, in order. -/
  begun : Array Nat := #[]

/-- A step of making a value. -/
abbrev Builder := StateT Building (Except Fault)

namespace Builder

/-- The document has no value. -/
def malformed {α : Type} : Builder α :=
  throw .malformed

/-- The scalar that a node of a kind stands for. A moment is not read off another node. -/
def scalarPart (k : Kind) (n : Nat) : Builder Part := do
  let text ← (← get).graph.text n
  match (← get).graph.content n, k with
  | .mapping .., .stamp => throw (.failure .wrongKind)
  | _, _ =>
    match k.scalar? text with
    | none => malformed
    | some r =>
      let s ← r
      return .scalar s (if s = .real .nan && !isPointNan text then some n else none)

/-- What stands for a node: a node that has been met stands for the same again. -/
def part (n : Nat) : Builder Part := do
  match (← get).parts.getD n none with
  | some p => return p
  | none =>
    let p ← match (← get).graph.kind n with
      | none | some .merge | some .value => malformed
      | some k =>
        if k.isScalar then scalarPart k n
        else do
          modify fun s => { s with begun := s.begun.push n }
          pure (.cell n)
    modify fun s => { s with parts := s.parts.setIfInBounds n (some p) }
    return p

/-- The items of a list. -/
def itemsOf (n : Nat) : Builder (List Nat) := do
  match (← get).graph.content n with
  | .list items => return items
  | _ => malformed

/-- An entry of a mapping, whose key has to be a scalar. -/
def entry (e : Nat × Nat) : Builder (Part × Part) := do
  let key ← part e.1
  if key.isKey then return (key, ← part e.2) else malformed

/-- The entries of a mapping after its merges; `room` is the number of entries that the document
had at first. -/
def entriesOf (room n : Nat) : Builder (List (Part × Part)) := do
  if ((← get).graph.entries? n).isNone then malformed
  else
    let g ← (← get).graph.settle room n
    modify fun s => { s with graph := g }
    let es ← ((g.entries? n).getD []).mapM entry
    return Cell.putAll es

/-- A mapping of one key as a pair, in a cell of its own. -/
def pair (n : Nat) : Builder Part := do
  match (← get).graph.entries? n with
  | some [(k, v)] =>
    let key ← part k
    let value ← part v
    let number := (← get).cells.size
    modify fun s => { s with cells := s.cells.push (.pair key value) }
    return .cell number
  | _ => malformed

/-- Fill the cell of a node. -/
def fill (room n : Nat) : Builder Unit := do
  let cell ← match (← get).graph.kind n with
    | some .list => do pure (Cell.list (← (← itemsOf n).mapM part))
    | some .pairs => do pure (Cell.list (← (← itemsOf n).mapM pair))
    | some .mapping => do pure (Cell.mapping (← entriesOf room n))
    | some .set => do pure (Cell.setOf ((← entriesOf room n).map (·.1)))
    | _ => malformed
  modify fun s => { s with cells := s.cells.setIfInBounds n cell }

/-- Fill the cells that have been begun, from one on. Each node is begun at most once, which the
fuel follows. -/
def fillFrom (room : Nat) : Nat → (next : Nat) → Builder Unit
  | 0, _ => return ()
  | fuel + 1, next => do
    match (← get).begun[next]? with
    | none => return ()
    | some n =>
      fill room n
      fillFrom room fuel (next + 1)

end Builder

/-- The value of a document. -/
def Document.data (d : Document) : Except Fault Data := do
  let size := d.graph.size
  let start : Building :=
    ⟨d.graph, Array.replicate size none, Array.replicate size (.list []), #[]⟩
  let (root, built) ← (do
    let root ← Builder.part d.root
    Builder.fillFrom d.graph.entryCount (size + 1) 0
    return root : Builder Part).run start
  return built.cells.data root

/-! ## Files -/

/-- The number of characters that are read at a time. -/
def portion : Nat := 4096

/-- A portion of a text; two at its start. -/
def readPortion (atStart : Bool) (s : Text.Stream) : Except Fault (List Char × Text.Stream) := do
  let (cs, s) ← (s.read portion).mapError .failure
  let (cs, s) ← if atStart then do
      let (more, s) ← (s.read portion).mapError .failure
      pure (cs ++ more, s)
    else pure (cs, s)
  if cs.all isAllowed then return (cs, s) else throw .malformed

/-- The text of a file as far as it can be read, and what keeps the rest from being read. -/
def readableFrom : Nat → (atStart : Bool) → Text.Stream → List Char × Option Fault
  | 0, _, _ => ([], none)
  | fuel + 1, atStart, s =>
    match readPortion atStart s with
    | .error f => ([], some f)
    | .ok ([], _) => ([], none)
    | .ok (cs, s) =>
      let (more, f) := readableFrom fuel false s
      (cs ++ more, f)

/-- The text of a file as far as it can be read, and what keeps the rest from being read. -/
def readable (bytes : List Nat) : List Char × Option Fault :=
  readableFrom (bytes.length + 1) true { bytes }

/-- The value of a file, nothing if it has no document. -/
def read (bytes : List Nat) : Except Fault Data := do
  let (text, barrier) := readable bytes
  match ← Document.ofTokens (Tokens.ofText text barrier) with
  | none => return .null
  | some d => d.data

end TaggedComments.Yaml
