import TaggedComments.Yaml.Graph
import TaggedComments.Yaml.Layout

/-!
# Documents

The tokens of a text describe nodes. Block collections end where the indentation ends, flow
collections at their closing mark; keys and values that are left out are empty scalars, and an
alias is the node that its anchor names, also inside of that node.

- `Composer` reads nodes from tokens, with the anchors and tag handles known so far.
- `Document` is the root of a text with its nodes, `Document.ofTokens` reads it.
-/

namespace TaggedComments.Yaml

/-- A node with the nodes that it is made of. -/
structure Document where
  /-- The nodes. -/
  graph : Graph
  /-- The number of the outermost node. -/
  root : Nat

/-- What is known between two tokens. -/
structure Composing where
  /-- The tokens that are left. -/
  tokens : List Token
  /-- The fault after them. -/
  fault : Option Fault
  /-- The nodes so far. -/
  graph : Graph := {}
  /-- The nodes with anchors. -/
  anchors : List (String × Nat) := []
  /-- What tag handles stand for. -/
  handles : List (String × String) := []

/-- A step of composing nodes. -/
abbrev Composer := StateT Composing (Except Fault)

namespace Composer

/-- The text is no tree of nodes. -/
def malformed {α : Type} : Composer α :=
  throw .malformed

/-- The next token. -/
def peek : Composer Token := do
  let s ← get
  match s.tokens, s.fault with
  | t :: _, _ => return t
  | [], some f => throw f
  | [], none => return .streamEnd

/-- Go over the next token. -/
def skip : Composer Unit :=
  modify fun s => { s with tokens := s.tokens.drop 1 }

/-- Go over the next token if it is of a kind, and say whether it was. -/
def skipIf (p : Token → Bool) : Composer Bool := do
  if p (← peek) then
    skip
    return true
  else return false

/-! ## Properties of a node -/

/-- The anchor and the tag in front of a node. -/
structure Properties where
  /-- The anchor. -/
  anchor : Option String := none
  /-- The tag. -/
  tag : Option String := none

/-- The tag that is next, as its handle and the rest. -/
def tag? : Composer (Option (Option String × String)) := do
  match ← peek with
  | .tag handle suffix =>
    skip
    return some (handle, suffix)
  | _ => return none

/-- A tag spelled out. -/
def spellOut : Option String × String → Composer String
  | (none, suffix) => return suffix
  | (some handle, suffix) => do
    match (← get).handles.lookup handle with
    | some meaning => return meaning ++ suffix
    | none => malformed

/-- The anchor that is next. -/
def anchor? : Composer (Option String) := do
  match ← peek with
  | .anchor name =>
    skip
    return some name
  | _ => return none

/-- An anchor and a tag in any order. The tag is spelled out when both have been read. -/
def properties : Composer Properties := do
  let (anchor, tag) ← do
    match ← anchor? with
    | some a => pure (some a, ← tag?)
    | none =>
      let t ← tag?
      pure (← anchor?, t)
  match tag with
  | none => return ⟨anchor, none⟩
  | some t => return ⟨anchor, some (← spellOut t)⟩

/-- The kind of a collection: that of its tag, if it has one. -/
def collectionKind (tag : Option String) (untagged : Kind) : Option Kind :=
  match tag with
  | none => some untagged
  | some t => if t = "!" then some untagged else Kind.named? t

/-- The kind of a scalar: that of its tag; without a tag that of its form if it is plain. -/
def scalarKind (tag : Option String) (plain : Bool) (text : String) : Option Kind :=
  match tag with
  | none => if plain then Kind.ofPlain text else some .text
  | some t => if t = "!" then Kind.ofPlain text else Kind.named? t

/-- The node that an anchor names. -/
def named (name : String) : Composer Nat := do
  match (← get).anchors.lookup name with
  | some n => return n
  | none => malformed

/-- Begin a node, remembered by its anchor, which may name only one. -/
def begin (anchor : Option String) (x : Node) : Composer Nat := do
  let s ← get
  let n := s.graph.size
  match anchor with
  | none => set { s with graph := s.graph.add x }
  | some a =>
    if (s.anchors.lookup a).isSome then malformed
    else set { s with graph := s.graph.add x, anchors := (a, n) :: s.anchors }
  return n

/-- Begin a scalar. -/
def scalar (p : Properties) (plain : Bool) (text : String) : Composer Nat :=
  begin p.anchor ⟨scalarKind p.tag plain text, .scalar text⟩

/-- A node that is left out. -/
def emptyNode : Composer Nat :=
  scalar {} true ""

/-- Begin a list and read its items. -/
def list (p : Properties) (items : Composer (List Nat)) : Composer Nat := do
  let n ← begin p.anchor ⟨collectionKind p.tag .list, .list []⟩
  let xs ← items
  modify fun s => { s with graph := s.graph.setContent n (.list xs) }
  return n

/-- Begin a mapping and read its entries. -/
def mapping (p : Properties) (entries : Composer (List (Nat × Nat))) : Composer Nat := do
  let n ← begin p.anchor ⟨collectionKind p.tag .mapping, .mapping [] false⟩
  let es ← entries
  modify fun s => { s with graph := s.graph.setContent n (.mapping es false) }
  return n

/-! ## Kinds of tokens -/

/-- Whether an item or the end of a block collection comes next. -/
def endsItem : Token → Bool
  | .blockEntry | .blockEnd => true
  | _ => false

/-- Whether a key, a value or the end of a block collection comes next. -/
def endsPart : Token → Bool
  | .key | .value | .blockEnd => true
  | _ => false

/-- Whether a part of a flow collection is left out here. -/
def endsFlowPart : Token → Bool
  | .value | .flowEntry | .flowSequenceEnd | .flowMappingEnd => true
  | _ => false

/-- Whether the value of a flow collection is left out here. -/
def endsFlowValue : Token → Bool
  | .flowEntry | .flowSequenceEnd | .flowMappingEnd => true
  | _ => false

/-- Whether the token is a hyphen. -/
def isBlockEntry : Token → Bool
  | .blockEntry => true
  | _ => false

/-- Whether the token ends a block collection. -/
def isBlockEnd : Token → Bool
  | .blockEnd => true
  | _ => false

/-- Whether the token starts a key. -/
def isKey : Token → Bool
  | .key => true
  | _ => false

/-- Whether the token starts a value. -/
def isValue : Token → Bool
  | .value => true
  | _ => false

/-- Whether the token is a comma. -/
def isFlowEntry : Token → Bool
  | .flowEntry => true
  | _ => false

/-- Whether the token closes a bracket. -/
def isFlowSequenceEnd : Token → Bool
  | .flowSequenceEnd => true
  | _ => false

/-- Whether the token closes a brace. -/
def isFlowMappingEnd : Token → Bool
  | .flowMappingEnd => true
  | _ => false

/-- Go over what parts an item between brackets or braces from the one before it, and say whether
it was there. The first item has nothing in front of it. -/
def separated (first : Bool) : Composer Bool :=
  if first then return true else skipIf isFlowEntry

/-- Where a node may stand. -/
inductive Place where
  /-- Inside brackets or braces. -/
  | flow
  /-- On lines. -/
  | block
  /-- On lines, after a key: hyphens need no deeper indentation. -/
  | part
  deriving DecidableEq

/-! ## Nodes from tokens

The fuel bounds the depth of the calls. Every second call goes over a token, so a bound that
grows with the number of tokens is never reached. -/

mutual

/-- A node. -/
def node (place : Place) : Nat → Composer Nat
  | 0 => malformed
  | fuel + 1 => do
    match ← peek with
    | .alias name =>
      skip
      named name
    | _ =>
      let p ← properties
      content place p fuel

/-- What follows the anchor and the tag of a node. -/
def content (place : Place) (p : Properties) : Nat → Composer Nat
  | 0 => malformed
  | fuel + 1 => do
    match ← peek, place with
    | .blockEntry, .part => list p (looseItems fuel)
    | .scalar plain text, _ =>
      skip
      scalar p plain text
    | .flowSequence, _ =>
      skip
      list p (flowItems true fuel)
    | .flowMapping, _ =>
      skip
      mapping p (flowEntries true fuel)
    | .blockSequence, .flow => orEmpty p
    | .blockSequence, _ =>
      skip
      list p (blockItems fuel)
    | .blockMapping, .flow => orEmpty p
    | .blockMapping, _ =>
      skip
      mapping p (blockEntries fuel)
    | _, _ => orEmpty p

/-- The items of a block collection after its start, with its end. -/
def blockItems : Nat → Composer (List Nat)
  | 0 => malformed
  | fuel + 1 => do
    if ← skipIf isBlockEntry then
      let item ← if endsItem (← peek) then emptyNode else node .block fuel
      return item :: (← blockItems fuel)
    else if ← skipIf isBlockEnd then return []
    else malformed

/-- Items that are indented like the key before them: they end at the next key. -/
def looseItems : Nat → Composer (List Nat)
  | 0 => malformed
  | fuel + 1 => do
    if ← skipIf isBlockEntry then
      let next ← peek
      let item ← if endsItem next || endsPart next then emptyNode else node .block fuel
      return item :: (← looseItems fuel)
    else return []

/-- The entries of a block collection after its start, with its end. -/
def blockEntries : Nat → Composer (List (Nat × Nat))
  | 0 => malformed
  | fuel + 1 => do
    if ← skipIf isKey then
      let key ← if endsPart (← peek) then emptyNode else node .part fuel
      let value ←
        if ← skipIf isValue then
          if endsPart (← peek) then emptyNode else node .part fuel
        else emptyNode
      return (key, value) :: (← blockEntries fuel)
    else if ← skipIf isBlockEnd then return []
    else malformed

/-- The items between brackets after the opening one, with the closing one. An item with a key is a
mapping of its own. -/
def flowItems (first : Bool) : Nat → Composer (List Nat)
  | 0 => malformed
  | fuel + 1 => do
    if ← skipIf isFlowSequenceEnd then return []
    else
      if !(← separated first) then malformed
      else if ← skipIf isKey then
        let item ← mapping {} do return [← flowPair fuel]
        return item :: (← flowItems false fuel)
      else if ← skipIf isFlowSequenceEnd then return []
      else
        let item ← node .flow fuel
        return item :: (← flowItems false fuel)

/-- A key inside brackets or braces after its mark, and its value. -/
def flowPair : Nat → Composer (Nat × Nat)
  | 0 => malformed
  | fuel + 1 => do
    let key ← if endsFlowPart (← peek) then emptyNode else node .flow fuel
    let value ←
      if ← skipIf isValue then
        if endsFlowValue (← peek) then emptyNode else node .flow fuel
      else emptyNode
    return (key, value)

/-- The entries between braces after the opening one, with the closing one. -/
def flowEntries (first : Bool) : Nat → Composer (List (Nat × Nat))
  | 0 => malformed
  | fuel + 1 => do
    if ← skipIf isFlowMappingEnd then return []
    else
      if !(← separated first) then malformed
      else if ← skipIf isKey then
        let entry ← flowPair fuel
        return entry :: (← flowEntries false fuel)
      else if ← skipIf isFlowMappingEnd then return []
      else
        let key ← node .flow fuel
        let value ← emptyNode
        return (key, value) :: (← flowEntries false fuel)

/-- A node of which only the anchor or the tag is written. -/
def orEmpty (p : Properties) : Composer Nat :=
  if p.anchor.isSome || p.tag.isSome then scalar p true "" else malformed

end

/-! ## Documents -/

/-- The handles that every document knows. -/
def knownHandles : List (String × String) :=
  [("!", "!"), ("!!", Kind.nameSpace)]

/-- Read directives: whether a version was among them, and the handles. A document of another major
version, a second version and a second meaning of a handle are refused. -/
def directives : Nat → (version : Bool) → List (String × String) →
    Composer (List (String × String))
  | 0, _, handles => return handles
  | fuel + 1, version, handles => do
    match ← peek with
    | .directive (.version major _) =>
      skip
      if version || major ≠ 1 then malformed else directives fuel true handles
    | .directive (.handle name meaning) =>
      skip
      if (handles.lookup name).isSome then malformed
      else directives fuel version ((name, meaning) :: handles)
    | .directive .other =>
      skip
      directives fuel version handles
    | _ => return handles

/-- The document of a text: it starts without a mark, or with directives and a mark. -/
def document (fuel : Nat) : Composer (Option Nat) := do
  match ← peek with
  | .streamEnd => return none
  | .directive _ | .documentStart =>
    let handles ← directives fuel false []
    modify fun s => { s with handles := handles ++ knownHandles }
    match ← peek with
    | .documentStart =>
      skip
      match ← peek with
      | .directive _ | .documentStart | .documentEnd | .streamEnd => return some (← emptyNode)
      | _ => return some (← node .block fuel)
    | _ => malformed
  | _ => return some (← node .block fuel)

/-- Go over the marks of the end of a document to the end of the text. A second document is
refused, but only when its start has been read. -/
def finish : Nat → Composer Unit
  | 0 => malformed
  | fuel + 1 => do
    match ← peek with
    | .documentEnd =>
      skip
      finish fuel
    | .streamEnd => return ()
    | _ =>
      let _ ← directives fuel false []
      let _ ← peek
      malformed

end Composer

/-- The document that tokens describe: at most one. -/
def Document.ofTokens (tokens : Tokens) : Except Fault (Option Document) := do
  let fuel := 4 * tokens.list.length + 8
  let start : Composing :=
    { tokens := tokens.list, fault := tokens.fault, handles := Composer.knownHandles }
  let (root, s) ← (do
    let root ← Composer.document fuel
    Composer.finish fuel
    return root : Composer (Option Nat)).run start
  return root.map fun n => ⟨s.graph, n⟩

end TaggedComments.Yaml
