import TaggedComments.Yaml.Kind
import TaggedComments.Yaml.Source

/-!
# Nodes

The nodes of a document are scalars, lists and mappings. An alias makes one node a part of several
others, also of itself, so nodes have numbers, and the parts of a collection are numbers.

- `Node` is a node: its kind and what it holds.
- `Graph` holds the nodes of a document; `Graph.add` gives a node the next number.
- `Graph.text` is the text that a node stands for where a scalar is asked for.
-/

namespace TaggedComments.Yaml

/-- What a node holds. -/
inductive Content where
  /-- A scalar and its text. -/
  | scalar (text : String)
  /-- A list. -/
  | list (items : List Nat)
  /-- A mapping, and whether none of its keys asks for a merge any more. -/
  | mapping (entries : List (Nat × Nat)) (settled : Bool)
  deriving Inhabited

/-- A node; one of a kind that is not known has none. -/
structure Node where
  /-- Its kind. -/
  kind : Option Kind
  /-- What it holds. -/
  content : Content
  deriving Inhabited

/-- The nodes of a document by their numbers. -/
structure Graph where
  /-- The nodes. -/
  nodes : Array Node := #[]

namespace Graph

/-- The number of nodes. -/
def size (g : Graph) : Nat :=
  g.nodes.size

/-- The node of a number; there is nothing at a number that was not given. -/
def node (g : Graph) (n : Nat) : Node :=
  g.nodes.getD n ⟨none, .scalar ""⟩

/-- The kind of a node. -/
def kind (g : Graph) (n : Nat) : Option Kind :=
  (g.node n).kind

/-- What a node holds. -/
def content (g : Graph) (n : Nat) : Content :=
  (g.node n).content

/-- The graph with one more node. -/
def add (g : Graph) (x : Node) : Graph :=
  ⟨g.nodes.push x⟩

/-- The graph with another content of a node. -/
def setContent (g : Graph) (n : Nat) (c : Content) : Graph :=
  ⟨g.nodes.modify n fun x => { x with content := c }⟩

/-- The graph with another kind of a node. -/
def setKind (g : Graph) (n : Nat) (k : Kind) : Graph :=
  ⟨g.nodes.modify n fun x => { x with kind := some k }⟩

@[simp] theorem size_add (g : Graph) (x : Node) : (g.add x).size = g.size + 1 := by
  simp [add, size]

/-- A new node is found at its number. -/
@[simp] theorem node_add (g : Graph) (x : Node) : (g.add x).node g.size = x := by
  simp [add, node, size, Array.getD]

/-- The number of entries of all mappings. -/
def entryCount (g : Graph) : Nat :=
  g.nodes.foldl (fun n x => match x.content with
    | .mapping es _ => n + es.length
    | _ => n) 0

/-- The entries of a mapping. -/
def entries? (g : Graph) (n : Nat) : Option (List (Nat × Nat)) :=
  match g.content n with
  | .mapping es _ => some es
  | _ => none

/-- The text of a scalar, or of the value that stands for a mapping. The fuel bounds how many
mappings stand for one another; more than there are nodes are met only if one stands for itself. -/
def textFrom (g : Graph) : Nat → Nat → Except Fault String
  | 0, _ => .error (.failure .endless)
  | fuel + 1, n =>
    match g.content n with
    | .scalar text => .ok text
    | .list _ => .error .malformed
    | .mapping es _ =>
      match es.find? fun e => g.kind e.1 = some .value with
      | some e => g.textFrom fuel e.2
      | none => .error .malformed

/-- The text of a scalar, or of the value that stands for a mapping. -/
def text (g : Graph) (n : Nat) : Except Fault String :=
  g.textFrom (g.size + 1) n

end Graph

end TaggedComments.Yaml
