import TaggedComments.Data.Basic

/-!
# Values that are being made

Collections are made before their parts, for they may be parts of themselves. Until all are made,
a collection is a cell with a number, and its parts are scalars or numbers of cells.

- `Part` is a part of a collection, `Cell` a collection.
- `Part.sameKey` says when two parts are one key, `Cell.put` sets a key.
- `Cell.setOf` is a set of parts.
- `Cells.data` is the value that a part stands for when all cells are filled: a cell that it meets
  inside of itself makes a knot.
-/

namespace TaggedComments.Yaml

/-- A part of a collection. -/
inductive Part where
  /-- A scalar; a NaN that is the same only as itself has the number of its node. -/
  | scalar (s : Scalar) (identity : Option Nat)
  /-- The collection in a cell. -/
  | cell (n : Nat)

/-- A collection. -/
inductive Cell where
  /-- A list. -/
  | list (items : List Part)
  /-- A mapping. -/
  | mapping (entries : List (Part × Part))
  /-- A set. -/
  | set (members : List Part)
  /-- A pair. -/
  | pair (first second : Part)

/-- Whether two parts are the same key. -/
def Part.sameKey : Part → Part → Bool
  | .scalar s i, .scalar t j => s.same t && i == j
  | .cell n, .cell m => n == m
  | _, _ => false

/-- Whether a part can be a key. -/
def Part.isKey : Part → Bool
  | .scalar _ _ => true
  | .cell _ => false

/-- The integer that a part is. -/
def Part.int? : Part → Option Int
  | .scalar (.int n) _ => some n
  | _ => none

namespace Cell

/-- Set a key, which keeps its place and its spelling if it is present. -/
def put (key value : Part) : List (Part × Part) → List (Part × Part)
  | [] => [(key, value)]
  | e :: es => if e.1.sameKey key then (e.1, value) :: es else e :: put key value es

/-- The entries that are left when keys have been set one after another. -/
def putAll (added : List (Part × Part)) : List (Part × Part) :=
  added.foldl (fun es e => put e.1 e.2 es) []

/-- The set of some parts: integers alone are put in increasing order, other members stay in the
order in which they were written. -/
def setOf (members : List Part) : Cell :=
  match members.mapM Part.int? with
  | some numbers => .set ((numbers.mergeSort (· ≤ ·)).map fun n => .scalar (.int n) none)
  | none => .set members

end Cell

/-- The cells by their numbers. -/
abbrev Cells := Array Cell

namespace Cells

/-- The values of cells that are no knots. -/
abbrev Known := Array (Option Data)

/-- A value, and the numbers of the cells around it that it mentions. -/
abbrev Open := Data × List Nat

/-- The value of a part by what the cells stand for. -/
def partData {m : Type → Type} [Monad m] (cellData : Nat → m Open) : Part → m Open
  | .scalar s _ => return (.scalar s, [])
  | .cell n => cellData n

/-- The value of a cell inside of others. A cell that mentions itself or one of them is a knot;
what is no knot is the same everywhere and computed once. The fuel bounds the depth, for no cell is
inside of itself on the way. -/
def cellData (cells : Cells) : Nat → (around : List Nat) → Nat → StateM Known Open
  | 0, _, n => return (.again n, [n])
  | fuel + 1, around, n => do
    if around.contains n then return (.again n, [n])
    else
      match (← get).getD n none with
      | some d => return (d, [])
      | none =>
        let part := partData (cellData cells fuel (n :: around))
        let (body, mentioned) ← match cells.getD n (.list []) with
          | .list items => do
            let xs ← items.mapM part
            pure (Data.list (xs.map (·.1)), xs.flatMap (·.2))
          | .mapping entries => do
            let es ← entries.mapM fun e => return (← part e.1, ← part e.2)
            pure (Data.mapping (es.map fun e => (e.1.1, e.2.1)),
              es.flatMap fun e => e.1.2 ++ e.2.2)
          | .set members => do
            let xs ← members.mapM part
            pure (Data.set (xs.map (·.1)), xs.flatMap (·.2))
          | .pair first second => do
            let a ← part first
            let b ← part second
            pure (Data.pair a.1 b.1, a.2 ++ b.2)
        let whole := if mentioned.isEmpty then body else .knot n body
        if mentioned.isEmpty then modify (·.setIfInBounds n (some whole))
        return (whole, (mentioned.filter (· != n)).eraseDups)

/-- The value of a part. -/
def data (cells : Cells) (p : Part) : Data :=
  ((partData (cellData cells (cells.size + 1) []) p).run (Array.replicate cells.size none)).1.1

@[simp] theorem data_scalar (cells : Cells) (s : Scalar) (i : Option Nat) :
    cells.data (.scalar s i) = .scalar s := rfl

end Cells

end TaggedComments.Yaml
