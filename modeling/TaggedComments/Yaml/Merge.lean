import TaggedComments.Yaml.Graph
import TaggedComments.Yaml.Source

/-!
# Merged mappings

A key may ask for a merge: the entries of the mapping that is its value, or of the mappings in a
list, are put before those of its own mapping. The entries of a mapping are changed when its value
is made, and a mapping in which merges have been carried out is seen like that from everywhere.

A mapping may merge itself. It then gets the entries that are left in it, those that ask for a
merge being taken out one by one.

- `Graph.settle` carries out the merges of a mapping.
- `Graph.settle_scalar` says that a scalar has none.
-/

namespace TaggedComments.Yaml

/-- A step of merging. -/
abbrev Merger := StateT Graph (Except Fault)

namespace Merger

/-- The entries of a mapping after its merges; nothing else can be merged. -/
def entriesOf (settle : Nat → Merger Unit) (n : Nat) : Merger (List (Nat × Nat)) := do
  if ((← get).entries? n).isSome then
    settle n
    return ((← get).entries? n).getD []
  else throw .malformed

/-- The entries that the value of a merging key adds: those of a mapping, or of the mappings in a
list, the last first. -/
def additions (settle : Nat → Merger Unit) (n : Nat) : Merger (List (Nat × Nat)) := do
  match (← get).content n with
  | .list items =>
    let groups ← items.mapM (entriesOf settle)
    return groups.reverse.flatten
  | _ => entriesOf settle n

/-- Carry out the merges among the entries of a mapping that are left, `kept` being those before
them, backward, and `added` the entries of merges so far. The key of the value that stands for the
mapping becomes a text. -/
def settleEntries (settle : Nat → Merger Unit) (n : Nat) (kept added : List (Nat × Nat)) :
    List (Nat × Nat) → Merger Unit
  | [] => modify (·.setContent n (.mapping (added ++ kept.reverse) true))
  | (k, v) :: rest => do
    match (← get).kind k with
    | some .merge =>
      modify (·.setContent n (.mapping (kept.reverse ++ rest) false))
      let more ← additions settle v
      match (← get).content n with
      | .mapping es true => modify (·.setContent n (.mapping (added ++ more ++ es) true))
      | _ => settleEntries settle n kept (added ++ more) rest
    | some .value =>
      modify (·.setKind k .text)
      settleEntries settle n ((k, v) :: kept) added rest
    | _ => settleEntries settle n ((k, v) :: kept) added rest

/-- Carry out the merges of a mapping. The fuel bounds how many merges lead to one another: each
takes an entry out. -/
def settle : Nat → Nat → Merger Unit
  | 0, _ => throw .malformed
  | fuel + 1, n => do
    match (← get).content n with
    | .mapping es false => settleEntries (settle fuel) n [] [] es
    | _ => return ()

end Merger

namespace Graph

/-- The graph after the merges of a mapping; `room` is at least the number of entries that the
graph had at first. -/
def settle (g : Graph) (room n : Nat) : Except Fault Graph :=
  ((Merger.settle (room + 1) n).run g).map (·.2)

theorem settle_scalar {g : Graph} {n : Nat} {text : String} (room : Nat)
    (h : g.content n = .scalar text) : g.settle room n = .ok g := by
  simp [settle, Merger.settle, h]
  rfl

end Graph

end TaggedComments.Yaml
