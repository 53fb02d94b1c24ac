import TaggedComments.Distinct
import TaggedComments.Log
import TaggedComments.Registry.Entry

/-!
# The registry

The table from file extensions to parsers. It grows by merging associations, all of them or none.

- `Registry.merge` merges associations, `Registry.register` those that a value gives.
- `Registry.find?` looks an extension up.
- `Registry.activeParsers` lists the parsers to run for an extension.
-/

namespace TaggedComments

/-- The entries of the known extensions, in the order in which the extensions became known. -/
structure Registry where
  /-- Extensions and their entries. -/
  entries : List (String × Entry String)
  deriving DecidableEq

namespace Registry

/-- The registry without entries. -/
def empty : Registry := ⟨[]⟩

/-- The entry of an extension. -/
def find? (r : Registry) (extension : String) : Option (Entry String) :=
  r.entries.lookup extension

/-- Whether an extension has an entry. -/
def supports (r : Registry) (extension : String) : Bool :=
  (r.find? extension).isSome

/-- The number of extensions. -/
def size (r : Registry) : Nat :=
  r.entries.length

/-- The extensions in code point order. -/
def extensions (r : Registry) : List String :=
  (r.entries.map (·.1)).mergeSort fun a b => a ≤ b

/-- Entries after one is set: a known extension keeps its place. -/
def setEntry (extension : String) (e : Entry String) :
    List (String × Entry String) → List (String × Entry String)
  | [] => [(extension, e)]
  | x :: xs => if x.1 = extension then (x.1, e) :: xs else x :: setEntry extension e xs

/-- The registry after an entry is set. -/
def set (r : Registry) (extension : String) (e : Entry String) : Registry :=
  ⟨setEntry extension e r.entries⟩

/-- The registry after entries are set one after another. -/
def setAll (r : Registry) (added : List (String × Entry String)) : Registry :=
  added.foldl (fun r x => r.set x.1 x.2) r

/-- The source of the log entries of a registry. -/
def logSource : String := "todoscan.parsers.registry"

/-- Names between parentheses, as messages show them. -/
def tupleText (names : List String) : String :=
  match names.map Text.quotedString with
  | [n] => "(" ++ n ++ ",)"
  | ns => "(" ++ ", ".intercalate ns ++ ")"

/-- What is logged when entries are set: each change of a known extension, and a summary. -/
def changes : Registry → List (String × Entry String) → List LogEntry
  | _, [] => []
  | r, x :: xs =>
    (match r.find? x.1 with
      | some old => [⟨.debug, logSource,
          "Extension " ++ x.1 ++ ": " ++ tupleText old.parsers ++ " -> " ++ tupleText x.2.parsers⟩]
      | none => []) ++ changes (r.set x.1 x.2) xs

/-- The entries that associations describe, each with its extension. The first that is not in order
decides the failure. -/
def readEntries (given : List (Data × Association)) :
    Except Failure (List (String × Entry String)) :=
  given.mapM fun x => do
    let extension ← Entry.checkExtension x.1
    let e ← Entry.read x.1 x.2
    return (extension, e)

/-- Merge associations: every entry is checked before any is set. Without associations nothing is
done. -/
def merge (r : Registry) (given : List (Data × Association)) :
    Except Failure (Registry × List LogEntry) :=
  if given.isEmpty then .ok (r, [])
  else (readEntries given).map fun added =>
    (r.setAll added, changes r added ++ [⟨.debug, logSource,
      "Registered " ++ toString added.length ++ " extension(s): "
        ++ ", ".intercalate (added.map (·.1))⟩])

/-- The associations that a value gives. What counts as false gives none, anything else has to be a
mapping. -/
def associationsOf (given : Data) : Except Failure (List (Data × Association)) :=
  if given.truthy then
    match given.asMapping? with
    | none => .error .entriesNotMapping
    | some es => .ok (es.map fun x => (x.1, .value x.2))
  else .ok []

/-- Merge the associations that a value gives. -/
def register (r : Registry) (given : Data) : Except Failure (Registry × List LogEntry) :=
  (associationsOf given).bind r.merge

/-- The parsers of an entry. -/
def parsersOf (r : Registry) (extension : String) : Except Failure (Entry String) :=
  match r.find? extension with
  | some e => .ok e
  | none => .error (.unsupported extension)

/-- The parsers to run for an extension: its own, and with embedded sections those of the
extensions it includes, whose own inclusions do not count. A parser is listed once, where it
first occurs. -/
def activeParsers (r : Registry) (extension : String) (embedded : Bool) :
    Except Failure (List String) := do
  let e ← r.parsersOf extension
  let inner ← if embedded then e.included.mapM r.parsersOf else .ok []
  return distinct (e.parsers ++ inner.flatMap (·.parsers))

end Registry

end TaggedComments
