import TaggedComments.Data.Access

/-!
# Entries of the registry

What is known about a file extension: the parsers that apply to it, and the extensions whose
parsers also apply to sections inside its files.

- `Entry` is such an entry.
- `Entry.read` checks a value given for an extension: a name, a list of names or a mapping.
- `Entry.build` makes an entry without checks.
-/

namespace TaggedComments

/-- What is known about an extension; the items are texts once they are checked. -/
structure Entry (α : Type) where
  /-- The parsers, in the order in which they were declared. -/
  parsers : List α
  /-- The extensions whose parsers also apply. -/
  included : List α
  deriving DecidableEq

/-- A value given for an extension. -/
inductive Association where
  /-- A value of any kind. -/
  | value (d : Data)
  /-- An entry whose items are unchecked. -/
  | entry (e : Entry Data)

namespace Entry

/-- An entry from a name or anything with elements, and anything with elements or what counts as
false. -/
def build (parsers included : Data) : Except Failure (Entry Data) := do
  let names ← match parsers with
    | .text s => .ok [.text s]
    | d => d.elements
  let included ← if included.truthy then included.elements else .ok []
  return ⟨names, included⟩

/-- An extension is a point followed by at least one character. -/
def checkExtension (d : Data) : Except Failure String :=
  match d with
  | .text s =>
    match s.toList with
    | '.' :: _ :: _ => .ok s
    | _ => .error (.badExtension d)
  | _ => .error (.showing d (.badExtension d))

/-- The name of a parser is a text that is not empty. -/
def checkName (extension : String) (d : Data) : Except Failure String :=
  match d with
  | .text s => if s.isEmpty then .error (.badParserName extension d) else .ok s
  | _ => .error (.showing d (.badParserName extension d))

/-- The value of the first of two keys that a mapping has. -/
def either (d : Data) (key other : String) : Data :=
  (d.get? key).getD ((d.get? other).getD .null)

/-- What an association gives as names and as included extensions. -/
def parts : Association → Data × Data
  | .entry e => (.list e.parsers, .list e.included)
  | .value d =>
    if d.asMapping?.isSome then
      (either d "parser_name" "parserName",
        (either d "included_files" "includedFiles").orElse (.list []))
    else (d, .list [])

/-- A single name stands for a list of one. -/
def nameList? : Data → Option (List Data)
  | .text s => some [.text s]
  | d => d.asSequence?

/-- The entry that an association describes, if extension, names and included extensions are in
order; the first that is not decides the failure. -/
def read (extension : Data) (a : Association) : Except Failure (Entry String) := do
  let extension ← checkExtension extension
  let (names, included) := parts a
  let names ← match nameList? names with
    | some (n :: ns) => (n :: ns).mapM (checkName extension)
    | _ => .error (.parserMissing extension)
  let included ← match included.asSequence? with
    | some ds => ds.mapM checkExtension
    | none => .error (.includedNotList extension)
  return ⟨names, included⟩

/-- A well-formed extension: a point followed by at least one character. -/
def IsExtension (s : String) : Prop :=
  ∃ c r, s.toList = '.' :: c :: r

/-- A well-formed entry: at least one parser, no empty name, only well-formed extensions. -/
def WellFormed (e : Entry String) : Prop :=
  e.parsers ≠ [] ∧ (∀ n ∈ e.parsers, n ≠ "") ∧ ∀ x ∈ e.included, IsExtension x

/-- An entry as a mapping; an empty list of included extensions is left out. -/
def toData (e : Entry Data) : Data :=
  .mapping ([(.text "parser_name", .list e.parsers)]
    ++ if e.included.isEmpty then [] else [(.text "included_files", .list e.included)])

/-- The entry with its texts as values. -/
def asData (e : Entry String) : Entry Data :=
  ⟨e.parsers.map .text, e.included.map .text⟩

end Entry

end TaggedComments
