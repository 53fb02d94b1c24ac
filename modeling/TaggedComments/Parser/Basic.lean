import TaggedComments.Comment
import TaggedComments.Extract.Finding

/-!
# Parsers

A parser is set up with the tags of a request and then takes comments out of a text. Setting up
and extracting may fail separately: all parsers of a request are set up before one of them sees
the text.

- `Item` is what a parser returns: a comment, or a value that may describe one.
- `Extractor` is a parser that is set up, `Factory` one that is not.
- `Grammar.factory` is the parser of a grammar.
- `Catalogue` is a table of parsers by name, `resolve` looks one up, overrides first.
-/

namespace TaggedComments

/-- What a parser returns. -/
inductive Item where
  /-- A comment. -/
  | comment (c : Comment)
  /-- Some value. -/
  | value (d : Data)

/-- A parser that is set up: it gets the text and its file. -/
abbrev Extractor := (content : String) → (file : Data) → Except Failure (List Item)

/-- A parser: it gets the custom tags. -/
abbrev Factory := (custom : List Data) → Except Failure Extractor

/-- Parsers by name. -/
abbrev Catalogue := List (String × Factory)

/-- The comments of a text under a grammar, with their file. -/
def Grammar.comments (g : Grammar) (custom : List String) (content : String) (file : Data) :
    List Comment :=
  (g.extract custom content).map (Comment.ofFinding file)

/-- The parser of a grammar. It reads its tags when it is set up, and extraction cannot fail. -/
def Grammar.factory (g : Grammar) : Factory := fun custom =>
  (Tags.ofItems custom).map fun tags content file =>
    .ok ((g.comments tags content file).map .comment)

namespace Catalogue

/-- The parsers of the builtin grammars. -/
def builtin : Catalogue :=
  Grammar.builtin.map fun g => (g.name, g.factory)

/-- The names of the parsers in code point order. -/
def available (c : Catalogue) : List String :=
  (c.map (·.1)).mergeSort fun a b => a ≤ b

/-- The parser of a name: an override counts before the catalogue. -/
def resolve (overrides catalogue : Catalogue) (name : String) : Except Failure Factory :=
  match overrides.lookup name with
  | some f => .ok f
  | none =>
    match catalogue.lookup name with
    | some f => .ok f
    | none => .error (.unknownParser name)

end Catalogue

end TaggedComments
