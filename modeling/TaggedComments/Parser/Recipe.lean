import TaggedComments.Parser.Basic

/-!
# Parsers from descriptions

A caller may describe a parser by a mapping instead of writing one.

- `Recipe` lists the kinds of parsers that can be described.
- `Recipe.ofData?` reads a description, `Recipe.factory` makes the parser.
-/

namespace TaggedComments

/-- A described parser. -/
inductive Recipe where
  /-- The parser of a builtin grammar. -/
  | grammar (g : Grammar)
  /-- A parser that returns given items. -/
  | fixed (items : List Data)
  /-- A parser that returns one item with the whole text and the tags in force. -/
  | echo
  /-- A parser that fails when it sees the text. -/
  | failing (message : String)
  /-- A parser that cannot be set up. -/
  | refusing (message : String)

namespace Item

/-- A value as an item: a mapping with the key `comment` gives the parts of a comment there. -/
def ofData (d : Data) : Except Failure Item :=
  match d.get? "comment" with
  | some parts => (Comment.ofFields parts).map .comment
  | none => .ok (.value d)

end Item

namespace Recipe

/-- The item of an echo. -/
def echoItem (tags : List String) (content : String) (file : Data) : Data :=
  .mapping [(.text "file", file), (.text "tag", .text "ECHO"), (.text "line", .int 1),
    (.text "text", .text content), (.text "ref", .text (",".intercalate tags))]

/-- The parser that a description stands for. -/
def factory : Recipe → Factory
  | grammar g => g.factory
  | fixed items => fun _ => .ok fun _ _ => items.mapM Item.ofData
  | echo => fun custom => .ok fun content file =>
    (Tags.ofItems custom).map fun tags => [.value (echoItem (Tags.all tags) content file)]
  | failing m => fun _ => .ok fun _ _ => .error (.parserFailed m)
  | refusing m => fun _ => .error (.parserFailed m)

/-- A text field of a description. -/
def textField (d : Data) (key : String) : String :=
  ((d.get? key).bind (·.asText?)).getD ""

/-- Read a description. -/
def ofData? (d : Data) : Option Recipe :=
  match textField d "kind" with
  | "builtin" => (Grammar.find? (textField d "name")).map grammar
  | "static" => some (fixed (((d.get? "items").bind (·.asList?)).getD []))
  | "echo" => some echo
  | "fail" => some (failing (textField d "message"))
  | "fail_factory" => some (refusing (textField d "message"))
  | _ => none

end Recipe

/-- The parsers that a mapping from names to descriptions describes. -/
def Catalogue.ofData (d : Data) : Catalogue :=
  (d.asMapping?.getD []).filterMap fun e => do
    let name ← e.1.asText?
    let recipe ← Recipe.ofData? e.2
    return (name, recipe.factory)

end TaggedComments
