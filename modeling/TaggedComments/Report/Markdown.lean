import TaggedComments.Report.Group
import TaggedComments.Text.Blank

/-!
# The Markdown report

One section a tag, with a table of files, lines and messages. A bar inside a message is escaped,
so that it does not end a cell.

- `markdownRow` is the row of a comment, `markdown` the report.
-/

namespace TaggedComments.Report

/-- A message inside a cell. -/
def escapeBars (s : String) : String :=
  String.ofList (s.toList.flatMap fun c => if c = '|' then ['\\', '|'] else [c])

/-- The message cell: only a text can be escaped; a reference follows in parentheses. -/
def messageCell (c : Comment) : Except Failure String :=
  match c.text.asText? with
  | some s =>
    .ok (escapeBars s ++ if c.ref.truthy then " (" ++ c.ref.display ++ ")" else "")
  | none => .error .noSuchPart

/-- The row of a comment. -/
def markdownRow (c : Comment) : Except Failure String :=
  (messageCell c).map fun message =>
    let file := c.file.display
    let line := c.line.toData.display
    "| [" ++ file ++ "](" ++ file ++ "#L" ++ line ++ ") | " ++ line ++ " | " ++ message ++ " |"

/-- The lines above the rows of a tag. -/
def markdownHead (tag : Data) : List String :=
  ["### " ++ tag.display ++ "s", "| Filename | line # | " ++ tag.display ++ " |",
    "|:------|:------:|:------|"]

/-- The lines of a tag. -/
def markdownSection (g : Data × List Comment) : Except Failure (List String) :=
  (g.2.mapM markdownRow).map fun rows => markdownHead g.1 ++ rows ++ [""]

/-- The sections of comments whose tags may be keys. -/
def markdownOf (cs : List Comment) : Except Failure String :=
  ((groupOn (·.tag) cs).mapM markdownSection).map fun sections =>
    String.ofList (Text.dropRightWhile (· == '\n') ("\n".intercalate sections.flatten).toList)

/-- A comment whose tag may be a key. -/
def withTagKey (i : Item) : Except Failure Comment := do
  let c ← Aggregate.asComment i
  if c.tag.isKey then .ok c else .error .wrongKind

/-- The Markdown report. -/
def markdown (items : List Item) : Except Failure String :=
  (items.mapM withTagKey).bind markdownOf

end TaggedComments.Report
