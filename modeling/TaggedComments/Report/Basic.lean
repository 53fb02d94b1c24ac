import TaggedComments.Json.Printer
import TaggedComments.Report.Markdown
import TaggedComments.Report.Raw
import TaggedComments.Report.Table
import TaggedComments.Report.Xml

/-!
# Reports

A report is chosen by its name. Items that describe comments are read first, so a malformed one
is refused before the name is looked at.

- `Report.json` is the report that can be read back.
- `Report.named?` is the report of a name, `Report.render` a report of items.
-/

namespace TaggedComments.Report

/-- A report. -/
abbrev Reporter := List Item → Except Failure String

/-- Comments as a list of mappings. -/
def jsonOf (cs : List Comment) : String :=
  Json.write (.list (cs.map Comment.toData))

/-- The JSON report; an integer that is too long is refused. -/
def json : Reporter := fun items => do
  let cs ← items.mapM Aggregate.asComment
  if cs.all fun c => c.toData.isWritable then .ok (jsonOf cs) else .error .numberTooLong

/-- Tags and lines alone, on one line. -/
def tagLines : Reporter := fun items =>
  (items.mapM Aggregate.asComment).map fun cs =>
    ",".intercalate (cs.map fun c => c.tag.display ++ "@" ++ c.line.toData.display)

/-- The report of a name. -/
def named? : String → Option Reporter
  | "table" => some table
  | "json" => some json
  | "raw" => some raw
  | "markdown" => some markdown
  | "xml" => some xml
  | _ => none

/-- The report that a value names. -/
def find (name : Data) : Except Failure Reporter := do
  match (← name.asKey).bind named? with
  | some r => .ok r
  | none => .error (.unknownReporter name.display)

/-- Items with the mappings read as comments. -/
def readItems (items : List Item) : Except Failure (List Item) :=
  items.mapM Aggregate.readItem

/-- A report of items by a given reporter. -/
def renderWith (r : Reporter) (items : List Item) : Except Failure String :=
  (readItems items).bind r

/-- A report of items. -/
def render (items : List Item) (name : Data) : Except Failure String := do
  let items ← readItems items
  let r ← find name
  r items

end TaggedComments.Report
