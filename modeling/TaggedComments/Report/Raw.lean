import TaggedComments.Report.Table
import TaggedComments.Text.Blank

/-!
# The raw report

One line a comment: file, line, tag and message.

- `rawLine` is the line of a comment, `raw` the report.
-/

namespace TaggedComments.Report

/-- The line of a comment, without white space at its end. -/
def rawLine (c : Comment) : String :=
  String.ofList (Text.trimRight ((c.file.orElse (.text standardInput)).display ++ ":"
    ++ c.line.toData.display ++ " " ++ c.tag.display ++ " " ++ c.text.display).toList)

/-- The raw report. -/
def raw (items : List Item) : Except Failure String :=
  (items.mapM Aggregate.asComment).map fun cs => "\n".intercalate (cs.map rawLine)

end TaggedComments.Report
