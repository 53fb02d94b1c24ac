import TaggedComments.Aggregate

/-!
# The XML report

One element a comment, with an attribute for each part that is not empty.

- `escapeXml` writes the characters that would end a value or a line.
- `quoteXml` puts a value between quotes that do not occur in it, if there are such.
- `element` is the line of a comment, `xml` the report.
-/

namespace TaggedComments.Report

/-- A character of a value. -/
def escapeXml : Char → List Char
  | '&' => "&amp;".toList
  | '<' => "&lt;".toList
  | '>' => "&gt;".toList
  | '\n' => "&#10;".toList
  | '\r' => "&#13;".toList
  | '\t' => "&#9;".toList
  | c => [c]

/-- A double quote inside double quotes. -/
def escapeQuote (c : Char) : List Char :=
  if c = '"' then "&quot;".toList else [c]

/-- A value between quotes: apostrophes if it holds a double quote and no apostrophe. -/
def quoteXml (s : List Char) : List Char :=
  let body := s.flatMap escapeXml
  if s.contains '"' then
    if s.contains '\'' then '"' :: body.flatMap escapeQuote ++ ['"']
    else '\'' :: body ++ ['\'']
  else '"' :: body ++ ['"']

/-- Whether a part is written: it is there and not the empty text. -/
def isWritten (d : Data) : Bool :=
  d != .null && d != .text ""

/-- The attribute of a part. -/
def attributeText (name : String) (d : Data) : String :=
  name ++ "=" ++ String.ofList (quoteXml d.display.toList)

/-- The line of a comment. -/
def element (c : Comment) : String :=
  let attributes := (c.fields.filter fun f => isWritten f.2).map fun f => attributeText f.1 f.2
  "  <todo " ++ " ".intercalate attributes ++ " />"

/-- The report of comments. -/
def xmlOf (cs : List Comment) : String :=
  "\n".intercalate (["<?xml version=\"1.0\" encoding=\"UTF-8\"?>", "<todos>"] ++ cs.map element
    ++ ["</todos>"])

/-- The XML report. -/
def xml (items : List Item) : Except Failure String :=
  (items.mapM Aggregate.asComment).map xmlOf

end TaggedComments.Report
