import TaggedComments.Report.Group

/-!
# The table report

Comments under the names of their files, in aligned columns, and a summary that counts the tags.

- `row` is the line of a comment, `table` the report.
- `summary` counts the tags in the order in which they first occur.
-/

namespace TaggedComments.Report

/-- What stands for the name of a text that has no file. -/
def standardInput : String := "<stdin>"

/-- A text with blanks after it up to a width. -/
def padRight (width : Nat) (s : String) : String :=
  s ++ String.ofList (List.replicate (width - s.length) ' ')

/-- The name of a kind of number, as a message names it. -/
def numberKind? : Data → Option String
  | .int _ => some "int"
  | .bool _ => some "bool"
  | .real _ => some "float"
  | _ => none

/-- A tag laid out in its column; only texts can be laid out. -/
def tagColumn (d : Data) : Except Failure String :=
  match d.asText?, numberKind? d with
  | some s, _ => .ok (padRight 8 s)
  | none, some kind => .error (.notPaddable kind)
  | none, none => .error .wrongKind

/-- A reference in brackets after the message, if it counts as true. -/
def refSuffix (d : Data) : String :=
  if d.truthy then " [" ++ d.display ++ "]" else ""

/-- The line of a comment. -/
def row (c : Comment) : Except Failure String :=
  (tagColumn c.tag).map fun tag =>
    "  line " ++ padRight 5 (toString c.line.value) ++ " " ++ tag ++ " " ++ c.text.display
      ++ refSuffix c.ref

/-- The key of the file of a comment: whatever counts as false is no name. -/
def fileKey (c : Comment) : Data :=
  c.file.orElse (.text "")

/-- The heading of a file; only a text can be a line of the report. -/
def heading (key : Data) : Except Failure String :=
  match key.asText? with
  | some s => .ok (if s.isEmpty then standardInput else s)
  | none => .error .wrongKind

/-- The number of comments of each tag. -/
def tagCounts (cs : List Comment) : List (String × Nat) :=
  (countOn (·.tag) cs).map fun x => (x.1.display, x.2)

/-- The last line of the report. -/
def summary (cs : List Comment) : String :=
  "Found " ++ toString cs.length ++ " item(s): "
    ++ ", ".intercalate ((tagCounts cs).map fun x => toString x.2 ++ " " ++ x.1)

/-- The rows of each file. -/
def fileRows (cs : List Comment) : Except Failure (List (Data × List String)) :=
  (groupOn fileKey cs).mapM fun g => (g.2.mapM row).map fun rows => (g.1, rows)

/-- The lines of a file: its name, its rows and an empty line. -/
def section? (g : Data × List String) : Except Failure (List String) :=
  (heading g.1).map fun h => h :: g.2 ++ [""]

/-- The table of comments whose files may be keys. -/
def tableOf (cs : List Comment) : Except Failure String :=
  if cs.isEmpty then .ok "No todos/fixmes found."
  else do
    let rows ← fileRows cs
    let sections ← rows.mapM section?
    return "\n".intercalate (sections.flatten ++ [summary cs])

/-- A comment whose file may be a key. -/
def withFileKey (i : Item) : Except Failure Comment := do
  let c ← Aggregate.asComment i
  if (fileKey c).isKey then .ok c else .error .wrongKind

/-- The table report. -/
def table (items : List Item) : Except Failure String :=
  (items.mapM withFileKey).bind tableOf

end TaggedComments.Report
