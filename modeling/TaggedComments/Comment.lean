import TaggedComments.Data.Access
import TaggedComments.Extract.Body

/-!
# Comments

A tagged comment as reports and parsers exchange it. Only the line number is guaranteed to have
the right form; the other parts are texts when the comment comes from a builtin grammar and may
be anything when it comes from elsewhere.

- `LineNumber` is a positive line number, `Comment` a comment.
- `Comment.ofFields` builds a comment from given parts, `Comment.ofData` reads one from a
  mapping with lenient conversions.
- `Comment.toData` is the mapping of a comment.
- `Comment.sameKey` says when two comments of one file count as the same.
-/

namespace TaggedComments

/-- The number of a line, from one. The truth value, which counts as the number one, is kept
apart: it is shown as it was given. -/
inductive LineNumber where
  /-- A positive number. -/
  | number (n : Nat) (pos : 0 < n)
  /-- The truth value. -/
  | truth
  deriving DecidableEq

namespace LineNumber

/-- The number. -/
def value : LineNumber → Nat
  | number n _ => n
  | truth => 1

theorem value_pos (l : LineNumber) : 0 < l.value := by
  cases l with
  | number n pos => exact pos
  | truth => exact Nat.one_pos

/-- The first line. -/
def first : LineNumber := number 1 Nat.one_pos

/-- A line number as a value. -/
def toData : LineNumber → Data
  | number n _ => .int n
  | truth => .bool true

/-- A value as a line number: a positive integer. -/
def ofData (d : Data) : Except Failure LineNumber :=
  match d with
  | .int n => if h : 0 < n.toNat then .ok (number n.toNat h) else .error (.badLine d)
  | .bool true => .ok truth
  | _ => .error (.badLine d)

@[simp] theorem ofData_toData (l : LineNumber) : ofData l.toData = .ok l := by
  cases l with
  | number n pos => simp [toData, ofData, pos]
  | truth => rfl

end LineNumber

/-- A tagged comment. -/
structure Comment where
  /-- The tag. -/
  tag : Data
  /-- The line. -/
  line : LineNumber
  /-- The message. -/
  text : Data
  /-- The reference. -/
  ref : Data
  /-- The file. -/
  file : Data
  deriving DecidableEq

namespace Comment

/-- The names of the parts of a comment. -/
def partNames : List String := ["tag", "line", "text", "ref", "file"]

/-- A comment from given parts, the others having their defaults. No other part may be given. -/
def ofFields (parts : Data) : Except Failure Comment :=
  match parts with
  | .mapping es =>
    if es.all fun e => partNames.any fun n => e.1 = .text n then do
      let line ← LineNumber.ofData ((parts.get? "line").getD (.int 1))
      return {
        tag := (parts.get? "tag").getD (.text "TODO")
        line := line
        text := (parts.get? "text").getD (.text "")
        ref := (parts.get? "ref").getD (.text "")
        file := (parts.get? "file").getD .null }
    else .error .wrongKind
  | _ => .error .wrongKind

/-- A comment from a mapping: the tag as it is displayed, the integer that the line stands for,
message and reference unless they count as false. -/
def ofData (d : Data) : Except Failure Comment := do
  let tag ← d.field "tag"
  let line ← ((d.get? "line").getD (.int 0)).toInt
  let line ← LineNumber.ofData (.int line)
  return {
    tag := .text (tag.getD (.text "")).display
    line := line
    text := ((d.get? "text").getD .null).orElse (.text "")
    ref := ((d.get? "ref").getD .null).orElse (.text "")
    file := (d.get? "file").getD .null }

/-- The parts of a comment with their names, in the order in which they are written. -/
def fields (c : Comment) : List (String × Data) :=
  [("file", c.file), ("tag", c.tag), ("line", c.line.toData), ("text", c.text), ("ref", c.ref)]

/-- A comment as a mapping. -/
def toData (c : Comment) : Data :=
  .mapping (c.fields.map fun f => (.text f.1, f.2))

/-- The parts that identify a comment in its file. -/
def key (c : Comment) : List Data :=
  [c.line.toData, c.tag, c.text]

/-- Whether the identifying parts may be used as a key. -/
def hasKey (c : Comment) : Bool :=
  c.tag.isKey && c.text.isKey

/-- Whether two comments have the same line, tag and message. -/
def sameKey (c d : Comment) : Bool :=
  c.line.value == d.line.value && c.tag.same d.tag && c.text.same d.text

/-- A comment whose parts are texts, and whose file is a text or missing. -/
def WellTyped (c : Comment) : Prop :=
  (∃ s, c.tag = .text s) ∧ (∃ n pos, c.line = .number n pos) ∧ (∃ s, c.text = .text s)
    ∧ (∃ s, c.ref = .text s) ∧ (c.file = .null ∨ ∃ s, c.file = .text s)

/-- The comment that a finding in a file makes. -/
def ofFinding (file : Data) (f : Finding) : Comment where
  tag := .text f.tag
  line := if h : 0 < f.line then .number f.line h else .first
  text := .text f.text
  ref := .text f.ref
  file := file

end Comment

end TaggedComments
