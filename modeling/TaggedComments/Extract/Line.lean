import TaggedComments.Extract.Block
import TaggedComments.Extract.Body
import TaggedComments.Grammar.Builtin

/-!
# Line comments

A line is searched from left to right for a marker with a body behind it. A marker counts at
the start of the line and after white space, and outside every block.

- `commentAt?` reads a comment at a cursor in a line.
- `searchLine` finds the first one.
-/

namespace TaggedComments.Grammar

/-- Read a comment at a cursor in a line: a marker, blanks, a body. -/
def commentAt? (g : Grammar) (names : List (List Char)) (p : Cursor) : Option Body :=
  if p.atBoundary then
    g.lineMarkers.findSome? fun m =>
      (Pattern.ends (m ++ [blanks]) p).findSome? fun q => Body.read? names q.rest
  else none

/-- The first comment of a line outside the covered offsets. -/
def searchLine (g : Grammar) (names : List (List Char)) (covered : Nat → Bool) :
    Nat → Option Char → List Char → Option Body
  | offset, b, [] => if covered offset then none else g.commentAt? names ⟨b, []⟩
  | offset, b, c :: r =>
    match if covered offset then none else g.commentAt? names ⟨b, c :: r⟩ with
    | some x => some x
    | none => searchLine g names covered (offset + 1) (some c) r

end TaggedComments.Grammar
