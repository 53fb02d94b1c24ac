import TaggedComments.Aggregate

/-!
# Grouping comments

Reports list comments under headings and count them. Either is done in a table that takes up one
comment after another: its keys stand in the order in which they first occur, and the comments of a
key are taken up in the order of the list.

- `amend` changes the value of one key of a table, `tabulate` fills a table with comments.
- `groupOn` groups comments by a key, `countOn` counts the comments of each key.
- `keysOf` are the keys of comments, each where it first occurs.
-/

namespace TaggedComments.Report

variable {β : Type}

/-- The table after the value of a key is changed. A key that is there keeps its place; a new one
comes last, and its value is changed from a first one. -/
def amend (key : Data) (first : β) (change : β → β) : List (Data × β) → List (Data × β)
  | [] => [(key, change first)]
  | x :: xs =>
    if x.1.same key then (x.1, change x.2) :: xs else x :: amend key first change xs

/-- The table that has taken up comments one after another. -/
def tabulate (key : Comment → Data) (first : β) (add : β → Comment → β) (cs : List Comment) :
    List (Data × β) :=
  cs.foldl (fun table c => amend (key c) first (fun v => add v c) table) []

/-- The comments of each key. -/
def groupOn (key : Comment → Data) (cs : List Comment) : List (Data × List Comment) :=
  tabulate key [] (fun group c => group ++ [c]) cs

/-- The number of comments of each key. -/
def countOn (key : Comment → Data) (cs : List Comment) : List (Data × Nat) :=
  tabulate key 0 (fun n _ => n + 1) cs

/-- The keys of comments, each where it first occurs. -/
def keysOf (key : Comment → Data) (cs : List Comment) : List Data :=
  distinctBy Data.same (cs.map key)

end TaggedComments.Report
