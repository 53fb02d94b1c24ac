import TaggedComments.Distinct
import TaggedComments.Log
import TaggedComments.Parser.Basic

/-!
# Putting the output of parsers together

The items of several parsers are put one after the other, sorted by line, and freed of comments
that occur twice. The sort is stable and the first of equal comments stays, so on one line the
parser named first speaks first.

- `merge`, `sortByLine` and `dropRepeated` are the three steps.
- `normalForm` is the list of comments that results from comments alone.
- `runParsers` sets up the parsers of a request, runs them and puts their output together.
-/

namespace TaggedComments

/-- Comments sorted by line; on one line they keep their order. -/
def sortByLine (cs : List Comment) : List Comment :=
  cs.mergeSort fun a b => a.line.value ≤ b.line.value

/-- The comments whose line, tag and message did not occur before. -/
def firstOfKey (cs : List Comment) : List Comment :=
  distinctBy Comment.sameKey cs

/-- Comments sorted by line, each key once. -/
def normalForm (cs : List Comment) : List Comment :=
  firstOfKey (sortByLine cs)

namespace Aggregate

/-- An item with a mapping read as a comment. -/
def readItem : Item → Except Failure Item
  | .value (.mapping es) => (Comment.ofData (.mapping es)).map .comment
  | i => .ok i

/-- The items of all parsers, one parser after the other. -/
def merge (outputs : List (List Item)) : Except Failure (List Item) :=
  outputs.flatten.mapM readItem

/-- The comment that an item is; nothing else has a line to sort by. -/
def asComment : Item → Except Failure Comment
  | .comment c => .ok c
  | .value _ => .error .noSuchPart

/-- Items sorted by line. -/
def sort (items : List Item) : Except Failure (List Comment) :=
  (items.mapM asComment).map sortByLine

/-- Comments without repetitions; their keys have to be usable as keys. -/
def dropRepeated (cs : List Comment) : Except Failure (List Comment) :=
  if cs.all Comment.hasKey then .ok (firstOfKey cs) else .error .wrongKind

/-- Set up parsers: each is looked up and given the tags before the next. -/
def setUp (overrides catalogue : Catalogue) (custom : List Data) (names : List String) :
    Except Failure (List Extractor) :=
  names.mapM fun n => do
    let f ← Catalogue.resolve overrides catalogue n
    f custom

/-- The source of the log entry of a run. -/
def logSource : String := "todoscan.core.aggregator"

/-- What a run reports about itself. -/
def summary (file : Data) (parsers items kept : Nat) : String :=
  (file.orElse (.text "<content>")).display ++ ": " ++ toString parsers ++ " parser(s), "
    ++ toString items ++ " item(s), " ++ toString kept ++ " after dedup"

/-- The number of items and the comments of a request: all parsers are set up, then all run in
order, then their output is put together. -/
def collect (overrides catalogue : Catalogue) (custom : List Data) (names : List String)
    (content : String) (file : Data) : Except Failure (Nat × List Comment) := do
  let extractors ← setUp overrides catalogue custom names
  let outputs ← extractors.mapM fun x => x content file
  let merged ← merge outputs
  let sorted ← sort merged
  let kept ← dropRepeated sorted
  return (merged.length, kept)

/-- The comments of a request, with a log entry when it succeeds. -/
def runParsers (overrides catalogue : Catalogue) (custom : List Data) (names : List String)
    (content : String) (file : Data) : Traced (List Comment) :=
  match collect overrides catalogue custom names content file with
  | .ok (items, kept) =>
    ⟨[⟨.debug, logSource, summary file names.length items kept.length⟩], .ok kept⟩
  | .error e => .fail e

end Aggregate

end TaggedComments
