import TaggedComments.Aggregate
import TaggedComments.Jobs

/-!
# Running parsers at the same time

The parsers of a request may be run by several workers. Nothing changes before and after that: all
parsers are set up first, one by one, and their output is put together in the order of their names.

- `Aggregate.runWith` runs a request with a number of workers, under a schedule of what the workers
  do; `Observation` is what can be seen of it then.
-/

namespace TaggedComments

/-- What can be seen of a run. -/
structure Observation where
  /-- How many parsers were given the text. -/
  begun : Nat
  /-- What the run came to, if it is over. -/
  result : Option (Traced (List Comment))

namespace Aggregate

/-- The number of items and the comments of what parsers put out. -/
def putTogether (outputs : List (List Item)) : Except Failure (Nat × List Comment) := do
  let merged ← merge outputs
  let sorted ← sort merged
  let kept ← dropRepeated sorted
  return (merged.length, kept)

/-- The end of a run: what the parsers put out is put together and counted. -/
def conclude (names : List String) (file : Data) (outputs : Except Failure (List (List Item))) :
    Traced (List Comment) :=
  match outputs >>= putTogether with
  | .ok (items, kept) =>
    ⟨[⟨.debug, logSource, summary file names.length items kept.length⟩], .ok kept⟩
  | .error e => .fail e

/-- The number of workers that a setting asks for: at least one. -/
def workerCount (setting : Int) : Nat :=
  (max 1 setting).toNat

/-- A run under a schedule, if the schedule is possible. There is a pool if more than one worker and
more than one parser are there, and else nothing to schedule. -/
def runWith (setting : Int) (schedule : List Pool.Event) (overrides catalogue : Catalogue)
    (custom : List Data) (names : List String) (content : String) (file : Data) :
    Option Observation :=
  match setUp overrides catalogue custom names with
  | .error e => if schedule.isEmpty then some ⟨0, some (.fail e)⟩ else none
  | .ok extractors =>
    let work := fun x : Extractor => x content file
    let workers := workerCount setting
    if 1 < workers ∧ 1 < extractors.length then
      ((Pool.submit (min workers extractors.length) extractors).after? work schedule).map fun p =>
        ⟨p.begun, p.answer?.map (conclude names file)⟩
    else if schedule.isEmpty then
      let outputs := Jobs.inOrder work extractors
      some ⟨outputs.1, some (conclude names file outputs.2)⟩
    else none

end Aggregate

end TaggedComments
