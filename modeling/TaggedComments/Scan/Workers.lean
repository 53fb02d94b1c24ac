import TaggedComments.Aggregate.Workers
import TaggedComments.Scan.Basic

/-!
# Reading files at the same time

The files of a scan are read by several workers, and all of them before the first is parsed. They
are then parsed one after another, in the order in which they were given; the request that a file
makes finds the registry that the requests before it have left.

- `Scanner.parseInTurn` parses files that were read and gives the registry afterwards.
- `Scanner.scanWith` is a scan with a number of workers, under a schedule of what the workers do.
-/

namespace TaggedComments.Scanner

/-- A file with its bytes. -/
def readFile (s : Scanner) (p : Path) : Except Failure (Path × List Nat) :=
  (s.discovery.system.read p).map fun bytes => (p, bytes)

/-- The request that a file makes under settings. -/
def fileRequest (config : Config) (file : Path × List Nat) : Request :=
  request config (.text (textOf file.2)) (.text file.1.suffix) (.text file.1.display)

/-- Files that are parsed one after another: the registry afterwards, and the comments of all of them
or the first failure. -/
def parseInTurn (config : Config) :
    Registry → List (Path × List Nat) → Registry × Traced (List Comment)
  | r, [] => (r, pure [])
  | r, f :: fs =>
    let (r, own) := r.answer (fileRequest config f)
    match own.result with
    | .error e => (r, ⟨own.log, .error e⟩)
    | .ok cs =>
      let (r, more) := parseInTurn config r fs
      (r, (more >>= fun ds => pure (cs ++ ds)).after own.log)

/-- The end of a scan: the files are parsed if they could be read. -/
def conclude (s : Scanner) :
    Except Failure (List (Path × List Nat)) → Registry × Traced (List Comment)
  | .error e => (s.registry, .fail e)
  | .ok contents =>
    let (r, found) := parseInTurn s.config s.registry contents
    (r, do
      let cs ← found
      Traced.note .info logSource (summary contents.length cs.length)
      return cs)

/-- A scan under a schedule, if the schedule is possible and ends the reading: the registry
afterwards, and what the scan comes to. -/
def scanWith (s : Scanner) (setting : Int) (schedule : List Pool.Event) (files : List Path) :
    Option (Registry × Traced (List Comment)) :=
  let chosen := s.selectFiles files
  match chosen.result with
  | .error e => if schedule.isEmpty then some (s.registry, ⟨chosen.log, .error e⟩) else none
  | .ok kept =>
    let workers := Aggregate.workerCount setting
    (((Pool.submit workers kept).after? s.readFile schedule).bind (·.answer?)).map fun contents =>
      let (r, found) := s.conclude contents
      (r, found.after chosen.log)

end TaggedComments.Scanner
