/-!
# Jobs

A list of jobs, each of which may fail, is done in one of two ways. One after the other, the first
failure ends it. In a pool, workers take the jobs up and finish them in any order, no more of them
at a time than there are workers. Each outcome is kept with its job. Whoever handed the jobs in
takes the outcomes in the order of the jobs, waiting where one is missing. The first failure ends
this too: jobs that no worker has taken up are called off, and those under way are waited for.

- `Jobs.inOrder` does jobs one after the other.
- `Pool` is a pool with its jobs, `Pool.submit` one that was just handed them.
- `Pool.step?` is what an `Event` makes of it, `Pool.after?` what a schedule of events does.
- `Pool.answer?` is what the jobs come to, once that is settled.
-/

namespace TaggedComments

variable {ι ε α : Type}

/-- Jobs done one after the other, up to the first that fails: how many were begun, and the results
or the failure. -/
def Jobs.inOrder (work : ι → Except ε α) : List ι → Nat × Except ε (List α)
  | [] => (0, .ok [])
  | x :: xs =>
    match work x with
    | .error e => (1, .error e)
    | .ok a => ((inOrder work xs).1 + 1, (inOrder work xs).2.map (a :: ·))

/-- How far a job is. -/
inductive Progress (ε α : Type) where
  /-- No worker has taken it up. -/
  | waiting
  /-- A worker does it. -/
  | running
  /-- A worker has done it. -/
  | done (outcome : Except ε α)
  /-- No worker will take it up. -/
  | calledOff

namespace Progress

/-- Whether a worker is busy with the job. -/
def isRunning : Progress ε α → Bool
  | running => true
  | _ => false

/-- Whether a worker has taken the job up. -/
def hasBegun : Progress ε α → Bool
  | running | done _ => true
  | _ => false

/-- A waiting job is called off. -/
def callOff : Progress ε α → Progress ε α
  | waiting => calledOff
  | p => p

end Progress

/-- A job with its progress. -/
structure Task (ι ε α : Type) where
  /-- The job. -/
  job : ι
  /-- How far it is. -/
  progress : Progress ε α

/-- A pool of workers that has been handed jobs. -/
structure Pool (ι ε α : Type) where
  /-- How many jobs are done at a time. -/
  workers : Nat
  /-- The jobs, in the order in which they were handed in. -/
  tasks : List (Task ι ε α)
  /-- The results that were taken. -/
  taken : List α
  /-- The failure that was met instead of the next result. -/
  failure : Option ε

namespace Pool

/-- What may happen next. -/
inductive Event where
  /-- A worker takes up the job of this number. -/
  | start (i : Nat)
  /-- A worker finishes the job of this number. -/
  | finish (i : Nat)
  /-- The next outcome is taken. -/
  | take
  deriving DecidableEq

/-- A pool that was just handed its jobs. -/
def submit (workers : Nat) (jobs : List ι) : Pool ι ε α :=
  ⟨workers, jobs.map (⟨·, .waiting⟩), [], none⟩

/-- The number of busy workers. -/
def busy (p : Pool ι ε α) : Nat :=
  p.tasks.countP fun t => t.progress.isRunning

/-- The number of jobs that were taken up. -/
def begun (p : Pool ι ε α) : Nat :=
  p.tasks.countP fun t => t.progress.hasBegun

/-- One job makes progress. -/
def advance (p : Pool ι ε α) (i : Nat) (t : Task ι ε α) : Pool ι ε α :=
  { p with tasks := p.tasks.set i t }

/-- A result was taken. -/
def gain (p : Pool ι ε α) (a : α) : Pool ι ε α :=
  { p with taken := p.taken ++ [a] }

/-- A failure was met in place of a result: no other job is taken up. -/
def giveUp (p : Pool ι ε α) (e : ε) : Pool ι ε α :=
  { p with
    tasks := p.tasks.map fun t => ⟨t.job, t.progress.callOff⟩
    failure := some e }

/-- What an event makes of a pool, if it is possible. -/
def step? (work : ι → Except ε α) (p : Pool ι ε α) : Event → Option (Pool ι ε α)
  | .start i =>
    match p.tasks[i]? with
    | some ⟨x, .waiting⟩ =>
      if p.busy < p.workers then some (p.advance i ⟨x, .running⟩) else none
    | _ => none
  | .finish i =>
    match p.tasks[i]? with
    | some ⟨x, .running⟩ => some (p.advance i ⟨x, .done (work x)⟩)
    | _ => none
  | .take =>
    match p.failure, p.tasks[p.taken.length]? with
    | none, some ⟨_, .done (.ok a)⟩ => some (p.gain a)
    | none, some ⟨_, .done (.error e)⟩ => some (p.giveUp e)
    | _, _ => none

/-- What events one after the other make of a pool, if each is possible. -/
def after? (work : ι → Except ε α) (p : Pool ι ε α) (schedule : List Event) :
    Option (Pool ι ε α) :=
  schedule.foldlM (step? work) p

/-- What the jobs come to. A failure is passed on when no worker is busy any more. -/
def answer? (p : Pool ι ε α) : Option (Except ε (List α)) :=
  match p.failure with
  | some e => if p.busy = 0 then some (.error e) else none
  | none => if p.taken.length = p.tasks.length then some (.ok p.taken) else none

end Pool

end TaggedComments
