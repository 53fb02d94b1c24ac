import Mathlib.Algebra.GroupWithZero.Nat
import Mathlib.Algebra.Order.BigOperators.Group.List
import Mathlib.Algebra.Order.Group.Nat
import TaggedComments.Jobs
import TaggedComments.Proofs.Steps

/-!
# What jobs come to

A pool comes to what its jobs come to one after the other, however its workers take turns: the
outcome of a job depends on the job alone, and outcomes are taken in the order of the jobs. A pool
that has no answer yet can always go on, and none goes on forever.

- `Pool.Step` lists what an event can do, `Pool.step?_eq_some_iff` says that it lists everything.
- `Pool.Serves` is what holds of a pool with given jobs, at the start and after every event.
- `Pool.Serves.answer?_eq_some` says that an answer is that of the jobs one after the other.
- `Pool.Serves.answer?_eq_none_iff` and `Pool.length_le_of_after?` say that there will be one,
  `Pool.Serves.exists_answer` that some schedule leads to it.
-/

namespace TaggedComments

variable {ι ε α : Type} {work : ι → Except ε α}

/-- Doing jobs one after the other is one step for each of them. -/
theorem Jobs.inOrder_snd (xs : List ι) : (inOrder work xs).2 = xs.mapM work := by
  induction xs with
  | nil => rfl
  | cons x xs ih =>
    rw [inOrder, List.mapM_cons]
    cases work x with
    | error e => rfl
    | ok a =>
      rw [ok_bind, ← ih]
      cases (inOrder work xs).2 <;> rfl

namespace Pool

variable {p q : Pool ι ε α} {event : Event} {schedule : List Event} {jobs : List ι}

/-! ## Section 1: One event -/

/-- What an event can do to a pool. -/
inductive Step (work : ι → Except ε α) (p : Pool ι ε α) : Event → Pool ι ε α → Prop where
  | started {i : Nat} {x : ι} (htask : p.tasks[i]? = some ⟨x, .waiting⟩)
      (hfree : p.busy < p.workers) : Step work p (.start i) (p.advance i ⟨x, .running⟩)
  | finished {i : Nat} {x : ι} (htask : p.tasks[i]? = some ⟨x, .running⟩) :
      Step work p (.finish i) (p.advance i ⟨x, .done (work x)⟩)
  | gained {x : ι} {a : α} (hopen : p.failure = none)
      (htask : p.tasks[p.taken.length]? = some ⟨x, .done (.ok a)⟩) : Step work p .take (p.gain a)
  | gaveUp {x : ι} {e : ε} (hopen : p.failure = none)
      (htask : p.tasks[p.taken.length]? = some ⟨x, .done (.error e)⟩) :
      Step work p .take (p.giveUp e)

theorem step?_eq_some_iff : p.step? work event = some q ↔ Step work p event q := by
  constructor
  · intro h
    cases event with
    | start i =>
      simp only [step?] at h
      split at h
      · next x htask =>
        obtain ⟨hfree, hq⟩ := Option.ite_none_right_eq_some.mp h
        cases hq
        exact .started htask hfree
      · cases h
    | finish i =>
      simp only [step?] at h
      split at h
      · next x htask =>
        cases h
        exact .finished htask
      · cases h
    | take =>
      simp only [step?] at h
      split at h
      · next x a hopen htask =>
        cases h
        exact .gained hopen htask
      · next x e hopen htask =>
        cases h
        exact .gaveUp hopen htask
      · cases h
  · intro h
    cases h with
    | started htask hfree => simp only [step?, htask, hfree, if_true]
    | finished htask => simp only [step?, htask]
    | gained hopen htask => simp only [step?, hopen, htask]
    | gaveUp hopen htask => simp only [step?, hopen, htask]

theorem after?_cons :
    p.after? work (event :: schedule) = (p.step? work event).bind (·.after? work schedule) := by
  rfl

theorem after?_append (more : List Event) :
    p.after? work (schedule ++ more) = (p.after? work schedule).bind (·.after? work more) := by
  exact List.foldlM_append

/-- A schedule can go on if its pool has a possible event. -/
theorem after?_concat_eq_some_iff :
    p.after? work (schedule ++ [event]) = some q ↔
      ∃ p', p.after? work schedule = some p' ∧ Step work p' event q := by
  rw [after?_append, Option.bind_eq_some_iff]
  apply exists_congr
  intro p'
  rw [after?_cons, ← step?_eq_some_iff]
  cases p'.step? work event <;> simp [after?]

/-- The number of workers stays. -/
theorem Step.workers (h : Step work p event q) : q.workers = p.workers := by
  cases h <;> rfl

/-! ## Section 2: What holds of a pool at any time -/

/-- A pool that serves given jobs. -/
structure Serves (work : ι → Except ε α) (jobs : List ι) (p : Pool ι ε α) : Prop where
  /-- The jobs are those that were handed in. -/
  job : p.tasks.map (·.job) = jobs
  /-- The outcome of a job is its own. -/
  outcome : ∀ t ∈ p.tasks, ∀ r, t.progress = .done r → r = work t.job
  /-- The results that were taken are those of the first jobs. -/
  taken : (jobs.take p.taken.length).mapM work = .ok p.taken
  /-- These jobs are done. -/
  settled : ∀ i < p.taken.length, ∃ x r, p.tasks[i]? = some ⟨x, .done r⟩
  /-- A failure is that of the next job, and no job waits any more. -/
  failed : ∀ e, p.failure = some e →
    (∃ x, jobs[p.taken.length]? = some x ∧ work x = .error e)
      ∧ ∀ t ∈ p.tasks, t.progress ≠ .waiting
  /-- Without a failure no job is called off. -/
  kept : p.failure = none → ∀ t ∈ p.tasks, t.progress ≠ .calledOff

theorem serves_submit (workers : Nat) (jobs : List ι) :
    Serves work jobs (submit workers jobs) where
  job := by simp [submit, Function.comp_def]
  outcome := by simp [submit]
  taken := rfl
  settled := by simp [submit]
  failed := by simp [submit]
  kept := by simp [submit]

/-- The job at a place. -/
theorem Serves.job_of_getElem? (h : Serves work jobs p) {i : Nat} {t : Task ι ε α}
    (ht : p.tasks[i]? = some t) : jobs[i]? = some t.job := by
  rw [← h.job, List.getElem?_map, ht]
  rfl

/-- A job that a worker has taken up or done, not more, makes progress. -/
theorem Serves.advance (h : Serves work jobs p) {i : Nat} {t t' : Task ι ε α}
    (ht : p.tasks[i]? = some t) (hundone : ∀ r, t.progress ≠ .done r) (hjob : t'.job = t.job)
    (hbegun : t'.progress.hasBegun = true) (hown : ∀ r, t'.progress = .done r → r = work t'.job) :
    Serves work jobs (p.advance i t') := by
  have hwaiting : t'.progress ≠ .waiting := by
    intro hw
    simp [hw, Progress.hasBegun] at hbegun
  have hoff : t'.progress ≠ .calledOff := by
    intro hw
    simp [hw, Progress.hasBegun] at hbegun
  constructor
  · -- The job itself stays.
    obtain ⟨hlt, hget⟩ := List.getElem?_eq_some_iff.mp (h.job_of_getElem? ht)
    rw [Pool.advance, List.map_set, h.job, hjob, ← hget, List.set_getElem_self]
  · intro u hu r hr
    rcases List.mem_or_eq_of_mem_set hu with hu | rfl
    · exact h.outcome u hu r hr
    · exact hown r hr
  · exact h.taken
  · intro j hj
    obtain ⟨x, r, hx⟩ := h.settled j hj
    -- A job that was done does not make progress any more.
    have hne : i ≠ j := by
      rintro rfl
      rw [ht] at hx
      cases hx
      exact hundone r rfl
    refine ⟨x, r, ?_⟩
    rw [Pool.advance, List.getElem?_set_ne hne]
    exact hx
  · intro e he
    refine ⟨(h.failed e he).1, ?_⟩
    intro u hu
    rcases List.mem_or_eq_of_mem_set hu with hu | rfl
    · exact (h.failed e he).2 u hu
    · exact hwaiting
  · intro hopen u hu
    rcases List.mem_or_eq_of_mem_set hu with hu | rfl
    · exact h.kept hopen u hu
    · exact hoff

/-- One event keeps what holds of a pool. -/
theorem Serves.step (h : Serves work jobs p) (hstep : Step work p event q) :
    Serves work jobs q := by
  cases hstep with
  | started htask hfree =>
    apply h.advance htask
    · simp
    · rfl
    · rfl
    · simp
  | finished htask =>
    apply h.advance htask
    · simp
    · rfl
    · rfl
    · simp
  | @gained x a hopen htask =>
    have hjob := h.job_of_getElem? htask
    have hwork : work x = .ok a :=
      (h.outcome _ (List.mem_of_getElem? htask) _ rfl).symm
    refine ⟨h.job, h.outcome, ?_, ?_, ?_, h.kept⟩
    · rw [Pool.gain, List.length_append, List.length_singleton, List.take_add_one, hjob,
        List.mapM_append, h.taken, Option.toList_some, List.mapM_cons, hwork]
      rfl
    · intro i hi
      rw [Pool.gain, List.length_append, List.length_singleton] at hi
      rcases Nat.lt_succ_iff_lt_or_eq.mp hi with hi | rfl
      · exact h.settled i hi
      · exact ⟨x, _, htask⟩
    · intro e he
      rw [Pool.gain, hopen] at he
      cases he
  | @gaveUp x e hopen htask =>
    have hjob := h.job_of_getElem? htask
    have hwork : work x = .error e :=
      (h.outcome _ (List.mem_of_getElem? htask) _ rfl).symm
    constructor
    · rw [← h.job, Pool.giveUp, List.map_map]
      rfl
    · intro u hu r hr
      obtain ⟨t, ht, rfl⟩ := List.mem_map.mp hu
      -- Only waiting jobs change, so this one was done before.
      apply h.outcome t ht r
      cases hprogress : t.progress with
      | done r' => simpa [hprogress, Progress.callOff] using hr
      | waiting | running | calledOff => simp [hprogress, Progress.callOff] at hr
    · exact h.taken
    · intro i hi
      obtain ⟨y, r, hy⟩ := h.settled i hi
      refine ⟨y, r, ?_⟩
      simp [Pool.giveUp, hy, Progress.callOff]
    · intro e' he'
      cases he'
      refine ⟨⟨x, hjob, hwork⟩, ?_⟩
      intro u hu
      obtain ⟨t, ht, rfl⟩ := List.mem_map.mp hu
      cases t.progress <;> simp [Progress.callOff]
    · intro hnone
      cases hnone

/-- A whole schedule keeps what holds of a pool. -/
theorem Serves.after (h : Serves work jobs p) (hq : p.after? work schedule = some q) :
    Serves work jobs q ∧ q.workers = p.workers := by
  induction schedule generalizing p with
  | nil =>
    cases hq
    exact ⟨h, rfl⟩
  | cons event schedule ih =>
    rw [after?_cons, Option.bind_eq_some_iff] at hq
    obtain ⟨p', hp', hq⟩ := hq
    have hstep := step?_eq_some_iff.mp hp'
    obtain ⟨hserves, hworkers⟩ := ih (h.step hstep) hq
    exact ⟨hserves, hworkers.trans hstep.workers⟩

/-! ## Section 3: The answer -/

/-- An answer is that of the jobs one after the other. -/
theorem Serves.answer?_eq_some (h : Serves work jobs p) {r : Except ε (List α)}
    (hr : p.answer? = some r) : r = jobs.mapM work := by
  rw [answer?] at hr
  split at hr
  · next e he =>
    obtain ⟨-, hr⟩ := Option.ite_none_right_eq_some.mp hr
    cases hr
    obtain ⟨⟨x, hx, hwork⟩, -⟩ := h.failed e he
    obtain ⟨hlt, rfl⟩ := List.getElem?_eq_some_iff.mp hx
    -- All jobs before the one that failed have given results.
    apply Eq.symm
    apply mapM_eq_error_iff.mpr
    refine ⟨jobs.take p.taken.length, _, jobs.drop (p.taken.length + 1), ?_,
      mapM_isOk_iff.mp ⟨_, h.taken⟩, hwork⟩
    rw [← List.drop_eq_getElem_cons hlt, List.take_append_drop]
  · obtain ⟨hall, hr⟩ := Option.ite_none_right_eq_some.mp hr
    cases hr
    have hlength : p.taken.length = jobs.length := by
      rw [hall, ← h.job, List.length_map]
    rw [← h.taken, hlength, List.take_length]

theorem exists_running (h : p.busy ≠ 0) :
    ∃ (i : Nat) (x : ι), p.tasks[i]? = some ⟨x, .running⟩ := by
  obtain ⟨⟨x, progress⟩, ht, hrunning⟩ := List.countP_pos_iff.mp (Nat.pos_of_ne_zero h)
  obtain ⟨i, hi⟩ := List.getElem?_of_mem ht
  cases progress with
  | running => exact ⟨i, x, hi⟩
  | waiting | done | calledOff => cases hrunning

/-- A pool has no answer as long as something may still happen. -/
theorem Serves.answer?_eq_none_iff (h : Serves work jobs p) (hworkers : 0 < p.workers) :
    p.answer? = none ↔ ∃ event q, Step work p event q := by
  constructor
  · intro hnone
    rw [answer?] at hnone
    split at hnone
    · -- The failure is held back by a job under way.
      have hbusy : p.busy ≠ 0 := by simpa using hnone
      obtain ⟨i, x, hi⟩ := exists_running hbusy
      exact ⟨_, _, .finished hi⟩
    · next hopen =>
      have hlt : p.taken.length < p.tasks.length := by
        have hle : p.taken.length ≤ p.tasks.length := by
          apply Nat.le_of_not_lt
          intro hlt
          obtain ⟨x, r, hx⟩ := h.settled _ hlt
          exact Nat.lt_irrefl _ (List.getElem?_eq_some_iff.mp hx).1
        have hne : p.taken.length ≠ p.tasks.length := by simpa using hnone
        exact Nat.lt_of_le_of_ne hle hne
      -- The outcome that is to be taken next is there, or a worker can bring it nearer.
      have htask := List.getElem?_eq_getElem hlt
      have hkept := h.kept hopen _ (List.getElem_mem hlt)
      generalize p.tasks[p.taken.length] = t at htask hkept
      obtain ⟨x, progress⟩ := t
      cases progress with
      | waiting =>
        by_cases hfree : p.busy < p.workers
        · exact ⟨_, _, .started htask hfree⟩
        · obtain ⟨i, y, hi⟩ := exists_running (p := p) (by omega)
          exact ⟨_, _, .finished hi⟩
      | running => exact ⟨_, _, .finished htask⟩
      | done r =>
        cases r with
        | ok a => exact ⟨_, _, .gained hopen htask⟩
        | error e => exact ⟨_, _, .gaveUp hopen htask⟩
      | calledOff => exact absurd rfl hkept
  · rintro ⟨event, q, hstep⟩
    rw [answer?]
    cases hstep with
    | @started i x htask hfree =>
      -- A waiting job was not called off, and its outcome was not taken.
      have hopen : p.failure = none := by
        apply Option.eq_none_iff_forall_ne_some.mpr
        intro e he
        exact (h.failed e he).2 _ (List.mem_of_getElem? htask) rfl
      have hne : p.taken.length ≠ p.tasks.length := by
        intro hall
        obtain ⟨y, r, hy⟩ := h.settled i (hall ▸ (List.getElem?_eq_some_iff.mp htask).1)
        rw [htask] at hy
        cases hy
      simp [hopen, hne]
    | @finished i x htask =>
      have hbusy : p.busy ≠ 0 := by
        apply Nat.ne_of_gt
        exact List.countP_pos_iff.mpr ⟨_, List.mem_of_getElem? htask, rfl⟩
      have hne : p.taken.length ≠ p.tasks.length := by
        intro hall
        obtain ⟨y, r, hy⟩ := h.settled i (hall ▸ (List.getElem?_eq_some_iff.mp htask).1)
        rw [htask] at hy
        cases hy
      cases p.failure <;> simp [hbusy, hne]
    | gained hopen htask | gaveUp hopen htask =>
      have hne := Nat.ne_of_lt (List.getElem?_eq_some_iff.mp htask).1
      simp [hopen, hne]

/-! ## Section 4: The number of events -/

/-- How many events a job still takes, without taking its outcome. -/
def effort : Progress ε α → Nat
  | .waiting => 2
  | .running => 1
  | .done _ | .calledOff => 0

theorem sum_effort_set_lt {ts : List (Task ι ε α)} {i : Nat} {t u : Task ι ε α}
    (ht : ts[i]? = some t) (hlt : effort u.progress < effort t.progress) :
    ((ts.set i u).map (effort ·.progress)).sum < (ts.map (effort ·.progress)).sum := by
  induction ts generalizing i with
  | nil => cases ht
  | cons v ts ih =>
    cases i with
    | zero =>
      cases ht
      simpa using hlt
    | succ i => simpa using ih ht

/-- How many events there can still be. -/
def remaining (p : Pool ι ε α) : Nat :=
  (p.tasks.map (effort ·.progress)).sum
    + if p.failure.isSome then 0 else p.tasks.length - p.taken.length

theorem remaining_submit (workers : Nat) (jobs : List ι) :
    remaining (submit workers jobs : Pool ι ε α) = 3 * jobs.length := by
  simp [remaining, submit, effort, Function.comp_def]
  omega

/-- Every event leaves fewer for later. -/
theorem Step.remaining_lt (h : Step work p event q) : q.remaining < p.remaining := by
  cases h with
  | @started i x htask hfree =>
    have hlt := sum_effort_set_lt (u := ⟨x, .running⟩) htask (Nat.lt_succ_self 1)
    simp only [remaining, advance, List.length_set]
    omega
  | @finished i x htask =>
    have hlt := sum_effort_set_lt (u := ⟨x, .done (work x)⟩) htask (Nat.lt_succ_self 0)
    simp only [remaining, advance, List.length_set]
    omega
  | gained hopen htask =>
    have hlt := (List.getElem?_eq_some_iff.mp htask).1
    simp [remaining, gain, hopen]
    omega
  | gaveUp hopen htask =>
    have hlt := (List.getElem?_eq_some_iff.mp htask).1
    have hle : (p.tasks.map fun t => effort t.progress.callOff).sum
        ≤ (p.tasks.map (effort ·.progress)).sum := by
      apply List.sum_le_sum
      intro t ht
      cases t.progress <;> simp [Progress.callOff, effort]
    simp [remaining, giveUp, hopen, Function.comp_def]
    omega

/-- No schedule is longer than what the jobs take. -/
theorem length_le_of_after? (h : p.after? work schedule = some q) :
    schedule.length + q.remaining ≤ p.remaining := by
  induction schedule generalizing p with
  | nil =>
    cases h
    simp
  | cons event schedule ih =>
    rw [after?_cons, Option.bind_eq_some_iff] at h
    obtain ⟨p', hp', h⟩ := h
    have hlt := (step?_eq_some_iff.mp hp').remaining_lt
    have hle := ih h
    rw [List.length_cons]
    omega

/-- Some schedule brings a pool to its answer. -/
theorem Serves.exists_answer (h : Serves work jobs p) (hworkers : 0 < p.workers) :
    ∃ schedule q, p.after? work schedule = some q ∧ q.answer? = some (jobs.mapM work) := by
  -- Every event leaves fewer for later, so a pool without an answer cannot go on forever.
  induction hn : p.remaining using Nat.strong_induction_on generalizing p with
  | _ n ih =>
    cases hanswer : p.answer? with
    | some r => exact ⟨[], p, rfl, by rw [hanswer, h.answer?_eq_some hanswer]⟩
    | none =>
      obtain ⟨event, p', hstep⟩ := (h.answer?_eq_none_iff hworkers).mp hanswer
      obtain ⟨schedule, q, hq, hr⟩ := ih p'.remaining (hn ▸ hstep.remaining_lt) (h.step hstep)
        (hstep.workers ▸ hworkers) rfl
      refine ⟨event :: schedule, q, ?_, hr⟩
      rw [after?_cons, step?_eq_some_iff.mpr hstep]
      exact hq

end Pool

end TaggedComments
