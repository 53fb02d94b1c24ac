import TaggedComments.Aggregate.Workers
import TaggedComments.Proofs.Aggregate.Run
import TaggedComments.Proofs.Jobs

/-!
# Workers make no difference

A run of parsers comes to the same comments or the same failure however many workers there are and
in whatever order these get on. If a parser is unknown or cannot be set up, no parser is given the
text at all; else the first parser in the order of the names that fails decides the failure, not the
one that fails first.

- `Aggregate.Runs` lists the ways a run can go, `Aggregate.runWith_eq_some_iff` says that it lists
  all of them.
- `Aggregate.failureCauses` lists why a run fails.
- `Aggregate.runWith_agrees` puts together what holds of every run.
-/

namespace TaggedComments.Aggregate

section Workers

variable {overrides catalogue : Catalogue} {custom : List Data} {names : List String}
  {content : String} {file : Data} {setting : Int} {schedule : List Pool.Event} {o : Observation}

/-! ## Section 1: The ways a run can go -/

/-- What can be seen of a run under a schedule. -/
inductive Runs (setting : Int) (schedule : List Pool.Event) (overrides catalogue : Catalogue)
    (custom : List Data) (names : List String) (content : String) (file : Data) :
    Observation → Prop where
  | refused {e : Failure} (hsetUp : setUp overrides catalogue custom names = .error e)
      (hschedule : schedule = []) :
      Runs setting schedule overrides catalogue custom names content file ⟨0, some (.fail e)⟩
  | inOrder {xs : List Extractor} (hsetUp : setUp overrides catalogue custom names = .ok xs)
      (hfew : ¬(1 < workerCount setting ∧ 1 < xs.length)) (hschedule : schedule = []) :
      Runs setting schedule overrides catalogue custom names content file
        ⟨(Jobs.inOrder (fun x : Extractor => x content file) xs).1,
          some (conclude names file (Jobs.inOrder (fun x : Extractor => x content file) xs).2)⟩
  | pooled {xs : List Extractor} {p : Pool Extractor Failure (List Item)}
      (hsetUp : setUp overrides catalogue custom names = .ok xs)
      (hmany : 1 < workerCount setting ∧ 1 < xs.length)
      (hp : (Pool.submit (min (workerCount setting) xs.length) xs).after?
        (fun x : Extractor => x content file) schedule = some p) :
      Runs setting schedule overrides catalogue custom names content file
        ⟨p.begun, p.answer?.map (conclude names file)⟩

theorem runWith_eq_some_iff :
    runWith setting schedule overrides catalogue custom names content file = some o ↔
      Runs setting schedule overrides catalogue custom names content file o := by
  rw [runWith]
  cases hsetUp : setUp overrides catalogue custom names with
  | error e =>
    simp only [List.isEmpty_iff, Option.ite_none_right_eq_some, Option.some.injEq]
    constructor
    · rintro ⟨hschedule, rfl⟩
      exact .refused hsetUp hschedule
    · intro h
      cases h with
      | refused hsetUp' hschedule =>
        rw [hsetUp] at hsetUp'
        cases hsetUp'
        exact ⟨hschedule, rfl⟩
      | inOrder hsetUp' | pooled hsetUp' => simp [hsetUp] at hsetUp'
  | ok xs =>
    by_cases hmany : 1 < workerCount setting ∧ 1 < xs.length
    · simp only [hmany, and_self, if_true, Option.map_eq_some_iff]
      constructor
      · rintro ⟨p, hp, rfl⟩
        exact .pooled hsetUp hmany hp
      · intro h
        cases h with
        | pooled hsetUp' hmany' hp =>
          rw [hsetUp] at hsetUp'
          cases hsetUp'
          exact ⟨_, hp, rfl⟩
        | inOrder hsetUp' hfew =>
          rw [hsetUp] at hsetUp'
          cases hsetUp'
          exact absurd hmany hfew
        | refused hsetUp' => simp [hsetUp] at hsetUp'
    · simp only [hmany, if_false, List.isEmpty_iff, Option.ite_none_right_eq_some,
        Option.some.injEq]
      constructor
      · rintro ⟨hschedule, rfl⟩
        exact .inOrder hsetUp hmany hschedule
      · intro h
        cases h with
        | inOrder hsetUp' hfew hschedule =>
          rw [hsetUp] at hsetUp'
          cases hsetUp'
          exact ⟨hschedule, rfl⟩
        | pooled hsetUp' hmany' =>
          rw [hsetUp] at hsetUp'
          cases hsetUp'
          exact absurd hmany' hmany
        | refused hsetUp' => simp [hsetUp] at hsetUp'

/-! ## Section 2: Every run comes to the same -/

theorem runParsers_of_refused {e : Failure}
    (hsetUp : setUp overrides catalogue custom names = .error e) :
    runParsers overrides catalogue custom names content file = .fail e := by
  rw [runParsers, collect, hsetUp]
  rfl

theorem runParsers_of_setUp {xs : List Extractor}
    (hsetUp : setUp overrides catalogue custom names = .ok xs) :
    runParsers overrides catalogue custom names content file =
      conclude names file (xs.mapM fun x => x content file) := by
  rw [runParsers, collect, hsetUp]
  rfl

/-- A run that is over has come to what one worker comes to. -/
theorem Runs.result_eq
    (h : Runs setting schedule overrides catalogue custom names content file o)
    {t : Traced (List Comment)} (ht : o.result = some t) :
    t = runParsers overrides catalogue custom names content file := by
  cases h with
  | refused hsetUp hschedule =>
    cases ht
    rw [runParsers_of_refused hsetUp]
  | inOrder hsetUp hfew hschedule =>
    cases ht
    rw [runParsers_of_setUp hsetUp, Jobs.inOrder_snd]
  | @pooled xs p hsetUp hmany hp =>
    obtain ⟨outputs, houtputs, rfl⟩ := Option.map_eq_some_iff.mp ht
    obtain ⟨hserves, -⟩ := (Pool.serves_submit _ xs).after hp
    rw [runParsers_of_setUp hsetUp, hserves.answer?_eq_some houtputs]

/-- A run goes on until it is over. -/
theorem Runs.result_eq_none_iff
    (h : Runs setting schedule overrides catalogue custom names content file o) :
    o.result = none ↔ ∃ event o',
      Runs setting (schedule ++ [event]) overrides catalogue custom names content file o' := by
  cases h with
  | @refused e hsetUp hschedule =>
    -- Nothing was handed to a pool, so nothing can happen.
    constructor
    · intro hnone
      cases hnone
    · rintro ⟨event, o', h⟩
      cases h with
      | refused _ hempty | inOrder _ _ hempty => simp at hempty
      | pooled hsetUp' => simp [hsetUp] at hsetUp'
  | inOrder hsetUp hfew hschedule =>
    constructor
    · intro hnone
      cases hnone
    · rintro ⟨event, o', h⟩
      cases h with
      | refused _ hempty | inOrder _ _ hempty => simp at hempty
      | pooled hsetUp' hmany =>
        rw [hsetUp] at hsetUp'
        cases hsetUp'
        exact absurd hmany hfew
  | @pooled xs p hsetUp hmany hp =>
    obtain ⟨hserves, hworkers⟩ := (Pool.serves_submit _ xs).after hp
    have hpos : 0 < p.workers := by
      rw [hworkers]
      exact Nat.lt_min.mpr ⟨Nat.zero_lt_of_lt hmany.1, Nat.zero_lt_of_lt hmany.2⟩
    rw [Option.map_eq_none_iff, hserves.answer?_eq_none_iff hpos]
    constructor
    · rintro ⟨event, q, hstep⟩
      exact ⟨event, _, .pooled hsetUp hmany (Pool.after?_concat_eq_some_iff.mpr ⟨p, hp, hstep⟩)⟩
    · rintro ⟨event, o', h⟩
      cases h with
      | refused _ hempty | inOrder _ _ hempty => simp at hempty
      | pooled hsetUp' _ hq =>
        rw [hsetUp] at hsetUp'
        cases hsetUp'
        obtain ⟨p', hp', hstep⟩ := Pool.after?_concat_eq_some_iff.mp hq
        rw [hp] at hp'
        cases hp'
        exact ⟨event, _, hstep⟩

/-- No run goes on forever: a parser takes three events at most. -/
theorem Runs.length_le
    (h : Runs setting schedule overrides catalogue custom names content file o) :
    schedule.length ≤ 3 * names.length := by
  cases h with
  | refused _ hschedule | inOrder _ _ hschedule => simp [hschedule]
  | @pooled xs p hsetUp hmany hp =>
    have hlength : names.length = xs.length := (mapM_eq_ok_iff.mp hsetUp).length_eq
    have hle := Pool.length_le_of_after? hp
    rw [Pool.remaining_submit, ← hlength] at hle
    omega

/-! ## Section 3: Which failure counts -/

variable (overrides catalogue custom names content file)

/-- The parser of a name, set up with the tags of the request. -/
def ready (name : String) : Except Failure Extractor := do
  let f ← Catalogue.resolve overrides catalogue name
  f custom

/-- All parsers are set up and none of them fails. -/
def PutOut (outputs : List (List Item)) : Prop :=
  ∃ xs, setUp overrides catalogue custom names = .ok xs
    ∧ (xs.mapM fun x => x content file) = .ok outputs

/-- Why a run fails, in the order in which the causes count: a parser cannot be set up, a parser
fails, a mapping is no comment, an item cannot be sorted or compared. Each of the first three is
that of the first name, parser or item it holds of. -/
def failureCauses : List (Failure → Prop) := [
  fun e => ∃ before n later, names = before ++ n :: later
    ∧ (∀ m ∈ before, ∃ x, ready overrides catalogue custom m = .ok x)
    ∧ ready overrides catalogue custom n = .error e,
  fun e => ∃ before x later,
    setUp overrides catalogue custom names = .ok (before ++ x :: later)
      ∧ (∀ y ∈ before, ∃ items, y content file = .ok items) ∧ x content file = .error e,
  fun e => ∃ outputs, PutOut overrides catalogue custom names content file outputs
    ∧ ∃ before es later, outputs.flatten = before ++ .value (.mapping es) :: later
      ∧ (∀ i ∈ before, ∃ j, readItem i = .ok j) ∧ Comment.ofData (.mapping es) = .error e,
  fun e => ∃ outputs, PutOut overrides catalogue custom names content file outputs
    ∧ ∃ merged, merge outputs = .ok merged ∧ (sort merged >>= dropRepeated) = .error e]

variable {overrides catalogue custom names content file}

theorem putOut_iff {xs : List Extractor}
    (hsetUp : setUp overrides catalogue custom names = .ok xs) {outputs : List (List Item)} :
    PutOut overrides catalogue custom names content file outputs ↔
      (xs.mapM fun x => x content file) = .ok outputs := by
  constructor
  · rintro ⟨xs', hsetUp', houtputs⟩
    rw [hsetUp] at hsetUp'
    cases hsetUp'
    exact houtputs
  · intro houtputs
    exact ⟨xs, hsetUp, houtputs⟩

/-- Only a mapping can fail to be read. -/
theorem readItem_eq_error_iff {i : Item} {e : Failure} :
    readItem i = .error e ↔
      ∃ es, i = .value (.mapping es) ∧ Comment.ofData (.mapping es) = .error e := by
  constructor
  · intro h
    unfold readItem at h
    split at h
    · next es => exact ⟨es, rfl, map_eq_error_iff.mp h⟩
    · cases h
  · rintro ⟨es, rfl, h⟩
    exact map_eq_error_iff.mpr h

/-- The failures of a run are its causes, in their order. -/
theorem result_runParsers_eq_error_iff (e : Failure) :
    (runParsers overrides catalogue custom names content file).result = .error e ↔
      FirstOf (failureCauses overrides catalogue custom names content file) e := by
  rw [result_runParsers_eq]
  -- Each step has one cause, and those of later steps speak of what the earlier ones came to.
  refine bind_eq_error_iff_firstOf [_] ((failureCauses ..).drop 1) ?_ ?_ e
  · intro e
    rw [firstOf_singleton]
    exact mapM_eq_error_iff
  intro xs hxs
  refine bind_eq_error_iff_firstOf [_] ((failureCauses ..).drop 2) ?_ ?_
  · intro e
    simp only [firstOf_singleton, hxs, Except.ok.injEq]
    exact mapM_eq_error_iff
  intro outputs houtputs
  have hunique : ∀ outputs', PutOut overrides catalogue custom names content file outputs' ↔
      outputs' = outputs := by
    intro outputs'
    rw [putOut_iff hxs, houtputs, Except.ok.injEq, eq_comm]
  refine bind_eq_error_iff_firstOf [_] ((failureCauses ..).drop 3) ?_ ?_
  · intro e
    simp only [firstOf_singleton, hunique, exists_eq_left]
    rw [merge, mapM_eq_error_iff]
    simp only [readItem_eq_error_iff]
    constructor
    · rintro ⟨before, i, later, hsplit, hbefore, es, rfl, he⟩
      exact ⟨before, es, later, hsplit, hbefore, he⟩
    · rintro ⟨before, es, later, hsplit, hbefore, he⟩
      exact ⟨before, _, later, hsplit, hbefore, es, rfl, he⟩
  intro merged hmerged e
  simp only [failureCauses, List.drop, firstOf_singleton, hunique, exists_eq_left, hmerged,
    Except.ok.injEq, exists_eq_left', sort_bind_dropRepeated]

/-! ## Section 4: Runs with any number of workers -/

/-- **Workers make no difference.** Let parsers run with any number of workers that take turns in
any way. Where a run is over it has come to what parsers come to one by one, comments or failure.
Until then it can go on, but not forever. If a parser is unknown or cannot be set up no parser is
given the text. The failures are these, in this order: the first name whose parser cannot be set up,
the first parser in the order of the names that fails, the first mapping in the order of the output
that is no comment, an output that cannot be sorted or compared. -/
theorem runWith_agrees (overrides catalogue : Catalogue) (custom : List Data)
    (names : List String) (content : String) (file : Data) :
    let run := fun setting schedule =>
      runWith setting schedule overrides catalogue custom names content file
    let oneByOne := runParsers overrides catalogue custom names content file
    (∃ begun, run 1 [] = some ⟨begun, some oneByOne⟩)
      ∧ (∀ setting schedule o, run setting schedule = some o →
        (∀ t, o.result = some t → t = oneByOne)
          ∧ (o.result = none ↔ ∃ event o', run setting (schedule ++ [event]) = some o')
          ∧ schedule.length ≤ 3 * names.length
          ∧ ∀ e, setUp overrides catalogue custom names = .error e →
            o.begun = 0 ∧ o.result = some (.fail e))
      ∧ ∀ e, oneByOne.result = .error e ↔
        FirstOf (failureCauses overrides catalogue custom names content file) e := by
  intro run oneByOne
  refine ⟨?_, ?_, result_runParsers_eq_error_iff⟩
  · -- One worker does the jobs one after the other.
    cases hsetUp : setUp overrides catalogue custom names with
    | error e =>
      refine ⟨0, runWith_eq_some_iff.mpr ?_⟩
      simp only [oneByOne, runParsers_of_refused hsetUp]
      exact .refused hsetUp rfl
    | ok xs =>
      refine ⟨(Jobs.inOrder (fun x : Extractor => x content file) xs).1,
        runWith_eq_some_iff.mpr ?_⟩
      simp only [oneByOne, runParsers_of_setUp hsetUp, ← Jobs.inOrder_snd]
      exact .inOrder hsetUp (by simp [workerCount]) rfl
  · intro setting schedule o ho
    have hruns := runWith_eq_some_iff.mp ho
    refine ⟨fun t => hruns.result_eq, ?_, hruns.length_le, ?_⟩
    · simp only [run, runWith_eq_some_iff]
      exact hruns.result_eq_none_iff
    · intro e he
      cases hruns with
      | refused hsetUp =>
        rw [he] at hsetUp
        cases hsetUp
        exact ⟨rfl, rfl⟩
      | inOrder hsetUp | pooled hsetUp => simp [he] at hsetUp

/-- Two parsers fail, the second before the first; the failure is that of the first. With an unknown
parser in its place neither is given the text. -/
theorem runWith_agrees_two_failures :
    let fails : String → Factory := fun s _ => .ok fun _ _ => .error (.parserFailed s)
    let catalogue : Catalogue := [("a", fails "a"), ("b", fails "b")]
    let run := fun names schedule => runWith 2 schedule [] catalogue [] names "" .null
    let oneByOne := fun names => runParsers [] catalogue [] names "" .null
    (run ["a", "b"] [.start 0, .start 1, .finish 1, .finish 0, .take] =
        some ⟨2, some (.fail (.parserFailed "a"))⟩
      ∧ .fail (.parserFailed "a") = oneByOne ["a", "b"])
      ∧ run ["a", "c"] [] = some ⟨0, some (.fail (.unknownParser "c"))⟩
      ∧ .fail (.unknownParser "c") = oneByOne ["a", "c"]
      ∧ setUp [] catalogue [] ["a", "c"] = .error (.unknownParser "c") := by
  intro fails catalogue run oneByOne
  have hboth : run ["a", "b"] [.start 0, .start 1, .finish 1, .finish 0, .take] =
      some ⟨2, some (.fail (.parserFailed "a"))⟩ := rfl
  have hunknown : setUp [] catalogue [] ["a", "c"] = .error (.unknownParser "c") := rfl
  have hnone : run ["a", "c"] [] = some ⟨0, some (.fail (.unknownParser "c"))⟩ := rfl
  have hsame := ((runWith_agrees [] catalogue [] ["a", "b"] "" .null).2.1 2 _ _ hboth).1 _ rfl
  have hagrees := (runWith_agrees [] catalogue [] ["a", "c"] "" .null).2.1 2 _ _ hnone
  have hresult := (hagrees.2.2.2 _ hunknown).2
  exact ⟨⟨hboth, hsame⟩, hnone, hagrees.1 _ hresult, hunknown⟩

end Workers

end TaggedComments.Aggregate
