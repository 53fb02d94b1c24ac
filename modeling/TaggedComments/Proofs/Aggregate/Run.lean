import TaggedComments.Proofs.Aggregate.Stages
import TaggedComments.Proofs.Steps

/-!
# Running parsers together

A run of parsers sets all of them up before it runs the first, and runs all of them before it looks
at what they put out. Where it succeeds this makes no difference: it comes to the normal form of
what the parsers find one by one. So runs may be put together, and a parser that is named twice
counts once.

- `Aggregate.foundBy` is what a parser finds by itself.
- `Aggregate.result_runParsers_eq_ok_iff` says when a run succeeds and what it comes to.
- `Aggregate.result_runParsers_distinct` says that names may occur again.
- `Aggregate.aggregation_in_stages` puts this together with the laws of normal forms.
-/

namespace TaggedComments.Aggregate

/-- The comments that the parser of a name finds by itself. -/
def foundBy (overrides catalogue : Catalogue) (custom : List Data) (content : String)
    (file : Data) (name : String) : Except Failure (List Comment) := do
  let f ← Catalogue.resolve overrides catalogue name
  let x ← f custom
  let items ← x content file
  items.mapM fun i => readItem i >>= asComment

section Run

variable {overrides catalogue : Catalogue} {custom : List Data} {content : String} {file : Data}

/-! ## Section 1: A run that succeeds -/

theorem mapM_asComment_eq_ok_iff {items : List Item} {cs : List Comment} :
    items.mapM asComment = .ok cs ↔ items = cs.map .comment := by
  rw [mapM_eq_ok_iff]
  induction cs generalizing items with
  | nil => simp
  | cons c cs ih =>
    rw [List.forall₂_cons_right_iff, List.map_cons]
    constructor
    · rintro ⟨i, is, hi, his, rfl⟩
      cases i with
      | comment d =>
        cases hi
        rw [ih.mp his]
      | value d => cases hi
    · rintro rfl
      exact ⟨.comment c, _, rfl, ih.mpr rfl, rfl⟩

/-- The last steps of a run: its items are read as comments, and these are put into normal form if
all of them have keys. -/
theorem sort_bind_dropRepeated (items : List Item) :
    (sort items >>= dropRepeated) = items.mapM asComment >>= fun found =>
      if found.all Comment.hasKey then .ok (normalForm found) else .error .wrongKind := by
  cases hread : items.mapM asComment with
  | error e =>
    rw [sort, hread]
    rfl
  | ok found =>
    obtain rfl := mapM_asComment_eq_ok_iff.mp hread
    exact sort_dropRepeated found

/-- The steps of a run. Its log has nothing to do with what it comes to. -/
theorem result_runParsers_eq (names : List String) :
    (runParsers overrides catalogue custom names content file).result =
      setUp overrides catalogue custom names >>= fun extractors =>
        (extractors.mapM fun x => x content file) >>= fun outputs =>
          merge outputs >>= fun merged =>
            merged.mapM asComment >>= fun found =>
              if found.all Comment.hasKey then .ok (normalForm found) else .error .wrongKind := by
  have hcollect : (runParsers overrides catalogue custom names content file).result =
      (collect overrides catalogue custom names content file).map (·.2) := by
    rw [runParsers]
    cases collect overrides catalogue custom names content file <;> rfl
  rw [hcollect, collect]
  simp only [map_bind]
  -- Of the number of items and the comments only the comments are left.
  have hlast : ∀ (n : Nat) (x : Except Failure (List Comment)),
      (x >>= fun kept => (Except.ok (n, kept)).map (·.2)) = x := by
    intro n x
    cases x <;> rfl
  simp only [pure, Except.pure, hlast, sort_bind_dropRepeated]

/-- Where all steps succeed it makes no difference whether they are taken parser by parser. -/
theorem mapM_foundBy_eq_ok_iff {names : List String} {found : List (List Comment)} :
    names.mapM (foundBy overrides catalogue custom content file) = .ok found ↔
      ∃ extractors, setUp overrides catalogue custom names = .ok extractors
        ∧ ∃ outputs, (extractors.mapM fun x => x content file) = .ok outputs
          ∧ (outputs.mapM fun items => items.mapM fun i => readItem i >>= asComment) =
            .ok found := by
  have hsteps : foundBy overrides catalogue custom content file = fun n =>
      ((Catalogue.resolve overrides catalogue n >>= fun f => f custom) >>= fun x =>
        x content file) >>= fun items => items.mapM fun i => readItem i >>= asComment := by
    funext n
    simp only [foundBy, bind_assoc]
  rw [hsteps, ← mapM_bind_mapM_eq_ok_iff, bind_eq_ok_iff]
  simp only [← mapM_bind_mapM_eq_ok_iff, bind_eq_ok_iff, setUp]
  constructor
  · rintro ⟨outputs, ⟨extractors, hsetUp, hrun⟩, hfound⟩
    exact ⟨extractors, hsetUp, outputs, hrun, hfound⟩
  · rintro ⟨extractors, hsetUp, outputs, hrun, hfound⟩
    exact ⟨outputs, ⟨extractors, hsetUp, hrun⟩, hfound⟩

/-- A run succeeds if every parser finds comments by itself and all comments have keys. -/
theorem result_runParsers_eq_ok_iff {names : List String} {kept : List Comment} :
    (runParsers overrides catalogue custom names content file).result = .ok kept ↔
      ∃ found, names.mapM (foundBy overrides catalogue custom content file) = .ok found
        ∧ found.flatten.all Comment.hasKey = true ∧ kept = normalForm found.flatten := by
  have hread : ∀ (outputs : List (List Item)) (flat : List Comment),
      (∃ merged, merge outputs = .ok merged ∧ merged.mapM asComment = .ok flat) ↔
        ∃ found, (outputs.mapM fun items => items.mapM fun i => readItem i >>= asComment) =
          .ok found ∧ flat = found.flatten := by
    intro outputs flat
    rw [← bind_eq_ok_iff, merge, mapM_bind_mapM_eq_ok_iff, mapM_flatten, map_eq_ok_iff]
  have hkeys : ∀ flat : List Comment,
      (if flat.all Comment.hasKey then .ok (normalForm flat) else .error .wrongKind :
        Except Failure (List Comment)) = .ok kept ↔
        flat.all Comment.hasKey = true ∧ kept = normalForm flat := by
    intro flat
    by_cases h : flat.all Comment.hasKey = true
    · simp [h, eq_comm]
    · simp [h]
  simp only [result_runParsers_eq, bind_eq_ok_iff, mapM_foundBy_eq_ok_iff, hkeys]
  constructor
  · rintro ⟨extractors, hsetUp, outputs, hrun, merged, hmerge, flat, hflat, h⟩
    obtain ⟨found, hfound, rfl⟩ := (hread outputs flat).mp ⟨merged, hmerge, hflat⟩
    exact ⟨found, ⟨extractors, hsetUp, outputs, hrun, hfound⟩, h⟩
  · rintro ⟨found, ⟨extractors, hsetUp, outputs, hrun, hfound⟩, h⟩
    obtain ⟨merged, hmerge, hflat⟩ := (hread outputs found.flatten).mpr ⟨found, hfound, rfl⟩
    exact ⟨extractors, hsetUp, outputs, hrun, merged, hmerge, _, hflat, h⟩

/-! ## Section 2: Runs put together -/

/-- If two runs succeed, then so does the run of all their parsers, with the normal form of what the
two come to. -/
theorem result_runParsers_append {names more : List String} {kept added : List Comment}
    (h : (runParsers overrides catalogue custom names content file).result = .ok kept)
    (hmore : (runParsers overrides catalogue custom more content file).result = .ok added) :
    (runParsers overrides catalogue custom (names ++ more) content file).result =
      .ok (normalForm (kept ++ added)) := by
  obtain ⟨found, hfound, hkeys, rfl⟩ := result_runParsers_eq_ok_iff.mp h
  obtain ⟨others, hothers, hkeys', rfl⟩ := result_runParsers_eq_ok_iff.mp hmore
  apply result_runParsers_eq_ok_iff.mpr
  refine ⟨found ++ others, ?_, ?_, ?_⟩
  · rw [List.mapM_append, hfound, hothers]
    rfl
  · simp [hkeys, hkeys']
  · rw [List.flatten_append, ← normalForm_append]

/-- What parsers come to stays, in its order, when more parsers run after them. -/
theorem sublist_of_result_runParsers_append {names more : List String} {kept all : List Comment}
    (h : (runParsers overrides catalogue custom names content file).result = .ok kept)
    (hall : (runParsers overrides catalogue custom (names ++ more) content file).result =
      .ok all) : kept.Sublist all := by
  obtain ⟨found, hfound, -, rfl⟩ := result_runParsers_eq_ok_iff.mp h
  obtain ⟨foundAll, hfoundAll, -, rfl⟩ := result_runParsers_eq_ok_iff.mp hall
  -- The longer run finds first what the shorter one finds.
  rw [List.mapM_append, hfound, bind_eq_ok_iff] at hfoundAll
  obtain ⟨_, hfirst, hrest⟩ := hfoundAll
  cases hfirst
  obtain ⟨others, -, hboth⟩ := bind_eq_ok_iff.mp hrest
  cases hboth
  rw [List.flatten_append]
  exact normalForm_sublist_append found.flatten others.flatten

/-- A parser that is named again changes nothing, whether the run succeeds or fails. -/
theorem result_runParsers_distinct (names : List String) :
    (runParsers overrides catalogue custom (distinct names) content file).result =
      (runParsers overrides catalogue custom names content file).result := by
  rw [result_runParsers_eq, result_runParsers_eq]
  -- Each stage fails alike with and without the repetitions, or goes on with the same values.
  rcases mapM_distinct_cases
    (fun n => Catalogue.resolve overrides catalogue n >>= fun f => f custom) names with
    ⟨e, h, h'⟩ | ⟨extractor, h, h'⟩
  · rw [setUp, setUp, h, h']
  rw [setUp, setUp, h, h', ok_bind, ok_bind, List.mapM_map, List.mapM_map]
  rcases mapM_distinct_cases ((fun x : Extractor => x content file) ∘ extractor) names with
    ⟨e, h, h'⟩ | ⟨items, h, h'⟩
  · rw [h, h']
  rw [h, h', ok_bind, ok_bind, merge, merge, ← List.flatMap_def, ← List.flatMap_def]
  rcases mapM_flatMap_distinct_cases readItem items names with ⟨e, h, h'⟩ | ⟨merged, h, h'⟩
  · rw [h, h']
  rw [h, h', ok_bind, ok_bind]
  rcases mapM_flatMap_distinct_cases asComment merged names with ⟨e, h, h'⟩ | ⟨found, h, h'⟩
  · rw [h, h']
  rw [h, h', ok_bind, ok_bind, normalForm_flatMap_distinct]
  -- The same comments have keys, wherever they occur.
  have hkeys : ((distinct names).flatMap found).all Comment.hasKey =
      (names.flatMap found).all Comment.hasKey := by
    rw [Bool.eq_iff_iff]
    simp
  rw [hkeys]

end Run

/-! ## Section 3: Stages -/

/-- **Aggregation in stages.** The normal form of a concatenation is that of the normal forms of its
parts. So normal forms do not change any more, and the output of many parsers may be put together
list by list or added up one by one. Runs that succeed may be put together likewise, and a name
that occurs again changes neither the comments nor the failure of a run. -/
theorem aggregation_in_stages :
    (∀ xs ys, normalForm (xs ++ ys) = normalForm (normalForm xs ++ normalForm ys))
      ∧ (∀ xs, normalForm (normalForm xs) = normalForm xs)
      ∧ (∀ css : List (List Comment),
        normalForm css.flatten = normalForm (css.map normalForm).flatten
          ∧ normalForm css.flatten = css.foldl (fun sofar cs => normalForm (sofar ++ cs)) [])
      ∧ ∀ overrides catalogue custom content file,
        let run names := (runParsers overrides catalogue custom names content file).result
        (∀ names more kept added, run names = .ok kept → run more = .ok added →
          run (names ++ more) = .ok (normalForm (kept ++ added)))
        ∧ ∀ names, run (distinct names) = run names := by
  refine ⟨normalForm_append, normalForm_normalForm, ?_, ?_⟩
  · intro css
    exact ⟨(normalForm_flatten css).symm, (normalForm_foldl css).symm⟩
  · intro overrides catalogue custom content file run
    refine ⟨?_, result_runParsers_distinct⟩
    intro names more kept added h hmore
    exact result_runParsers_append h hmore

end TaggedComments.Aggregate
