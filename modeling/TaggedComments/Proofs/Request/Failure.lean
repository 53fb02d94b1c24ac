import TaggedComments.Proofs.Extract.Soundness
import TaggedComments.Proofs.Registry.Refusal
import TaggedComments.Proofs.Request.Answer

/-!
# When a request fails

A request fails for one of seven causes, and the first of them that holds decides the failure. If
none holds, it comes to the comments of its grammars, whatever its text and its tags are.

- `Request.causes` lists the causes.
- `Aggregate.result_runParsers_builtin_eq_ok_iff` and the lemma beside it say what builtin grammars
  come to.
- `Registry.result_answer_eq_error_iff` says that the causes are those of the failures,
  `Registry.answer_fails_iff` adds what happens without any.
-/

namespace TaggedComments

/-! ## Section 1: Causes -/

/-- Why the tags of a request are refused: they are neither missing nor a list, or one of them is no
tag, and this is the first. -/
inductive Tags.Refused : Data → Failure → Prop where
  | notList {given : Data} (hnull : given ≠ .null) (h : ∀ items, given ≠ .list items) :
      Refused given .tagsNotList
  | item {before later : List Data} {d : Data} (hbefore : ∀ t ∈ before, IsTag t)
      (hd : ¬ IsTag d) : Refused (.list (before ++ d :: later)) (.badTag d)

/-- A name is that of a builtin grammar. -/
def Grammar.IsBuiltin (name : String) : Prop :=
  ∃ g ∈ Grammar.builtin, g.name = name

namespace Request

/-- The registry in which a request looks its extension up: the one that it found, with the
associations that it brings. -/
def Consults (q : Request) (r r' : Registry) (extension : String) : Prop :=
  q.extension = .text extension
    ∧ ∃ added, Registry.GivesEntries q.associations added ∧ r' = r.setAll added

/-- Why a request may fail, in the order in which the causes count. -/
def causes (q : Request) (r : Registry) : List (Failure → Prop) := [
  fun e => (¬ ∃ s, q.extension = .text s ∧ s ≠ "") ∧ e = .extensionMissing,
  fun e => (¬ ∃ s, q.content = .text s) ∧ e = .contentNotText,
  Tags.Refused q.customTags,
  Registry.Refused q.associations,
  fun e => ∃ r' s, q.Consults r r' s ∧ r'.supports s = false ∧ e = .unsupported s,
  fun e => ∃ r' s, q.Consults r r' s ∧ q.embedded.truthy = true
    ∧ ∃ y, r'.FirstMissing s y ∧ e = .unsupported y,
  fun e => ∃ r' s, q.Consults r r' s ∧ ∃ es before n later, r'.Applies s q.embedded.truthy es
    ∧ es.flatMap (·.parsers) = before ++ n :: later ∧ (∀ m ∈ before, Grammar.IsBuiltin m)
    ∧ ¬ Grammar.IsBuiltin n ∧ e = .unknownParser n]

theorem readExtension_eq_error_iff {d : Data} {e : Failure} :
    readExtension d = .error e ↔ (¬ ∃ s, d = .text s ∧ s ≠ "") ∧ e = .extensionMissing := by
  simp only [← readExtension_eq_ok_iff]
  unfold readExtension
  split
  · split
    · simp [eq_comm]
    · simp
  · simp [eq_comm]

theorem readContent_eq_error_iff {d : Data} {e : Failure} :
    readContent d = .error e ↔ (¬ ∃ s, d = .text s) ∧ e = .contentNotText := by
  simp only [← readContent_eq_ok_iff]
  unfold readContent
  split
  · simp
  · simp [eq_comm]

end Request

theorem Tags.validate_eq_error_iff {given : Data} {e : Failure} :
    validate given = .error e ↔ Refused given e := by
  have herror : ∀ d, readTag d = .error e ↔ ¬ IsTag d ∧ e = .badTag d := by
    intro d
    rw [← readTag_isOk_iff]
    unfold readTag
    split
    · dsimp only
      split
      · simp [eq_comm]
      · simp
    · simp [eq_comm]
  unfold validate
  split
  · constructor
    · intro h
      cases h
    · intro h
      cases h with
      | notList hnull => exact absurd rfl hnull
  · next items =>
    simp only [mapM_eq_error_iff, readTag_isOk_iff, herror]
    constructor
    · rintro ⟨before, d, later, rfl, hbefore, hd, rfl⟩
      exact .item hbefore hd
    · intro h
      cases h with
      | notList _ hlist => exact absurd rfl (hlist items)
      | item hbefore hd => exact ⟨_, _, _, rfl, hbefore, hd, rfl⟩
  · next hnull hlist =>
    constructor
    · intro h
      cases h
      exact .notList hnull hlist
    · intro h
      cases h with
      | notList => rfl
      | item => exact absurd rfl (hlist _)

theorem Tags.Refused.field?_isSome {given : Data} {e : Failure} (h : Refused given e) :
    e.field?.isSome = true := by
  cases h with
  | notList => rfl
  | item => rfl

/-! ## Section 2: Builtin grammars -/

theorem Catalogue.resolve_builtin (name : String) :
    resolve [] builtin name =
      match Grammar.find? name with
      | some g => .ok g.factory
      | none => .error (.unknownParser name) := by
  have hlookup : ∀ gs : List Grammar, (gs.map fun g => (g.name, g.factory)).lookup name =
      (gs.find? fun g => g.name == name).map Grammar.factory := by
    intro gs
    induction gs with
    | nil => rfl
    | cons g gs ih =>
      rw [List.map_cons, List.lookup_cons, List.find?_cons, ih, BEq.comm]
      cases g.name == name <;> rfl
  rw [resolve, List.lookup_nil, builtin, hlookup, Grammar.find?]
  cases Grammar.builtin.find? fun g => g.name == name <;> rfl

namespace Grammar

theorem find?_isSome_iff {name : String} : (∃ g, find? name = some g) ↔ IsBuiltin name := by
  rw [← Option.isSome_iff_exists, find?, List.find?_isSome]
  simp only [beq_iff_eq, IsBuiltin]

theorem of_find?_eq_some {name : String} {g : Grammar} (h : find? name = some g) :
    g ∈ builtin ∧ g.name = name :=
  ⟨List.mem_of_find?_eq_some h, by simpa using List.find?_some h⟩

/-- Setting a grammar up with tags that are texts cannot fail, and neither can its extraction. -/
theorem factory_text (g : Grammar) (tags : List String) :
    g.factory (tags.map .text) =
      .ok fun content file => .ok ((g.comments tags content file).map .comment) := by
  have htags : Tags.ofItems (tags.map .text) = .ok tags := mapM_map_eq_ok fun _ _ => rfl
  rw [factory, htags]
  rfl

theorem hasKey_of_mem_comments {g : Grammar} {tags : List String} {content : String} {file : Data}
    {c : Comment} (h : c ∈ g.comments tags content file) : c.hasKey = true := by
  obtain ⟨f, -, rfl⟩ := List.mem_map.mp h
  rfl

end Grammar

namespace Aggregate

variable {tags : List String} {content : String} {file : Data}

theorem foundBy_builtin (name : String) :
    foundBy [] Catalogue.builtin (tags.map .text) content file name =
      match Grammar.find? name with
      | some g => .ok (g.comments tags content file)
      | none => .error (.unknownParser name) := by
  rw [foundBy, Catalogue.resolve_builtin]
  cases Grammar.find? name with
  | none => rfl
  | some g =>
    simp only [ok_bind, Grammar.factory_text]
    exact mapM_map_eq_ok fun _ _ => rfl

/-- Builtin grammars come to the normal form of all that they find. -/
theorem result_runParsers_builtin_eq_ok_iff {names : List String} {kept : List Comment} :
    (runParsers [] Catalogue.builtin (tags.map .text) names content file).result = .ok kept ↔
      ∃ gs, List.Forall₂ (fun n g => Grammar.find? n = some g) names gs
        ∧ kept = normalForm (gs.flatMap fun g => g.comments tags content file) := by
  have hfound : ∀ n cs, foundBy [] Catalogue.builtin (tags.map .text) content file n = .ok cs ↔
      ∃ g, Grammar.find? n = some g ∧ cs = g.comments tags content file := by
    intro n cs
    rw [foundBy_builtin]
    cases Grammar.find? n with
    | none => simp
    | some g => simp [eq_comm]
  rw [result_runParsers_eq_ok_iff]
  simp only [mapM_eq_ok_iff, hfound]
  constructor
  · rintro ⟨found, hall, -, rfl⟩
    have hgs : ∃ gs, List.Forall₂ (fun n g => Grammar.find? n = some g) names gs
        ∧ found = gs.map fun g => g.comments tags content file := by
      induction hall with
      | nil => exact ⟨[], .nil, rfl⟩
      | cons h _ ih =>
        obtain ⟨g, hg, rfl⟩ := h
        obtain ⟨gs, hgs, rfl⟩ := ih
        exact ⟨g :: gs, .cons hg hgs, rfl⟩
    obtain ⟨gs, hgs, rfl⟩ := hgs
    exact ⟨gs, hgs, by rw [List.flatMap_def]⟩
  · rintro ⟨gs, hgs, rfl⟩
    refine ⟨gs.map fun g => g.comments tags content file, ?_, ?_, by rw [List.flatMap_def]⟩
    · rw [List.forall₂_map_right_iff]
      exact hgs.imp fun n g hg => ⟨g, hg, rfl⟩
    · -- Tag and message of what a grammar finds are texts, so there is always a key.
      rw [List.all_eq_true]
      intro c hc
      obtain ⟨cs, hcs, hc⟩ := List.mem_flatten.mp hc
      obtain ⟨g, -, rfl⟩ := List.mem_map.mp hcs
      exact Grammar.hasKey_of_mem_comments hc

/-- Builtin grammars fail for the first name that none of them has. -/
theorem result_runParsers_builtin_eq_error_iff {names : List String} {e : Failure} :
    (runParsers [] Catalogue.builtin (tags.map .text) names content file).result = .error e ↔
      ∃ before n later, names = before ++ n :: later ∧ (∀ m ∈ before, Grammar.IsBuiltin m)
        ∧ ¬ Grammar.IsBuiltin n ∧ e = .unknownParser n := by
  let prepare : String → Except Failure Extractor := fun n =>
    Catalogue.resolve [] Catalogue.builtin n >>= fun f => f (tags.map .text)
  have hprepare : ∀ n, prepare n = match Grammar.find? n with
      | some g => .ok fun content file => .ok ((g.comments tags content file).map .comment)
      | none => .error (.unknownParser n) := by
    intro n
    simp only [prepare, Catalogue.resolve_builtin]
    cases Grammar.find? n with
    | none => rfl
    | some g => rw [ok_bind, Grammar.factory_text]
  have hok : ∀ n, (∃ x, prepare n = .ok x) ↔ Grammar.IsBuiltin n := by
    intro n
    rw [hprepare, ← Grammar.find?_isSome_iff]
    cases Grammar.find? n <;> simp
  have herror : ∀ n, prepare n = .error e ↔ ¬ Grammar.IsBuiltin n ∧ e = .unknownParser n := by
    intro n
    rw [hprepare, ← Grammar.find?_isSome_iff]
    cases Grammar.find? n <;> simp [eq_comm]
  -- Once all grammars are set up, nothing can fail any more.
  have hsetUp : (runParsers [] Catalogue.builtin (tags.map .text) names content file).result =
      .error e ↔ names.mapM prepare = .error e := by
    cases h : names.mapM prepare with
    | error f =>
      have hresult : (runParsers [] Catalogue.builtin (tags.map .text) names content file).result =
          .error f := by
        rw [result_runParsers_eq]
        show (names.mapM prepare >>= _) = .error f
        rw [h]
        rfl
      rw [hresult]
      simp
    | ok xs =>
      have hgs : ∃ gs, List.Forall₂ (fun n g => Grammar.find? n = some g) names gs := by
        rw [exists_forall₂_iff]
        intro n hn
        rw [Grammar.find?_isSome_iff, ← hok]
        exact mapM_isOk_iff.mp ⟨xs, h⟩ n hn
      obtain ⟨gs, hgs⟩ := hgs
      rw [result_runParsers_builtin_eq_ok_iff.mpr ⟨gs, hgs, rfl⟩]
      simp
  rw [hsetUp, mapM_eq_error_iff]
  simp only [hok, herror]

end Aggregate

/-! ## Section 3: Failures and comments of a request -/

namespace Registry

open Request (Checked)

variable {r : Registry} {q : Request}

theorem consults_unique {r₁ r₂ : Registry} {s t : String} (h : q.Consults r r₁ s)
    (h' : q.Consults r r₂ t) : r₁ = r₂ ∧ s = t := by
  obtain ⟨hs, added, hadded, rfl⟩ := h
  obtain ⟨ht, added', hadded', rfl⟩ := h'
  obtain rfl := hadded.unique hadded'
  rw [hs] at ht
  cases ht
  exact ⟨rfl, rfl⟩

theorem consults_of_register {s : String} {x : Registry × List LogEntry}
    (hs : q.extension = .text s) (hx : r.register q.associations = .ok x) :
    q.Consults r x.1 s := by
  rcases r.register_cases q.associations with ⟨added, log, hadded, h⟩ | ⟨-, e, h⟩
  · rw [h] at hx
    cases hx
    exact ⟨hs, added, hadded, rfl⟩
  · rw [h] at hx
    cases hx

/-- The steps of a request, the check spelled out. -/
theorem result_answer_steps (r : Registry) (q : Request) :
    (r.answer q).2.result = Request.readExtension q.extension >>= fun s =>
      Request.readContent q.content >>= fun content =>
        Tags.validate q.customTags >>= fun tags =>
          r.register q.associations >>= fun x =>
            (q.run ⟨content, s, tags⟩ x.1).result := by
  rw [result_answer, Request.check]
  cases Request.readExtension q.extension with
  | error e => rfl
  | ok s =>
    cases Request.readContent q.content with
    | error e => rfl
    | ok content => cases Tags.validate q.customTags <;> rfl

/-- The last three causes are those of resolving the extension and of running the parsers. -/
theorem run_eq_error_iff (hq : q.overrides = []) {c : Checked} {r' : Registry}
    (hconsults : q.Consults r r' c.extension) (e : Failure) :
    (q.run c r').result = .error e ↔ FirstOf ((q.causes r).drop 4) e := by
  have hunique : ∀ P : Registry → String → Prop,
      (∃ r₁ s, q.Consults r r₁ s ∧ P r₁ s) ↔ P r' c.extension := by
    intro P
    constructor
    · rintro ⟨r₁, s, h, hP⟩
      obtain ⟨rfl, rfl⟩ := consults_unique h hconsults
      exact hP
    · intro hP
      exact ⟨_, _, hconsults, hP⟩
  rw [Request.result_run, hq]
  refine bind_eq_error_iff_firstOf (((q.causes r).drop 4).take 2) ((q.causes r).drop 6) ?_ ?_ e
  · intro e
    simp only [Request.causes, List.drop, List.take, FirstOf, hunique, and_false, or_false]
    rw [activeParsers_eq_error_iff]
    -- An included extension can only be missing if the extension itself has an entry.
    have hfound : ∀ y, r'.FirstMissing c.extension y → r'.supports c.extension = true := by
      rintro y ⟨d, before, later, hd, -⟩
      exact supports_eq_true_iff.mpr ⟨d, hd⟩
    constructor
    · rintro (h | ⟨hb, y, hy, he⟩)
      · exact .inl h
      · refine .inr ⟨?_, hb, y, hy, he⟩
        rintro f ⟨hnot, -⟩
        rw [hfound y hy] at hnot
        cases hnot
    · rintro (h | ⟨-, h⟩)
      · exact .inl h
      · exact .inr h
  · intro names hnames e
    simp only [Request.causes, List.drop, FirstOf, hunique, and_false, or_false]
    obtain ⟨es, hes, rfl⟩ := activeParsers_eq_ok_iff.mp hnames
    rw [Aggregate.result_runParsers_distinct, Aggregate.result_runParsers_builtin_eq_error_iff]
    constructor
    · rintro ⟨before, n, later, h⟩
      exact ⟨es, before, n, later, hes, h⟩
    · rintro ⟨fs, before, n, later, hfs, h⟩
      obtain rfl := hfs.unique hes
      exact ⟨before, n, later, h⟩

/-- The failures of a request are its causes, in their order. -/
theorem result_answer_eq_error_iff (hq : q.overrides = []) (e : Failure) :
    (r.answer q).2.result = .error e ↔ FirstOf (q.causes r) e := by
  rw [result_answer_steps]
  -- Each of the first four steps has one cause, and behind them the request is run.
  refine bind_eq_error_iff_firstOf [_] ((q.causes r).drop 1) ?_ ?_ e
  · intro e
    rw [Request.readExtension_eq_error_iff, firstOf_singleton]
  intro s hs
  refine bind_eq_error_iff_firstOf [_] ((q.causes r).drop 2) ?_ ?_
  · intro e
    rw [Request.readContent_eq_error_iff, firstOf_singleton]
  intro content hcontent
  refine bind_eq_error_iff_firstOf [_] ((q.causes r).drop 3) ?_ ?_
  · intro e
    rw [Tags.validate_eq_error_iff, firstOf_singleton]
  intro tags htags
  refine bind_eq_error_iff_firstOf [_] ((q.causes r).drop 4) ?_ ?_
  · intro e
    rw [register_eq_error_iff, firstOf_singleton]
  intro x hx
  exact run_eq_error_iff hq (consults_of_register (Request.readExtension_eq_ok_iff.mp hs).1 hx)

/-- A request that does not fail comes to the normal form of what its grammars find. -/
theorem exists_grammars_of_result_answer (hq : q.overrides = []) {cs : List Comment}
    (h : (r.answer q).2.result = .ok cs) :
    ∃ content tags r' s es gs, q.content = .text content ∧ Tags.validate q.customTags = .ok tags
      ∧ q.Consults r r' s ∧ r'.Applies s q.embedded.truthy es
      ∧ List.Forall₂ (fun n g => g ∈ Grammar.builtin ∧ g.name = n) (es.flatMap (·.parsers)) gs
      ∧ cs = normalForm (gs.flatMap fun g => g.comments tags content q.file) := by
  obtain ⟨c, x, names, hc, hx, hnames, hrun⟩ := result_answer_eq_ok_iff.mp h
  obtain ⟨⟨hextension, -⟩, hcontent, htags⟩ := Request.check_eq_ok_iff.mp hc
  obtain ⟨es, hes, rfl⟩ := activeParsers_eq_ok_iff.mp hnames
  rw [hq, Aggregate.result_runParsers_distinct, Aggregate.result_runParsers_builtin_eq_ok_iff] at hrun
  obtain ⟨gs, hgs, rfl⟩ := hrun
  exact ⟨c.content, c.tags, x.1, c.extension, es, gs, hcontent, htags,
    consults_of_register hextension hx, hes, hgs.imp fun n g => Grammar.of_find?_eq_some, rfl⟩

end Registry

end TaggedComments
