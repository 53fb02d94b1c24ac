import TaggedComments.Proofs.Jobs
import TaggedComments.Proofs.Log
import TaggedComments.Proofs.Request.Failure
import TaggedComments.Scan.Workers

/-!
# What files come to

A scan of files is made up of what its files come to one by one: a block of comments for each file,
in the order of the files, or the first failure. Files that are left out add nothing but a warning,
and neither the registry nor the order in which the files are read plays a part.

- `Scanner.BlockOf` is what one file adds, `Scanner.Unreadable` and `Scanner.Unparsable` are why it
  cannot.
- `Scanner.scanFiles_eq_ok_iff` and `Scanner.scanFiles_eq_error_iff` put the files together.
- `Scanner.scanWith_eq_some` says that workers and schedules make no difference.
- `Scanner.scanFiles_blocks` is what holds of a scan of files.
-/

namespace TaggedComments

/-! ## Section 1: One file -/

namespace Registry

/-- A request without associations leaves the registry alone. -/
theorem answer_fst_of_null (r : Registry) {q : Request} (hq : q.associations = .null) :
    (r.answer q).1 = r := by
  have hregister : r.register q.associations = .ok (r, []) := by
    rw [hq]
    rfl
  unfold answer
  cases q.check with
  | error e => rfl
  | ok c => simp only [hregister]

/-- Setting entries is logged without warnings. -/
theorem warnings_changes (r : Registry) (added : List (String × Entry String)) :
    warnings (changes r added) = [] := by
  induction added generalizing r with
  | nil => rfl
  | cons x added ih =>
    rw [changes, warnings_append, ih, List.append_nil]
    cases r.find? x.1 <;> rfl

theorem warnings_register {r : Registry} {given : Data} {x : Registry × List LogEntry}
    (h : r.register given = .ok x) : warnings x.2 = [] := by
  obtain ⟨es, -, hmerge⟩ := bind_eq_ok_iff.mp h
  unfold merge at hmerge
  split at hmerge
  · cases hmerge
    rfl
  · obtain ⟨added, -, rfl⟩ := map_eq_ok_iff.mp hmerge
    rw [warnings_append, warnings_changes]
    rfl

end Registry

/-- Running parsers is logged without warnings. -/
theorem Aggregate.warnings_runParsers (overrides catalogue : Catalogue) (custom : List Data)
    (names : List String) (content : String) (file : Data) :
    warnings (runParsers overrides catalogue custom names content file).log = [] := by
  unfold runParsers
  split <;> rfl

theorem Request.warnings_run (q : Request) (c : Checked) (r : Registry) :
    warnings (q.run c r).log = [] := by
  unfold run
  split
  · rfl
  · rw [Traced.log_after, warnings_append, Aggregate.warnings_runParsers]
    rfl

/-- A request is answered without warnings. -/
theorem Registry.warnings_answer (r : Registry) (q : Request) :
    warnings (r.answer q).2.log = [] := by
  unfold answer
  split
  · rfl
  · split
    · rfl
    · next r' log hregister =>
      rw [Traced.log_after, warnings_append, warnings_register hregister, Request.warnings_run]
      rfl

namespace Scanner

section Notions

variable (s : Scanner)

/-- Whether a scan leaves a file out: it is asked to, and no parser is known for the file. -/
def leavesOut (p : Path) : Bool :=
  s.config.skipUnsupported && !s.registry.supports p.suffix

/-- What a file with its bytes comes to: the answer to the request that it makes. -/
def reply (file : Path × List Nat) : Except Failure (List Comment) :=
  (s.registry.answer (fileRequest s.config file)).2.result

/-- What one file adds to a scan: nothing if it is left out, and else what it comes to with its own
bytes. -/
inductive BlockOf (p : Path) : List Comment → Prop where
  | leftOut (h : s.leavesOut p = true) : BlockOf p []
  | parsed {bytes : List Nat} {block : List Comment} (h : s.leavesOut p = false)
      (hread : s.discovery.system.read p = .ok bytes) (hreply : s.reply (p, bytes) = .ok block) :
      BlockOf p block

/-- Why a file cannot be read. -/
def Unreadable (p : Path) (e : Failure) : Prop :=
  s.leavesOut p = false ∧ s.discovery.system.read p = .error e

/-- Why a file cannot be parsed. -/
def Unparsable (p : Path) (e : Failure) : Prop :=
  s.leavesOut p = false ∧ ∃ bytes, s.discovery.system.read p = .ok bytes
    ∧ s.reply (p, bytes) = .error e

end Notions

variable {s : Scanner} {p : Path}

/-- The comments of a block name its file, their lines ascend, and no key occurs twice. -/
theorem BlockOf.wellPlaced {block : List Comment} (h : s.BlockOf p block) :
    (∀ c ∈ block, c.file = .text p.display) ∧ Ascending block
      ∧ block.Pairwise fun c d => c.sameKey d = false := by
  cases h with
  | leftOut => exact ⟨by simp, .nil, .nil⟩
  | parsed _ _ hreply =>
    obtain ⟨content, tags, r', x, es, gs, -, -, -, -, -, rfl⟩ :=
      Registry.exists_grammars_of_result_answer rfl hreply
    refine ⟨?_, ascending_normalForm _, pairwise_distinctBy _ _⟩
    intro c hc
    have hmem := (distinctBy_sublist _ _).subset (mem_normalForm.mp hc)
    obtain ⟨g, -, hg⟩ := List.mem_flatMap.mp hmem
    obtain ⟨f, -, rfl⟩ := List.mem_map.mp hg
    rfl

theorem readFile_bind_eq_ok_iff {block : List Comment} :
    (s.readFile p >>= s.reply) = .ok block ↔ ∃ bytes, s.discovery.system.read p = .ok bytes
      ∧ s.reply (p, bytes) = .ok block := by
  simp only [readFile, bind_eq_ok_iff, map_eq_ok_iff]
  constructor
  · rintro ⟨_, ⟨bytes, hread, rfl⟩, hreply⟩
    exact ⟨bytes, hread, hreply⟩
  · rintro ⟨bytes, hread, hreply⟩
    exact ⟨_, ⟨bytes, hread, rfl⟩, hreply⟩

theorem readFile_bind_eq_error_iff {e : Failure} :
    (s.readFile p >>= s.reply) = .error e ↔ s.discovery.system.read p = .error e
      ∨ ∃ bytes, s.discovery.system.read p = .ok bytes ∧ s.reply (p, bytes) = .error e := by
  simp only [readFile, bind_eq_error_iff, map_eq_error_iff, map_eq_ok_iff]
  apply or_congr_right
  constructor
  · rintro ⟨_, ⟨bytes, hread, rfl⟩, hreply⟩
    exact ⟨bytes, hread, hreply⟩
  · rintro ⟨bytes, hread, hreply⟩
    exact ⟨_, ⟨bytes, hread, rfl⟩, hreply⟩

theorem blockOf_iff_of_leavesOut (hp : s.leavesOut p = true) {block : List Comment} :
    s.BlockOf p block ↔ block = [] := by
  constructor
  · intro h
    cases h with
    | leftOut => rfl
    | parsed hkept => simp [hp] at hkept
  · rintro rfl
    exact .leftOut hp

theorem blockOf_iff_of_kept (hp : s.leavesOut p = false) {block : List Comment} :
    s.BlockOf p block ↔ (s.readFile p >>= s.reply) = .ok block := by
  rw [readFile_bind_eq_ok_iff]
  constructor
  · intro h
    cases h with
    | leftOut h => simp [hp] at h
    | parsed _ hread hreply => exact ⟨_, hread, hreply⟩
  · rintro ⟨bytes, hread, hreply⟩
    exact .parsed hp hread hreply

/-- A file adds a block unless it cannot be read or parsed. -/
theorem exists_blockOf_iff :
    (∃ block, s.BlockOf p block) ↔ ∀ e, ¬ s.Unreadable p e ∧ ¬ s.Unparsable p e := by
  unfold Unreadable Unparsable
  cases hp : s.leavesOut p with
  | true => simp [blockOf_iff_of_leavesOut hp]
  | false =>
    simp only [blockOf_iff_of_kept hp, true_and, ← not_or, ← readFile_bind_eq_error_iff]
    cases s.readFile p >>= s.reply <;> simp

/-! ## Section 2: Files in their order -/

/-- The files that are not left out are the ones to read, and each of the others has a warning. -/
theorem selectFiles_eq (files : List Path) :
    s.selectFiles files =
      ⟨(files.filter s.leavesOut).map skipped, .ok (files.filter fun p => !s.leavesOut p)⟩ := by
  unfold selectFiles leavesOut
  cases s.config.skipUnsupported with
  | true => simp
  | false => simp [pure]

theorem result_fileComments (x : Path × List Nat) : (s.fileComments x).result = s.reply x := by
  rw [fileComments, textComments, reply, fileRequest]

theorem result_allComments (contents : List (Path × List Nat)) :
    (s.allComments contents).result = (contents.mapM s.reply).map List.flatten := by
  induction contents with
  | nil => rfl
  | cons x contents ih =>
    rw [allComments, List.mapM_cons, Traced.result_bind, result_fileComments]
    simp only [Traced.result_bind, Traced.result_pure, ih]
    cases s.reply x with
    | error e => rfl
    | ok own => cases contents.mapM s.reply <;> rfl

theorem result_scanFiles (files : List Path) :
    (s.scanFiles files).result = ((files.filter fun p => !s.leavesOut p).mapM s.readFile >>=
      fun contents => contents.mapM s.reply).map List.flatten := by
  rw [scanFiles, Traced.result_bind, selectFiles_eq, ok_bind, Traced.result_bind,
    Traced.result_ofExcept, map_bind]
  congr 1
  funext contents
  rw [Traced.result_bind, ← result_allComments]
  cases (s.allComments contents).result <;> rfl

/-- The blocks of the files that are not left out make up those of all files. -/
theorem exists_blocks_iff (files : List Path) (cs : List Comment) :
    (∃ kept, List.Forall₂ (fun p block => (s.readFile p >>= s.reply) = .ok block)
        (files.filter fun p => !s.leavesOut p) kept ∧ kept.flatten = cs)
      ↔ ∃ blocks, List.Forall₂ s.BlockOf files blocks ∧ blocks.flatten = cs := by
  induction files generalizing cs with
  | nil => simp
  | cons p files ih =>
    cases hp : s.leavesOut p with
    | true =>
      -- The block of this file is empty.
      rw [List.filter_cons_of_neg (by simp [hp]), ih]
      simp [List.forall₂_cons_left_iff, blockOf_iff_of_leavesOut hp]
    | false =>
      rw [List.filter_cons_of_pos (by simp [hp])]
      simp only [List.forall₂_cons_left_iff, blockOf_iff_of_kept hp]
      constructor
      · rintro ⟨_, ⟨block, kept, hp, hkept, rfl⟩, rfl⟩
        obtain ⟨blocks, hblocks, heq⟩ := (ih _).mp ⟨kept, hkept, rfl⟩
        exact ⟨_, ⟨block, blocks, hp, hblocks, rfl⟩, by simp [heq]⟩
      · rintro ⟨_, ⟨block, blocks, hp, hblocks, rfl⟩, rfl⟩
        obtain ⟨kept, hkept, heq⟩ := (ih _).mpr ⟨blocks, hblocks, rfl⟩
        exact ⟨_, ⟨block, kept, hp, hkept, rfl⟩, by simp [heq]⟩

/-- A scan that succeeds comes to the blocks of its files, one behind the other. -/
theorem scanFiles_eq_ok_iff {files : List Path} {cs : List Comment} :
    (s.scanFiles files).result = .ok cs ↔
      ∃ blocks, List.Forall₂ s.BlockOf files blocks ∧ blocks.flatten = cs := by
  rw [result_scanFiles, map_eq_ok_iff, ← exists_blocks_iff]
  apply exists_congr
  intro kept
  rw [mapM_bind_mapM_eq_ok_iff, mapM_eq_ok_iff, eq_comm (a := cs)]

/-- All files are read before the first is parsed, so a scan fails for the first file that cannot be
read, and if there is none for the first that cannot be parsed. -/
theorem scanFiles_eq_error_iff {files : List Path} {e : Failure} :
    (s.scanFiles files).result = .error e ↔
      FirstOf (files.map s.Unreadable ++ files.map s.Unparsable) e := by
  rw [result_scanFiles, map_eq_error_iff]
  refine bind_eq_error_iff_firstOf _ _ ?_ ?_ e
  · intro e
    have hread : ∀ p e, s.readFile p = .error e ↔ s.discovery.system.read p = .error e := by
      intro p e
      exact map_eq_error_iff
    rw [mapM_eq_error_iff_firstOf _ hread, firstOf_map_filter]
    simp only [Bool.not_eq_true']
    rfl
  · intro contents hcontents e
    -- The files to parse are those that were read, each with its own bytes.
    have hall := mapM_isOk_iff.mp ⟨contents, hcontents⟩
    rw [← mapM_bind_of_ok hcontents,
      mapM_eq_error_iff_firstOf _ fun p e => readFile_bind_eq_error_iff]
    have hcauses : ∀ p ∈ files.filter fun p => !s.leavesOut p,
        (fun e => s.discovery.system.read p = .error e ∨ ∃ bytes,
          s.discovery.system.read p = .ok bytes ∧ s.reply (p, bytes) = .error e) =
        fun e => ∃ bytes, s.discovery.system.read p = .ok bytes ∧ s.reply (p, bytes) = .error e := by
      intro p hp
      obtain ⟨x, hx⟩ := hall p hp
      obtain ⟨bytes, hbytes, -⟩ := map_eq_ok_iff.mp hx
      simp [hbytes]
    rw [List.map_congr_left hcauses, firstOf_map_filter]
    simp only [Bool.not_eq_true']
    rfl

/-! ## Section 3: Files that are left out -/

/-- The same scanner, leaving no file out. -/
def keepingAll (s : Scanner) : Scanner :=
  { s with config := { s.config with skipUnsupported := false } }

/-- Neither what files come to nor what is logged then depends on which files are left out. -/
theorem allComments_keepingAll (contents : List (Path × List Nat)) :
    s.keepingAll.allComments contents = s.allComments contents := by
  have hone : ∀ x, s.keepingAll.fileComments x = s.fileComments x := by
    intro x
    rw [fileComments, fileComments, textComments, textComments]
    rfl
  induction contents with
  | nil => rfl
  | cons x contents ih => rw [allComments, allComments, hone, ih]

/-- Files that are left out add their warnings, and nothing else. -/
theorem scanFiles_eq (files : List Path) :
    s.scanFiles files = (s.keepingAll.scanFiles (files.filter fun p => !s.leavesOut p)).after
      ((files.filter s.leavesOut).map skipped) := by
  have hall : ∀ files, s.keepingAll.selectFiles files = ⟨[], .ok files⟩ := fun _ => rfl
  rw [scanFiles, scanFiles, selectFiles_eq, hall]
  simp only [allComments_keepingAll]
  rfl

theorem warnings_allComments (contents : List (Path × List Nat)) :
    warnings (s.allComments contents).log = [] := by
  induction contents with
  | nil => rfl
  | cons x contents ih =>
    have hone : warnings (s.fileComments x).log = [] := by
      rw [fileComments, textComments, Registry.warnings_answer]
    rw [allComments]
    exact warnings_log_bind hone fun own => warnings_log_bind ih fun more => rfl

/-- The warnings of a scan are those for the files that it leaves out. -/
theorem warnings_scanFiles (files : List Path) :
    warnings (s.scanFiles files).log = (files.filter s.leavesOut).map skipped := by
  have hskipped : warnings ((files.filter s.leavesOut).map skipped) =
      (files.filter s.leavesOut).map skipped := by
    rw [warnings, List.filter_eq_self]
    intro e he
    obtain ⟨p, -, rfl⟩ := List.mem_map.mp he
    rfl
  -- Reading logs nothing, and nothing that is parsed leads to a warning.
  have hall : ∀ kept, warnings (s.keepingAll.scanFiles kept).log = [] := by
    intro kept
    rw [scanFiles]
    refine warnings_log_bind rfl fun files => warnings_log_bind rfl fun contents => ?_
    exact warnings_log_bind (warnings_allComments contents) fun found => rfl
  rw [scanFiles_eq, Traced.log_after, warnings_append, hskipped, hall, List.append_nil]

/-! ## Section 4: Workers and schedules -/

/-- One file after another finds the registry as it was. -/
theorem parseInTurn_eq (contents : List (Path × List Nat)) :
    parseInTurn s.config s.registry contents = (s.registry, s.allComments contents) := by
  induction contents with
  | nil => rfl
  | cons x contents ih =>
    have hfst : (s.registry.answer (fileRequest s.config x)).1 = s.registry :=
      s.registry.answer_fst_of_null rfl
    have hsnd : (s.registry.answer (fileRequest s.config x)).2 = s.fileComments x := by
      rw [fileComments, textComments, fileRequest]
    rw [parseInTurn, allComments]
    simp only [hfst, hsnd, ih]
    generalize s.fileComments x = own
    obtain ⟨log, result⟩ := own
    cases result with
    | error e => rfl
    | ok cs => rfl

/-- The end of a scan is that of a scan of the files that were read. -/
theorem conclude_eq (files : List Path) :
    s.conclude (files.mapM s.readFile) = (s.registry, s.keepingAll.scanFiles files) := by
  have hscan : s.keepingAll.scanFiles files = (do
      let contents ← Traced.ofExcept (files.mapM s.readFile)
      let found ← s.allComments contents
      Traced.note .info logSource (summary files.length found.length)
      return found) := by
    rw [scanFiles]
    simp only [allComments_keepingAll]
    rfl
  rw [hscan]
  cases hread : files.mapM s.readFile with
  | error e => rfl
  | ok contents =>
    have hlength : files.length = contents.length := (mapM_eq_ok_iff.mp hread).length_eq
    rw [conclude, parseInTurn_eq, hlength]
    rfl

theorem workerCount_pos (setting : Int) : 0 < Aggregate.workerCount setting := by
  unfold Aggregate.workerCount
  omega

/-- A scan under a schedule leaves the registry alone and comes to the same as without one. -/
theorem scanWith_eq_some {setting : Int} {schedule : List Pool.Event} {files : List Path}
    {r : Registry} {t : Traced (List Comment)}
    (h : s.scanWith setting schedule files = some (r, t)) :
    r = s.registry ∧ t = s.scanFiles files := by
  simp only [scanWith, selectFiles_eq, Option.map_eq_some_iff, Option.bind_eq_some_iff] at h
  obtain ⟨contents, ⟨p, hp, hcontents⟩, h⟩ := h
  -- However the files were read, their contents are those of the files one after the other.
  have hserves := (Pool.serves_submit _ _).after hp
  rw [hserves.1.answer?_eq_some hcontents, conclude_eq] at h
  obtain ⟨rfl, rfl⟩ := Prod.mk.inj h
  exact ⟨rfl, (scanFiles_eq files).symm⟩

/-- Whatever the number of workers is, some schedule ends the scan. -/
theorem exists_scanWith (setting : Int) (files : List Path) :
    ∃ schedule, s.scanWith setting schedule files = some (s.registry, s.scanFiles files) := by
  have hserves : Pool.Serves s.readFile (files.filter fun p => !s.leavesOut p)
      (Pool.submit (Aggregate.workerCount setting) _) := Pool.serves_submit _ _
  obtain ⟨schedule, q, hq, hanswer⟩ := hserves.exists_answer (workerCount_pos setting)
  refine ⟨schedule, ?_⟩
  simp only [scanWith, selectFiles_eq, hq, Option.bind_some, hanswer, Option.map_some, conclude_eq]
  rw [scanFiles_eq files]

/-! ## Section 5: All of it -/

/-- **A scan of files is made up of its files.** However many workers read the files, and in whatever
order, the registry stays and the comments are the same. A scan succeeds exactly if each file adds a
block; the blocks stand in the order of the files, and each is about its own file, ascends in its
lines and has no key twice. So the comments of two lists of files are those of the one behind those
of the other. Leaving files out is the same as not naming them, up to one warning for each. All files
are read before the first is parsed; when all are there, the first that cannot be parsed decides the
failure. -/
theorem scanFiles_blocks (s : Scanner) :
    (∀ setting schedule files r t, s.scanWith setting schedule files = some (r, t) →
        r = s.registry ∧ t = s.scanFiles files)
      ∧ (∀ setting files, ∃ schedule,
        s.scanWith setting schedule files = some (s.registry, s.scanFiles files))
      ∧ (∀ files cs, (s.scanFiles files).result = .ok cs ↔
        ∃ blocks, List.Forall₂ s.BlockOf files blocks ∧ blocks.flatten = cs)
      ∧ (∀ p block, s.BlockOf p block → (∀ c ∈ block, c.file = .text p.display)
        ∧ Ascending block ∧ block.Pairwise fun c d => c.sameKey d = false)
      ∧ (∀ files more cs ds, (s.scanFiles files).result = .ok cs →
        (s.scanFiles more).result = .ok ds →
          (s.scanFiles (files ++ more)).result = .ok (cs ++ ds))
      ∧ (s.config.skipUnsupported = true → ∀ files,
        (s.scanFiles files).result =
            (s.keepingAll.scanFiles (files.filter fun p => s.registry.supports p.suffix)).result
          ∧ warnings (s.scanFiles files).log =
            (files.filter fun p => !s.registry.supports p.suffix).map skipped)
      ∧ (s.config.skipUnsupported = false → ∀ files, warnings (s.scanFiles files).log = [])
      ∧ (∀ files e, (s.scanFiles files).result = .error e ↔
        FirstOf (files.map s.Unreadable ++ files.map s.Unparsable) e)
      ∧ ∀ files, (∀ p ∈ files, ∃ bytes, s.discovery.system.read p = .ok bytes) →
        ∀ e, (s.scanFiles files).result = .error e ↔ ∃ before p later,
          files = before ++ p :: later ∧ (∀ q ∈ before, ∃ block, s.BlockOf q block)
            ∧ s.Unparsable p e := by
  refine ⟨fun _ _ _ _ _ => scanWith_eq_some, exists_scanWith, fun _ _ => scanFiles_eq_ok_iff,
    fun _ _ => BlockOf.wellPlaced, ?_, ?_, ?_, fun _ _ => scanFiles_eq_error_iff, ?_⟩
  · intro files more cs ds hfiles hmore
    obtain ⟨blocks, hblocks, rfl⟩ := scanFiles_eq_ok_iff.mp hfiles
    obtain ⟨blocks', hblocks', rfl⟩ := scanFiles_eq_ok_iff.mp hmore
    exact scanFiles_eq_ok_iff.mpr
      ⟨blocks ++ blocks', List.rel_append hblocks hblocks', List.flatten_append⟩
  · intro hskip files
    have hout : s.leavesOut = fun p => !s.registry.supports p.suffix := by
      funext p
      rw [leavesOut, hskip, Bool.true_and]
    constructor
    · rw [scanFiles_eq, Traced.result_after, hout]
      simp only [Bool.not_not]
    · rw [warnings_scanFiles, hout]
  · intro hkeep files
    have hout : ∀ p, s.leavesOut p = false := by
      intro p
      rw [leavesOut, hkeep, Bool.false_and]
    simp [warnings_scanFiles, hout]
  · intro files hthere e
    rw [scanFiles_eq_error_iff, firstOf_append]
    -- No file is unreadable, so only parsing can fail.
    have hread : ∀ p ∈ files, ∀ f, ¬ s.Unreadable p f := by
      rintro p hp f ⟨-, hf⟩
      obtain ⟨bytes, hbytes⟩ := hthere p hp
      rw [hbytes] at hf
      cases hf
    have hnone : ∀ f, ¬ FirstOf (files.map s.Unreadable) f := by
      intro f hf
      obtain ⟨before, p, later, rfl, -, hp⟩ := firstOf_map_iff.mp hf
      exact hread p (by simp) f hp
    simp only [hnone, not_false_eq_true, implies_true, true_and, false_or, firstOf_map_iff]
    refine exists_congr fun before => exists_congr fun p => exists_congr fun later => ?_
    apply and_congr_right
    rintro rfl
    apply and_congr_left'
    apply forall₂_congr
    intro q hq
    have hq' := hread q (by simp [hq])
    simp [exists_blockOf_iff, hq']

/-- Two files with unknown extensions: the first decides the failure, or both are left out. -/
theorem scanFiles_blocks_unknown :
    let system : FileSystem := ⟨.directory [("a.x", .file []), ("b.y", .file [])], []⟩
    let scanner (skip : Bool) : Scanner :=
      ⟨{ skipUnsupported := skip }, .empty, ⟨system, [], []⟩⟩
    let files : List Path := [⟨.here, ["a.x"]⟩, ⟨.here, ["b.y"]⟩]
    (∀ p ∈ files, ∃ bytes, system.read p = .ok bytes)
      ∧ ((scanner false).scanFiles files).result = .error (.unsupported ".x")
      ∧ ((scanner true).scanFiles files).result = .ok []
      ∧ warnings ((scanner true).scanFiles files).log = files.map skipped := by
  intro system scanner files
  have hthere : ∀ p ∈ files, ∃ bytes, system.read p = .ok bytes := by
    intro p hp
    simp only [files, List.mem_cons, List.not_mem_nil, or_false] at hp
    rcases hp with rfl | rfl
    · exact ⟨[], rfl⟩
    · exact ⟨[], rfl⟩
  have hreply : (scanner false).reply (⟨.here, ["a.x"]⟩, []) = .error (.unsupported ".x") := rfl
  obtain ⟨-, -, -, -, -, -, -, -, hfails⟩ := scanFiles_blocks (scanner false)
  obtain ⟨-, -, hblocks, -, -, hwarned, -⟩ := scanFiles_blocks (scanner true)
  refine ⟨hthere, ?_, ?_, (hwarned rfl files).2⟩
  · exact (hfails files hthere _).mpr
      ⟨[], _, _, rfl, by simp, rfl, [], rfl, hreply⟩
  · exact (hblocks files []).mpr
      ⟨[[], []], .cons (.leftOut rfl) (.cons (.leftOut rfl) .nil), rfl⟩

end Scanner

end TaggedComments
