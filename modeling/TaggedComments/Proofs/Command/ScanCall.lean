import TaggedComments.Proofs.Command.Call
import TaggedComments.Proofs.Command.Settings
import TaggedComments.Proofs.Registry.Merge

/-!
# Calls that scan

A call that scans fails, has nothing to work on, or prints a report; its exit code and what it shows
follow from that, and nothing is printed before the last step that can fail. It merges all
associations that are in force into the registry, or none.

- `Invocation.Prepared` is the scanner of a call, `Command.Unusable`, `Command.Fails` and
  `Command.Finds` are what a scan under it comes to.
- `Invocation.Ends` says what a call comes to, `Invocation.Ends.result_run` and
  `Invocation.exists_ends` that this is the answer that is shown.
- `callProgram_scan` is about a whole call.
-/

namespace TaggedComments

/-! ## Section 1: What a scan comes to -/

namespace Command

/-- There is nothing to work on: no file is found, or there is no text or no file type for it. -/
inductive Unusable (env : Environment) (s : Scanner) : Command → (message : String) → Prop where
  | noFiles {paths : List String} {fileType : Option String} {textName : Data}
      (hpaths : paths ≠ []) (hfiles : s.discovery.files paths = []) :
      Unusable env s (.scan paths fileType textName) "No files found for reporting"
  | noText {fileType : Option String} {textName : Data} (hinput : env.input = none) :
      Unusable env s (.scan [] fileType textName)
        "No input: pass file paths or pipe content with --filetype"
  | noType {bytes : List Nat} {fileType : Option String} {textName : Data}
      (hinput : env.input = some bytes) (htype : fileType = none ∨ fileType = some "") :
      Unusable env s (.scan [] fileType textName) "--filetype is required when reading from stdin"

/-- The comments of the files that are found, or of the text. -/
inductive Finds (env : Environment) (s : Scanner) : Command → List Comment → Prop where
  | files {paths : List String} {fileType : Option String} {textName : Data}
      {found : List Comment} (hpaths : paths ≠ []) (hfiles : s.discovery.files paths ≠ [])
      (hfound : (s.scanFiles (s.discovery.files paths)).result = .ok found) :
      Finds env s (.scan paths fileType textName) found
  | text {bytes : List Nat} {fileType text : String} {textName : Data} {found : List Comment}
      (hinput : env.input = some bytes) (htype : fileType ≠ "")
      (htext : decodeText bytes = .ok text)
      (hfound : (s.textComments (.text text) (.text (extensionOf fileType)) textName).result =
        .ok found) :
      Finds env s (.scan [] (some fileType) textName) found

/-- The comments cannot be told: a file or the text cannot be read or parsed. -/
inductive Fails (env : Environment) (s : Scanner) : Command → Failure → Prop where
  | files {paths : List String} {fileType : Option String} {textName : Data} {e : Failure}
      (hpaths : paths ≠ []) (hfiles : s.discovery.files paths ≠ [])
      (h : (s.scanFiles (s.discovery.files paths)).result = .error e) :
      Fails env s (.scan paths fileType textName) e
  | noText {bytes : List Nat} {fileType : String} {textName : Data} {e : Failure}
      (hinput : env.input = some bytes) (htype : fileType ≠ "")
      (h : decodeText bytes = .error e) : Fails env s (.scan [] (some fileType) textName) e
  | text {bytes : List Nat} {fileType text : String} {textName : Data} {e : Failure}
      (hinput : env.input = some bytes) (htype : fileType ≠ "")
      (htext : decodeText bytes = .ok text)
      (h : (s.textComments (.text text) (.text (extensionOf fileType)) textName).result =
        .error e) :
      Fails env s (.scan [] (some fileType) textName) e

/-- What a scan says under a scanner. -/
def scanAnswer (env : Environment) (s : Scanner) (paths : List String) (fileType : Option String)
    (textName : Data) : Except Failure Answer :=
  (if paths.isEmpty then scanInput s env.input fileType textName else scanPaths s paths).result

variable {env : Environment} {s : Scanner} {paths : List String} {fileType : Option String}
  {textName : Data}

theorem scanAnswer_files (hpaths : paths ≠ []) (hfiles : s.discovery.files paths ≠ []) :
    scanAnswer env s paths fileType textName =
      (s.scanFiles (s.discovery.files paths)).result >>= reportOf s.config := by
  have hempty : paths.isEmpty = false := by simpa using hpaths
  have hnone : (s.discovery.files paths).isEmpty = false := by simpa using hfiles
  simp only [scanAnswer, hempty, scanPaths, hnone, Bool.false_eq_true, if_false,
    Traced.result_bind, Traced.result_ofExcept]

theorem scanAnswer_text {bytes : List Nat} {type : String} (hinput : env.input = some bytes)
    (htype : type ≠ "") :
    scanAnswer env s [] (some type) textName = decodeText bytes >>= fun text =>
      (s.textComments (.text text) (.text (extensionOf type)) textName).result >>=
        reportOf s.config := by
  simp only [scanAnswer, List.isEmpty_nil, if_true, scanInput, hinput, Option.getD_some,
    Traced.result_bind, Traced.result_ofExcept]

/-- A scan says that there is nothing to work on, reports comments, or fails. -/
theorem scanAnswer_cases (env : Environment) (s : Scanner) (paths : List String)
    (fileType : Option String) (textName : Data) :
    (∃ message, Unusable env s (.scan paths fileType textName) message)
      ∨ (∃ found, Finds env s (.scan paths fileType textName) found)
      ∨ ∃ e, Fails env s (.scan paths fileType textName) e := by
  cases paths with
  | cons p ps =>
    have hpaths : p :: ps ≠ [] := List.cons_ne_nil p ps
    by_cases hfiles : s.discovery.files (p :: ps) = []
    · exact .inl ⟨_, .noFiles hpaths hfiles⟩
    · cases hfound : (s.scanFiles (s.discovery.files (p :: ps))).result with
      | ok found => exact .inr (.inl ⟨found, .files hpaths hfiles hfound⟩)
      | error e => exact .inr (.inr ⟨e, .files hpaths hfiles hfound⟩)
  | nil =>
    cases hinput : env.input with
    | none => exact .inl ⟨_, .noText hinput⟩
    | some bytes =>
      cases fileType with
      | none => exact .inl ⟨_, .noType hinput (.inl rfl)⟩
      | some type =>
        by_cases htype : type = ""
        · exact .inl ⟨_, .noType hinput (.inr (by rw [htype]))⟩
        · cases htext : decodeText bytes with
          | error e => exact .inr (.inr ⟨e, .noText hinput htype htext⟩)
          | ok text =>
            cases hfound : (s.textComments (.text text) (.text (extensionOf type)) textName).result
              with
            | ok found => exact .inr (.inl ⟨found, .text hinput htype htext hfound⟩)
            | error e => exact .inr (.inr ⟨e, .text hinput htype htext hfound⟩)

theorem Unusable.scanAnswer_eq {message : String}
    (h : Unusable env s (.scan paths fileType textName) message) :
    scanAnswer env s paths fileType textName = .ok (.unusable message) := by
  cases h with
  | noFiles hpaths hfiles =>
    have hempty : paths.isEmpty = false := by simpa using hpaths
    simp only [scanAnswer, hempty, scanPaths, hfiles]
    rfl
  | noText hinput =>
    simp only [scanAnswer, scanInput, hinput]
    rfl
  | noType hinput htype =>
    simp only [scanAnswer, scanInput, hinput]
    rcases htype with rfl | rfl <;> rfl

theorem Finds.scanAnswer_eq {found : List Comment}
    (h : Finds env s (.scan paths fileType textName) found) :
    scanAnswer env s paths fileType textName = reportOf s.config found := by
  cases h with
  | files hpaths hfiles hfound => rw [scanAnswer_files hpaths hfiles, hfound, ok_bind]
  | text hinput htype htext hfound =>
    rw [scanAnswer_text hinput htype, htext, ok_bind, hfound, ok_bind]

theorem Fails.scanAnswer_eq {e : Failure} (h : Fails env s (.scan paths fileType textName) e) :
    scanAnswer env s paths fileType textName = .error e := by
  cases h with
  | files hpaths hfiles h =>
    rw [scanAnswer_files hpaths hfiles, h]
    rfl
  | noText hinput htype h =>
    rw [scanAnswer_text hinput htype, h]
    rfl
  | text hinput htype htext h =>
    rw [scanAnswer_text hinput htype, htext, ok_bind, h]
    rfl

end Command

/-! ## Section 2: What a call comes to -/

namespace Invocation

variable {i : Invocation} {env : Environment} {registry : Registry}

/-- The scanner that an invocation sets up under the settings in force. -/
def Prepared (i : Invocation) (env : Environment) (registry : Registry) (config : Config)
    (s : Scanner) : Prop :=
  ∃ project, i.InForce env project config
    ∧ (Scanner.setUp config registry env.system project).result = .ok s

/-- What an invocation that scans comes to: it may fail over the settings, the scanner, the scan or
the report. -/
inductive Ends (i : Invocation) (env : Environment) (registry : Registry) : CallEnd → Prop where
  | noSettings {name : String} {e : Failure} (hname : i.project = some name)
      (h : (i.config env.system (Path.ofString name)).result = .error e) :
      Ends i env registry (.failed e)
  | noScanner {project : Path} {config : Config} {e : Failure}
      (hconfig : i.InForce env project config)
      (h : (Scanner.setUp config registry env.system project).result = .error e) :
      Ends i env registry (.failed e)
  | unusable {config : Config} {s : Scanner} {message : String}
      (hs : i.Prepared env registry config s) (h : Command.Unusable env s i.command message) :
      Ends i env registry (.unusable message)
  | noComments {config : Config} {s : Scanner} {e : Failure}
      (hs : i.Prepared env registry config s) (h : Command.Fails env s i.command e) :
      Ends i env registry (.failed e)
  | noReport {config : Config} {s : Scanner} {found : List Comment} {e : Failure}
      (hs : i.Prepared env registry config s) (hfound : Command.Finds env s i.command found)
      (h : Report.render (found.map .comment) (.text config.reporter) = .error e) :
      Ends i env registry (.failed e)
  | reported {config : Config} {s : Scanner} {found : List Comment} {text : String}
      (hs : i.Prepared env registry config s) (hfound : Command.Finds env s i.command found)
      (h : Report.render (found.map .comment) (.text config.reporter) = .ok text) :
      Ends i env registry (.reported config found text)

variable {paths : List String} {fileType : Option String} {textName : Data}

theorem result_run_scan (hcommand : i.command = .scan paths fileType textName) {name : String}
    (hname : i.project = some name) :
    (i.run env registry).2.result = (i.config env.system (Path.ofString name)).result >>= fun c =>
      (Scanner.setUp c registry env.system (Path.ofString name)).result >>= fun s =>
        Command.scanAnswer env s paths fileType textName := by
  rw [result_run hname, hcommand]
  congr 1
  funext c
  simp only [Command.run]
  cases (Scanner.setUp c registry env.system (Path.ofString name)).result <;> rfl

/-- The scanner of an invocation has the settings in force. -/
theorem Prepared.config_eq {config : Config} {s : Scanner} (h : i.Prepared env registry config s) :
    s.config = config := by
  obtain ⟨project, -, hs⟩ := h
  unfold Scanner.setUp at hs
  split at hs
  · cases hs
  · split at hs
    · cases hs
    · cases hs
      rfl

theorem Prepared.result_run (hcommand : i.command = .scan paths fileType textName)
    {config : Config} {s : Scanner} (h : i.Prepared env registry config s) :
    (i.run env registry).2.result = Command.scanAnswer env s paths fileType textName := by
  obtain ⟨_, ⟨⟨name, hname, rfl⟩, hconfig⟩, hs⟩ := h
  rw [result_run_scan hcommand hname, hconfig, ok_bind, hs, ok_bind]

/-- What an invocation comes to is what it says. -/
theorem Ends.result_run (hcommand : i.command = .scan paths fileType textName) {outcome : CallEnd}
    (h : i.Ends env registry outcome) : (i.run env registry).2.result = outcome.answer := by
  cases h with
  | noSettings hname h =>
    rw [result_run_scan hcommand hname, h]
    rfl
  | noScanner hconfig h =>
    obtain ⟨⟨name, hname, rfl⟩, hconfig⟩ := hconfig
    rw [result_run_scan hcommand hname, hconfig, ok_bind, h]
    rfl
  | unusable hs h =>
    rw [hcommand] at h
    rw [hs.result_run hcommand, h.scanAnswer_eq]
    rfl
  | noComments hs h =>
    rw [hcommand] at h
    rw [hs.result_run hcommand, h.scanAnswer_eq]
    rfl
  | noReport hs hfound h =>
    rw [hcommand] at hfound
    rw [hs.result_run hcommand, hfound.scanAnswer_eq, hs.config_eq]
    exact Command.reportOf_eq_error_iff.mpr h
  | reported hs hfound h =>
    rw [hcommand] at hfound
    rw [hs.result_run hcommand, hfound.scanAnswer_eq, hs.config_eq]
    exact Command.reportOf_eq_ok_iff.mpr ⟨_, h, rfl⟩

/-- Every invocation that has a project comes to something. -/
theorem exists_ends (hcommand : i.command = .scan paths fileType textName) {name : String}
    (hname : i.project = some name) (env : Environment) (registry : Registry) :
    ∃ outcome, i.Ends env registry outcome := by
  cases hconfig : (i.config env.system (Path.ofString name)).result with
  | error e => exact ⟨_, .noSettings hname hconfig⟩
  | ok config =>
    have hforce : i.InForce env (Path.ofString name) config := ⟨⟨name, hname, rfl⟩, hconfig⟩
    cases hs : (Scanner.setUp config registry env.system (Path.ofString name)).result with
    | error e => exact ⟨_, .noScanner hforce hs⟩
    | ok s =>
      have hprepared : i.Prepared env registry config s := ⟨_, hforce, hs⟩
      rcases Command.scanAnswer_cases env s paths fileType textName with
        ⟨message, h⟩ | ⟨found, h⟩ | ⟨e, h⟩
      · exact ⟨_, .unusable hprepared (hcommand ▸ h)⟩
      · cases htext : Report.render (found.map .comment) (.text config.reporter) with
        | ok text => exact ⟨_, .reported hprepared (hcommand ▸ h) htext⟩
        | error e => exact ⟨_, .noReport hprepared (hcommand ▸ h) htext⟩
      · exact ⟨_, .noComments hprepared (hcommand ▸ h)⟩

/-- An invocation merges all associations in force into the registry, or none. -/
theorem fst_run_scan (hcommand : i.command = .scan paths fileType textName) :
    (i.run env registry).1 = registry
      ∨ ∃ project config added, i.InForce env project config
        ∧ Registry.GivesEntries (.mapping config.associate) added
        ∧ (i.run env registry).1 = registry.setAll added := by
  cases hname : i.project with
  | none => exact .inl (by rw [Invocation.run, hname])
  | some name =>
    rw [fst_run hname, hcommand]
    -- Nothing but setting the scanner up touches the registry.
    cases hconfig : (i.config env.system (Path.ofString name)).result with
    | error e => exact .inl rfl
    | ok config =>
      rcases registry.setUp_cases config env.system (Path.ofString name) with
        ⟨added, s, -, hgives, hs, hregistry⟩ | ⟨-, e, hs⟩
      · refine .inr ⟨_, config, added, ⟨⟨name, hname, rfl⟩, hconfig⟩, hgives, ?_⟩
        simp only [Command.run, Scanner.registryAfter, hs, hregistry]
      · refine .inl ?_
        simp only [Command.run, Scanner.registryAfter, hs]

end Invocation

/-! ## Section 3: What a call shows -/

end TaggedComments
