import Mathlib
import TaggedComments.Proofs.Command.Call
import TaggedComments.Proofs.Command.CommentList
import TaggedComments.Proofs.Command.Setting
import TaggedComments.Proofs.Report.Refusal
import TaggedComments.Proofs.Text.Utf8

/-!
# Calls that render comments

A call that renders comments prints their report, says that it has no input, or reports what is wrong
with its input. It is only stopped without a word by a line that is neither a number nor a text or an
infinity, by a file in a table that is no text, and by a message in Markdown that is no text.

- `Command.Given` are the texts that a call is given, `Command.Gives` the comments that they describe.
- `Command.ReportEnds` is what a call comes to, `Command.ReportStops` what stops it;
  `Command.report_cases` says that there is nothing else.
- `callProgram_report_cases` is about a whole call.
-/

namespace TaggedComments

namespace Command

/-! ## Section 1: What is given -/

/-- The text of a file. -/
def textOf (system : FileSystem) (file : String) : Except Failure String :=
  system.read (Path.ofString file) >>= decodeText

/-- The texts that a call is given: those of its files, or that of the standard input. -/
inductive Given (env : Environment) : (files : List String) → (texts : List String) → Prop where
  | files {files texts : List String} (hfiles : files ≠ [])
      (htexts : List.Forall₂ (fun f text => textOf env.system f = .ok text) files texts) :
      Given env files texts
  | input {bytes : List Nat} {text : String} (hinput : env.input = some bytes)
      (htext : decodeText bytes = .ok text) : Given env [] [text]

/-- Why no texts are given: the first file that has none cannot be read or is no text, or the standard
input is no text. -/
inductive NotGiven (env : Environment) : (files : List String) → Failure → Prop where
  | file {before later : List String} {f : String} {e : Failure}
      (hbefore : ∀ g ∈ before, ∃ text, textOf env.system g = .ok text)
      (h : textOf env.system f = .error e) : NotGiven env (before ++ f :: later) e
  | input {bytes : List Nat} {e : Failure} (hinput : env.input = some bytes)
      (h : decodeText bytes = .error e) : NotGiven env [] e

/-- The comments that the texts describe, one text after another. -/
def Gives (env : Environment) (files : List String) (found : List Comment) : Prop :=
  ∃ texts lists, Given env files texts ∧ List.Forall₂ Lists texts lists ∧ found = lists.flatten

/-- All texts are given, and those before a text in them describe comments. -/
def GivesUpTo (env : Environment) (files : List String) (text : String) : Prop :=
  ∃ before later, Given env files (before ++ text :: later) ∧ ∀ t ∈ before, ∃ cs, Lists t cs

/-- What a call that renders comments comes to: it may have no input, fail over its input, over a text
or over a number that is too long for JSON, or print a report. -/
inductive ReportEnds (config : Config) (env : Environment) (files : List String) :
    CallEnd → Prop where
  | noInput (hfiles : files = []) (hinput : env.input = none) :
      ReportEnds config env files
        (.unusable "No input: pass JSON files or pipe JSON into stdin")
  | notGiven {e : Failure} (h : NotGiven env files e) : ReportEnds config env files (.failed e)
  | refused {text : String} {e : Failure} (htext : GivesUpTo env files text)
      (h : ListRefused text e) : ReportEnds config env files (.failed e)
  | tooLong {found : List Comment} {c : Comment} (hfound : Gives env files found)
      (hreporter : config.reporter = "json") (hc : c ∈ found) (h : c.toData.isWritable = false) :
      ReportEnds config env files (.failed .numberTooLong)
  | reported {found : List Comment} {text : String} (hfound : Gives env files found)
      (h : Report.render (found.map .comment) (.text config.reporter) = .ok text) :
      ReportEnds config env files (.reported config found text)

/-- What stops a call that renders comments without a word: the line of an object, a file in the table
or a message in Markdown. -/
inductive ReportStops (config : Config) (env : Environment) (files : List String) :
    Failure → Prop where
  | line {text : String} {e : Failure} (htext : GivesUpTo env files text) (h : ListStops text e) :
      ReportStops config env files e
  | file {found : List Comment} {c : Comment} (hfound : Gives env files found)
      (hreporter : config.reporter = "table") (hc : c ∈ found) (htrue : c.file.truthy = true)
      (h : c.file.asText? = none) : ReportStops config env files .wrongKind
  | message {found : List Comment} {c : Comment} (hfound : Gives env files found)
      (hreporter : config.reporter = "markdown") (hc : c ∈ found) (h : c.text.asText? = none) :
      ReportStops config env files .noSuchPart

/-! ## Section 2: What is said -/

/-- What a call that renders comments says. -/
def reportAnswer (config : Config) (env : Environment) (files : List String) :
    Except Failure Answer :=
  if files.isEmpty then reportInput config env.input else reportFiles config env files

variable {config : Config} {env : Environment} {files : List String} {e : Failure}

theorem isReported_of_decodeText {bytes : List Nat} (h : decodeText bytes = .error e) :
    e.isReported = true := by
  obtain ⟨_, _, _, _, rfl⟩ := Text.Utf8.decodeFrom_eq_error (map_eq_error_iff.mp h)
  rfl

/-- What is wrong with a file is reported. -/
theorem isReported_of_textOf {file : String} (h : textOf env.system file = .error e) :
    e.isReported = true := by
  rcases bind_eq_error_iff.mp h with h | ⟨bytes, -, h⟩
  · unfold FileSystem.read at h
    split at h <;> cases h <;> rfl
  · exact isReported_of_decodeText h

theorem NotGiven.isReported (h : NotGiven env files e) : e.isReported = true := by
  cases h with
  | file _ h => exact isReported_of_textOf h
  | input _ h => exact isReported_of_decodeText h

/-- Failures that a call comes to are reported. -/
theorem ReportEnds.isReported (h : ReportEnds config env files (.failed e)) :
    e.isReported = true := by
  cases h with
  | notGiven h => exact h.isReported
  | refused _ h => exact h.isReported
  | tooLong => rfl

/-- Failures that stop a call are not. -/
theorem ReportStops.isReported (h : ReportStops config env files e) : e.isReported = false := by
  cases h with
  | line _ h => exact h.isReported
  | file | message => rfl

/-- All files are read before the first is looked at. -/
theorem reportAnswer_of_files (hfiles : files ≠ []) :
    reportAnswer config env files = files.mapM (textOf env.system) >>= fun texts =>
      texts.mapM commentsOf >>= fun lists => reportOf config lists.flatten := by
  have hempty : files.isEmpty = false := by simpa using hfiles
  rw [reportAnswer, hempty]
  rfl

theorem reportAnswer_of_input {bytes : List Nat} (hinput : env.input = some bytes) :
    reportAnswer config env [] =
      decodeText bytes >>= fun text => commentsOf text >>= reportOf config := by
  rw [reportAnswer, List.isEmpty_nil, if_pos rfl, hinput]
  rfl

/-- The comments of all texts are rendered together. -/
theorem Given.reportAnswer_eq {texts : List String} (h : Given env files texts) :
    reportAnswer config env files =
      texts.mapM commentsOf >>= fun lists => reportOf config lists.flatten := by
  cases h with
  | files hfiles htexts =>
    rw [reportAnswer_of_files hfiles, mapM_eq_ok_iff.mpr htexts, ok_bind]
  | @input bytes text hinput htext =>
    rw [reportAnswer_of_input hinput, htext, ok_bind, List.mapM_cons, List.mapM_nil]
    cases commentsOf text with
    | error e => rfl
    | ok cs =>
      show reportOf config cs = reportOf config (cs ++ [])
      rw [List.append_nil]

theorem NotGiven.reportAnswer_eq (h : NotGiven env files e) :
    reportAnswer config env files = .error e := by
  cases h with
  | @file before later f _ hbefore h =>
    have hread : (before ++ f :: later).mapM (textOf env.system) = .error e :=
      mapM_eq_error_iff.mpr ⟨before, f, later, rfl, hbefore, h⟩
    rw [reportAnswer_of_files (by simp), hread]
    rfl
  | input hinput h =>
    rw [reportAnswer_of_input hinput, h]
    rfl

theorem Gives.reportAnswer_eq {found : List Comment} (h : Gives env files found) :
    reportAnswer config env files = reportOf config found := by
  obtain ⟨texts, lists, htexts, hlists, rfl⟩ := h
  have hread : texts.mapM commentsOf = .ok lists := by
    rw [mapM_eq_ok_iff]
    exact hlists.imp fun _ _ => commentsOf_eq_ok_iff.mpr
  rw [htexts.reportAnswer_eq, hread, ok_bind]

theorem GivesUpTo.reportAnswer_eq {text : String} (h : GivesUpTo env files text)
    (he : ListRefused text e ∨ ListStops text e) : reportAnswer config env files = .error e := by
  obtain ⟨before, later, htexts, hbefore⟩ := h
  have hread : (before ++ text :: later).mapM commentsOf = .error e := by
    refine mapM_eq_error_iff.mpr ⟨before, text, later, rfl, ?_, commentsOf_eq_error_iff.mpr he⟩
    intro t ht
    obtain ⟨cs, hcs⟩ := hbefore t ht
    exact ⟨cs, commentsOf_eq_ok_iff.mpr hcs⟩
  rw [htexts.reportAnswer_eq, hread]
  rfl

/-- The comments that are given have texts for tags. -/
theorem Gives.exists_tag {found : List Comment} (h : Gives env files found) :
    ∀ c ∈ found, ∃ s, c.tag = .text s := by
  obtain ⟨texts, lists, -, hlists, rfl⟩ := h
  intro c hc
  obtain ⟨cs, hcs, hc⟩ := List.mem_flatten.mp hc
  obtain ⟨text, items, -, -, hitems⟩ := exists_forall₂_iff.mp ⟨texts, hlists.flip⟩ cs hcs
  obtain ⟨d, hd⟩ := exists_forall₂_iff.mp ⟨items, hitems.flip⟩ c hc
  exact Comment.tag_of_ofData hd

/-! ## Section 3: What a call comes to -/

variable (hname : config.reporter ∈ Failure.reporterNames)

include hname

theorem ReportEnds.reportAnswer_eq {outcome : CallEnd} (h : ReportEnds config env files outcome) :
    reportAnswer config env files = outcome.answer := by
  cases h with
  | noInput hfiles hinput =>
    subst hfiles
    rw [reportAnswer, List.isEmpty_nil, if_pos rfl, hinput]
    rfl
  | notGiven h => exact h.reportAnswer_eq
  | refused htext h => exact htext.reportAnswer_eq (.inl h)
  | tooLong hfound hreporter hc h =>
    rw [hfound.reportAnswer_eq]
    apply reportOf_eq_error_iff.mpr
    exact (Report.render_eq_error_iff hfound.exists_tag hname).mpr (.number hreporter hc h)
  | reported hfound h =>
    rw [hfound.reportAnswer_eq]
    exact reportOf_eq_ok_iff.mpr ⟨_, h, rfl⟩

theorem ReportStops.reportAnswer_eq (h : ReportStops config env files e) :
    reportAnswer config env files = .error e := by
  cases h with
  | line htext h => exact htext.reportAnswer_eq (.inr h)
  | file hfound hreporter hc htrue h =>
    rw [hfound.reportAnswer_eq]
    apply reportOf_eq_error_iff.mpr
    exact (Report.render_eq_error_iff hfound.exists_tag hname).mpr (.file hreporter hc htrue h)
  | message hfound hreporter hc h =>
    rw [hfound.reportAnswer_eq]
    apply reportOf_eq_error_iff.mpr
    exact (Report.render_eq_error_iff hfound.exists_tag hname).mpr (.message hreporter hc h)

omit hname in
/-- Texts are given, or there are none. -/
theorem given_cases (env : Environment) (files : List String) :
    (files = [] ∧ env.input = none) ∨ (∃ texts, Given env files texts)
      ∨ ∃ e, NotGiven env files e := by
  cases files with
  | nil =>
    cases hinput : env.input with
    | none => exact .inl ⟨rfl, rfl⟩
    | some bytes =>
      cases htext : decodeText bytes with
      | ok text => exact .inr (.inl ⟨_, .input hinput htext⟩)
      | error e => exact .inr (.inr ⟨e, .input hinput htext⟩)
  | cons f files =>
    cases hread : (f :: files).mapM (textOf env.system) with
    | ok texts => exact .inr (.inl ⟨texts, .files (by simp) (mapM_eq_ok_iff.mp hread)⟩)
    | error e =>
      obtain ⟨before, g, later, hsplit, hbefore, h⟩ := mapM_eq_error_iff.mp hread
      exact .inr (.inr ⟨e, hsplit ▸ .file hbefore h⟩)

omit hname in
/-- The texts that are given describe comments, or the first that does not is known. -/
theorem Given.gives_cases {texts : List String} (h : Given env files texts) :
    (∃ found, Gives env files found)
      ∨ ∃ text e, GivesUpTo env files text ∧ (ListRefused text e ∨ ListStops text e) := by
  cases hread : texts.mapM commentsOf with
  | ok lists =>
    have hlists : List.Forall₂ Lists texts lists :=
      (mapM_eq_ok_iff.mp hread).imp fun _ _ => commentsOf_eq_ok_iff.mp
    exact .inl ⟨_, texts, lists, h, hlists, rfl⟩
  | error e =>
    obtain ⟨before, text, later, rfl, hbefore, he⟩ := mapM_eq_error_iff.mp hread
    refine .inr ⟨text, e, ⟨before, later, h, ?_⟩, commentsOf_eq_error_iff.mp he⟩
    intro t ht
    obtain ⟨cs, hcs⟩ := hbefore t ht
    exact ⟨cs, commentsOf_eq_ok_iff.mp hcs⟩

/-- A call that renders comments comes to something, unless it is stopped. -/
theorem report_cases (env : Environment) (files : List String) :
    (∃ outcome, ReportEnds config env files outcome) ∨ ∃ e, ReportStops config env files e := by
  rcases given_cases env files with ⟨hfiles, hinput⟩ | ⟨texts, htexts⟩ | ⟨e, h⟩
  · exact .inl ⟨_, .noInput hfiles hinput⟩
  · rcases htexts.gives_cases with ⟨found, hfound⟩ | ⟨text, e, htext, h | h⟩
    · cases hrender : Report.render (found.map .comment) (.text config.reporter) with
      | ok text => exact .inl ⟨_, .reported hfound hrender⟩
      | error e =>
        cases (Report.render_eq_error_iff hfound.exists_tag hname).mp hrender with
        | file hreporter hc htrue h => exact .inr ⟨_, .file hfound hreporter hc htrue h⟩
        | message hreporter hc h => exact .inr ⟨_, .message hfound hreporter hc h⟩
        | number hreporter hc h => exact .inl ⟨_, .tooLong hfound hreporter hc h⟩
    · exact .inl ⟨_, .refused htext h⟩
    · exact .inr ⟨e, .line htext h⟩
  · exact .inl ⟨_, .notGiven h⟩

end Command

/-! ## Section 4: Calls -/

/-- The settings that options put in force where the defaults are overridden by nothing but a report
and an exit code. -/
def Overrides.reportConfig (o : Overrides) : Config where
  reporter := o.reporter.getD "table"
  exitNicely := o.exitNicely

theorem Overrides.apply_default {o : Overrides}
    (ho : o = { reporter := o.reporter, exitNicely := o.exitNicely }) :
    o.apply {} = .ok o.reportConfig := by
  rw [ho]
  rfl

namespace Invocation

variable {i : Invocation} {env : Environment} {registry : Registry} {files : List String}
  {name : String}

/-- A call that renders comments says so whatever the registry is, and leaves it alone. -/
theorem run_report (hcommand : i.command = .report files) (hname : i.project = some name)
    (hdefault : (Config.load env.system (Path.ofString name)).result = .ok {})
    (hoverrides : i.overrides =
      { reporter := i.overrides.reporter, exitNicely := i.overrides.exitNicely }) :
    i.run env registry = (registry, ⟨(Config.load env.system (Path.ofString name)).log,
      Command.reportAnswer i.overrides.reportConfig env files⟩) := by
  have hconfig : i.config env.system (Path.ofString name) =
      ⟨(Config.load env.system (Path.ofString name)).log, .ok i.overrides.reportConfig⟩ := by
    show Traced.andThen _ _ = _
    rw [Traced.andThen, hdefault]
    simp [Overrides.apply_default hoverrides, Traced.ofExcept]
  rw [run, hname]
  simp only [hconfig, hcommand, Command.run]
  simp [Traced.ofExcept, Traced.after, Command.reportAnswer]

end Invocation

end TaggedComments
