import TaggedComments.Command.Invocation
import TaggedComments.Proofs.Steps

/-!
# The command line of a report

Words without a hyphen in front are operands wherever they stand, so the names of files in front of
an option are read as the files of the command.

- `OptionTable.classifyAll_operands` and `OptionTable.readFrom_operands` pass over such words.
- `Invocation.ofWords_report` reads the command line of a report, `Overrides.apply_reporter` gives
  the settings that it puts in force.
-/

namespace TaggedComments

namespace OptionTable

variable {t : OptionTable} {files : List String}

/-- A word without a hyphen in front. -/
def IsOperand (word : String) : Prop := word.toList.head? ≠ some '-'

instance : DecidablePred IsOperand := fun word =>
  inferInstanceAs (Decidable (word.toList.head? ≠ some '-'))

theorem IsOperand.classify {word : String} (h : IsOperand word) : t.classify word = .ok .plain := by
  rw [OptionTable.classify, if_pos (bne_iff_ne.mpr h)]

theorem IsOperand.ne_hyphens {word : String} (h : IsOperand word) : word ≠ "--" := by
  rintro rfl
  exact absurd rfl h

/-- Operands in front of other words are plain. -/
theorem classifyAll_operands (hfiles : ∀ f ∈ files, IsOperand f) (words : List String) :
    t.classifyAll (files ++ words) =
      (t.classifyAll words).map fun ws => files.map (fun f => (f, .plain)) ++ ws := by
  induction files with
  | nil =>
    rw [List.nil_append]
    cases t.classifyAll words <;> rfl
  | cons f files ih =>
    obtain ⟨hf, hfiles⟩ := List.forall_mem_cons.mp hfiles
    rw [List.cons_append, classifyAll, if_neg hf.ne_hyphens, hf.classify, ok_bind, ih hfiles]
    cases t.classifyAll words <;> rfl

theorem readFrom_operand (ht : t.operands = .list) {stage : Stage} (hstage : stage ≠ .after)
    (f : String) (ws : List (String × Word)) : t.readFrom stage ((f, .plain) :: ws) =
      (t.readFrom .inside ws).map fun r => { r with operands := f :: r.operands } := by
  rw [readFrom.eq_def]
  cases stage with
  | after => exact absurd rfl hstage
  | _ =>
    simp only [ht]
    rfl

/-- The word behind an option that takes a value is that value. -/
theorem readFrom_option {o : OptionSpec} {s : List (String × Setting)} {value : String}
    (ho : o.takesValue = true) (hs : settings [(o, .text value)] = .ok s) (stage : Stage)
    (word : String) (long : Bool) (ws : List (String × Word)) :
    t.readFrom stage ((word, .option o long none) :: (value, .plain) :: ws) =
      (t.readFrom stage.atOption ws).map (prepend s []) := by
  rw [readFrom.eq_def]
  simp [joined, alone, ho, hs]

/-- Operands in front of what is read in any case are kept in their order. -/
theorem readFrom_operands (ht : t.operands = .list) {ws : List (String × Word)} {last : Reading}
    (hlast : ∀ stage, t.readFrom stage ws = .ok last) {stage : Stage} (hstage : stage ≠ .after) :
    t.readFrom stage (files.map (fun f => (f, .plain)) ++ ws) =
      .ok { last with operands := files ++ last.operands } := by
  induction files generalizing stage with
  | nil => exact hlast stage
  | cons f files ih =>
    have hinside : Stage.inside ≠ .after := by decide
    rw [List.map_cons, List.cons_append, readFrom_operand ht hstage, ih hinside]
    rfl

end OptionTable

namespace Invocation

open OptionTable

variable {files : List String} {name : String}

theorem isOperand_reporterNames : ∀ name ∈ Failure.reporterNames, IsOperand name := by decide

theorem read_reportTable (hfiles : ∀ f ∈ files, IsOperand f)
    (hname : name ∈ Failure.reporterNames) :
    reportTable.read (files ++ ["-r", name]) =
      .ok { settings := [("reporter", .text name)], operands := files } := by
  have hplain : reportTable.classify name = .ok .plain :=
    (isOperand_reporterNames name hname).classify
  have hoption : reportTable.classify "-r" = .ok (.option reporterOption false none) := rfl
  have hwords : reportTable.classifyAll ["-r", name] =
      .ok [("-r", .option reporterOption false none), (name, .plain)] := by
    have hne : name ≠ "--" := (isOperand_reporterNames name hname).ne_hyphens
    simp [classifyAll, hoption, hne, hplain, ok_bind]
  have hsettings : settings [(reporterOption, .text name)] = .ok [("reporter", .text name)] := by
    simp only [Failure.reporterNames, List.mem_cons, List.not_mem_nil, or_false] at hname
    rcases hname with rfl | rfl | rfl | rfl | rfl <;> rfl
  -- The option is read in the same way whether operands came before it or not.
  have hlast (stage : Stage) :
      reportTable.readFrom stage [("-r", .option reporterOption false none), (name, .plain)] =
        .ok { settings := [("reporter", .text name)] } := by
    rw [readFrom_option rfl hsettings, readFrom]
    rfl
  have hstage : Stage.before ≠ .after := by decide
  have hread : reportTable.readFrom .before (files.map (fun f => (f, .plain)) ++ _) = _ :=
    readFrom_operands rfl hlast hstage
  rw [List.append_nil] at hread
  rw [OptionTable.read, classifyAll_operands hfiles, hwords]
  exact hread

theorem read_programTable (hfiles : ∀ f ∈ files, IsOperand f)
    (hname : name ∈ Failure.reporterNames) :
    programTable.read ("report" :: files ++ ["-r", name]) =
      .ok { command := some ("report" :: files ++ ["-r", name]) } := by
  have hplain : programTable.classify name = .ok .plain :=
    (isOperand_reporterNames name hname).classify
  have hwords : programTable.classifyAll ["-r", name] = .ok [("-r", .unknown), (name, .plain)] := by
    have hne : name ≠ "--" := (isOperand_reporterNames name hname).ne_hyphens
    have hoption : programTable.classify "-r" = .ok .unknown := rfl
    simp [classifyAll, hoption, hne, hplain, ok_bind]
  -- The first operand is the name of the command, and all that follows belongs to it.
  have hoperands : ∀ f ∈ "report" :: files, IsOperand f :=
    List.forall_mem_cons.mpr ⟨by decide, hfiles⟩
  rw [OptionTable.read, classifyAll_operands hoperands, hwords]
  show programTable.readFrom .before (("report", .plain) :: (files.map _ ++ _)) = _
  rw [readFrom.eq_def]
  simp [programTable, endsOptions, Function.comp_def]

/-- The report command line is read as it is meant. -/
theorem ofWords_report (hfiles : ∀ f ∈ files, IsOperand f) (hname : name ∈ Failure.reporterNames) :
    ofWords ("report" :: files ++ ["-r", name]) =
      .ok ⟨some ".", false, { reporter := some name }, .report files⟩ := by
  rw [ofWords, read_programTable hfiles hname]
  simp only [Except.mapError, ok_bind, List.cons_append, tableOf?, read_reportTable hfiles hname]
  rfl

end Invocation

theorem Overrides.apply_reporter (c : Config) (name : String) :
    Overrides.apply { reporter := some name } c = .ok { c with reporter := name } := by
  have hassociate : AssociationOption.readGiven [] = .ok [] := rfl
  rw [Overrides.apply, hassociate, ok_bind]
  simp [Data.putAll]
  rfl

end TaggedComments
