import TaggedComments.Command.Basic
import TaggedComments.Proofs.Data.Entries
import TaggedComments.Proofs.Log

/-!
# Settings in force

The settings of a call are those of its project, overridden by its options. For an extension the last
option that names it counts, and where none does the entry of the project.

- `Overrides.Effective` says what options make of settings, `Overrides.effective_of_apply` that this
  is what is put in force.
- `Invocation.InForce` are the settings that an invocation works under.
-/

namespace TaggedComments

/-- The settings after options have overridden those of a project. -/
structure Overrides.Effective (o : Overrides) (loaded config : Config) : Prop where
  /-- Lists are continued. -/
  tags : config.tags = loaded.tags ++ (o.tags.map tagNames).getD []
  /-- Lists are continued. -/
  ignore : config.ignore = loaded.ignore ++ o.ignore
  /-- The last association of an extension counts, and else the entry of the project. -/
  associate : ∃ given, o.associate.mapM AssociationOption.ofGiven = .ok given
    ∧ ∀ key, Data.lookup? key config.associate =
      (Data.lookup? key (given.map AssociationOption.toEntry).reverse).or
        (Data.lookup? key loaded.associate)
  /-- The report of the options counts. -/
  reporter : config.reporter = o.reporter.getD loaded.reporter
  /-- Switches are turned on. -/
  inlineFiles : config.inlineFiles = (loaded.inlineFiles || o.inlineFiles)
  /-- Switches are turned on. -/
  skipUnsupported : config.skipUnsupported = (loaded.skipUnsupported || o.skipUnsupported)
  /-- Switches are turned on. -/
  exitNicely : config.exitNicely = (loaded.exitNicely || o.exitNicely)

theorem Overrides.effective_of_apply {o : Overrides} {loaded config : Config}
    (h : o.apply loaded = .ok config) : o.Effective loaded config := by
  obtain ⟨associations, hgiven, hconfig⟩ := bind_eq_ok_iff.mp h
  obtain ⟨given, hread, rfl⟩ := map_eq_ok_iff.mp hgiven
  cases hconfig
  exact {
    tags := rfl
    ignore := rfl
    associate := ⟨given, hread, fun key => Data.lookup?_putAll_putAll key⟩
    reporter := rfl
    inlineFiles := rfl
    skipUnsupported := rfl
    exitNicely := rfl }

namespace Invocation

/-- The settings that an invocation works under in its project. -/
def InForce (i : Invocation) (env : Environment) (project : Path) (config : Config) : Prop :=
  (∃ name, i.project = some name ∧ project = Path.ofString name)
    ∧ (i.config env.system project).result = .ok config

variable {i : Invocation} {env : Environment} {project : Path} {config : Config}

/-- The settings in force are those of the project, overridden by the options. -/
theorem InForce.effective (h : i.InForce env project config) :
    ∃ loaded, (Config.load env.system project).result = .ok loaded
      ∧ i.overrides.Effective loaded config := by
  have hresult := h.2
  rw [Invocation.config, Traced.result_bind] at hresult
  obtain ⟨loaded, hloaded, happly⟩ := bind_eq_ok_iff.mp hresult
  exact ⟨loaded, hloaded, Overrides.effective_of_apply happly⟩

/-- The settings come first, and the command is carried out under them. -/
theorem result_run {name : String} (hname : i.project = some name) (env : Environment)
    (registry : Registry) :
    (i.run env registry).2.result = (i.config env.system (Path.ofString name)).result >>= fun c =>
      (i.command.run c env registry (Path.ofString name)).2.result := by
  rw [Invocation.run, hname]
  simp only
  cases (i.config env.system (Path.ofString name)).result <;> rfl

/-- The registry changes only when the command is carried out. -/
theorem fst_run {name : String} (hname : i.project = some name) (env : Environment)
    (registry : Registry) :
    (i.run env registry).1 = match (i.config env.system (Path.ofString name)).result with
      | .ok c => (i.command.run c env registry (Path.ofString name)).1
      | .error _ => registry := by
  rw [Invocation.run, hname]
  simp only
  cases (i.config env.system (Path.ofString name)).result <;> rfl

end Invocation

end TaggedComments
