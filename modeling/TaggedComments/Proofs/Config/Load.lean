import TaggedComments.Config.File
import TaggedComments.Proofs.Config.Refusal
import TaggedComments.Proofs.Yaml.NoText

/-!
# When no settings are loaded

A project without a configuration file has the default settings. One with a file has the settings in
it, or the default settings and a warning if the file is passed over; but there are files that are
not passed over and from which nothing can be loaded.

- `Config.chosen` is the file that counts, `Config.PassedOver` says when it is passed over and
  `Config.Unusable` when it is not and nothing can be loaded from it.
- `Config.load_fails_iff` says that nothing else can happen.
-/

namespace TaggedComments.Config

/-! ## Section 1: The file -/

/-- The configuration file of a project: the first of the two names under which something is. -/
def chosen (system : FileSystem) (project : Path) : Option Path :=
  (fileNames.map (system.resolvePath project).child).find? fun p =>
    (system.find p).toOption.isSome

/-- Why a file is passed over: there are no bytes to read, they are not YAML, or they hold something
else than a mapping. -/
inductive PassedOver (system : FileSystem) (p : Path) : (message : String) → Prop where
  | unread (h : ∀ bytes, system.read p ≠ .ok bytes) : PassedOver system p (unreadable p)
  | malformed {bytes : List Nat} (hread : system.read p = .ok bytes)
      (h : Yaml.read bytes = .error .malformed) : PassedOver system p (unreadable p)
  | noMapping {bytes : List Nat} {d : Data} (hread : system.read p = .ok bytes)
      (hd : Yaml.read bytes = .ok d) (htrue : d.truthy = true) (h : d.asMapping? = none) :
      PassedOver system p (notMapping p)

/-- Why nothing can be loaded from a file: something in it has no value, which is no fault of YAML, or
it holds a mapping with a setting that is refused. -/
inductive Unusable (system : FileSystem) (p : Path) : Failure → Prop where
  | value {bytes : List Nat} {e : Failure} (hread : system.read p = .ok bytes)
      (h : Yaml.read bytes = .error (.failure e)) : Unusable system p e
  | setting {bytes : List Nat} {d : Data} {e : Failure} (hread : system.read p = .ok bytes)
      (hd : Yaml.read bytes = .ok d) (htrue : d.truthy = true)
      (hmapping : d.asMapping?.isSome = true) (h : FirstOf (causes d) e) : Unusable system p e

/-! ## Section 2: What is loaded -/

variable {system : FileSystem} {project p : Path}

theorem load_eq : load system project =
    match chosen system project with
    | none => pure {}
    | some p => ofFile system p := by
  unfold load chosen
  rfl

/-- A file is passed over, or nothing can be loaded from it, or its settings count. -/
theorem ofFile_cases (system : FileSystem) (p : Path) :
    (∃ message, PassedOver system p message ∧ ofFile system p = passOver message)
      ∨ (∃ e, Unusable system p e ∧ ofFile system p = .fail e)
      ∨ (∃ c, ofFile system p = ⟨[], .ok c⟩) := by
  unfold ofFile
  cases hread : system.read p with
  | error e =>
    have hnone : ∀ bytes, system.read p ≠ .ok bytes := by
      intro bytes h
      cases hread.symm.trans h
    exact .inl ⟨unreadable p, .unread hnone, rfl⟩
  | ok bytes =>
    simp only
    unfold ofBytes
    cases hvalue : Yaml.read bytes with
    | error f =>
      cases f with
      | malformed => exact .inl ⟨_, .malformed hread hvalue, rfl⟩
      | failure e => exact .inr (.inl ⟨e, .value hread hvalue, rfl⟩)
    | ok d =>
      cases htrue : d.truthy with
      | false =>
        -- Such a value is as good as an empty mapping, and that has the default settings.
        have hempty : d.orElse (.mapping []) = .mapping [] := by simp [Data.orElse, htrue]
        simp only [hempty]
        exact .inr (.inr ⟨{}, rfl⟩)
      | true =>
        have hself : d.orElse (.mapping []) = d := by simp [Data.orElse, htrue]
        simp only [hself]
        cases hmapping : d.asMapping? with
        | none => exact .inl ⟨notMapping p, .noMapping hread hvalue htrue hmapping, rfl⟩
        | some es =>
          have hsome : d.asMapping?.isSome = true := by rw [hmapping]; rfl
          cases hd : ofData d with
          | ok c => exact .inr (.inr ⟨c, rfl⟩)
          | error e =>
            have hcauses := (ofData_eq_error_iff hsome e).mp hd
            exact .inr (.inl ⟨e, .setting hread hvalue htrue hsome hcauses, rfl⟩)

/-- A value that does not count as false gives its settings if it is a mapping, and else the file is
passed over. -/
theorem ofFile_of_value {bytes : List Nat} {d : Data} (hread : system.read p = .ok bytes)
    (hd : Yaml.read bytes = .ok d) (htrue : d.truthy = true) :
    ofFile system p =
      if d.asMapping?.isSome then .ofExcept (ofData d) else passOver (notMapping p) := by
  have hself : d.orElse (.mapping []) = d := by simp [Data.orElse, htrue]
  unfold ofFile
  simp only [hread]
  unfold ofBytes
  simp only [hd, hself]

theorem PassedOver.ofFile_eq {message : String} (h : PassedOver system p message) :
    ofFile system p = passOver message := by
  cases h with
  | unread h =>
    unfold ofFile
    cases hread : system.read p with
    | error e => rfl
    | ok bytes => exact absurd hread (h bytes)
  | malformed hread h =>
    unfold ofFile
    simp only [hread]
    unfold ofBytes
    simp only [h]
  | noMapping hread hd htrue h =>
    rw [ofFile_of_value hread hd htrue, h]
    rfl

theorem Unusable.ofFile_eq {e : Failure} (h : Unusable system p e) : ofFile system p = .fail e := by
  cases h with
  | value hread h =>
    unfold ofFile
    simp only [hread]
    unfold ofBytes
    simp only [h]
  | setting hread hd htrue hmapping h =>
    rw [ofFile_of_value hread hd htrue, if_pos hmapping, (ofData_eq_error_iff hmapping e).mpr h]
    rfl

theorem result_ofFile_eq_error_iff {e : Failure} :
    (ofFile system p).result = .error e ↔ Unusable system p e := by
  constructor
  · intro h
    rcases ofFile_cases system p with ⟨message, -, heq⟩ | ⟨f, hf, heq⟩ | ⟨c, heq⟩
    · rw [heq] at h
      cases h
    · rw [heq] at h
      cases h
      exact hf
    · rw [heq] at h
      cases h
  · intro h
    rw [h.ofFile_eq]
    rfl

theorem ofFile_eq_passOver_iff {message : String} :
    ofFile system p = passOver message ↔ PassedOver system p message := by
  constructor
  · intro h
    rcases ofFile_cases system p with ⟨message', hpassed, heq⟩ | ⟨f, -, heq⟩ | ⟨c, heq⟩
    · cases heq.symm.trans h
      exact hpassed
    · cases heq.symm.trans h
    · cases heq.symm.trans h
  · exact PassedOver.ofFile_eq

/-- Only a file that is passed over is logged. -/
theorem ofFile_eq_or (system : FileSystem) (p : Path) :
    (ofFile system p).log = [] ∨ ∃ message, ofFile system p = passOver message := by
  rcases ofFile_cases system p with ⟨message, -, heq⟩ | ⟨f, -, heq⟩ | ⟨c, heq⟩
  · exact .inr ⟨message, heq⟩
  · exact .inl (by rw [heq]; rfl)
  · exact .inl (by rw [heq])

/-! ## Section 3: Failures -/

/-- **When nothing is loaded.** Loading the settings of a project fails exactly if something in its
configuration file has no value, or the file holds a mapping with a setting in a form that stands for
nothing. It comes to the default settings and one warning exactly if the file is passed over; in all
other cases, a failure among them, nothing is logged. A file that is no text, as its first piece
shows, is not passed over: loading fails. -/
theorem load_fails_iff (system : FileSystem) (project : Path) :
    (∀ e, (load system project).result = .error e ↔
        ∃ p, chosen system project = some p ∧ Unusable system p e)
      ∧ (∀ message, load system project = passOver message ↔
        ∃ p, chosen system project = some p ∧ PassedOver system p message)
      ∧ ((load system project).log = [] ∨ ∃ message, load system project = passOver message)
      ∧ ∀ p bytes, chosen system project = some p → system.read p = .ok bytes →
        Text.Stream.NoText bytes →
          ∃ e, Text.Utf8.IsNoText e ∧ (load system project).result = .error e := by
  rw [load_eq]
  cases hchosen : chosen system project with
  | none =>
    have hnever : ∀ message, (pure {} : Traced Config) ≠ passOver message := by
      intro message h
      cases h
    refine ⟨by simp, by simp [hnever], .inl rfl, ?_⟩
    intro p bytes h
    cases h
  | some p =>
    simp only [Option.some.injEq, exists_eq_left']
    refine ⟨fun e => result_ofFile_eq_error_iff, fun message => ofFile_eq_passOver_iff,
      ofFile_eq_or system p, ?_⟩
    rintro q bytes rfl hread hbytes
    obtain ⟨e, he, hvalue⟩ := Yaml.read_of_noText hbytes
    exact ⟨e, he, result_ofFile_eq_error_iff.mpr (.value hread hvalue)⟩

/-- A configuration file of one byte that starts no character: loading fails. -/
theorem load_fails_iff_byte :
    let system : FileSystem := ⟨.directory [(".todoscan.yaml", .file [0xff])], []⟩
    let p : Path := ⟨.root, [".todoscan.yaml"]⟩
    chosen system ⟨.here, []⟩ = some p ∧ system.read p = .ok [0xff]
      ∧ Text.Stream.NoText [0xff]
      ∧ ∃ e, Text.Utf8.IsNoText e ∧ (load system ⟨.here, []⟩).result = .error e := by
  intro system p
  have hchosen : chosen system ⟨.here, []⟩ = some p := rfl
  have hread : system.read p = .ok [0xff] := rfl
  have hbytes : Text.Stream.NoText [0xff] := .inl ⟨.undecodable 0xff 0 0 .start, rfl⟩
  exact ⟨hchosen, hread, hbytes,
    (load_fails_iff system ⟨.here, []⟩).2.2.2 p [0xff] hchosen hread hbytes⟩

/-- So not every content of the file leads to settings: a byte that starts no character does not, and
nothing is logged about it; neither does a number in the place of tags. -/
theorem load_not_total :
    let system : FileSystem := ⟨.directory [(".todoscan.yaml", .file [0xff])], []⟩
    (load system ⟨.here, []⟩ = .fail (.undecodable 0xff 0 0 .start)
      ∧ ¬ ∃ c, (load system ⟨.here, []⟩).result = .ok c)
      ∧ ofData (.mapping [(.text "tags", .int 5)]) = .error .wrongKind := by
  intro system
  have hvalue : Yaml.read [0xff] = .error (.failure (.undecodable 0xff 0 0 .start)) := by rfl
  have hfile : ofFile system ⟨.root, [".todoscan.yaml"]⟩ = .fail (.undecodable 0xff 0 0 .start) :=
    (Unusable.value rfl hvalue).ofFile_eq
  have hload : load system ⟨.here, []⟩ = .fail (.undecodable 0xff 0 0 .start) := by
    rw [load_eq]
    exact hfile
  refine ⟨⟨hload, ?_⟩, rfl⟩
  rintro ⟨c, hc⟩
  rw [hload] at hc
  cases hc

end TaggedComments.Config
