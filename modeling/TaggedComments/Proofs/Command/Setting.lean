import TaggedComments.Command.Invocation
import TaggedComments.Proofs.Steps

/-!
# Settings come from options

Whatever a command line sets belongs to an option of its command, and a text that is set is one of the
choices of the option if it has any. So a call that renders comments sets nothing but the report, by
one of the names that are offered, and the exit code.

- `OptionTable.Knows` says that the option a word stands for is one of the table,
  `OptionTable.knows_of_classify` that this holds of every word.
- `OptionTable.Allows` says what may be set, `OptionTable.allows_of_read` that nothing else is.
- `Invocation.overrides_of_report` are the overrides of a call that renders comments.
-/

namespace TaggedComments

namespace OptionTable

variable {t : OptionTable}

/-! ## Section 1: Words -/

/-- The option that a word stands for is one of the table. -/
def Knows (t : OptionTable) : Word → Prop
  | .option o _ _ => o ∈ t.options
  | _ => True

theorem mem_options_of_mem_spellings {s : String × OptionSpec} (h : s ∈ t.spellings) :
    s.2 ∈ t.options := by
  obtain ⟨o, ho, hs⟩ := List.mem_flatMap.mp h
  obtain ⟨_, -, rfl⟩ := List.mem_map.mp hs
  exact ho

theorem mem_options_of_lookup {s : String} {o : OptionSpec}
    (h : t.spellings.lookup s = some o) : o ∈ t.options := by
  obtain ⟨before, later, hsplit, -⟩ := List.lookup_eq_some_iff.mp h
  have hmem : (s, o) ∈ t.spellings := by simp [hsplit]
  exact mem_options_of_mem_spellings hmem

theorem knows_of_mem_meanings {word : List Char} {m : String × Word} (h : m ∈ t.meanings word) :
    t.Knows m.2 := by
  unfold meanings at h
  split at h
  · obtain ⟨s, hs, rfl⟩ := List.mem_map.mp h
    exact mem_options_of_mem_spellings (List.mem_of_mem_filter hs)
  · obtain ⟨s, hs, hm⟩ := List.mem_filterMap.mp h
    have ho : s.2 ∈ t.options := mem_options_of_mem_spellings hs
    split at hm
    · cases hm
      exact ho
    · split at hm
      · cases hm
        exact ho
      · cases hm

theorem knows_of_guess {text : String} {word : List Char} {w : Word}
    (h : t.guess text word = .ok w) : t.Knows w := by
  unfold guess at h
  split at h
  · next m hm =>
    cases h
    exact knows_of_mem_meanings (hm ▸ List.mem_singleton_self m)
  · cases h
    split <;> trivial
  · cases h

theorem knows_of_classify {text : String} {w : Word} (h : t.classify text = .ok w) :
    t.Knows w := by
  unfold classify at h
  dsimp only at h
  split at h
  · cases h
    trivial
  · split at h
    · next o ho =>
      cases h
      exact mem_options_of_lookup ho
    · split at h
      · cases h
        trivial
      · split at h
        · next v o _ ho =>
          cases h
          exact mem_options_of_lookup ho
        · exact knows_of_guess h

theorem knows_of_classifyAll {words : List String} {ws : List (String × Word)}
    (h : t.classifyAll words = .ok ws) : ∀ w ∈ ws, t.Knows w.2 := by
  induction words generalizing ws with
  | nil =>
    cases h
    simp
  | cons word words ih =>
    rw [classifyAll] at h
    split at h
    · cases h
      simp [Knows]
    · obtain ⟨w, hw, h⟩ := bind_eq_ok_iff.mp h
      obtain ⟨more, hmore, h⟩ := bind_eq_ok_iff.mp h
      cases h
      exact List.forall_mem_cons.mpr ⟨knows_of_classify hw, ih hmore⟩

/-! ## Section 2: Joined options -/

/-- The options in one word are those of the table. -/
def Joined.Known (t : OptionTable) (j : Joined) : Prop :=
  (∀ x ∈ j.taken, x.1 ∈ t.options) ∧ ∀ o, j.pending = some o → o ∈ t.options

theorem known_alone {o : OptionSpec} (ho : o ∈ t.options) : (alone o).Known t := by
  unfold alone
  split <;> simp [Joined.Known, ho]

theorem Joined.Known.after {o : OptionSpec} {j : Joined} (ho : o ∈ t.options) (h : j.Known t) :
    (j.after o).Known t :=
  ⟨List.forall_mem_cons.mpr ⟨ho, h.1⟩, h.2⟩

theorem known_of_disjoin {o : OptionSpec} {s : List Char} {j : Joined} (ho : o ∈ t.options)
    (h : t.disjoin o s = .ok j) : j.Known t := by
  -- Each letter that is left may be an option itself, and then the rest belongs to that one.
  induction s generalizing o j with
  | nil =>
    rw [disjoin] at h
    split at h
    · cases h
      simp [Joined.Known, ho]
    · cases h
  | cons c s ih =>
    rw [disjoin.eq_def] at h
    simp only at h
    split at h
    · cases h
      simp [Joined.Known, ho]
    · split at h
      · cases h
      · next next hnext =>
        have hmem : next ∈ t.options := mem_options_of_lookup hnext
        split at h
        · cases h
          exact (known_alone hmem).after ho
        · obtain ⟨k, hk, rfl⟩ := map_eq_ok_iff.mp h
          exact (ih hmem hk).after ho

theorem known_of_joined {o : OptionSpec} {long : Bool} {attached : Option (List Char)} {j : Joined}
    (ho : o ∈ t.options) (h : t.joined o long attached = .ok j) : j.Known t := by
  unfold joined at h
  split at h
  · cases h
    exact known_alone ho
  · split at h
    · exact known_of_disjoin ho h
    · split at h
      · cases h
        simp [Joined.Known, ho]
      · cases h

/-! ## Section 3: Settings -/

/-- What an option of the table may be set to; asking for help sets nothing. -/
def Allows (t : OptionTable) (s : String × Setting) : Prop :=
  ∃ o ∈ t.options, o.key = s.1 ∧ ∀ v, s.2 = .text v → o.choices = [] ∨ v ∈ o.choices

/-- The first option is set, to one of its choices, and then the others are. -/
theorem settings_cons_eq_ok {o : OptionSpec} {given : Setting} {taken : List (OptionSpec × Setting)}
    {ss : List (String × Setting)} (h : settings ((o, given) :: taken) = .ok ss) :
    (∀ v, given = .text v → o.choices = [] ∨ v ∈ o.choices)
      ∧ ∃ more, settings taken = .ok more ∧ ss = (o.key, given) :: more := by
  rw [settings] at h
  dsimp only at h
  split at h
  · cases h
  · split at h
    · next v =>
      split at h
      · cases h
      · next hallowed =>
        obtain ⟨more, hmore, h⟩ := bind_eq_ok_iff.mp (show (settings taken >>= _) = _ from h)
        cases h
        refine ⟨?_, more, hmore, rfl⟩
        rintro _ ⟨⟩
        simpa [or_iff_not_imp_left] using hallowed
    · next hother =>
      obtain ⟨more, hmore, h⟩ := bind_eq_ok_iff.mp (show (settings taken >>= _) = _ from h)
      cases h
      exact ⟨fun v hv => absurd hv (hother v), more, hmore, rfl⟩

theorem allows_of_settings {taken : List (OptionSpec × Setting)} {ss : List (String × Setting)}
    (htaken : ∀ x ∈ taken, x.1 ∈ t.options) (h : settings taken = .ok ss) :
    ∀ s ∈ ss, t.Allows s := by
  induction taken generalizing ss with
  | nil =>
    cases h
    simp
  | cons x taken ih =>
    obtain ⟨ho, htaken⟩ := List.forall_mem_cons.mp htaken
    obtain ⟨hchoice, more, hmore, rfl⟩ := settings_cons_eq_ok h
    exact List.forall_mem_cons.mpr ⟨⟨x.1, ho, rfl, hchoice⟩, ih htaken hmore⟩

theorem allows_of_readFrom {stage : Stage} {ws : List (String × Word)} {r : Reading}
    (hws : ∀ w ∈ ws, t.Knows w.2) (h : t.readFrom stage ws = .ok r) :
    ∀ s ∈ r.settings, t.Allows s := by
  -- The cases are those of the reader: no word, an option that is unknown, malformed, complete or
  -- waiting for its value, and an operand.
  fun_induction readFrom t stage ws generalizing r with
  | case1 =>
    cases h
    simp
  | case2 stage text ws ih | case13 stage text w ws _ _ _ _ _ ih =>
    obtain ⟨last, hlast, rfl⟩ := map_eq_ok_iff.mp h
    have hsettings := ih (List.forall_mem_cons.mp hws).2 hlast
    exact hsettings
  | case3 | case4 | case6 | case8 => cases h
  | case5 stage text o long attached ws j hj _ ss hss ih =>
    obtain ⟨ho, hws⟩ := List.forall_mem_cons.mp hws
    obtain ⟨last, hlast, rfl⟩ := map_eq_ok_iff.mp h
    have htaken := (known_of_joined ho hj).1
    exact List.forall_mem_append.mpr ⟨allows_of_settings htaken hss, ih hws hlast⟩
  | case7 stage text o long attached j hj next hnext value rest ss hss ih =>
    obtain ⟨ho, hws⟩ := List.forall_mem_cons.mp hws
    obtain ⟨last, hlast, rfl⟩ := map_eq_ok_iff.mp h
    obtain ⟨htaken, hpending⟩ := known_of_joined ho hj
    have hall : ∀ x ∈ j.taken ++ [(next, .text value)], x.1 ∈ t.options := by
      rw [List.forall_mem_append, List.forall_mem_singleton]
      exact ⟨htaken, hpending next hnext⟩
    have hrest := ih (List.forall_mem_cons.mp hws).2 hlast
    exact List.forall_mem_append.mpr ⟨allows_of_settings hall hss, hrest⟩
  | case9 text w ws _ _ _ ih | case10 text w ws _ _ _ ih =>
    obtain ⟨last, hlast, rfl⟩ := map_eq_ok_iff.mp h
    have hsettings := ih (List.forall_mem_cons.mp hws).2 hlast
    exact hsettings
  | case11 | case12 =>
    cases h
    simp

/-- Whatever is set belongs to an option of the table. -/
theorem allows_of_read {words : List String} {r : Reading} (h : t.read words = .ok r) :
    ∀ s ∈ r.settings, t.Allows s := by
  obtain ⟨ws, hws, h⟩ := bind_eq_ok_iff.mp h
  exact allows_of_readFrom (knows_of_classifyAll hws) h

end OptionTable

/-! ## Section 4: Calls that render comments -/

namespace Invocation

variable {r : Reading}

theorem exists_of_lastText {key value : String} (h : lastText r key = some value) :
    (key, .text value) ∈ r.settings := by
  obtain ⟨given, hgiven, htext⟩ := Option.bind_eq_some_iff.mp h
  obtain ⟨s, hs, rfl⟩ := Option.map_eq_some_iff.mp hgiven
  obtain ⟨hmem, hkey⟩ := List.mem_filter.mp (List.mem_of_getLast? hs)
  obtain ⟨k, given⟩ := s
  cases given with
  | text v =>
    cases htext
    rwa [← of_decide_eq_true hkey]
  | _ => cases htext

section Missing

variable {t : OptionTable} {key : String} (hr : ∀ s ∈ r.settings, t.Allows s)
  (hkey : ∀ o ∈ t.options, o.key ≠ key)

include hr hkey

/-- An option that the table does not have is not given. -/
theorem key_ne_of_allows : ∀ s ∈ r.settings, s.1 ≠ key := by
  intro s hs
  obtain ⟨o, ho, hs, -⟩ := hr s hs
  rw [← hs]
  exact hkey o ho

theorem filter_settings_of_allows : (r.settings.filter fun s => s.1 = key) = [] := by
  rw [List.filter_eq_nil_iff]
  intro s hs
  rw [decide_eq_true_eq]
  exact key_ne_of_allows hr hkey s hs

theorem lastText_of_allows : lastText r key = none := by
  rw [lastText, lastSetting, filter_settings_of_allows hr hkey]
  rfl

theorem allTexts_of_allows : allTexts r key = [] := by
  rw [allTexts, filter_settings_of_allows hr hkey]
  rfl

theorem isOn_of_allows : isOn r key = false := by
  rw [isOn, List.any_eq_false]
  intro s hs
  rw [decide_eq_true_eq]
  exact key_ne_of_allows hr hkey s hs

end Missing

/-- The overrides that the options of a call that renders comments make. -/
theorem overridesOf_report (hr : ∀ s ∈ r.settings, reportTable.Allows s) :
    overridesOf r = { reporter := lastText r "reporter", exitNicely := isOn r "exit_nicely" } := by
  have htags : lastText r "tags" = none := lastText_of_allows hr (by decide)
  have hignore : allTexts r "ignore" = [] := allTexts_of_allows hr (by decide)
  have hassociate : allTexts r "associate" = [] := allTexts_of_allows hr (by decide)
  have hinline : isOn r "inline_files" = false := isOn_of_allows hr (by decide)
  have hskip : isOn r "skip_unsupported" = false := isOn_of_allows hr (by decide)
  rw [overridesOf, htags, hignore, hassociate, hinline, hskip]
  rfl

/-- The report that is chosen is one of those that are offered. -/
theorem lastText_reporter (hr : ∀ s ∈ r.settings, reportTable.Allows s) {name : String}
    (hname : lastText r "reporter" = some name) : name ∈ Failure.reporterNames := by
  obtain ⟨o, ho, hkey, hchoice⟩ := hr _ (exists_of_lastText hname)
  have hreporter : o = reporterOption := by
    simp only [reportTable, List.mem_cons, List.not_mem_nil, or_false] at ho
    rcases ho with rfl | rfl | rfl
    · cases (show "help" ≠ "reporter" by decide) hkey
    · rfl
    · cases (show "exit_nicely" ≠ "reporter" by decide) hkey
  subst hreporter
  have hmem := (hchoice name rfl).resolve_left (by decide)
  simp only [reporterOption, List.mem_cons, List.not_mem_nil, or_false] at hmem
  rcases hmem with rfl | rfl | rfl | rfl | rfl <;> decide

/-- The options of a call that renders comments are read from its words. -/
theorem exists_reading_of_report {words : List String} {i : Invocation} {files : List String}
    (hwords : ofWords words = .ok i) (hcommand : i.command = .report files) :
    ∃ r rest, reportTable.read rest = .ok r ∧ i.overrides = overridesOf r := by
  obtain ⟨outer, -, h⟩ := bind_eq_ok_iff.mp hwords
  split at h
  · obtain ⟨_, -, h⟩ := bind_eq_ok_iff.mp h
    cases h
  · cases h
  · next name rest _ =>
    split at h
    · cases h
    · next table page htable =>
      obtain ⟨r, hread, h⟩ := bind_eq_ok_iff.mp h
      obtain ⟨_, -, h⟩ := bind_eq_ok_iff.mp h
      cases h
      -- Only the name of the command leads to it.
      have hname : name = "report" := by
        change commandOf name r = .report files at hcommand
        unfold commandOf at hcommand
        split at hcommand
        · cases hcommand
        · rfl
        · cases hcommand
      subst hname
      cases htable
      refine ⟨r, rest, ?_, rfl⟩
      cases hrest : reportTable.read rest with
      | ok r' =>
        rw [hrest] at hread
        cases hread
        rfl
      | error e =>
        rw [hrest] at hread
        cases hread

/-- A call that renders comments overrides nothing but the report and the exit code. -/
theorem overrides_of_report {words : List String} {i : Invocation} {files : List String}
    (hwords : ofWords words = .ok i) (hcommand : i.command = .report files) :
    i.overrides = { reporter := i.overrides.reporter, exitNicely := i.overrides.exitNicely }
      ∧ i.overrides.reporter.getD "table" ∈ Failure.reporterNames := by
  obtain ⟨r, rest, hread, hi⟩ := exists_reading_of_report hwords hcommand
  have hr := OptionTable.allows_of_read hread
  rw [hi, overridesOf_report hr]
  refine ⟨rfl, ?_⟩
  cases hname : lastText r "reporter" with
  | none =>
    show "table" ∈ Failure.reporterNames
    decide
  | some name => exact lastText_reporter hr hname

end Invocation

end TaggedComments
