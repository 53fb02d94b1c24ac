import TaggedComments.Proofs.Config.Refusal
import TaggedComments.Proofs.Data.Entries

/-!
# Settings are read back

Of a configuration only the settings that differ from their defaults are written, the switches in a
mapping of their own. Whatever was read, texts for lists, lists of pairs for mappings, or anything
for a switch, what is written of it is read as the same configuration, so it is a normal form.

- `Config.Setting` names the settings, `Config.get?_toData_iff` says which of them are written.
- `Config.ofData_toData` says that every configuration is read back.
- `Config.toData_normalForm` is about settings that were read.
-/

namespace TaggedComments

namespace Config

open Data (lookup?)

/-! ## Section 1: What is written -/

/-- The settings of a configuration, as they are written: the switches are one of them. -/
inductive Setting where
  | tags
  | ignore
  | associate
  | reporter
  | scan

namespace Setting

/-- The key of a setting. -/
def key : Setting → String
  | tags => "tags"
  | ignore => "ignore"
  | associate => "associate"
  | reporter => "reporter"
  | scan => "scan"

/-- A setting differs from its default. -/
def Differs (c : Config) : Setting → Prop
  | tags => c.tags ≠ []
  | ignore => c.ignore ≠ []
  | associate => c.associate ≠ []
  | reporter => c.reporter ≠ "table"
  | scan => c.inlineFiles = true ∨ c.skipUnsupported = true ∨ c.exitNicely = true

/-- The value of a setting. -/
def value (c : Config) : Setting → Data
  | tags => .list (c.tags.map .text)
  | ignore => .list (c.ignore.map .text)
  | associate => .mapping c.associate
  | reporter => .text c.reporter
  | scan => .mapping c.switches

end Setting

variable {key : String} {v : Data}

theorem lookup?_setting_append {k : String} {differs : Bool} {value : Data}
    (es : List (Data × Data)) : lookup? (.text key) (setting k differs value ++ es) =
      if k = key ∧ differs = true then some value else lookup? (.text key) es := by
  rw [setting]
  cases differs with
  | true => simp [Data.lookup?_cons]
  | false => simp

theorem lookup?_setting {k : String} {differs : Bool} {value : Data} :
    lookup? (.text key) (setting k differs value) =
      if k = key ∧ differs = true then some value else none := by
  rw [← List.append_nil (setting k differs value), lookup?_setting_append]
  rfl

/-- Without switches that are on nothing is written of them. -/
theorem switches_eq_nil_iff {c : Config} : c.switches = [] ↔ ¬ Setting.scan.Differs c := by
  simp only [switches, setting, Setting.Differs, List.append_eq_nil_iff]
  cases c.inlineFiles <;> cases c.skipUnsupported <;> cases c.exitNicely <;> simp

/-- A setting is written with its value exactly if it differs from its default. -/
theorem get?_toData_iff {c : Config} (s : Setting) :
    c.toData.get? s.key = some v ↔ s.Differs c ∧ s.value c = v := by
  have hscan : c.switches ≠ [] ↔ Setting.scan.Differs c := by
    rw [Ne, switches_eq_nil_iff, not_not]
  simp only [toData, Data.get?, Data.unfold_mapping, List.append_assoc, lookup?_setting_append,
    lookup?_setting]
  cases s with
  | scan => simp [Setting.key, Setting.value, ← hscan]
  | _ => simp [Setting.key, Setting.Differs, Setting.value]

/-- Nothing else is written. -/
theorem get?_toData_eq_none (c : Config) (h : ∀ s : Setting, s.key ≠ key) :
    c.toData.get? key = none := by
  have htags : ¬ "tags" = key := h .tags
  have hignore : ¬ "ignore" = key := h .ignore
  have hassociate : ¬ "associate" = key := h .associate
  have hreporter : ¬ "reporter" = key := h .reporter
  have hscan : ¬ "scan" = key := h .scan
  simp [toData, Data.get?, lookup?_setting_append, lookup?_setting, htags, hignore, hassociate,
    hreporter, hscan]

/-! ## Section 2: Reading one setting -/

/-- What is read off a setting is read back if it is read off the value and, where the setting has its
default, off a missing one. -/
theorem read_toData {β : Type} (read : Option Data → β) {x : β} (c : Config) (s : Setting)
    (hvalue : s.Differs c → read (some (s.value c)) = x)
    (hdefault : ¬ s.Differs c → read none = x) : read (c.toData.get? s.key) = x := by
  cases h : c.toData.get? s.key with
  | some v =>
    obtain ⟨hdiffers, rfl⟩ := (get?_toData_iff s).mp h
    exact hvalue hdiffers
  | none =>
    apply hdefault
    intro hdiffers
    cases h.symm.trans ((get?_toData_iff s).mpr ⟨hdiffers, rfl⟩)

/-- Names are read off the list of them. -/
theorem readNames_list {names : List String} (h : names ≠ []) :
    readNames (some (.list (names.map .text))) = .ok names := by
  have htrue : (Data.list (names.map .text)).truthy = true := by simpa [Data.truthy] using h
  have hshown : (names.map Data.text).mapM Data.shown = .ok names :=
    mapM_map_eq_ok fun name _ => Data.shown_text name
  rw [readNames, if_pos htrue]
  exact hshown

theorem readNames_tags (c : Config) : readNames (c.toData.get? "tags") = .ok c.tags := by
  apply read_toData readNames c .tags
  · exact readNames_list
  · intro hdefault
    rw [show c.tags = [] from not_not.mp hdefault]
    rfl

theorem readNames_ignore (c : Config) : readNames (c.toData.get? "ignore") = .ok c.ignore := by
  apply read_toData readNames c .ignore
  · exact readNames_list
  · intro hdefault
    rw [show c.ignore = [] from not_not.mp hdefault]
    rfl

/-- Entries are read off their mapping, in its order. -/
theorem readEntries_associate (c : Config) :
    readEntries (c.toData.get? "associate") = .ok c.associate := by
  apply read_toData readEntries c .associate
  · intro hdiffers
    have hne : c.associate ≠ [] := hdiffers
    have htrue : (Data.mapping c.associate).truthy = true := by simpa [Data.truthy] using hne
    exact if_pos htrue
  · intro hdefault
    rw [show c.associate = [] from not_not.mp hdefault]
    rfl

/-- Any name of a report is read back, also the empty one. -/
theorem shown_reporter (c : Config) :
    ((c.toData.get? "reporter").getD (.text "table")).shown = .ok c.reporter := by
  apply read_toData (fun d => (d.getD (.text "table")).shown) c .reporter
  · intro _
    rfl
  · intro hdefault
    rw [show c.reporter = "table" from not_not.mp hdefault]
    rfl

/-- The switches that are on are read, also if there are none. -/
theorem scan_toData (c : Config) :
    ((c.toData.get? "scan").getD .null).orElse (.mapping []) = .mapping c.switches := by
  apply read_toData (fun d => (d.getD .null).orElse (.mapping [])) c .scan
  · intro hdiffers
    have hne : c.switches ≠ [] := fun h => switches_eq_nil_iff.mp h hdiffers
    have htrue : (Data.mapping c.switches).truthy = true := by simpa [Data.truthy] using hne
    exact if_pos htrue
  · intro hdefault
    rw [switches_eq_nil_iff.mpr hdefault]
    rfl

/-- A switch is read as on if it is among those that are written. -/
theorem readSwitch_mapping (es : List (Data × Data)) (key : String) :
    readSwitch (.mapping es) key = .ok ((lookup? (.text key) es).getD (.bool false)).truthy := rfl

theorem readSwitch_switches (c : Config) :
    readSwitch (.mapping c.switches) "inline_files" = .ok c.inlineFiles
      ∧ readSwitch (.mapping c.switches) "skip_unsupported" = .ok c.skipUnsupported
      ∧ readSwitch (.mapping c.switches) "exit_nicely" = .ok c.exitNicely := by
  simp only [readSwitch_mapping, switches, List.append_assoc, lookup?_setting_append,
    lookup?_setting]
  refine ⟨?_, ?_, ?_⟩
  · cases c.inlineFiles <;> rfl
  · cases c.skipUnsupported <;> rfl
  · cases c.exitNicely <;> rfl

/-! ## Section 3: Reading a configuration -/

/-- Every configuration is read back. -/
theorem ofData_toData (c : Config) : ofData c.toData = .ok c := by
  have hscan : c.toData.field "scan" = .ok (c.toData.get? "scan") := Data.field_of_asMapping? rfl
  obtain ⟨hinline, hskip, hexit⟩ := readSwitch_switches c
  simp only [ofData, hscan, ok_bind, scan_toData, readNames_tags, readNames_ignore,
    readEntries_associate, shown_reporter, hinline, hskip, hexit]
  rfl

/-- **A normal form of settings.** When settings are read, what is written of them is read as the same
configuration, in all its parts, and the same is written of it again. It has the settings that differ
from their defaults and nothing else, and two readings come to the same exactly if the same is written
of them. -/
theorem toData_normalForm (d : Data) (c : Config) (h : ofData d = .ok c) :
    ofData c.toData = .ok c
      ∧ (ofData c.toData).map toData = .ok c.toData
      ∧ (∀ (s : Setting) v, c.toData.get? s.key = some v ↔ s.Differs c ∧ s.value c = v)
      ∧ (∀ key, (∀ s : Setting, s.key ≠ key) → c.toData.get? key = none)
      ∧ ∀ d' c', ofData d' = .ok c' → (c'.toData = c.toData ↔ ofData d' = ofData d) := by
  have hback := ofData_toData c
  refine ⟨hback, by rw [hback]; rfl, fun s v => get?_toData_iff s,
    fun key => get?_toData_eq_none c, fun d' c' h' => ?_⟩
  rw [h, h', Except.ok.injEq]
  constructor
  · intro heq
    have hback' := ofData_toData c'
    rw [heq, hback] at hback'
    exact (Except.ok.inj hback').symm
  · rintro rfl
    rfl

/-- A text for a list, a pair, a list of pairs with one key twice, a report without a name, and switches
that are no truth values. -/
theorem toData_normalForm_odd :
    let d : Data := .mapping [(.text "scan", .mapping [(.text "exit_nicely", .text "no"),
        (.text "inline_files", .list [])]), (.text "tags", .text "ab"),
      (.text "ignore", .pair (.bool true) .null), (.text "reporter", .text ""),
      (.text "associate", .list [.list [.text ".b", .null], .text "ab", .pair (.text ".b") (.int 2)])]
    let c : Config := {
      tags := ["a", "b"], ignore := ["True", "None"], reporter := "", exitNicely := true,
      associate := [(.text ".b", .int 2), (.text "a", .text "b")] }
    ofData d = .ok c ∧ ofData c.toData = .ok c
      ∧ c.toData.get? "scan" = some (.mapping [(.text "exit_nicely", .bool true)]) := by
  intro d c
  have h : ofData d = .ok c := rfl
  obtain ⟨hback, -, hwritten, -⟩ := toData_normalForm d c h
  exact ⟨h, hback, (hwritten .scan _).mpr ⟨.inr (.inr rfl), rfl⟩⟩

end Config

end TaggedComments
