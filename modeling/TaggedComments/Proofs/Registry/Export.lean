import TaggedComments.Command.Basic
import TaggedComments.Proofs.Json.Written
import TaggedComments.Proofs.Registry.History

/-!
# Registries are handed on

An entry can be written as a mapping, and a registry as the mapping of its extensions to these. What
is written of an entry stands for it, whatever it was read from, under any extension. So a registry
that registers what is written of another one takes over all its entries and keeps those of all
other extensions; it makes no difference whether the mapping is handed over or printed and read.

- `Entry.standsFor_toData` is about one entry.
- `Registry.exported` is what is written of entries, `Registry.register_exported` what registering it
  does.
- `Registry.Reachable` are the registries that calls come to.
- `Registry.register_reachable` puts them together.
-/

namespace TaggedComments

open Data (lookup?)

/-! ## Section 1: One entry -/

namespace Entry

variable {e : Entry String} {x : String}

/-- The parts of what is written of an entry are its parsers and its included extensions, also if
these are left out. -/
theorem parts_toData (e : Entry String) : parts (.value e.asData.toData) =
    (.list (e.parsers.map .text), .list (e.included.map .text)) := by
  obtain ⟨parsers, included⟩ := e
  cases included with
  | nil => rfl
  | cons y included => rfl

/-- What is written of a well-formed entry stands for it, under any extension. -/
theorem standsFor_toData (he : e.WellFormed) (hx : IsExtension x) :
    (Association.value e.asData.toData).StandsFor x e where
  extension := hx
  parsers := by
    rw [parts_toData]
    rfl
  included := by
    rw [parts_toData]
    rfl
  wellFormed := he

/-- What is written of an entry that was read is read as the same entry. -/
theorem read_toData {d : Data} {a : Association} (h : read d a = .ok e) (hx : IsExtension x) :
    read (.text x) (.value e.asData.toData) = .ok e := by
  obtain ⟨s, -, hstands⟩ := read_eq_ok_iff.mp h
  exact read_eq_ok_iff.mpr ⟨x, rfl, standsFor_toData hstands.wellFormed hx⟩

/-- What is written of an entry can be said in JSON. -/
theorem plain_toData (e : Entry String) : Json.Plain e.asData.toData := by
  have htexts : ∀ ss : List String, Json.Plain (.list (ss.map .text)) := by
    intro ss
    apply Json.Plain.list
    rw [List.forall_mem_map]
    exact fun s _ => .text s
  obtain ⟨parsers, included⟩ := e
  cases included with
  | nil =>
    apply @Json.Plain.mapping [("parser_name", .list (parsers.map .text))]
    · show ["parser_name"].Nodup
      decide
    · exact List.forall_mem_singleton.mpr (htexts parsers)
  | cons y included =>
    apply @Json.Plain.mapping [("parser_name", .list (parsers.map .text)),
      ("included_files", .list ((y :: included).map .text))]
    · show ["parser_name", "included_files"].Nodup
      decide
    · exact List.forall_mem_cons.mpr ⟨htexts parsers, List.forall_mem_singleton.mpr (htexts _)⟩

end Entry

namespace Registry

variable {r s : Registry} {es : List (String × Entry String)} {x : String}

/-! ## Section 2: All entries -/

/-- What is written of entries: a mapping of their extensions. -/
def exported (es : List (String × Entry String)) : Data :=
  .mapping (es.map fun x => (.text x.1, x.2.asData.toData))

/-- What is written of well-formed entries gives these entries. -/
theorem givesEntries_exported (hes : ∀ z ∈ es, Entry.IsExtension z.1 ∧ z.2.WellFormed) :
    GivesEntries (exported es) es := by
  refine ⟨es.map fun z => (.text z.1, .value z.2.asData.toData), ?_, ?_⟩
  · cases es with
    | nil => exact .inl ⟨rfl, rfl⟩
    | cons z es => exact .inr ⟨rfl, _, rfl, by simp⟩
  · -- Each mapping stands for the entry that it was written of.
    rw [StandFor, List.forall₂_map_left_iff, List.forall₂_same]
    intro z hz
    exact ⟨rfl, Entry.standsFor_toData (hes z hz).2 (hes z hz).1⟩

/-- Registering what is written of well-formed entries sets all of them. -/
theorem register_exported (s : Registry)
    (hes : ∀ z ∈ es, Entry.IsExtension z.1 ∧ z.2.WellFormed) :
    ∃ log, s.register (exported es) = .ok (s.setAll es, log) := by
  have hgives := givesEntries_exported hes
  rcases s.register_cases (exported es) with ⟨added, log, hadded, hregister⟩ | ⟨hnone, -⟩
  · obtain rfl := hadded.unique hgives
    exact ⟨log, hregister⟩
  · exact absurd ⟨es, hgives⟩ hnone

/-- Where no extension is there twice, it does not matter in which order entries are set. -/
theorem find?_setAll_of_nodup (hes : (es.map (·.1)).Nodup) :
    (s.setAll es).find? x = (es.lookup x).or (s.find? x) := by
  have hkeys : (es.reverse.map (·.1)).Nodup := ((es.reverse_perm.map (·.1)).nodup_iff).mpr hes
  rw [find?_setAll, lookup_eq_of_perm hkeys es.reverse_perm]

/-- After the entries of a registry are set, in any order, they are found, and everything else as
before. -/
theorem find?_setAll_perm (hr : r.WellFormed) (hes : es.Perm r.entries) :
    (s.setAll es).find? x = (r.find? x).or (s.find? x) := by
  have hkeys : (es.map (·.1)).Nodup := ((hes.map (·.1)).nodup_iff).mpr hr.nodup
  have hfound : es.lookup x = r.find? x := lookup_eq_of_perm hkeys hes
  rw [find?_setAll_of_nodup hkeys, hfound]

/-! ## Section 3: What is printed -/

theorem sortedEntries_perm (r : Registry) : (Command.sortedEntries r).Perm r.entries :=
  List.mergeSort_perm _ _

/-- What is written of entries of different extensions can be said in JSON. -/
theorem plain_exported (hkeys : (es.map (·.1)).Nodup) : Json.Plain (exported es) := by
  let field (z : String × Entry String) : String × Data := (z.1, z.2.asData.toData)
  have hfields : exported es = .mapping ((es.map field).map fun f => (.text f.1, f.2)) := by
    simp [exported, field]
  rw [hfields]
  apply Json.Plain.mapping
  · simpa [field, Function.comp_def] using hkeys
  · rw [List.forall_mem_map]
    exact fun z _ => Entry.plain_toData z.2

/-- What is printed of a registry is read as what is written of its entries, sorted. -/
theorem read_extensionList (hr : r.WellFormed) :
    Json.read (Command.extensionList r true) = .ok (exported (Command.sortedEntries r)) := by
  have hkeys : ((Command.sortedEntries r).map (·.1)).Nodup :=
    ((r.sortedEntries_perm.map (·.1)).nodup_iff).mpr hr.nodup
  -- The text is printed with the end of a line behind it.
  have hfeed : ∀ c ∈ "\n".toList, Json.isSpace c = true := by
    intro c hc
    obtain rfl : c = '\n' := by simpa using hc
    rfl
  exact Json.read_writeAt Json.Layout.blank_block (plain_exported hkeys) 0 hfeed

/-! ## Section 4: Registries that calls come to -/

/-- A registry that calls come to, from the builtin one or from the one without entries. -/
inductive Reachable : Registry → Prop where
  | builtin : Reachable builtin
  | empty : Reachable empty
  | call {r : Registry} (h : Reachable r) (c : Call) : Reachable (r.call c)

/-- Several calls come to such a registry as well. -/
theorem Reachable.after (h : r.Reachable) (calls : List Call) : (r.after calls).Reachable := by
  induction calls generalizing r with
  | nil => exact h
  | cons c calls ih => exact ih (h.call c)

theorem wellFormed_empty : empty.WellFormed :=
  ⟨.nil, by simp [empty], by simp [empty]⟩

theorem Reachable.wellFormed (h : r.Reachable) : r.WellFormed := by
  induction h with
  | builtin => exact wellFormed_builtin
  | empty => exact wellFormed_empty
  | call _ c ih => exact ih.call c

/-- **Registries are handed on.** What is written of an entry that was read, whatever it was read from,
is read as this entry under any extension. Of two registries that any calls come to, the one can
register what is written of the entries of the other, in any order: afterwards it has all entries of
the other registry, and for other extensions what it had. What is printed of a registry is read as
what is written of its entries, sorted. -/
theorem register_reachable :
    (∀ d a e, Entry.read d a = .ok e → ∀ x, Entry.IsExtension x →
      Entry.read (.text x) (.value e.asData.toData) = .ok e)
      ∧ (∀ r s, Reachable r → Reachable s → ∀ es, es.Perm r.entries →
        ∃ s' log, s.register (exported es) = .ok (s', log) ∧ Reachable s'
          ∧ ∀ x, s'.find? x = (r.find? x).or (s.find? x))
      ∧ ∀ r, Reachable r → (Command.sortedEntries r).Perm r.entries
        ∧ Json.read (Command.extensionList r true) = .ok (exported (Command.sortedEntries r)) := by
  refine ⟨fun d a e h x hx => Entry.read_toData h hx, fun r s hr hs es hes => ?_,
    fun r hr => ⟨r.sortedEntries_perm, read_extensionList hr.wellFormed⟩⟩
  have hentries : ∀ z ∈ es, Entry.IsExtension z.1 ∧ z.2.WellFormed := by
    intro z hz
    have hz := hes.mem_iff.mp hz
    exact ⟨hr.wellFormed.extension z hz, hr.wellFormed.entry z hz⟩
  obtain ⟨log, hregister⟩ := register_exported s hentries
  -- Registering is a call, so it comes to a reachable registry again.
  have hcall : s.call (.step (.register (exported es))) = s.setAll es := by
    simp only [Registry.call, step, hregister]
  exact ⟨s.setAll es, log, hregister, hcall ▸ hs.call _, fun x => find?_setAll_perm hr.wellFormed hes⟩

/-- A registry that was given names alone and a mapping in its other spelling is printed, and the text
is registered in one that knows one of the extensions. -/
theorem register_reachable_printed :
    let given : Data := .mapping [(.text ".b", .list [.text "p", .text "q"]),
      (.text ".a", .mapping [(.text "parserName", .text "p"),
        (.text "includedFiles", .pair (.text ".b") (.text ".a"))])]
    let before : Data := .mapping [(.text ".c", .text "s"), (.text ".b", .text "t")]
    let r := empty.after [.step (.register given)]
    let s := empty.after [.step (.register before)]
    Entry.read (.text ".x") (.value (.text "p")) = .ok ⟨["p"], []⟩
      ∧ Entry.read (.text ".y") (.value (Entry.asData ⟨["p"], []⟩).toData) = .ok ⟨["p"], []⟩
      ∧ Reachable r ∧ Reachable s
      ∧ ∃ d s' log, Json.read (Command.extensionList r true) = .ok d ∧ s.register d = .ok (s', log)
        ∧ s'.find? ".a" = some ⟨["p"], [".b", ".a"]⟩ ∧ s'.find? ".b" = some ⟨["p", "q"], []⟩
        ∧ s'.find? ".c" = some ⟨["s"], []⟩ := by
  intro given before r s
  have hread : Entry.read (.text ".x") (.value (.text "p")) = .ok ⟨["p"], []⟩ := rfl
  have hr : Reachable r := Reachable.empty.after _
  have hs : Reachable s := Reachable.empty.after _
  obtain ⟨hentry, hregister, hprinted⟩ := register_reachable
  obtain ⟨hperm, hjson⟩ := hprinted r hr
  obtain ⟨s', log, hs', -, hfind⟩ := hregister r s hr hs _ hperm
  refine ⟨hread, hentry _ _ _ hread ".y" ⟨'y', [], rfl⟩, hr, hs, _, s', log, hjson, hs', ?_, ?_, ?_⟩
  · rw [hfind]
    rfl
  · rw [hfind]
    rfl
  · rw [hfind]
    rfl

end Registry

end TaggedComments
