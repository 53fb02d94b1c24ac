import TaggedComments.Command.AssociationOption
import TaggedComments.Proofs.Data.Entries
import TaggedComments.Proofs.Extract.Plain
import TaggedComments.Proofs.Registry.Export

/-!
# Associations given as options

An association is written as an extension, an equals sign and the names of its parsers with plus
signs between them. White space around the extension and around each name does not count, nor do
segments between plus signs that hold no name. What is written so is read back, and of several options
for one extension the last one counts, in the place of the first.

- `AssociationOption.Writable` are the associations that can be written, and
  `AssociationOption.WrittenAs` are the ways to write one.
- `AssociationOption.ofString_eq_ok_iff` says that exactly these are read.
- `AssociationOption.IsLast` is the last association of its extension;
  `AssociationOption.putAll_toEntry` says that the mapping of several options holds these.
- `AssociationOption.register_toEntry` says what registering a mapping of associations does.
- `AssociationOption.readAll_written` puts them together.
-/

namespace TaggedComments.AssociationOption

open Text (isSpace trim joinWith splitOn Trimmed)

variable {as : List AssociationOption} {a b : AssociationOption}

/-! ## Section 1: An association and how it is written -/

/-- A name that can stand between plus signs. -/
structure IsName (name : String) : Prop where
  ne_empty : name ≠ ""
  trimmed : Trimmed name.toList
  noPlus : '+' ∉ name.toList

/-- An association that can be written as an option. -/
structure Writable (a : AssociationOption) : Prop where
  trimmed : Trimmed a.extension.toList
  noEquals : '=' ∉ a.extension.toList
  parsers_ne_nil : a.parsers ≠ []
  isName : ∀ n ∈ a.parsers, IsName n

/-- Names stand in segments, each in one of its own and in their order, with any white space around
them. All other segments are blank. -/
inductive StandIn : List String → List (List Char) → Prop
  | nil : StandIn [] []
  | blank {names : List String} {segment : List Char} {segments : List (List Char)}
      (hblank : ∀ c ∈ segment, isSpace c = true) (h : StandIn names segments) :
      StandIn names (segment :: segments)
  | name {n : String} {names : List String} {left right : List Char} {segments : List (List Char)}
      (hleft : ∀ c ∈ left, isSpace c = true) (hright : ∀ c ∈ right, isSpace c = true)
      (h : StandIn names segments) :
      StandIn (n :: names) ((left ++ (n.toList ++ right)) :: segments)

/-- An association is written: its extension with any white space around it, an equals sign, and
segments in which its names stand, with plus signs between them. -/
def WrittenAs (a : AssociationOption) (given : String) : Prop :=
  ∃ left right segments,
    given.toList = (left ++ (a.extension.toList ++ right)) ++ '=' :: joinWith '+' segments
    ∧ (∀ c ∈ left, isSpace c = true) ∧ (∀ c ∈ right, isSpace c = true)
    ∧ StandIn a.parsers segments

/-! ## Section 2: One option is read -/

/-- The text is divided at its first equals sign. -/
theorem divide?_eq_some_iff {s front rest : List Char} :
    divide? s = some (front, rest) ↔ s = front ++ '=' :: rest ∧ '=' ∉ front := by
  induction s generalizing front with
  | nil => simp [divide?]
  | cons c s ih =>
    rw [divide?]
    split
    · next hc =>
      subst hc
      constructor
      · intro h
        cases h
        exact ⟨rfl, List.not_mem_nil⟩
      · rintro ⟨hsplit, hfront⟩
        cases front with
        | nil => cases hsplit; rfl
        | cons d front =>
          obtain ⟨rfl, -⟩ := List.cons.inj hsplit
          exact absurd List.mem_cons_self hfront
    · next hc =>
      rw [Option.map_eq_some_iff]
      constructor
      · rintro ⟨⟨front', rest'⟩, h, heq⟩
        cases heq
        obtain ⟨rfl, hfront⟩ := ih.mp h
        exact ⟨rfl, by simp [Ne.symm hc, hfront]⟩
      · rintro ⟨hsplit, hfront⟩
        cases front with
        | nil => exact absurd (List.cons.inj hsplit).1 hc
        | cons d front =>
          obtain ⟨rfl, rfl⟩ := List.cons.inj hsplit
          exact ⟨(front, rest), ih.mpr ⟨rfl, fun h => hfront (List.mem_cons_of_mem _ h)⟩, rfl⟩

/-- The names in segments: what is left of them when they are trimmed, unless it is empty. -/
def namesIn (segments : List (List Char)) : List String :=
  ((segments.map trim).filter (!·.isEmpty)).map String.ofList

theorem namesOf_joinWith {segments : List (List Char)} (hne : segments ≠ [])
    (h : ∀ segment ∈ segments, '+' ∉ segment) :
    namesOf (joinWith '+' segments) = namesIn segments := by
  rw [namesOf, Text.splitOn_joinWith hne h, namesIn]

theorem namesIn_cons_blank {segment : List Char} {segments : List (List Char)}
    (h : trim segment = []) : namesIn (segment :: segments) = namesIn segments := by
  simp [namesIn, h]

theorem namesIn_cons_name {segment : List Char} {segments : List (List Char)}
    (h : trim segment ≠ []) :
    namesIn (segment :: segments) = String.ofList (trim segment) :: namesIn segments := by
  simp [namesIn, h]

/-- Names that stand in segments are found there. -/
theorem StandIn.namesIn_eq {names : List String} {segments : List (List Char)}
    (h : StandIn names segments) (hnames : ∀ n ∈ names, IsName n) : namesIn segments = names := by
  induction h with
  | nil => rfl
  | blank hblank _ ih => rw [namesIn_cons_blank (Text.trim_eq_nil_iff.mpr hblank), ih hnames]
  | @name n names left right segments hleft hright _ ih =>
    obtain ⟨hn, hnames⟩ := List.forall_mem_cons.mp hnames
    have htrim : trim (left ++ (n.toList ++ right)) = n.toList :=
      hn.trimmed.trim_append hleft hright
    have hne : trim (left ++ (n.toList ++ right)) ≠ [] := by
      rw [htrim]
      exact mt String.toList_eq_nil_iff.mp hn.ne_empty
    rw [namesIn_cons_name hne, htrim, String.ofList_toList, ih hnames]

/-- The names that are found in segments stand there. -/
theorem standIn_namesIn (segments : List (List Char)) : StandIn (namesIn segments) segments := by
  induction segments with
  | nil => exact .nil
  | cons segment segments ih =>
    by_cases hblank : trim segment = []
    · rw [namesIn_cons_blank hblank]
      exact .blank (Text.trim_eq_nil_iff.mp hblank) ih
    · rw [namesIn_cons_name hblank]
      obtain ⟨left, right, hsegment, hleft, hright⟩ := Text.exists_append_trim segment
      have hname := StandIn.name (n := String.ofList (trim segment)) hleft hright ih
      rwa [String.toList_ofList, ← hsegment] at hname

/-- What is found in segments between plus signs are names. -/
theorem isName_of_mem_namesIn {segments : List (List Char)}
    (h : ∀ segment ∈ segments, '+' ∉ segment) : ∀ n ∈ namesIn segments, IsName n := by
  intro n hn
  obtain ⟨s, hs, rfl⟩ := List.mem_map.mp hn
  obtain ⟨htrimmed, hne⟩ := List.mem_filter.mp hs
  obtain ⟨segment, hsegment, rfl⟩ := List.mem_map.mp htrimmed
  have hnil : trim segment ≠ [] := by simpa using hne
  refine ⟨fun hempty => hnil (String.ofList_eq_empty_iff.mp hempty), ?_, ?_⟩
  · rw [String.toList_ofList]
    exact Text.trimmed_trim segment
  · rw [String.toList_ofList]
    exact fun hplus => h segment hsegment ((Text.isInfix_trim segment).subset hplus)

theorem not_mem_of_isSpace {c : Char} {s : List Char} (hc : isSpace c = false)
    (hs : ∀ d ∈ s, isSpace d = true) : c ∉ s := by
  intro hmem
  rw [hs c hmem] at hc
  cases hc

/-- A plus sign is no white space, so segments in which names stand hold none. -/
theorem StandIn.noPlus {names : List String} {segments : List (List Char)}
    (h : StandIn names segments) (hnames : ∀ n ∈ names, IsName n) :
    ∀ segment ∈ segments, '+' ∉ segment := by
  have hplus : isSpace '+' = false := rfl
  induction h with
  | nil => simp
  | blank hblank _ ih =>
    exact List.forall_mem_cons.mpr ⟨not_mem_of_isSpace hplus hblank, ih hnames⟩
  | name hleft hright _ ih =>
    obtain ⟨hn, hnames⟩ := List.forall_mem_cons.mp hnames
    refine List.forall_mem_cons.mpr ⟨?_, ih hnames⟩
    simp [not_mem_of_isSpace hplus hleft, not_mem_of_isSpace hplus hright, hn.noPlus]

/-- Reading divides an option at its first equals sign, if something follows. -/
theorem ofString_eq_ok_iff_divide {given : String} : ofString given = .ok a ↔
    ∃ front rest, divide? given.toList = some (front, rest) ∧ rest ≠ []
      ∧ a = ⟨String.ofList (trim front), namesOf rest⟩ := by
  unfold ofString
  split
  · next front c rest hdivide =>
    rw [hdivide]
    constructor
    · intro h
      cases h
      exact ⟨front, c :: rest, rfl, List.cons_ne_nil c rest, rfl⟩
    · rintro ⟨_, _, h, -, rfl⟩
      cases h
      rfl
  · next hnot =>
    constructor
    · intro h
      cases h
    · rintro ⟨front, rest, hdivide, hne, -⟩
      obtain ⟨c, rest, rfl⟩ := List.exists_cons_of_ne_nil hne
      exact absurd hdivide (hnot front c rest)

/-- An option is read as an association with parsers exactly if it is a way to write it. -/
theorem ofString_eq_ok_iff {given : String} :
    ofString given = .ok a ∧ a.parsers ≠ [] ↔ a.Writable ∧ a.WrittenAs given := by
  rw [ofString_eq_ok_iff_divide]
  constructor
  · rintro ⟨⟨front, rest, hdivide, -, rfl⟩, hne⟩
    obtain ⟨hgiven, hequals⟩ := divide?_eq_some_iff.mp hdivide
    obtain ⟨left, right, hfront, hleft, hright⟩ := Text.exists_append_trim front
    have hplus : ∀ segment ∈ splitOn '+' rest, '+' ∉ segment := fun _ =>
      Text.not_mem_of_mem_splitOn
    refine ⟨⟨?_, ?_, hne, isName_of_mem_namesIn hplus⟩, left, right, splitOn '+' rest, ?_, hleft,
      hright, standIn_namesIn _⟩
    · rw [String.toList_ofList]
      exact Text.trimmed_trim front
    · rw [String.toList_ofList]
      exact fun h => hequals ((Text.isInfix_trim front).subset h)
    · rw [hgiven, String.toList_ofList, Text.joinWith_splitOn, ← hfront]
  · rintro ⟨ha, left, right, segments, hgiven, hleft, hright, hstand⟩
    have hequals : isSpace '=' = false := rfl
    have hfront : '=' ∉ left ++ (a.extension.toList ++ right) := by
      simp [not_mem_of_isSpace hequals hleft, not_mem_of_isSpace hequals hright, ha.noEquals]
    have hfound : namesIn segments = a.parsers := hstand.namesIn_eq ha.isName
    have hsegments : segments ≠ [] := by
      rintro rfl
      exact ha.parsers_ne_nil hfound.symm
    have hnames : namesOf (joinWith '+' segments) = a.parsers := by
      rw [namesOf_joinWith hsegments (hstand.noPlus ha.isName), hfound]
    -- Without anything behind the equals sign there would be no names.
    have hrest : joinWith '+' segments ≠ [] := by
      intro hnil
      rw [hnil] at hnames
      exact ha.parsers_ne_nil hnames.symm
    refine ⟨⟨_, _, divide?_eq_some_iff.mpr ⟨hgiven, hfront⟩, hrest, ?_⟩, ha.parsers_ne_nil⟩
    rw [hnames, ha.trimmed.trim_append hleft hright, String.ofList_toList]

/-! ## Section 3: Several options -/

/-- The last association of its extension. -/
def IsLast (as : List AssociationOption) (a : AssociationOption) : Prop :=
  ∃ before after, as = before ++ a :: after ∧ ∀ b ∈ after, b.extension ≠ a.extension

/-- An association at the end is the last of its extension, and those of other extensions stay what
they were. -/
theorem isLast_concat : IsLast (as ++ [b]) a ↔ a = b ∨ b.extension ≠ a.extension ∧ IsLast as a := by
  constructor
  · rintro ⟨before, after, has, hafter⟩
    rcases List.eq_nil_or_concat after with rfl | ⟨after, c, rfl⟩
    · have hlast : [b] = [a] := List.append_inj_right' has rfl
      exact .inl (List.singleton_inj.mp hlast).symm
    · rw [List.concat_eq_append, ← List.cons_append, ← List.append_assoc] at has
      obtain ⟨rfl, hlast⟩ := List.append_inj' has rfl
      obtain rfl := (List.cons.inj hlast).1
      exact .inr ⟨hafter b (by simp), before, after, rfl, fun d hd => hafter d (by simp [hd])⟩
  · rintro (rfl | ⟨hne, before, after, rfl, hafter⟩)
    · exact ⟨as, [], rfl, by simp⟩
    · refine ⟨before, after ++ [b], by simp, fun c hc => ?_⟩
      rcases List.mem_append.mp hc with hc | hc
      · exact hafter c hc
      · rwa [List.mem_singleton.mp hc]

theorem IsLast.mem (h : IsLast as a) : a ∈ as := by
  obtain ⟨before, after, rfl, -⟩ := h
  simp

/-- An extension has one last association. -/
theorem IsLast.unique (ha : IsLast as a) (hb : IsLast as b) (h : a.extension = b.extension) :
    a = b := by
  induction as using List.reverseRecOn with
  | nil => cases ha.mem
  | append_singleton as c ih =>
    rcases isLast_concat.mp ha with rfl | ⟨hca, ha⟩
    · rcases isLast_concat.mp hb with rfl | ⟨hne, -⟩
      · rfl
      · exact absurd h hne
    · rcases isLast_concat.mp hb with rfl | ⟨-, hb⟩
      · exact absurd h.symm hca
      · exact ih ha hb

/-- Associations for all extensions, each the last one of its extension, are all the last ones. -/
theorem IsLast.mem_of_map_extension {last : List AssociationOption} (ha : IsLast as a)
    (hkeys : last.map (·.extension) = distinct (as.map (·.extension)))
    (hlast : ∀ b ∈ last, IsLast as b) : a ∈ last := by
  have hkey : a.extension ∈ last.map (·.extension) := by
    rw [hkeys, mem_distinct]
    exact List.mem_map_of_mem ha.mem
  obtain ⟨b, hb, hba⟩ := List.mem_map.mp hkey
  exact (hlast b hb).unique ha hba ▸ hb

/-- What is found for an extension is what its last association gives. -/
theorem exists_isLast_of_lookup? {x : String} {d : Data}
    (h : Data.lookup? (.text x) (as.map toEntry).reverse = some d) :
    ∃ a, IsLast as a ∧ a.toEntry = (.text x, d) := by
  induction as using List.reverseRecOn with
  | nil => cases h
  | append_singleton as b ih =>
    rw [List.map_append, List.map_singleton, List.reverse_append, List.reverse_singleton,
      List.singleton_append, Data.lookup?_cons] at h
    by_cases hx : b.extension = x
    · subst hx
      have hfound : some b.toEntry.2 = some d := by simpa [toEntry] using h
      exact ⟨b, isLast_concat.mpr (.inl rfl), Prod.ext rfl (Option.some.inj hfound)⟩
    · have hrest : Data.lookup? (.text x) (as.map toEntry).reverse = some d := by
        simpa [toEntry, hx] using h
      obtain ⟨a, ha, hentry⟩ := ih hrest
      have hax : a.extension = x := by simpa [toEntry] using congrArg Prod.fst hentry
      exact ⟨a, isLast_concat.mpr (.inr ⟨hax ▸ hx, ha⟩), hentry⟩

theorem map_fst_toEntry (as : List AssociationOption) :
    (as.map toEntry).map (·.1) = (as.map (·.extension)).map Data.text := by
  simp [toEntry]

/-- The keys of several options are their extensions, in the order in which they first occur. -/
theorem map_fst_putAll_toEntry (as : List AssociationOption) :
    (Data.putAll [] (as.map toEntry)).map (·.1) =
      (distinct (as.map (·.extension))).map Data.text := by
  rw [Data.map_fst_putAll, map_fst_toEntry, Data.distinctBy_same_text]

/-- Each entry of several options is found by its key, so it is that of a last association. -/
theorem exists_isLast_of_mem_putAll {e : Data × Data}
    (he : e ∈ Data.putAll [] (as.map toEntry)) : ∃ a, IsLast as a ∧ a.toEntry = e := by
  have hkey : e.1 ∈ (distinct (as.map (·.extension))).map Data.text :=
    map_fst_putAll_toEntry as ▸ List.mem_map_of_mem he
  obtain ⟨x, -, hx⟩ := List.mem_map.mp hkey
  have hfound := Data.lookup?_of_mem (Data.distinctKeys_putAll .nil) he
  rw [Data.lookup?_putAll, ← hx] at hfound
  obtain ⟨a, ha, hentry⟩ := exists_isLast_of_lookup? (by simpa [Data.lookup?] using hfound)
  exact ⟨a, ha, by rw [hentry, hx]⟩

/-- The mapping of several options holds the last association of each extension, in the order in which
the extensions first occur. -/
theorem putAll_toEntry (as : List AssociationOption) :
    ∃ last : List AssociationOption, Data.putAll [] (as.map toEntry) = last.map toEntry
      ∧ last.map (·.extension) = distinct (as.map (·.extension)) ∧ ∀ a ∈ last, IsLast as a := by
  obtain ⟨last, hforall⟩ := exists_forall₂_iff.mpr fun e => exists_isLast_of_mem_putAll (e := e)
  obtain ⟨hall, hentries⟩ := (List.forall₂_and_left _ _).mp hforall.flip
  have heq : last.map toEntry = Data.putAll [] (as.map toEntry) := by
    rwa [← List.forall₂_eq_eq_eq, List.forall₂_map_left_iff]
  refine ⟨last, heq.symm, ?_, hall⟩
  have hkeys := map_fst_putAll_toEntry as
  rw [← heq, map_fst_toEntry] at hkeys
  exact List.map_injective_iff.mpr (fun x y h => by simpa using h) hkeys

/-- Options that are ways to write associations are read as these. -/
theorem mapM_ofString_of_written {given : List String} (has : ∀ a ∈ as, a.Writable)
    (hgiven : List.Forall₂ WrittenAs as given) : given.mapM ofString = .ok as := by
  have hboth := (List.forall₂_and_left _ _).mpr ⟨has, hgiven⟩
  exact mapM_eq_ok_iff.mpr (hboth.flip.imp fun s a h => (ofString_eq_ok_iff.mpr h).1)

/-- Options that have their texts are read as these texts. -/
theorem readGiven_map_some {given : List String} : readGiven (given.map some) = readAll given := by
  rw [readGiven, List.mapM_map]
  rfl

/-! ## Section 4: Registering them -/

/-- What registering an association makes of it: its parsers, and no extensions that it includes. -/
def entry (a : AssociationOption) : Entry String := ⟨a.parsers, []⟩

theorem Writable.wellFormed_entry (h : a.Writable) : a.entry.WellFormed :=
  ⟨h.parsers_ne_nil, fun n hn => (h.isName n hn).ne_empty, by simp [entry]⟩

/-- The mapping of associations is what is written of their entries. -/
theorem exported_entry (as : List AssociationOption) :
    Registry.exported (as.map fun a => (a.extension, a.entry)) = .mapping (as.map toEntry) := by
  rw [Registry.exported, List.map_map]
  rfl

/-- Registering associations of different extensions makes just their entries. -/
theorem register_toEntry {last : List AssociationOption}
    (hnodup : (last.map (·.extension)).Nodup)
    (hlast : ∀ a ∈ last, a.Writable ∧ Entry.IsExtension a.extension) (r : Registry) :
    ∃ r' log, r.register (.mapping (last.map toEntry)) = .ok (r', log)
      ∧ (∀ a ∈ last, r'.find? a.extension = some a.entry)
      ∧ ∀ x, x ∉ last.map (·.extension) → r'.find? x = r.find? x := by
  let added := last.map fun a => (a.extension, a.entry)
  have hentries : ∀ z ∈ added, Entry.IsExtension z.1 ∧ z.2.WellFormed := by
    rw [List.forall_mem_map]
    exact fun a ha => ⟨(hlast a ha).2, (hlast a ha).1.wellFormed_entry⟩
  have hfst : added.map (·.1) = last.map (·.extension) := by
    rw [List.map_map]
    rfl
  have hkeys : (added.map (·.1)).Nodup := hfst ▸ hnodup
  obtain ⟨log, hregister⟩ := Registry.register_exported r hentries
  rw [exported_entry] at hregister
  refine ⟨r.setAll added, log, hregister, fun a ha => ?_, fun x hx => ?_⟩
  · have hfound : added.lookup a.extension = some a.entry :=
      (lookup_eq_some_iff hkeys).mpr (List.mem_map_of_mem ha)
    rw [Registry.find?_setAll_of_nodup hkeys, hfound]
    rfl
  · have hnone : added.lookup x = none := by
      rw [Option.eq_none_iff_forall_ne_some]
      intro e he
      exact hx (hfst ▸ List.mem_map_of_mem ((lookup_eq_some_iff hkeys).mp he))
    rw [Registry.find?_setAll_of_nodup hkeys, hnone, Option.none_or]

/-- **Options are read back.** Options that are ways to write associations are read, in whatever way
they are written: the mapping holds the last association of each extension, in the order in which
the extensions first occur. If the extensions are well-formed, any registry can register the mapping;
afterwards it has just the parsers of these associations for their extensions, and for other extensions
what it had. -/
theorem readAll_written (as : List AssociationOption) (given : List String)
    (has : ∀ a ∈ as, a.Writable) (hgiven : List.Forall₂ WrittenAs as given) :
    ∃ last : List AssociationOption,
      last.map (·.extension) = distinct (as.map (·.extension)) ∧ (∀ a ∈ last, IsLast as a)
      ∧ let es : List (Data × Data) := last.map fun a =>
          (.text a.extension, .mapping [(.text "parser_name", .list (a.parsers.map .text))])
        readAll given = .ok es ∧ readGiven (given.map some) = .ok es
        ∧ ((∀ a ∈ as, Entry.IsExtension a.extension) → ∀ r : Registry,
          ∃ r' log, r.register (.mapping es) = .ok (r', log)
            ∧ (∀ a, IsLast as a → r'.find? a.extension = some ⟨a.parsers, []⟩)
            ∧ ∀ x, x ∉ as.map (·.extension) → r'.find? x = r.find? x) := by
  obtain ⟨last, hput, hkeys, hlast⟩ := putAll_toEntry as
  have hread : readAll given = .ok (last.map toEntry) := by
    rw [readAll, mapM_ofString_of_written has hgiven]
    exact congrArg Except.ok hput
  refine ⟨last, hkeys, hlast, hread, readGiven_map_some.trans hread, fun hextension r => ?_⟩
  have hnodup : (last.map (·.extension)).Nodup := hkeys ▸ nodup_distinct _
  have hwritable : ∀ a ∈ last, a.Writable ∧ Entry.IsExtension a.extension := fun a ha =>
    ⟨has a (hlast a ha).mem, hextension a (hlast a ha).mem⟩
  obtain ⟨r', log, hregister, hfound, hother⟩ := register_toEntry hnodup hwritable r
  refine ⟨r', log, hregister, fun a ha => ?_, fun x hx => ?_⟩
  · exact hfound a (ha.mem_of_map_extension hkeys hlast)
  · apply hother
    rwa [hkeys, mem_distinct]

/-- Two options for one extension, with white space, empty segments, and a name that holds an equals
sign. The registry that takes them over knows one of the extensions. -/
theorem readAll_written_repeated :
    let as : List AssociationOption := [⟨".a", ["p"]⟩, ⟨".b", ["x=y", "q"]⟩, ⟨".a", ["r"]⟩]
    let given := [" .a = p", ".b=+x=y \t+ + q+", ".a\t=r"]
    let es : List (Data × Data) := [
      (.text ".a", .mapping [(.text "parser_name", .list [.text "r"])]),
      (.text ".b", .mapping [(.text "parser_name", .list [.text "x=y", .text "q"])])]
    let r : Registry := ⟨[(".b", ⟨["s"], [".c"]⟩), (".c", ⟨["t"], []⟩)]⟩
    (∀ a ∈ as, a.Writable) ∧ List.Forall₂ WrittenAs as given
      ∧ (∀ a ∈ as, Entry.IsExtension a.extension) ∧ readAll given = .ok es
      ∧ ∃ r' log, r.register (.mapping es) = .ok (r', log) ∧ r'.find? ".a" = some ⟨["r"], []⟩
        ∧ r'.find? ".b" = some ⟨["x=y", "q"], []⟩ ∧ r'.find? ".c" = some ⟨["t"], []⟩ := by
  intro as given es r
  -- Each option is read as its association, so it is a way to write it.
  have hread : ∀ {a : AssociationOption} {s : String}, ofString s = .ok a → a.parsers ≠ [] →
      a.Writable ∧ a.WrittenAs s := fun h hne => ofString_eq_ok_iff.mp ⟨h, hne⟩
  have hboth : List.Forall₂ (fun a s => a.Writable ∧ a.WrittenAs s) as given :=
    .cons (hread rfl (by decide))
      (.cons (hread rfl (by decide)) (.cons (hread rfl (by decide)) .nil))
  obtain ⟨has, hgiven⟩ := (List.forall₂_and_left _ _).mp hboth
  have hextension : ∀ a ∈ as, Entry.IsExtension a.extension := by
    simp only [as, List.forall_mem_cons, List.not_mem_nil]
    exact ⟨⟨'a', [], rfl⟩, ⟨'b', [], rfl⟩, ⟨'a', [], rfl⟩, by simp⟩
  have heval : readAll given = .ok es := rfl
  obtain ⟨last, -, -, hes, -, hregister⟩ := readAll_written as given has hgiven
  obtain ⟨r', log, hmerged, hlast, hother⟩ := hregister hextension r
  rw [Except.ok.inj (hes.symm.trans heval)] at hmerged
  refine ⟨has, hgiven, hextension, heval, r', log, hmerged, ?_, ?_, ?_⟩
  · exact hlast ⟨".a", ["r"]⟩ ⟨[⟨".a", ["p"]⟩, ⟨".b", ["x=y", "q"]⟩], [], rfl, by simp⟩
  · exact hlast ⟨".b", ["x=y", "q"]⟩ ⟨[⟨".a", ["p"]⟩], [⟨".a", ["r"]⟩], rfl, by decide⟩
  · rw [hother ".c" (by decide)]
    rfl

end TaggedComments.AssociationOption
