import Mathlib
import TaggedComments.Proofs.Files.Glob
import TaggedComments.Proofs.Scan.Walk

/-!
# The files that arguments give

Each argument gives files of its own, and a file is kept where it is given first. So a list of
arguments gives what its front gives, and after that what only the rest of it gives.

- `Discovery.mem_filesAt_iff` and `Discovery.mem_files_iff` say which files there are.
- `Discovery.Covers` says that arguments give all that others give.
- `Discovery.files_composition` is what holds of several arguments.
- `Discovery.files_display` says when the path of a file that was found gives this file again.
-/

namespace TaggedComments

namespace Discovery

variable {d : Discovery} {p f : Path} {arguments more : List String}

/-! ## Section 1: Several arguments -/

theorem mem_filesAt_iff : f ∈ d.filesAt p ↔
    (∃ es, d.system.find p = .ok (.directory es) ∧ f ∈ d.walk.files p (.directory es))
      ∨ f = p ∧ (∃ bytes, d.system.find p = .ok (.file bytes)) ∧ d.isIgnored p = false := by
  rw [filesAt]
  split
  · next es hes => simp [hes]
  · next bytes hfile =>
    cases d.isIgnored p <;> simp [hfile]
  · next hnone => simp [hnone]

theorem mem_files_iff : f ∈ d.files arguments ↔ ∃ a ∈ arguments, f ∈ d.filesOf a := by
  rw [files, mem_distinct, List.mem_flatMap]

/-- Whatever a path gives is not ignored. -/
theorem isIgnored_of_mem_filesAt (h : f ∈ d.filesAt p) : d.isIgnored f = false := by
  rcases mem_filesAt_iff.mp h with ⟨es, -, hwalk⟩ | ⟨rfl, -, hkept⟩
  · obtain ⟨ns, bytes, -, -, -, htakes, -⟩ := Walk.mem_files_iff.mp hwalk
    exact (Bool.not_eq_true' _).mp htakes
  · exact hkept

theorem isIgnored_of_mem_files (h : f ∈ d.files arguments) : d.isIgnored f = false := by
  obtain ⟨a, -, ha⟩ := mem_files_iff.mp h
  obtain ⟨p, -, hp⟩ := List.mem_flatMap.mp ha
  exact isIgnored_of_mem_filesAt hp

/-- Further arguments add the files that the earlier ones do not give. -/
theorem files_append (d : Discovery) (arguments more : List String) :
    d.files (arguments ++ more) =
      d.files arguments ++ (d.files more).filter fun f => f ∉ d.files arguments := by
  simp only [files, List.flatMap_append, distinct_append, mem_distinct]

/-- Arguments give all the files that other arguments give. -/
def Covers (d : Discovery) (arguments more : List String) : Prop :=
  ∀ f ∈ d.files more, f ∈ d.files arguments

theorem covers_of_subset (h : more ⊆ arguments) : d.Covers arguments more := by
  intro f hf
  obtain ⟨a, ha, hfa⟩ := mem_files_iff.mp hf
  exact mem_files_iff.mpr ⟨a, h ha, hfa⟩

theorem Covers.files_append (h : d.Covers arguments more) :
    d.files (arguments ++ more) = d.files arguments := by
  have hnone : (d.files more).filter (fun f => f ∉ d.files arguments) = [] :=
    List.filter_eq_nil_iff.mpr fun f hf => by simpa using h f hf
  rw [Discovery.files_append, hnone, List.append_nil]

/-- An argument that is given again changes nothing. -/
theorem files_distinct (d : Discovery) (arguments : List String) :
    d.files (distinct arguments) = d.files arguments := by
  induction arguments using List.reverseRecOn with
  | nil => rfl
  | append_singleton arguments a ih =>
    -- The last argument was given before, or it stays where it is.
    have hone : distinct [a] = [a] := rfl
    rw [distinct_append, hone, List.filter_singleton]
    by_cases ha : a ∈ arguments
    · have hcovers : d.Covers arguments [a] := covers_of_subset (by simpa using ha)
      simp [ha, hcovers.files_append, ih]
    · simp [ha, files_append, ih]

/-- **Files of several arguments.** The files that two lists of arguments give are those of the
first list, and after them those of the second list that the first one does not give, in their
order. No file occurs twice. Arguments whose files are given already change nothing, nor does it
matter whether an argument is given once or more often. No file is ignored. -/
theorem files_composition (d : Discovery) (arguments more : List String) :
    d.files (arguments ++ more) =
      d.files arguments ++ (d.files more).filter (fun f => f ∉ d.files arguments)
    ∧ (d.files arguments).Nodup
    ∧ (d.Covers arguments more → ∀ later,
        d.files (arguments ++ more ++ later) = d.files (arguments ++ later))
    ∧ d.files (distinct arguments) = d.files arguments
    ∧ ∀ f ∈ d.files arguments, d.isIgnored f = false := by
  refine ⟨files_append d arguments more, nodup_distinct _, fun h later => ?_,
    files_distinct d arguments, fun f hf => isIgnored_of_mem_files hf⟩
  rw [files_append d (arguments ++ more), files_append d arguments later, h.files_append]

/-- A pattern and a missing path after the directory that holds all that they give. -/
theorem files_composition_overlapping :
    let source : Tree := .directory [("b.js", .file []), ("a.py", .file [])]
    let d : Discovery := ⟨⟨.directory [("src", source), ("z.py", .file [])], []⟩, [], []⟩
    let a : Path := ⟨.here, ["src", "a.py"]⟩
    d.files ["src/*.py", "nothing"] = [a] ∧ d.Covers ["src"] ["src/*.py", "nothing"]
      ∧ d.files ["src", "src/*.py", "nothing", "z.py"] = d.files ["src", "z.py"] := by
  intro source d a
  have hfits : d.system.expandNames (Glob.ofString "src/*.py").names
      [(Glob.ofString "src/*.py").front] = ["src/a.py"] := by decide +kernel
  have hexpand : d.system.expand "src/*.py" = ["src/a.py"] := by
    simp only [FileSystem.expand, hfits, List.head?_cons]
    rw [if_neg (by simp), List.mergeSort_singleton]
  have hmore : d.files ["src/*.py", "nothing"] = [a] := by
    have hpattern : d.filesOf "src/*.py" = [a] := by
      have hmagic : NamePattern.isMagic "src/*.py" = true := by decide
      rw [filesOf, candidates, if_pos hmagic, hexpand]
      decide +kernel
    have hnothing : d.filesOf "nothing" = [] := rfl
    simp only [files, List.flatMap_cons, hpattern, hnothing]
    rfl
  have hsource : d.files ["src"] = [a, ⟨.here, ["src", "b.js"]⟩] := by cbv
  have hcovers : d.Covers ["src"] ["src/*.py", "nothing"] := by
    rw [Covers, hmore, hsource]
    simp
  exact ⟨hmore, hcovers, (files_composition d _ _).2.2.1 hcovers ["z.py"]⟩

/-! ## Section 2: Files by their own paths -/

theorem isWritten_of_mem_candidates {argument : String} (h : p ∈ d.candidates argument) :
    p.IsWritten := by
  rw [candidates] at h
  split at h
  · obtain ⟨s, -, rfl⟩ := List.mem_map.mp h
    exact Path.isWritten_ofString s
  · obtain rfl := List.mem_singleton.mp h
    exact Path.isWritten_ofString argument

/-- What arguments give are files, and their paths are read back from their writing. -/
theorem found_of_mem_files (hroot : d.system.root.Proper) (h : f ∈ d.files arguments) :
    f.IsWritten ∧ ∃ bytes, d.system.find f = .ok (.file bytes) := by
  obtain ⟨a, -, ha⟩ := mem_files_iff.mp h
  obtain ⟨p, hp, hf⟩ := List.mem_flatMap.mp ha
  have hwritten := isWritten_of_mem_candidates hp
  rcases mem_filesAt_iff.mp hf with ⟨es, hes, hwalk⟩ | ⟨rfl, hfile, -⟩
  · obtain ⟨ns, bytes, -, hleads, rfl, -⟩ := Walk.mem_files_iff.mp hwalk
    have hns := ((FileSystem.proper_of_find hroot hes).leads hleads).2
    exact ⟨hwritten.below fun n hn => (hns n hn).toIsPiece, bytes,
      (FileSystem.find_below_eq_ok_iff hroot hes hns).mpr hleads⟩
  · exact ⟨hwritten, hfile⟩

/-- A file that is not ignored is all that its path gives. -/
theorem filesAt_file {bytes : List Nat} (hfile : d.system.find f = .ok (.file bytes))
    (hkept : d.isIgnored f = false) : d.filesAt f = [f] := by
  rw [filesAt, hfile]
  simp [hkept]

theorem names_ne_nil_of_isMagic_display (h : NamePattern.isMagic f.display = true) :
    f.names ≠ [] := by
  intro hnil
  obtain ⟨start, names⟩ := f
  obtain rfl : names = [] := hnil
  cases start <;> revert h <;> decide

/-- The writing of a path means this path if it is no pattern, or a pattern that nothing else
fits. -/
theorem candidates_display (hroot : d.system.root.Proper) (hf : f.IsWritten) {t : Tree}
    (hfind : d.system.find f = .ok t)
    (hself : NamePattern.isMagic f.display = false ∨ ∀ n ∈ f.names, NamePattern.FitsOnlyItself n) :
    d.candidates f.display = [f] := by
  rw [candidates]
  split
  · next hmagic =>
    have honly := hself.resolve_left (by simp [hmagic])
    have hne := names_ne_nil_of_isMagic_display hmagic
    rw [FileSystem.expand_display_eq hroot hf hne hfind honly, List.map_singleton,
      Path.ofString_display hf]
  · rw [Path.ofString_display hf]

/-- The writing of a path means this path, perhaps among others, if its names fit themselves. -/
theorem mem_candidates_display (hroot : d.system.root.Proper) (hf : f.IsWritten) {t : Tree}
    (hfind : d.system.find f = .ok t) (hself : ∀ n ∈ f.names, NamePattern.FitsItself n) :
    f ∈ d.candidates f.display := by
  rw [candidates]
  split
  · next hmagic =>
    have hne := names_ne_nil_of_isMagic_display hmagic
    exact List.mem_map.mpr ⟨f.display,
      FileSystem.display_mem_expand hroot hf hne hfind hself, Path.ofString_display hf⟩
  · rw [Path.ofString_display hf]
    exact List.mem_singleton_self f

/-- **A found file can be named.** Let a file be one that arguments give. If its path holds no
character of patterns, or if each name in it that does is a pattern that nothing but this name fits,
then the path as an argument gives this file only. If each name with an opening bracket fits itself,
the path gives this file among others. If all files are of the first kind, their paths give the same
files again. -/
theorem files_display (d : Discovery) (hroot : d.system.root.Proper) (arguments : List String) :
    (∀ f ∈ d.files arguments,
      (NamePattern.isMagic f.display = false ∨ ∀ n ∈ f.names, NamePattern.FitsOnlyItself n) →
        d.files [f.display] = [f])
    ∧ (∀ f ∈ d.files arguments,
      (∀ n ∈ f.names, '[' ∈ n.toList → NamePattern.accepts n n = true) → f ∈ d.files [f.display])
    ∧ ((∀ f ∈ d.files arguments,
        NamePattern.isMagic f.display = false ∨ ∀ n ∈ f.names, NamePattern.FitsOnlyItself n) →
      d.files ((d.files arguments).map Path.display) = d.files arguments) := by
  have hone : ∀ f ∈ d.files arguments,
      (NamePattern.isMagic f.display = false ∨ ∀ n ∈ f.names, NamePattern.FitsOnlyItself n) →
        d.filesOf f.display = [f] := by
    intro f hf hself
    obtain ⟨hwritten, bytes, hfile⟩ := found_of_mem_files hroot hf
    rw [filesOf, candidates_display hroot hwritten hfile hself, List.flatMap_singleton,
      filesAt_file hfile (isIgnored_of_mem_files hf)]
  refine ⟨fun f hf hself => ?_, fun f hf hself => ?_, fun hself => ?_⟩
  · rw [files, List.flatMap_singleton, hone f hf hself]
    rfl
  · obtain ⟨hwritten, bytes, hfile⟩ := found_of_mem_files hroot hf
    have hfits : ∀ n ∈ f.names, NamePattern.FitsItself n := by
      intro n hn
      by_cases hbracket : '[' ∈ n.toList
      · exact fun _ => hself n hn hbracket
      · exact NamePattern.fitsItself_of_not_mem hbracket
    refine mem_files_iff.mpr ⟨_, List.mem_singleton_self _, List.mem_flatMap.mpr ⟨f, ?_, ?_⟩⟩
    · exact mem_candidates_display hroot hwritten hfile hfits
    · rw [filesAt_file hfile (isIgnored_of_mem_files hf)]
      exact List.mem_singleton_self f
  · -- Each path gives its file, and no file occurs twice.
    have hall : ((d.files arguments).map Path.display).flatMap d.filesOf = d.files arguments := by
      rw [List.flatMap_map, List.flatMap_congr fun f hf => hone f hf (hself f hf),
        List.flatMap_singleton']
    rw [files, hall]
    exact distinct_eq_self (nodup_distinct _)

/-- A plain name and one with a bracket that is not closed give their files alone; one with a
question mark gives its file too. -/
theorem files_display_unclosed :
    let source : Tree := .directory [("a.py", .file []), ("b[", .file [])]
    let d : Discovery := ⟨⟨.directory [("src", source), ("c?", .file [])], []⟩, [], []⟩
    let a : Path := ⟨.here, ["src", "a.py"]⟩
    let b : Path := ⟨.here, ["src", "b["]⟩
    let c : Path := ⟨.here, ["c?"]⟩
    d.system.root.Proper ∧ d.files ["."] = [c, a, b] ∧ d.files [a.display] = [a]
      ∧ d.files [b.display] = [b] ∧ c ∈ d.files [c.display]
      ∧ d.files ["src"] = [a, b] ∧ d.files ([a, b].map Path.display) = [a, b] := by
  intro source d a b c
  have hroot : d.system.root.Proper := by decide +kernel
  have hfound : d.files ["."] = [c, a, b] := by cbv
  have hsource : d.files ["src"] = [a, b] := by cbv
  have ha : NamePattern.isMagic a.display = false := by decide
  have hb : ∀ n ∈ b.names, NamePattern.FitsOnlyItself n := by
    intro n hn
    refine NamePattern.fitsOnlyItself_of_ofString ?_
    rcases List.mem_pair.mp hn with rfl | rfl <;> decide
  obtain ⟨hone, hsome, -⟩ := files_display d hroot ["."]
  have hagain := (files_display d hroot ["src"]).2.2
  rw [hfound] at hone hsome
  rw [hsource] at hagain
  refine ⟨hroot, hfound, hone a (by simp) (.inl ha), hone b (by simp) (.inr hb),
    hsome c (by simp) (by decide), hsource, hagain fun f hf => ?_⟩
  rcases List.mem_pair.mp hf with rfl | rfl
  · exact .inl ha
  · exact .inr hb

/-- A name with brackets that are closed is a pattern which fits other names: the path of the file
does not give it. -/
theorem files_display_bracketed :
    let d : Discovery := ⟨⟨.directory [("a[1].py", .file [])], []⟩, [], []⟩
    let f : Path := ⟨.here, ["a[1].py"]⟩
    d.system.root.Proper ∧ d.files ["."] = [f] ∧ f.display = "a[1].py" ∧ d.files [f.display] = [] := by
  intro d f
  have hfits : d.system.expandNames (Glob.ofString f.display).names
      [(Glob.ofString f.display).front] = [] := by decide +kernel
  have hexpand : d.system.expand f.display = [] := by
    simp only [FileSystem.expand, hfits, List.head?_nil]
    simp
  have hmagic : NamePattern.isMagic f.display = true := by decide
  refine ⟨by decide +kernel, by cbv, by decide, ?_⟩
  rw [files, List.flatMap_singleton, filesOf, candidates, if_pos hmagic, hexpand]
  rfl

end Discovery

end TaggedComments
