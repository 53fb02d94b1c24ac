import TaggedComments.Proofs.Files.Place
import TaggedComments.Proofs.Scan.Skipped

/-!
# The places of the files that arguments give

No path is given twice, but two paths may lead to one file: if they start differently or if one of
them takes a step to the parent. Arguments pass both on to the paths that they give, so arguments
that start alike and take no such step give each file once.

- `Discovery.start_of_mem_filesOf` and `Discovery.parent_mem_of_mem_filesOf` say what the paths of an
  argument have from the argument.
- `Discovery.files_places` says when files have places of their own.
-/

namespace TaggedComments

/-- The two points of a step to the parent are hidden. -/
theorem Glob.eq_parent_of_suits {n : String} (h : Glob.Suits n "..") : n = ".." := by
  rw [Glob.Suits] at h
  split at h
  · exact absurd rfl h.1.ne_parent
  · exact h.symm

namespace Discovery

variable {d : Discovery} {f g : Path} {a : String} {arguments : List String}

/-! ## Section 1: The paths of an argument -/

/-- The path of a file starts where its argument starts. -/
theorem start_of_mem_filesOf (hroot : d.system.root.Proper) (h : f ∈ d.filesOf a) :
    f.start = (Path.ofString a).start := by
  have hone : f ∈ d.files [a] := mem_files_iff.mpr ⟨a, List.mem_singleton_self a, h⟩
  by_cases hmagic : NamePattern.isMagic a = true
  · obtain ⟨ns, ms, -, -, rfl⟩ := (mem_files_pattern_iff hroot hmagic).mp hone
    rw [Path.start_below, Glob.start_front hmagic]
  · rw [filesOf, candidates, if_neg hmagic, List.flatMap_singleton] at h
    obtain ⟨ms, -, rfl⟩ := (mem_filesAt_iff_foundFrom hroot).mp h
    rw [Path.start_below]

/-- A step to the parent is one of the argument. -/
theorem parent_mem_of_mem_filesOf (hroot : d.system.root.Proper) (h : f ∈ d.filesOf a)
    (hparent : ".." ∈ f.names) : ".." ∈ (Path.ofString a).names := by
  have hfound : ∀ {p : Path} {ms : List String}, d.FoundFrom p ms → ".." ∉ ms :=
    fun hfound hmem => (hfound.1 _ hmem).ne_parent rfl
  have hone : f ∈ d.files [a] := mem_files_iff.mpr ⟨a, List.mem_singleton_self a, h⟩
  by_cases hmagic : NamePattern.isMagic a = true
  · obtain ⟨ns, ms, hfinds, htaken, rfl⟩ := (mem_files_pattern_iff hroot hmagic).mp hone
    have hpiece : ".." ∈ Text.splitString '/' a := by
      rw [Path.names_below, List.mem_append] at hparent
      rcases hparent with hbase | hbelow
      · exact Glob.mem_of_mem_names_front hmagic hbase
      · have hns := (List.mem_append.mp hbelow).resolve_right (hfound htaken)
        obtain ⟨n, hn, hsuits⟩ := hfinds.1.suits hroot _ hns
        exact Glob.eq_parent_of_suits hsuits ▸ Glob.mem_of_mem_names hmagic hn
    exact List.mem_filter.mpr ⟨hpiece, by decide⟩
  · rw [filesOf, candidates, if_neg hmagic, List.flatMap_singleton] at h
    obtain ⟨ms, htaken, rfl⟩ := (mem_filesAt_iff_foundFrom hroot).mp h
    rw [Path.names_below] at hparent
    exact (List.mem_append.mp hparent).resolve_right (hfound htaken)

/-! ## Section 2: Their places -/

section Places

variable (hfs : d.system.WellFormed)

include hfs

/-- Two paths lead to one file only if they start differently or take a step to the parent. -/
theorem eq_of_resolve_eq (hf : f ∈ d.files arguments) (hg : g ∈ d.files arguments)
    (h : d.system.resolve f = d.system.resolve g) :
    f = g ∨ f.start ≠ g.start ∨ ".." ∈ f.names ∨ ".." ∈ g.names := by
  by_contra hall
  push Not at hall
  obtain ⟨hne, hstart, hf', hg'⟩ := hall
  exact hne (FileSystem.resolve_injective (found_of_mem_files hfs.root hf).1
    (found_of_mem_files hfs.root hg).1 hstart hf' hg' h)

/-- The resolved path of a file gives the file again. -/
theorem resolvePath_mem_files (hf : f ∈ d.files arguments)
    (hkept : d.isIgnored (d.system.resolvePath f) = false)
    (hplain : NamePattern.isMagic (d.system.resolvePath f).display = false) :
    d.system.resolvePath f ∈ d.files (arguments ++ [(d.system.resolvePath f).display]) := by
  obtain ⟨hwritten, bytes, hfile⟩ := found_of_mem_files hfs.root hf
  have hentries := FileSystem.isEntryName_of_mem_resolve hfs hwritten hfile
  have hresolved : (d.system.resolvePath f).IsWritten := fun n hn => (hentries n hn).toIsPiece
  refine mem_files_iff.mpr ⟨_, List.mem_append_right _ (List.mem_singleton_self _), ?_⟩
  rw [filesOf, candidates, hplain, if_neg (by simp), List.flatMap_singleton,
    Path.ofString_display hresolved,
    filesAt_file (FileSystem.find_resolvePath hfs hwritten hfile) hkept]
  exact List.mem_singleton_self _

end Places

/-- **The places of files.** Arguments give paths of files, no path twice, and the resolved names of
each lead to its file. Two different paths lead to one file only if they start differently or if one
of them takes a step to the parent, so arguments that all start alike and take no such step give no
file twice. Otherwise they may: the resolved path of a file, given as a further argument, gives the
same file once more. -/
theorem files_places (d : Discovery) (hfs : d.system.WellFormed) (arguments : List String) :
    (d.files arguments).Nodup
      ∧ (∀ f ∈ d.files arguments, ∃ bytes, d.system.find f = .ok (.file bytes)
        ∧ d.system.root.Leads (d.system.resolve f) (.file bytes))
      ∧ (∀ f ∈ d.files arguments, ∀ g ∈ d.files arguments, f ≠ g →
        d.system.resolve f = d.system.resolve g →
          f.start ≠ g.start ∨ ".." ∈ f.names ∨ ".." ∈ g.names)
      ∧ (∀ start, (∀ a ∈ arguments, (Path.ofString a).start = start
          ∧ ".." ∉ (Path.ofString a).names) →
        ((d.files arguments).map d.system.resolve).Nodup)
      ∧ ∀ f ∈ d.files arguments, d.isIgnored (d.system.resolvePath f) = false →
        NamePattern.isMagic (d.system.resolvePath f).display = false →
          (f.start = .here ∨ ".." ∈ f.names) →
            ∃ g, g ≠ f ∧ d.system.resolve g = d.system.resolve f
              ∧ f ∈ d.files (arguments ++ [(d.system.resolvePath f).display])
              ∧ g ∈ d.files (arguments ++ [(d.system.resolvePath f).display]) := by
  have hnodup : (d.files arguments).Nodup := nodup_distinct _
  refine ⟨hnodup, fun f hf => ?_, fun f hf g hg hne h => ?_, fun start hall => ?_,
    fun f hf hkept hplain hother => ?_⟩
  · obtain ⟨hwritten, bytes, hfile⟩ := found_of_mem_files hfs.root hf
    exact ⟨bytes, hfile, FileSystem.leads_resolve hfs hwritten hfile⟩
  · exact (eq_of_resolve_eq hfs hf hg h).resolve_left hne
  · -- What the arguments do not have, their paths do not have either.
    have hown : ∀ f ∈ d.files arguments, f.start = start ∧ ".." ∉ f.names := by
      intro f hf
      obtain ⟨a, ha, hfa⟩ := mem_files_iff.mp hf
      obtain ⟨hstart, hparent⟩ := hall a ha
      exact ⟨(start_of_mem_filesOf hfs.root hfa).trans hstart,
        mt (parent_mem_of_mem_filesOf hfs.root hfa) hparent⟩
    refine hnodup.map_on fun f hf g hg h => ?_
    obtain ⟨hf', hfparent⟩ := hown f hf
    obtain ⟨hg', hgparent⟩ := hown g hg
    have hcases := eq_of_resolve_eq hfs hf hg h
    simpa [hf', hg', hfparent, hgparent] using hcases
  · obtain ⟨hwritten, bytes, hfile⟩ := found_of_mem_files hfs.root hf
    refine ⟨d.system.resolvePath f, ?_, FileSystem.resolve_resolvePath hfs hwritten hfile,
      covers_of_subset (List.subset_append_left _ _) f hf, resolvePath_mem_files hfs hf hkept hplain⟩
    intro heq
    rcases hother with hhere | hparent
    · rw [← heq] at hhere
      cases hhere
    · rw [← heq] at hparent
      exact (FileSystem.isEntryName_of_mem_resolve hfs hwritten hfile _ hparent).ne_parent rfl

/-- A directory and a pattern that overlap give the file in it once; its resolved path gives it once
more. -/
theorem files_places_overlapping :
    let d : Discovery :=
      ⟨⟨.directory [("src", .directory [("a.js", .file [])])], []⟩, [], []⟩
    let f : Path := ⟨.here, ["src", "a.js"]⟩
    d.system.WellFormed ∧ f ∈ d.files ["src"]
      ∧ ((d.files ["src", "src/*.js"]).map d.system.resolve).Nodup
      ∧ ∃ g, g ≠ f ∧ d.system.resolve g = d.system.resolve f
        ∧ f ∈ d.files ["src", "/src/a.js"] ∧ g ∈ d.files ["src", "/src/a.js"] := by
  intro d f
  have hfs : d.system.WellFormed := ⟨by decide +kernel, by decide⟩
  have hf : f ∈ d.files ["src"] := by
    have hfile : f ∈ d.filesAt (Path.ofString "src") := by
      refine (mem_filesAt_iff_foundFrom hfs.root).mpr ⟨["a.js"], ?_, by decide⟩
      exact ⟨by decide, ⟨[], rfl⟩, by decide, comesTo_walk_iff.mp (Walk.comesTo_singleton _ _ _)⟩
    exact mem_files_iff.mpr ⟨"src", by simp, List.mem_flatMap.mpr ⟨_, by decide, hfile⟩⟩
  obtain ⟨-, -, -, honce, -⟩ := files_places d hfs ["src", "src/*.js"]
  obtain ⟨-, -, -, -, htwice⟩ := files_places d hfs ["src"]
  have hdisplay : (d.system.resolvePath f).display = "/src/a.js" := by decide
  have hagain := htwice f hf (by decide) (by decide) (.inl rfl)
  rw [hdisplay] at hagain
  exact ⟨hfs, hf, honce .here (by decide), hagain⟩

/-- A step to the parent leads to a file that is given already. -/
theorem files_places_parent :
    let d : Discovery :=
      ⟨⟨.directory [("a.js", .file []), ("src", .directory [])], []⟩, [], []⟩
    let f : Path := ⟨.here, ["a.js"]⟩
    let g : Path := ⟨.here, ["src", "..", "a.js"]⟩
    d.system.WellFormed ∧ d.files ["a.js", "src/../a.js"] = [f, g] ∧ f ≠ g
      ∧ d.system.resolve f = d.system.resolve g := by
  intro d f g
  exact ⟨⟨by decide +kernel, by decide⟩, by decide +kernel, by decide, by decide⟩

end Discovery

end TaggedComments
