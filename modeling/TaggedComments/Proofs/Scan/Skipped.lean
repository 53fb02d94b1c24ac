import TaggedComments.Proofs.Files.Match
import TaggedComments.Proofs.Scan.Discovery

/-!
# Patterns and skipped directories

A pattern gives files in two steps: what fits the pattern is looked for first, and from each path
that fits, a walk takes the files below it. The walk enters no directory that is skipped by its name
or ignored, but what fits the pattern is found without regard to such names. So a pattern gives files
below a skipped directory exactly if its own names lead through that directory.

- `Discovery.FoundFrom` says which files are taken from a path.
- `Discovery.mem_files_pattern_iff` says which files a pattern gives.
- `Walk.BelowSkipped` are the files below a skipped directory; `Discovery.files_pattern` says when a
  pattern gives such files.
-/

namespace TaggedComments

/-! ## Section 1: Files of a pattern -/

namespace Discovery

variable {d : Discovery} {p f : Path} {a : String} {ns ms : List String}

/-- The names on the way from a path to a file that is taken from there: the file is not ignored, and
neither skipped nor ignored is any directory on the way. -/
def FoundFrom (d : Discovery) (p : Path) (ms : List String) : Prop :=
  (∀ m ∈ ms, Path.IsEntryName m) ∧ (∃ bytes, d.system.find (p.below ms) = .ok (.file bytes))
    ∧ d.isIgnored (p.below ms) = false
    ∧ ∀ before n after, ms = before ++ n :: after → after ≠ [] →
      Walk.isSkippedName n = false ∧ d.isIgnored (p.below (before ++ [n])) = false

theorem mem_filesAt_iff_foundFrom (hroot : d.system.root.Proper) :
    f ∈ d.filesAt p ↔ ∃ ms, d.FoundFrom p ms ∧ f = p.below ms := by
  rw [mem_filesAt_iff]
  constructor
  · rintro (⟨es, hp, hf⟩ | ⟨rfl, hfile, hkept⟩)
    · obtain ⟨ms, bytes, -, hleads, rfl, htakes, hcomes⟩ := Walk.mem_files_iff.mp hf
      have hms := ((FileSystem.proper_of_find hroot hp).leads hleads).2
      have hfile := (FileSystem.find_below_eq_ok_iff hroot hp hms).mpr hleads
      exact ⟨ms, ⟨hms, ⟨bytes, hfile⟩, (Bool.not_eq_true' _).mp htakes, comesTo_walk_iff.mp hcomes⟩,
        rfl⟩
    · refine ⟨[], ⟨by simp, ?_, ?_, by simp⟩, (Path.below_nil f).symm⟩
      · rwa [Path.below_nil]
      · rwa [Path.below_nil]
  · rintro ⟨ms, ⟨hms, ⟨bytes, hfile⟩, hkept, hcomes⟩, rfl⟩
    by_cases hnil : ms = []
    · subst hnil
      rw [Path.below_nil] at hfile hkept ⊢
      exact .inr ⟨rfl, ⟨bytes, hfile⟩, hkept⟩
    · -- A file below the path is taken by the walk of a directory.
      obtain ⟨t, hp, hdirectory⟩ := FileSystem.exists_find_of_below hfile
      have hleads := (FileSystem.find_below_eq_ok_iff hroot hp hms).mp hfile
      cases t with
      | file bytes => cases hdirectory hnil
      | directory es =>
        exact .inl ⟨es, hp, Walk.mem_files_iff.mpr ⟨ms, bytes, hnil, hleads, rfl,
          (Bool.not_eq_true' _).mpr hkept, comesTo_walk_iff.mpr hcomes⟩⟩

/-- A pattern gives the files that are taken from what fits it. -/
theorem mem_files_pattern_iff (hroot : d.system.root.Proper)
    (hmagic : NamePattern.isMagic a = true) : f ∈ d.files [a] ↔
      ∃ ns ms, d.system.Finds a ns
        ∧ d.FoundFrom ((Path.ofString (Glob.ofString a).front).below ns) ms
        ∧ f = (Path.ofString (Glob.ofString a).front).below (ns ++ ms) := by
  have hcandidates : d.candidates a = (d.system.expand a).map Path.ofString := if_pos hmagic
  rw [mem_files_iff]
  simp only [List.mem_singleton, exists_eq_left, filesOf, List.mem_flatMap, hcandidates,
    FileSystem.mem_map_expand_iff hroot hmagic, mem_filesAt_iff_foundFrom hroot]
  constructor
  · rintro ⟨p, ⟨ns, hfinds, rfl⟩, ms, hfound, rfl⟩
    exact ⟨ns, ms, hfinds, hfound, Path.below_below _ _ _⟩
  · rintro ⟨ns, ms, hfinds, hfound, rfl⟩
    exact ⟨_, ⟨ns, hfinds, rfl⟩, ms, hfound, (Path.below_below _ _ _).symm⟩

end Discovery

/-! ## Section 2: Files below skipped directories -/

/-- A path lies below a directory whose name is skipped, on the way to it from another path. -/
def Walk.BelowSkipped (base f : Path) : Prop :=
  ∃ before n after, f = base.below (before ++ n :: after) ∧ after ≠ []
    ∧ isSkippedName n = true

namespace Discovery

variable {d : Discovery} {base : Path} {a : String} {ns ms : List String}

/-- Only on the way that a pattern takes is there a skipped directory around its files. -/
theorem FoundFrom.belowSkipped_iff (h : d.FoundFrom (base.below ns) ms) :
    Walk.BelowSkipped base (base.below (ns ++ ms)) ↔ ∃ before n after,
      ns = before ++ n :: after ∧ (after ≠ [] ∨ ms ≠ []) ∧ Walk.isSkippedName n = true := by
  obtain ⟨-, -, -, hkept⟩ := h
  have hopen : ∀ after : List String, after ++ ms ≠ [] ↔ after ≠ [] ∨ ms ≠ [] := by
    intro after
    rw [Ne, List.append_eq_nil_iff, not_and_or]
  constructor
  · rintro ⟨before, n, after, hsplit, hne, hskipped⟩
    have hcut : ∀ front, ms = front ++ n :: after → False := by
      intro front hms
      simp [(hkept front n after hms hne).1] at hskipped
    rcases List.append_eq_append_iff.mp (base.below_injective hsplit) with
      ⟨front, -, hms⟩ | ⟨rest, hns, hrest⟩
    · exact (hcut front hms).elim
    · cases rest with
      | nil => exact (hcut [] hrest.symm).elim
      | cons k rest =>
        obtain ⟨rfl, hafter⟩ : n = k ∧ after = rest ++ ms := List.cons.inj hrest
        rw [hafter] at hne
        exact ⟨before, n, rest, hns, (hopen rest).mp hne, hskipped⟩
  · rintro ⟨before, n, after, rfl, hne, hskipped⟩
    exact ⟨before, n, after ++ ms, by simp, (hopen after).mpr hne, hskipped⟩

/-- **Patterns and skipped directories.** A pattern gives exactly the files that are taken from what
it leads to, below the path of its front part. Such a file lies below a directory whose name is
skipped exactly if the names that the pattern leads through go through such a directory, and each of
these names is one that a name of the pattern may stand for. So a pattern whose names stand for no
skipped name gives no file below a skipped directory. -/
theorem files_pattern (d : Discovery) (hroot : d.system.root.Proper) (a : String)
    (hmagic : NamePattern.isMagic a = true) :
    let g := Glob.ofString a
    let base := Path.ofString g.front
    (∀ f, f ∈ d.files [a] ↔ ∃ ns ms, d.system.Finds a ns ∧ d.FoundFrom (base.below ns) ms
        ∧ f = base.below (ns ++ ms))
      ∧ (∀ ns ms, d.FoundFrom (base.below ns) ms →
        (Walk.BelowSkipped base (base.below (ns ++ ms)) ↔ ∃ before n after,
          ns = before ++ n :: after ∧ (after ≠ [] ∨ ms ≠ []) ∧ Walk.isSkippedName n = true))
      ∧ (∀ ns, d.system.Finds a ns → ∀ n ∈ ns, ∃ m ∈ g.names, Glob.Suits m n)
      ∧ ((∀ m ∈ g.names, ∀ n, Walk.isSkippedName n = true → ¬ Glob.Suits m n) →
        ∀ f ∈ d.files [a], ¬ Walk.BelowSkipped base f) := by
  intro g base
  have hfits : ∀ ns, d.system.Finds a ns → ∀ n ∈ ns, ∃ m ∈ g.names, Glob.Suits m n :=
    fun ns hfinds => hfinds.1.suits hroot
  refine ⟨fun f => mem_files_pattern_iff hroot hmagic, fun ns ms h => h.belowSkipped_iff, hfits, ?_⟩
  intro hnone f hf hbelow
  obtain ⟨ns, ms, hfinds, hfound, rfl⟩ := (mem_files_pattern_iff hroot hmagic).mp hf
  obtain ⟨before, n, after, rfl, -, hskipped⟩ := hfound.belowSkipped_iff.mp hbelow
  obtain ⟨m, hm, hsuits⟩ := hfits _ hfinds n (by simp)
  exact hnone m hm n hskipped hsuits

/-- A star leads to a skipped directory, whose files are taken, and to another directory, whose
skipped directories are left out. -/
theorem files_pattern_star :
    let file : Tree := .file []
    let source : Tree := .directory [("build", .directory [("x.py", file)])]
    let tree : Tree := .directory [("build", .directory [("o.py", file)]), ("src", source)]
    let d : Discovery := ⟨⟨tree, []⟩, [], []⟩
    let here : Path := ⟨.here, []⟩
    d.system.root.Proper ∧ NamePattern.isMagic "*" = true
      ∧ here.below ["build", "o.py"] ∈ d.files ["*"]
      ∧ Walk.BelowSkipped here (here.below ["build", "o.py"])
      ∧ here.below ["src", "build", "x.py"] ∉ d.files ["*"] := by
  intro file source tree d here
  have hroot : d.system.root.Proper := by decide +kernel
  have hmagic : NamePattern.isMagic "*" = true := by decide
  have hfront : Path.ofString (Glob.ofString "*").front = here := by decide
  have hnames : (Glob.ofString "*").names = ["*"] := by decide
  obtain ⟨hgives, hbelow, -, -⟩ := files_pattern d hroot "*" hmagic
  simp only [hfront, FileSystem.Finds, hnames] at hgives hbelow
  have hstar : NamePattern.accepts "*" "build" = true := by decide +kernel
  have hfits : d.system.Fits here ["*"] ["build"] :=
    .cons (.entry (by decide) hmagic (rfl : d.system.find here = .ok tree) List.mem_cons_self hstar
      (by simp)) (.nil _)
  have hfound : d.FoundFrom (here.below ["build"]) ["o.py"] :=
    ⟨by decide, ⟨[], rfl⟩, by decide, comesTo_walk_iff.mp (Walk.comesTo_singleton _ _ _)⟩
  refine ⟨hroot, hmagic, (hgives _).mpr ⟨["build"], ["o.py"], ⟨hfits, by simp⟩, hfound, rfl⟩,
    (hbelow ["build"] ["o.py"] hfound).mpr ⟨[], "build", [], rfl, by simp, by decide⟩, fun hx => ?_⟩
  obtain ⟨ns, ms, ⟨hfits, -⟩, hfound, hx⟩ := (hgives _).mp hx
  -- The star leads to one entry, so the walk from there goes through the skipped directory.
  obtain ⟨ks, hname, ls, hrest, rfl⟩ := FileSystem.fits_cons_iff.mp hfits
  obtain ⟨_, m, _, -, -, -, -, rfl⟩ := (FileSystem.fitsName_entry_iff (by decide) hmagic).mp hname
  obtain rfl := FileSystem.fits_nil_iff.mp hrest
  have hsplit := here.below_injective hx
  simp only [List.append_nil, List.singleton_append, List.cons.injEq] at hsplit
  obtain ⟨rfl, rfl⟩ := hsplit
  have hskip := (hfound.2.2.2 [] "build" ["x.py"] rfl (by simp)).1
  exact absurd hskip (by decide)

/-- Two stars lead through directories that are skipped by their names. -/
theorem files_pattern_deep :
    let d : Discovery :=
      ⟨⟨.directory [("node_modules", .directory [("m.js", .file [])])], []⟩, [], []⟩
    let f : Path := ⟨.here, ["node_modules", "m.js"]⟩
    d.system.root.Proper ∧ NamePattern.isMagic "**/*.js" = true
      ∧ (∀ piece ∈ Text.splitString '/' "**/*.js", Walk.isSkippedName piece = false)
      ∧ d.files ["**/*.js"] = [f]
      ∧ Walk.BelowSkipped (Path.ofString (Glob.ofString "**/*.js").front) f := by
  intro d f
  have hmagic : NamePattern.isMagic "**/*.js" = true := by decide
  have hfits : d.system.expandNames (Glob.ofString "**/*.js").names
      [(Glob.ofString "**/*.js").front] = ["node_modules/m.js"] := by decide +kernel
  have hexpand : d.system.expand "**/*.js" = ["node_modules/m.js"] := by
    simp only [FileSystem.expand, hfits, List.head?_cons]
    rw [if_neg (by simp), List.mergeSort_singleton]
  refine ⟨by decide +kernel, hmagic, by decide +kernel, ?_,
    [], "node_modules", ["m.js"], by decide, by simp, by decide⟩
  rw [files, List.flatMap_singleton, filesOf, candidates, if_pos hmagic, hexpand]
  decide +kernel

end Discovery

end TaggedComments
