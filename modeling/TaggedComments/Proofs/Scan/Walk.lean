import TaggedComments.Proofs.Files.Listing
import TaggedComments.Scan.Basic

/-!
# Which files a walk takes, and in which order

A walk takes exactly the files that it takes by their paths and that it comes to through directories
which it enters. Their order is fixed by their names alone: in each directory come its own files by
name, then its directories by name, each with everything below it. So it does not matter in which
order a file system lists the entries of a directory.

- `Walk.ComesTo` says that a walk enters each directory on the way.
- `Walk.Earlier` is the order of the files below a directory by their names.
- `Walk.mem_files_iff` and `Walk.pairwise_files` describe the files of a walk;
  `Walk.eq_of_pairwise` says that this determines them.
- `Discovery.walk_exact` says all this for a project with its rules, and that files and scans are
  the same for each listing.
-/

namespace TaggedComments

namespace Walk

variable {w : Walk} {path : Path} {t : Tree} {es : List (String × Tree)} {f : Path}

/-! ## Section 1: One directory -/

/-- Whether a walk enters an entry of the directory at a path. -/
def keeps (w : Walk) (path : Path) (e : String × Tree) : Bool :=
  e.2.isDirectory && !isSkippedName e.1 && w.enters (path.child e.1)

theorem fromEntries_eq (w : Walk) (path : Path) (es : List (String × Tree)) :
    w.fromEntries path es =
      (es.filter (w.keeps path)).map fun e => (e.1, w.files (path.child e.1) e.2) := by
  induction es with
  | nil => rfl
  | cons e es ih =>
    rw [fromEntries, List.filter_cons, keeps, ih]
    split <;> rfl

/-- What is put into the order of names keeps its place if the names stay. -/
theorem byName_map {α β : Type} (g : String × α → β) (xs : List (String × α)) :
    byName (xs.map fun e => (e.1, g e)) = (byName xs).map fun e => (e.1, g e) := by
  symm
  apply List.map_mergeSort
  exact fun _ _ _ _ => rfl

@[simp] theorem mem_byName {α : Type} {xs : List (String × α)} {e : String × α} :
    e ∈ byName xs ↔ e ∈ xs :=
  List.mem_mergeSort

/-- Different names stand in strict order. -/
theorem pairwise_byName {α : Type} {xs : List (String × α)} (h : (xs.map (·.1)).Nodup) :
    (byName xs).Pairwise fun a b => a.1 < b.1 := by
  have hsorted : (byName xs).Pairwise fun a b => a.1 ≤ b.1 :=
    FileSystem.pairwise_mergeSort_text Prod.fst xs
  have hdistinct : (byName xs).Pairwise fun a b => a.1 ≠ b.1 := by
    have hnodup : ((byName xs).map (·.1)).Nodup :=
      ((List.mergeSort_perm xs _).map _).nodup_iff.mpr h
    exact List.pairwise_map.mp hnodup
  exact hsorted.imp₂ (fun _ _ hle hne => lt_of_le_of_ne hle hne) hdistinct

/-- A walk takes the files of a directory by name, and then what walks of its directories take, by
the names of these. -/
theorem files_directory (w : Walk) (path : Path) (es : List (String × Tree)) :
    w.files path (.directory es) = w.ownFiles path es
      ++ (byName (es.filter (w.keeps path))).flatMap fun e => w.files (path.child e.1) e.2 := by
  rw [files, fromEntries_eq, byName_map, List.flatMap_map]

theorem mem_ownFiles_iff : f ∈ w.ownFiles path es ↔
    ∃ n bytes, (n, Tree.file bytes) ∈ es ∧ f = path.child n ∧ w.takes f = true := by
  simp only [ownFiles, List.mem_filter, List.mem_map, mem_byName]
  constructor
  · rintro ⟨⟨⟨n, t⟩, ⟨hmem, hfile⟩, rfl⟩, htakes⟩
    cases t with
    | file bytes => exact ⟨n, bytes, hmem, rfl, htakes⟩
    | directory es => cases hfile
  · rintro ⟨n, bytes, hmem, rfl, htakes⟩
    exact ⟨⟨_, ⟨hmem, rfl⟩, rfl⟩, htakes⟩

/-! ## Section 2: The files of a walk -/

/-- Whether a walk from a path comes to what names lead to: it enters each directory on the way. -/
def ComesTo (w : Walk) (path : Path) (ns : List String) : Prop :=
  ∀ before n after, ns = before ++ n :: after → after ≠ [] →
    isSkippedName n = false ∧ w.enters (path.below (before ++ [n])) = true

theorem comesTo_singleton (w : Walk) (path : Path) (n : String) : w.ComesTo path [n] := by
  intro before m after h hne
  have hlength := congrArg List.length h
  simp only [List.length_append, List.length_cons, List.length_nil] at hlength
  exact absurd (List.length_eq_zero_iff.mp (by omega)) hne

/-- A walk that comes to something enters the first directory, and comes to the rest from there. -/
theorem comesTo_cons_iff {n : String} {ns : List String} (hns : ns ≠ []) :
    w.ComesTo path (n :: ns) ↔ (isSkippedName n = false ∧ w.enters (path.child n) = true)
      ∧ w.ComesTo (path.child n) ns := by
  constructor
  · intro h
    refine ⟨h [] n ns rfl hns, fun before m after heq hne => ?_⟩
    rw [Path.child_below]
    exact h (n :: before) m after (congrArg (n :: ·) heq) hne
  · rintro ⟨hn, hrest⟩ before m after heq hne
    cases before with
    | nil =>
      obtain ⟨rfl, rfl⟩ := List.cons.inj heq
      exact hn
    | cons k before =>
      obtain ⟨rfl, hsplit⟩ := List.cons.inj heq
      rw [List.cons_append, ← Path.child_below]
      exact hrest before m after hsplit hne

/-- The files of a walk are those that it takes and that it comes to. -/
theorem mem_files_iff : f ∈ w.files path t ↔
    ∃ ns bytes, ns ≠ [] ∧ t.Leads ns (.file bytes) ∧ f = path.below ns ∧ w.takes f = true
      ∧ w.ComesTo path ns := by
  induction t using Tree.induction generalizing path with
  | file bytes =>
    rw [files]
    constructor
    · intro h
      cases h
    · rintro ⟨ns, bytes', hne, hleads, -⟩
      obtain ⟨n, ns, rfl⟩ := List.exists_cons_of_ne_nil hne
      exact absurd hleads Tree.not_leads_file
  | directory es ih =>
    rw [files_directory, List.mem_append, mem_ownFiles_iff]
    simp only [List.mem_flatMap, mem_byName, List.mem_filter]
    -- A file is an entry of the directory or lies in one that the walk keeps.
    constructor
    · rintro (⟨n, bytes, hmem, rfl, htakes⟩ | ⟨e, ⟨hmem, hkeeps⟩, hf⟩)
      · exact ⟨[n], bytes, by simp, .down hmem (.here _), rfl, htakes, w.comesTo_singleton path n⟩
      · simp only [keeps, Bool.and_eq_true, Bool.not_eq_true'] at hkeeps
        obtain ⟨ns, bytes, hne, hleads, rfl, htakes, hcomes⟩ := (ih e hmem).mp hf
        exact ⟨e.1 :: ns, bytes, by simp, .down hmem hleads, by rw [Path.child_below], htakes,
          (comesTo_cons_iff hne).mpr ⟨⟨hkeeps.1.2, hkeeps.2⟩, hcomes⟩⟩
    · rintro ⟨ns, bytes, hne, hleads, rfl, htakes, hcomes⟩
      obtain ⟨n, ns, rfl⟩ := List.exists_cons_of_ne_nil hne
      obtain ⟨t, hmem, hleads⟩ := Tree.leads_cons_iff.mp hleads
      cases ns with
      | nil =>
        obtain rfl := Tree.leads_nil_iff.mp hleads
        exact .inl ⟨n, bytes, hmem, rfl, htakes⟩
      | cons m ns =>
        obtain ⟨⟨hskip, henters⟩, hcomes⟩ := (comesTo_cons_iff (by simp)).mp hcomes
        refine .inr ⟨(n, t), ⟨hmem, ?_⟩, (ih _ hmem).mpr ?_⟩
        · simp only [keeps, hleads.isDirectory, hskip, henters, Bool.not_false, Bool.and_self]
        · exact ⟨m :: ns, bytes, by simp, hleads, (Path.child_below path n _).symm, htakes, hcomes⟩

/-! ## Section 3: Their order -/

/-- The order of the files below a directory: its own files come before those of its directories,
files and directories by their names, and what is below the same directory by the rest of the way. -/
inductive Earlier : List String → List String → Prop where
  | files {a b : String} (h : a < b) : Earlier [a] [b]
  | fileFirst (a b : String) (m : String) (ms : List String) : Earlier [a] (b :: m :: ms)
  | directories {a b : String} (h : a < b) (n : String) (ns : List String) (m : String)
      (ms : List String) : Earlier (a :: n :: ns) (b :: m :: ms)
  | inside (a : String) {ns ms : List String} (h : Earlier ns ms) : Earlier (a :: ns) (a :: ms)

theorem Earlier.asymm {ns ms : List String} (h : Earlier ns ms) : ¬ Earlier ms ns := by
  induction h with
  | files hlt =>
    rintro (hgt | _ | _ | ⟨_, hinner⟩)
    · exact String.lt_irrefl _ (String.lt_trans hlt hgt)
    · cases hinner
  | fileFirst a b m ms =>
    rintro (_ | _ | _ | ⟨_, hinner⟩)
    cases hinner
  | directories hlt n ns m ms =>
    rintro (_ | _ | ⟨hgt⟩ | _)
    · exact String.lt_irrefl _ (String.lt_trans hlt hgt)
    · exact String.lt_irrefl _ hlt
  | inside a hinner ih =>
    rintro (hgt | _ | ⟨hgt⟩ | ⟨_, hback⟩)
    · exact String.lt_irrefl _ hgt
    · cases hinner
    · exact String.lt_irrefl _ hgt
    · exact ih hback

/-- The order of the files below a path. -/
def Before (path f g : Path) : Prop :=
  ∃ ns ms, f = path.below ns ∧ g = path.below ms ∧ Earlier ns ms

theorem Before.asymm {f g : Path} (h : Before path f g) : ¬ Before path g f := by
  rintro ⟨ms', ns', hg', hf', hback⟩
  obtain ⟨ns, ms, hf, hg, hearlier⟩ := h
  obtain rfl := path.below_injective (hf.symm.trans hf')
  obtain rfl := path.below_injective (hg.symm.trans hg')
  exact hearlier.asymm hback

theorem Before.of_child {n : String} {f g : Path} (h : Before (path.child n) f g) :
    Before path f g := by
  obtain ⟨ns, ms, rfl, rfl, hearlier⟩ := h
  exact ⟨n :: ns, n :: ms, Path.child_below .., Path.child_below .., hearlier.inside n⟩

/-- The files of a walk stand in their order. -/
theorem pairwise_files (ht : t.Proper) : (w.files path t).Pairwise (Before path) := by
  induction ht generalizing path with
  | file bytes =>
    rw [files]
    exact .nil
  | @directory es distinct names below ih =>
    -- What comes out of an entry lies below it, so its path has two more names at least.
    have hbelow : ∀ e ∈ es, ∀ f ∈ w.files (path.child e.1) e.2,
        ∃ n ns, f = path.below (e.1 :: n :: ns) := by
      intro e he f hf
      obtain ⟨ns, bytes, hne, -, rfl, -⟩ := mem_files_iff.mp hf
      obtain ⟨n, ns, rfl⟩ := List.exists_cons_of_ne_nil hne
      exact ⟨n, ns, Path.child_below ..⟩
    have hnodup : ∀ keep : String × Tree → Bool, ((es.filter keep).map (·.1)).Nodup := fun keep =>
      distinct.sublist (List.filter_sublist.map _)
    rw [files_directory, List.pairwise_append]
    refine ⟨?own, List.pairwise_flatMap.mpr ⟨?one, ?two⟩, ?cross⟩
    case own =>
      rw [ownFiles]
      refine List.Pairwise.filter _ (List.pairwise_map.mpr ?_)
      exact (pairwise_byName (hnodup _)).imp fun hlt => ⟨_, _, rfl, rfl, .files hlt⟩
    case one =>
      intro e he
      exact (ih e (List.mem_filter.mp (mem_byName.mp he)).1).imp Before.of_child
    case two =>
      refine (pairwise_byName (hnodup _)).imp_of_mem fun {a b} ha hb hlt f hf g hg => ?_
      obtain ⟨n, ns, rfl⟩ := hbelow a (List.mem_filter.mp (mem_byName.mp ha)).1 f hf
      obtain ⟨m, ms, rfl⟩ := hbelow b (List.mem_filter.mp (mem_byName.mp hb)).1 g hg
      exact ⟨_, _, rfl, rfl, .directories hlt n ns m ms⟩
    case cross =>
      intro f hf g hg
      obtain ⟨a, bytes, -, rfl, -⟩ := mem_ownFiles_iff.mp hf
      obtain ⟨e, he, hg⟩ := List.mem_flatMap.mp hg
      obtain ⟨m, ms, rfl⟩ := hbelow e (List.mem_filter.mp (mem_byName.mp he)).1 g hg
      exact ⟨[a], _, rfl, rfl, .fileFirst a e.1 m ms⟩

theorem nodup_of_pairwise {fs : List Path} (h : fs.Pairwise (Before path)) : fs.Nodup :=
  h.imp fun hfg heq => hfg.asymm (by rwa [heq] at hfg ⊢)

/-- The order leaves one way only to list the same files. -/
theorem eq_of_pairwise {fs gs : List Path} (hfs : fs.Pairwise (Before path))
    (hgs : gs.Pairwise (Before path)) (h : ∀ f, f ∈ fs ↔ f ∈ gs) : fs = gs := by
  have hperm : fs.Perm gs :=
    (List.perm_ext_iff_of_nodup (nodup_of_pairwise hfs) (nodup_of_pairwise hgs)).mpr h
  exact hperm.eq_of_pairwise (fun f g _ _ hfg hgf => absurd hgf hfg.asymm) hfs hgs

/-- Two listings of one tree have the same walk. -/
theorem files_relisted (ht : t.Proper) {t' : Tree} (h : t.Relisted t') :
    w.files path t' = w.files path t := by
  refine eq_of_pairwise (pairwise_files (ht.relisted h)) (pairwise_files ht) fun f => ?_
  rw [mem_files_iff, mem_files_iff]
  simp only [h.leads_file_iff]

end Walk

/-! ## Section 4: The files of a project -/

namespace Discovery

variable {d : Discovery} {p : Path} {es : List (String × Tree)}

/-- A walk under the rules comes to what lies in no directory that is skipped or ignored. -/
theorem comesTo_walk_iff {ns : List String} :
    d.walk.ComesTo p ns ↔ ∀ before n after, ns = before ++ n :: after → after ≠ [] →
      Walk.isSkippedName n = false ∧ d.isIgnored (p.below (before ++ [n])) = false := by
  simp only [Walk.ComesTo, walk, Bool.not_eq_true']

/-- The project in another listing of its file system. -/
def relisted (d : Discovery) (system : FileSystem) : Discovery :=
  { d with system := system }

variable {system : FileSystem}

theorem isIgnored_relisted (h : d.system.Relisted system) :
    (d.relisted system).isIgnored = d.isIgnored := by
  funext p
  have hresolve : system.resolve p = d.system.resolve p := by
    rw [FileSystem.resolve, FileSystem.resolve, h.working]
  rw [isIgnored, isIgnored, ruleView, ruleView, relisted, hresolve]

theorem walk_relisted (h : d.system.Relisted system) : (d.relisted system).walk = d.walk := by
  rw [walk, walk, isIgnored_relisted h]

theorem filesAt_relisted (hroot : d.system.root.Proper) (h : d.system.Relisted system) (p : Path) :
    (d.relisted system).filesAt p = d.filesAt p := by
  have hfind := h.find hroot p
  have hsystem : (d.relisted system).system = system := rfl
  rw [filesAt, filesAt, isIgnored_relisted h, walk_relisted h, hsystem]
  cases hp : d.system.find p with
  | error e =>
    rw [hp] at hfind
    generalize system.find p = found' at hfind
    cases hfind
    rfl
  | ok t =>
    have ht := FileSystem.proper_of_find hroot hp
    rw [hp] at hfind
    generalize system.find p = found' at hfind
    cases hfind with
    | found htree =>
      cases htree with
      | file bytes => rfl
      | directory names below => exact Walk.files_relisted ht (.directory names below)

theorem files_relisted (hroot : d.system.root.Proper) (h : d.system.Relisted system)
    (arguments : List String) : (d.relisted system).files arguments = d.files arguments := by
  have hone : ∀ argument, (d.relisted system).filesOf argument = d.filesOf argument := by
    intro argument
    have hsystem : (d.relisted system).system = system := rfl
    rw [filesOf, filesOf, candidates, candidates, hsystem, h.expand_eq hroot,
      funext (filesAt_relisted hroot h)]
  rw [files, files, funext hone]

end Discovery

namespace Scanner

/-- Parsing does not depend on where the files are. -/
theorem allComments_congr (s s' : Scanner) (hconfig : s'.config = s.config)
    (hregistry : s'.registry = s.registry) (contents : List (Path × List Nat)) :
    s'.allComments contents = s.allComments contents := by
  have hone : ∀ x, s'.fileComments x = s.fileComments x := by
    intro x
    rw [fileComments, fileComments, textComments, textComments, hconfig, hregistry]
  induction contents with
  | nil => rfl
  | cons x contents ih => rw [allComments, allComments, hone, ih]

/-- A scan comes to the same in each listing of the file system. -/
theorem scan_relisted (config : Config) (registry : Registry) {d : Discovery}
    {system : FileSystem} (hroot : d.system.root.Proper) (h : d.system.Relisted system)
    (arguments : List String) :
    (Scanner.mk config registry (d.relisted system)).scan arguments =
      (Scanner.mk config registry d).scan arguments := by
  have hread : system.read = d.system.read := funext (h.read_eq hroot)
  have hsystem : (d.relisted system).system = system := rfl
  have hall := allComments_congr ⟨config, registry, d⟩ ⟨config, registry, d.relisted system⟩ rfl rfl
  rw [scan, scan, Discovery.files_relisted hroot h, scanFiles, scanFiles]
  simp only [hsystem, hread, funext hall]
  rfl

end Scanner

namespace Discovery

/-- **The directory walk.** In a project, the walk of a directory takes exactly the files below it
that are not ignored and that lie in no directory below it which is skipped by its name or ignored.
It takes each of them once, and in one order: the files of a directory by name, then what its
directories hold, by their names. In whichever order the file system lists the entries of its
directories, the walk, the files that arguments give and the scan of them are the same. -/
theorem walk_exact (d : Discovery) (hroot : d.system.root.Proper) :
    (∀ p es, d.system.find p = .ok (.directory es) →
      (∀ f, f ∈ d.walk.files p (.directory es) ↔ ∃ ns bytes, f = p.below ns
        ∧ (∀ n ∈ ns, Path.IsEntryName n) ∧ d.system.find f = .ok (.file bytes)
        ∧ d.isIgnored f = false
        ∧ ∀ before n after, ns = before ++ n :: after → after ≠ [] →
          Walk.isSkippedName n = false ∧ d.isIgnored (p.below (before ++ [n])) = false)
      ∧ (d.walk.files p (.directory es)).Nodup
      ∧ (d.walk.files p (.directory es)).Pairwise (Walk.Before p)
      ∧ d.walk.files p (.directory es) = d.walk.ownFiles p es
        ++ (Walk.byName (es.filter (d.walk.keeps p))).flatMap fun e =>
          d.walk.files (p.child e.1) e.2)
      ∧ ∀ system, d.system.Relisted system →
        (∀ p es, d.system.find p = .ok (.directory es) → ∃ es',
          system.find p = .ok (.directory es')
            ∧ (d.relisted system).walk.files p (.directory es') = d.walk.files p (.directory es))
        ∧ (∀ arguments, (d.relisted system).files arguments = d.files arguments)
        ∧ ∀ config registry arguments,
          (Scanner.mk config registry (d.relisted system)).scan arguments =
            (Scanner.mk config registry d).scan arguments := by
  refine ⟨fun p es hp => ?_, fun system h => ⟨fun p es hp => ?_, files_relisted hroot h,
    fun config registry => Scanner.scan_relisted config registry hroot h⟩⟩
  · have ht := FileSystem.proper_of_find hroot hp
    have hpairwise : (d.walk.files p (.directory es)).Pairwise (Walk.Before p) :=
      Walk.pairwise_files ht
    refine ⟨fun f => ?_, Walk.nodup_of_pairwise hpairwise, hpairwise, d.walk.files_directory p es⟩
    rw [Walk.mem_files_iff]
    constructor
    · rintro ⟨ns, bytes, -, hleads, rfl, htakes, hcomes⟩
      have hns := (ht.leads hleads).2
      exact ⟨ns, bytes, rfl, hns, (FileSystem.find_below_eq_ok_iff hroot hp hns).mpr hleads,
        (Bool.not_eq_true' _).mp htakes, comesTo_walk_iff.mp hcomes⟩
    · rintro ⟨ns, bytes, rfl, hns, hfind, hkept, hcomes⟩
      have hleads := (FileSystem.find_below_eq_ok_iff hroot hp hns).mp hfind
      refine ⟨ns, bytes, ?_, hleads, rfl, (Bool.not_eq_true' _).mpr hkept, comesTo_walk_iff.mpr hcomes⟩
      rintro rfl
      cases hleads
  · have ht := FileSystem.proper_of_find hroot hp
    obtain ⟨es', hes', htree⟩ := h.exists_find hroot hp
    exact ⟨es', hes', by rw [walk_relisted h, Walk.files_relisted ht htree]⟩

/-- A project with sources, generated files and an ignored directory, listed in two orders. -/
theorem walk_exact_two_listings :
    let file : Tree := .file []
    let tree : Tree := .directory [("z.py", file), ("v", .directory [("x.py", file)]),
      ("src", .directory [("c.py", file), ("a.py", file)]), ("build", .directory [("o.py", file)])]
    let other : Tree := .directory [("src", .directory [("a.py", file), ("c.py", file)]),
      ("v", .directory [("x.py", file)]), ("z.py", file), ("build", .directory [("o.py", file)])]
    let d : Discovery := ⟨⟨tree, []⟩, [], [⟨true, .start [.leading, .one 'v', .boundary]⟩]⟩
    let found := d.walk.files ⟨.here, []⟩ tree
    tree.Proper ∧ d.system.Relisted ⟨other, []⟩ ∧ d.isIgnored ⟨.here, ["v"]⟩ = true
      ∧ ⟨.here, ["src", "a.py"]⟩ ∈ found ∧ ⟨.here, ["v", "x.py"]⟩ ∉ found
      ∧ ⟨.here, ["build", "o.py"]⟩ ∉ found
      ∧ (d.relisted ⟨other, []⟩).walk.files ⟨.here, []⟩ other = found
      ∧ (d.relisted ⟨other, []⟩).files ["src", "s*"] = d.files ["src", "s*"] := by
  intro file tree other d found
  have hroot : tree.Proper := by decide +kernel
  have hlisted : d.system.Relisted ⟨other, []⟩ := by
    refine ⟨.directory (by decide) fun n t t' ht ht' => ?_, rfl⟩
    simp only [List.mem_cons, Prod.mk.injEq, List.not_mem_nil, or_false] at ht ht'
    rcases ht with ⟨rfl, rfl⟩ | ⟨rfl, rfl⟩ | ⟨rfl, rfl⟩ | ⟨rfl, rfl⟩ <;>
      simp at ht' <;> subst ht'
    · exact .refl (by decide +kernel)
    · exact .refl (by decide +kernel)
    · refine .directory (by decide) fun m t t' ht ht' => ?_
      simp only [List.mem_cons, Prod.mk.injEq, List.not_mem_nil, or_false, ← or_and_right] at ht ht'
      rw [ht.2, ht'.2]
      exact .file []
    · exact .refl (by decide +kernel)
  obtain ⟨hwalk, hlistings⟩ := walk_exact d hroot
  have hmem := (hwalk ⟨.here, []⟩ _ rfl).1
  have hignored : d.isIgnored ⟨.here, ["v"]⟩ = true := by decide +kernel
  refine ⟨hroot, hlisted, hignored, (hmem _).mpr ?_, ?_, ?_, ?_, (hlistings _ hlisted).2.1 _⟩
  · refine ⟨["src", "a.py"], [], rfl, by decide, rfl, by decide +kernel, comesTo_walk_iff.mp ?_⟩
    exact (Walk.comesTo_cons_iff (by simp)).mpr
      ⟨⟨by decide +kernel, by decide +kernel⟩, Walk.comesTo_singleton _ _ _⟩
  · intro hx
    obtain ⟨ns, bytes, hns, -, -, -, hkept⟩ := (hmem _).mp hx
    obtain rfl : ns = ["v", "x.py"] := (Path.mk.inj hns).2.symm
    exact absurd hignored (Bool.eq_false_iff.mp (hkept [] "v" ["x.py"] rfl (by simp)).2)
  · intro ho
    obtain ⟨ns, bytes, hns, -, -, -, hkept⟩ := (hmem _).mp ho
    obtain rfl : ns = ["build", "o.py"] := (Path.mk.inj hns).2.symm
    exact absurd (hkept [] "build" ["o.py"] rfl (by simp)).1 (by decide +kernel)
  · obtain ⟨es', hes', hother⟩ := (hlistings _ hlisted).1 ⟨.here, []⟩ _ rfl
    obtain rfl := Tree.directory.inj (Except.ok.inj hes')
    exact hother

end Discovery

end TaggedComments
