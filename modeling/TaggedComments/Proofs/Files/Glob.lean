import TaggedComments.Proofs.Files.IgnoreRule
import TaggedComments.Proofs.Files.Listing

/-!
# Paths as patterns of themselves

The path of a file may look like a pattern: stars, question marks and brackets are characters of
names like others. A star and a question mark fit themselves, and so does a bracket that is not
closed, but brackets that are closed stand for one of the characters in them. So whether such a path
finds its file depends on its names only.

- `NamePattern.FitsItself` are the names that are found by their own writing,
  `NamePattern.FitsOnlyItself` those that nothing else is found with.
- `Path.front` is the writing of a path that other names follow; `Glob.exists_ofString_front` says
  how a written path is taken apart.
- `FileSystem.atText_front` says that a written path leads where the path leads.
- `FileSystem.display_mem_expand` and `FileSystem.expand_display_eq` say what is found for the
  writing of a path.
-/

namespace TaggedComments

/-! ## Section 1: Names -/

namespace Wildcard

variable {ws : List Wildcard} {s : List Char}

theorem matchesAll_eq_true_iff : matchesAll ws s = true ↔ Reads ws s [] := by
  simp only [matchesAll, List.contains_iff_mem, mem_restsAll_iff, List.mem_singleton,
    exists_eq_left]

theorem mem_afterMany_self (p : Char → Bool) (s : List Char) : s ∈ afterMany p s := by
  cases s <;> simp [afterMany]

/-- A star reads a star. -/
theorem mem_rests_star (s : List Char) : s ∈ star.rests ('*' :: s) := by
  rw [rests, mem_afterMany_cons_iff]
  exact .inr ⟨by decide, mem_afterMany_self _ s⟩

theorem mem_rests_any {c : Char} (hc : c ≠ '/') (s : List Char) : s ∈ any.rests (c :: s) := by
  simp [rests, afterOne, hc]

theorem mem_rests_one (c : Char) (s : List Char) : s ∈ (one c).rests (c :: s) := by
  simp [rests, afterOne]

end Wildcard

namespace NamePattern

variable {n : String}

/-- Without brackets, each part of a pattern reads the character that it stands for. -/
theorem reads_read {fuel : Nat} {s : List Char} (hfuel : s.length ≤ fuel) (hs : '[' ∉ s) :
    Wildcard.Reads (read fuel s) s [] := by
  induction fuel generalizing s with
  | zero =>
    obtain rfl := List.length_eq_zero_iff.mp (Nat.le_zero.mp hfuel)
    exact .nil []
  | succ fuel ih =>
    cases s with
    | nil => exact .nil []
    | cons c s =>
      obtain ⟨hc, hs⟩ := not_or.mp (mt List.mem_cons.mpr hs)
      have hrest := ih (Nat.le_of_succ_le_succ hfuel) hs
      by_cases hstar : c = '*'
      · subst hstar
        exact .cons (Wildcard.mem_rests_star s) hrest
      by_cases hany : c = '?'
      · subst hany
        exact .cons (Wildcard.mem_rests_any (by decide) s) hrest
      have hone : read (fuel + 1) (c :: s) = .one c :: read fuel s := by
        rw [read] <;> first | exact hstar | exact hany | exact Ne.symm hc
      rw [hone]
      exact .cons (Wildcard.mem_rests_one c s) hrest

/-- A name that is found by its own writing: it is no pattern, or it has the form of itself. -/
def FitsItself (n : String) : Prop :=
  isMagic n = true → accepts n n = true

/-- A name and its own writing are hidden alike. -/
theorem isShown_self (n : String) :
    (n.toList.head? != some '.' || n.toList.head? == some '.') = true := by
  rw [bne]
  cases n.toList.head? == some '.' <;> rfl

theorem fitsItself_of_not_mem (h : '[' ∉ n.toList) : FitsItself n := by
  intro _
  rw [accepts, Bool.and_eq_true, Wildcard.matchesAll_eq_true_iff]
  exact ⟨isShown_self n, reads_read (le_of_eq String.length_toList) h⟩

/-- A name that is found by its own writing, and nothing else with it. -/
def FitsOnlyItself (n : String) : Prop :=
  isMagic n = true → ∀ m, accepts n m = true ↔ m = n

theorem FitsOnlyItself.fitsItself (h : FitsOnlyItself n) : FitsItself n :=
  fun hmagic => (h hmagic n).mpr rfl

theorem FitsOnlyItself.ne_deep (h : FitsOnlyItself n) : n ≠ Glob.deep := by
  rintro rfl
  have ha : accepts Glob.deep "a" = true := by decide +kernel
  exact absurd ((h (by decide) "a").mp ha) (by decide)

/-- Fixed characters read themselves and nothing else. -/
theorem reads_map_one_iff {s t : List Char} :
    Wildcard.Reads (s.map .one) t [] ↔ t = s := by
  induction s generalizing t with
  | nil =>
    constructor
    · rintro ⟨⟩
      rfl
    · rintro rfl
      exact .nil []
  | cons c s ih =>
    constructor
    · rintro (_ | ⟨hone, hmore⟩)
      obtain ⟨c', hc, rfl⟩ := Wildcard.mem_afterOne_iff.mp hone
      rw [ih.mp hmore, beq_iff_eq.mp hc]
    · rintro rfl
      exact .cons (Wildcard.mem_rests_one c s) (ih.mpr rfl)

/-- A name is of this kind if each of its characters stands for itself, such as a bracket that is not
closed. -/
theorem fitsOnlyItself_of_ofString (h : ofString n = n.toList.map .one) : FitsOnlyItself n := by
  intro _ m
  rw [accepts, Bool.and_eq_true, Wildcard.matchesAll_eq_true_iff, h, reads_map_one_iff,
    String.toList_inj]
  refine ⟨And.right, ?_⟩
  rintro rfl
  exact ⟨isShown_self m, rfl⟩

end NamePattern

/-! ## Section 2: Written paths -/

namespace Path

variable {p : Path} {n : String} {ns : List String}

/-- What is written of a path before further names: nothing stands for the working directory. -/
def front (p : Path) : String :=
  startText p.start ++ "/".intercalate p.names

theorem display_eq_front (h : p.names ≠ []) : p.display = p.front :=
  if_neg fun hpoint => h hpoint.2

theorem toList_front (p : Path) : p.front.toList = (startText p.start).toList ++ text p.names := by
  rw [front, String.toList_append, toList_intercalate_slash]

theorem endsWith_iff {s t : String} : s.endsWith t = true ↔ t.toList <:+ s.toList := by
  rw [← String.endsWith_toSlice, String.Slice.endsWith_string_iff, String.copy_toSlice]

theorem text_singleton (n : String) : text [n] = n.toList := rfl

theorem text_cons_cons (n m : String) (ns : List String) :
    text (n :: m :: ns) = n.toList ++ '/' :: text (m :: ns) := rfl

theorem front_child_eq {n : String} (hnil : p.names = []) :
    (p.child n).front = p.front ++ n := by
  rw [← String.toList_inj, String.toList_append, toList_front, toList_front, hnil, child, hnil,
    List.nil_append, text_singleton]
  simp [text, Text.joinWith]

theorem front_child_eq_of_ne_nil {n : String} (hne : p.names ≠ []) :
    (p.child n).front = p.front ++ "/" ++ n := by
  rw [← String.toList_inj, String.toList_append, String.toList_append, toList_front, toList_front,
    child, text_append hne (by simp), text_singleton]
  simp

/-- What is written of a path with names does not end in a slash. -/
theorem getLast?_front (hp : p.IsWritten) (hne : p.names ≠ []) :
    ∃ c, p.front.toList.getLast? = some c ∧ c ≠ '/' := by
  obtain ⟨ms, m, hms⟩ := List.eq_nil_or_concat p.names |>.resolve_left hne
  rw [List.concat_eq_append] at hms
  have hm : IsPiece m := hp m (by simp [hms])
  have hlast := getLast?_text_concat ms hm
  obtain ⟨c, hc⟩ := Option.ne_none_iff_exists'.mp
    (mt List.getLast?_eq_none_iff.mp (mt String.toList_eq_nil_iff.mp hm.ne_empty))
  refine ⟨c, ?_, ?_⟩
  · rw [toList_front, hms, List.getLast?_append, hlast, hc]
    rfl
  · rintro rfl
    exact hm.noSlash (List.mem_of_getLast? hc)

theorem front_ne_empty (hp : p.IsWritten) (hne : p.names ≠ []) : p.front ≠ "" := by
  obtain ⟨c, hc, -⟩ := getLast?_front hp hne
  intro hempty
  simp [hempty] at hc

/-- Following a name from a path is writing it after the path. -/
theorem join_front (hp : p.IsWritten) (n : String) : Glob.join p.front n = (p.child n).front := by
  by_cases hnil : p.names = []
  · have hopen : p.front = "" ∨ p.front.endsWith "/" = true := by
      rw [endsWith_iff, toList_front, hnil, ← String.toList_eq_nil_iff, toList_front, hnil]
      cases p.start <;> decide
    rw [front_child_eq hnil, Glob.join, if_pos (by simpa using hopen)]
  · obtain ⟨c, hc, hslash⟩ := getLast?_front hp hnil
    have hclosed : ¬ (p.front = "" ∨ p.front.endsWith "/" = true) := by
      rw [endsWith_iff]
      rintro (hempty | ⟨s, hs⟩)
      · exact front_ne_empty hp hnil hempty
      · rw [← hs, show "/".toList = ['/'] from rfl, List.getLast?_concat] at hc
        exact hslash (Option.some.inj hc).symm
    rw [front_child_eq_of_ne_nil hnil, Glob.join, if_neg (by simpa using hclosed)]

/-- The pieces that the start of a path is cut into. -/
def startPieces : PathStart → List String
  | .here => []
  | .root => [""]
  | .twoSlashes => ["", ""]

theorem splitString_front (hp : p.IsWritten) (hne : p.names ≠ []) :
    Text.splitString '/' p.front = startPieces p.start ++ p.names := by
  have hnames : (Text.splitOn '/' (text p.names)).map String.ofList = p.names := by
    rw [splitOn_text hne hp]
    simp
  have hslash : ∀ s, (Text.splitOn '/' ('/' :: s)).map String.ofList =
      "" :: (Text.splitOn '/' s).map String.ofList := by
    intro s
    rw [Text.splitOn, if_pos rfl]
    rfl
  rw [Text.splitString, toList_front]
  cases p.start with
  | here => exact hnames
  | root => exact (hslash _).trans (congrArg ("" :: ·) hnames)
  | twoSlashes =>
    exact (hslash _).trans (congrArg ("" :: ·) ((hslash _).trans (congrArg ("" :: ·) hnames)))

end Path

namespace Glob

variable {p : Path} {ns : List String}

theorem dropEmpty_eq_self (h : ∀ n ∈ ns, n ≠ "") : dropEmpty ns = ns := by
  induction ns with
  | nil => rfl
  | cons n ns ih =>
    obtain ⟨hn, hns⟩ := List.forall_mem_cons.mp h
    cases ns with
    | nil => rfl
    | cons m ns =>
      rw [dropEmpty, if_neg hn, ih hns]
      simp

theorem toList_join_slashes (hne : ns ≠ []) :
    (String.join (ns.map (· ++ "/"))).toList = Path.text ns ++ ['/'] := by
  induction ns with
  | nil => exact absurd rfl hne
  | cons n ns ih =>
    rw [List.map_cons, String.join_cons, String.toList_append, String.toList_append]
    cases ns with
    | nil => simp [Path.text_singleton]
    | cons m ns =>
      rw [ih (by simp), Path.text_cons_cons]
      simp

/-- The front part of a path is what is written before its patterns, without the slash at its
end. -/
theorem trimFront_join (hp : p.IsWritten) :
    trimFront (String.join ((Path.startPieces p.start ++ p.names).map (· ++ "/"))).toList =
      p.front.toList := by
  have hstart : (String.join ((Path.startPieces p.start).map (· ++ "/"))).toList =
      (Path.startText p.start).toList := by
    cases p.start <;> rfl
  rw [List.map_append, String.join_append, String.toList_append, hstart]
  by_cases hnil : p.names = []
  · rw [Path.toList_front, hnil]
    cases p.start <;> rfl
  · obtain ⟨c, hc, hslash⟩ := Path.getLast?_front hp hnil
    obtain ⟨s, hs⟩ := List.getLast?_eq_some_iff.mp hc
    rw [toList_join_slashes hnil, ← List.append_assoc, ← Path.toList_front, hs, trimFront, if_neg]
    · simp [Text.dropRightWhile, hslash]
    · simp [hslash]

/-- A written path is taken apart into the path of its first names, none of which is a pattern, and
the names after them. -/
theorem exists_ofString_front {f : Path} (hf : f.IsWritten) (hne : f.names ≠ []) :
    ∃ (p : Path) (ns : List String), f = p.below ns ∧ ofString f.front = ⟨p.front, ns⟩ := by
  obtain ⟨plain, hplain⟩ : ∃ plain, plain = fun n => !NamePattern.isMagic n := ⟨_, rfl⟩
  let p : Path := ⟨f.start, f.names.takeWhile plain⟩
  let ns := f.names.dropWhile plain
  have hsplit : f.names = p.names ++ ns := List.takeWhile_append_dropWhile.symm
  have hp : p.IsWritten := fun n hn => hf n (by rw [hsplit]; exact List.mem_append_left _ hn)
  have hns : ∀ n ∈ ns, n ≠ "" := fun n hn =>
    (hf n (by rw [hsplit]; exact List.mem_append_right _ hn)).ne_empty
  have hstart : ∀ n ∈ Path.startPieces f.start, plain n = true := by
    rw [hplain]
    cases f.start <;> decide
  have hfixed : (Path.startPieces f.start ++ f.names).takeWhile plain =
      Path.startPieces p.start ++ p.names := List.takeWhile_append_of_pos hstart
  refine ⟨p, ns, by rw [Path.below, ← hsplit], ?_⟩
  have hafter : (Path.startPieces f.start ++ f.names).drop
      (Path.startPieces p.start ++ p.names).length = ns := by
    rw [hsplit, ← List.append_assoc]
    exact List.drop_left
  rw [ofString, Path.splitString_front hf hne]
  simp only [← hplain, hfixed, hafter, trimFront_join hp, dropEmpty_eq_self hns, String.ofList_toList]

end Glob

/-! ## Section 3: Paths that fit themselves -/

namespace FileSystem

variable {fs : FileSystem} {p : Path} {t : Tree} {n : String} {ns : List String}

/-- A path that goes on leads to a directory. -/
theorem exists_find_of_below (h : fs.find (p.below ns) = .ok t) :
    ∃ u, fs.find p = .ok u ∧ (ns ≠ [] → u.isDirectory = true) := by
  rw [find_eq, placeAt_below] at h
  obtain ⟨place, hplace, -⟩ := map_eq_ok_iff.mp h
  obtain ⟨⟨u, around⟩, hu, hsteps⟩ := bind_eq_ok_iff.mp hplace
  refine ⟨u, by rw [find_eq, hu]; rfl, fun hne => ?_⟩
  obtain ⟨m, ms, rfl⟩ := List.exists_cons_of_ne_nil hne
  cases u with
  | file bytes => cases hsteps
  | directory es => rfl

/-- What is found on the way suits a pattern before further names: they ask for a directory. -/
theorem exists_find_of_child_below (h : fs.find ((p.child n).below ns) = .ok t) :
    ∃ u, fs.find (p.child n) = .ok u ∧ (!(!ns.isEmpty) || u.isDirectory) = true := by
  obtain ⟨u, hu, hdirectory⟩ := exists_find_of_below h
  refine ⟨u, hu, ?_⟩
  cases ns with
  | nil => rfl
  | cons m ns => exact hdirectory (by simp)

/-- An empty name stays at the root. -/
theorem locate_empty (h : fs.root.isDirectory = true) (names : List String) :
    fs.locate true ("" :: names) = fs.locate true names := by
  have hstep : step (fs.root, []) "" = .ok (fs.root, []) := by
    cases hroot : fs.root with
    | file bytes => simp [hroot, Tree.isDirectory] at h
    | directory es => simp [step]
  simp only [locate, if_true, List.foldlM_cons, hstep, ok_bind]

/-- What is written of a path leads to what the path leads to. -/
theorem atText_front (hp : p.IsWritten) (h : p.start ≠ .here → fs.root.isDirectory = true) :
    fs.atText p.front = fs.find p := by
  by_cases hnil : p.names = []
  · -- Only slashes are written, or nothing.
    obtain ⟨start, names⟩ := p
    obtain rfl : names = [] := hnil
    cases start with
    | here => rfl
    | root =>
      have hroot := h nofun
      exact (locate_empty hroot [""]).trans (locate_empty hroot [])
    | twoSlashes =>
      have hroot := h nofun
      exact (locate_empty hroot ["", ""]).trans
        ((locate_empty hroot [""]).trans (locate_empty hroot []))
  · obtain ⟨m, ms, hms⟩ := List.exists_cons_of_ne_nil hnil
    obtain ⟨c, s, hc, hslash⟩ := Path.exists_text_eq ms (hp m (by simp [hms]))
    -- The first character says whether the way starts at the root.
    rw [atText, if_neg (Path.front_ne_empty hp hnil), Path.splitString_front hp hnil,
      Path.toList_front, hms, hc, ← hms, find, Path.isAbsolute]
    cases hstart : p.start with
    | here => simp [Path.startText, Path.startPieces, beq_false_of_ne hslash]
    | root =>
      have hroot := h (by simp [hstart])
      exact locate_empty hroot p.names
    | twoSlashes =>
      have hroot := h (by simp [hstart])
      exact (locate_empty hroot _).trans (locate_empty hroot p.names)

/-- If a path leads through the root, that is a directory. -/
theorem isDirectory_root (h : fs.find p = .ok t) (hne : p.names ≠ []) (hstart : p.start ≠ .here) :
    fs.root.isDirectory = true := by
  have hbelow : fs.find (Path.below ⟨p.start, []⟩ p.names) = .ok t := h
  obtain ⟨u, hu, hdirectory⟩ := exists_find_of_below hbelow
  have hroot : fs.find ⟨p.start, []⟩ = .ok fs.root := by
    cases hp : p.start with
    | here => exact absurd hp hstart
    | root => rfl
    | twoSlashes => rfl
  obtain rfl := Except.ok.inj (hroot.symm.trans hu)
  exact hdirectory hne

section Names

variable (hroot : fs.root.Proper) (hdir : p.start ≠ .here → fs.root.isDirectory = true)
  (hp : p.IsWritten)

section OneName

variable (hn : Path.IsPiece n) (hfind : fs.find (p.child n) = .ok t)

include hroot hn hfind

/-- A pattern looks for entries, and a name that leads somewhere and looks like a pattern is that of
an entry. -/
theorem exists_entry_of_isMagic (hmagic : NamePattern.isMagic n = true) :
    ∃ es, fs.find p = .ok (.directory es) ∧ (n, t) ∈ es ∧ (es.map (·.1)).Nodup := by
  have hname : Path.IsEntryName n := by
    refine ⟨hn, ?_⟩
    rintro rfl
    revert hmagic
    decide
  have hbelow : fs.find (p.below [n]) = .ok t := hfind
  obtain ⟨u, hu, hdirectory⟩ := exists_find_of_below hbelow
  have hleads := (find_below_eq_ok_iff hroot hu (by simpa using hname)).mp hbelow
  cases proper_of_find hroot hu with
  | file bytes => cases hdirectory (by simp)
  | @directory es distinct _ _ =>
    obtain ⟨s, hmem, hs⟩ := Tree.leads_cons_iff.mp hleads
    obtain rfl := Tree.leads_nil_iff.mp hs
    exact ⟨es, hu, hmem, distinct⟩

variable {directories : Bool} (hkept : (!directories || t.isDirectory) = true)

include hdir hp hkept

/-- A name that fits itself continues a path on which it leads somewhere. -/
theorem mem_continuations_self (hself : NamePattern.FitsItself n) :
    n ∈ fs.continuations directories n p.front := by
  rw [continuations, Path.join_front hp, atText_front hp hdir,
    atText_front (hp.child hn) hdir, hfind]
  by_cases hdeep : n = Glob.deep
  · -- Two stars find every entry that is not hidden, so also one of this name.
    obtain ⟨es, hes, hmem, -⟩ := exists_entry_of_isMagic hroot hn hfind (by rw [hdeep]; decide)
    have hshown : ¬ ((directories && !t.isDirectory) || n.toList.head? == some '.') = true := by
      have hpoint : (n.toList.head? == some '.') = false := by rw [hdeep]; decide
      rw [hpoint, Bool.or_false]
      cases directories with
      | false => simp
      | true => simpa using hkept
    rw [if_pos hdeep, hes]
    refine List.mem_cons_of_mem _ ?_
    rw [belowEntries_eq_flatMap, List.mem_flatMap]
    refine ⟨(n, t), hmem, ?_⟩
    rw [if_neg hshown]
    exact List.mem_cons_self
  rw [if_neg hdeep]
  by_cases hmagic : NamePattern.isMagic n = true
  · obtain ⟨es, hes, hmem, -⟩ := exists_entry_of_isMagic hroot hn hfind hmagic
    rw [if_pos hmagic, hes]
    refine List.mem_map.mpr ⟨(n, t), List.mem_filter.mpr ⟨hmem, ?_⟩, rfl⟩
    rw [hself hmagic, hkept]
    rfl
  · rw [if_neg hmagic, if_neg hn.ne_empty]
    exact List.mem_singleton_self n

/-- A name that alone fits itself is the only continuation of a path on which it leads
somewhere. -/
theorem continuations_eq_singleton (hself : NamePattern.FitsOnlyItself n) :
    fs.continuations directories n p.front = [n] := by
  have hmem := mem_continuations_self hroot hdir hp hn hfind hkept hself.fitsItself
  rw [continuations, if_neg hself.ne_deep, atText_front hp hdir] at hmem ⊢
  by_cases hmagic : NamePattern.isMagic n = true
  · obtain ⟨es, hes, -, hnodup⟩ := exists_entry_of_isMagic hroot hn hfind hmagic
    rw [if_pos hmagic, hes] at hmem ⊢
    simp only [Except.toOption] at hmem ⊢
    -- No entry of another name fits, and no two entries share a name.
    refine List.perm_singleton.mp ((List.perm_ext_iff_of_nodup
      (hnodup.sublist (List.filter_sublist.map _)) (List.pairwise_singleton _ n)).mpr fun m => ?_)
    rw [List.mem_singleton]
    constructor
    · intro hm
      obtain ⟨e, he, rfl⟩ := List.mem_map.mp hm
      have hfits := (Bool.and_eq_true_iff.mp (List.mem_filter.mp he).2).2
      exact (hself hmagic e.1).mp hfits
    · rintro rfl
      exact hmem
  · rw [if_neg hmagic, if_neg hn.ne_empty, Path.join_front hp, atText_front (hp.child hn) hdir,
      hfind]

end OneName

variable (hns : ∀ n ∈ ns, Path.IsPiece n) (hfind : fs.find (p.below ns) = .ok t)

include hroot hdir hp hns hfind

/-- A path whose names fit themselves is among the paths that fit its names. -/
theorem front_mem_expandNames (hself : ∀ n ∈ ns, NamePattern.FitsItself n) {paths : List String}
    (hpaths : p.front ∈ paths) : (p.below ns).front ∈ fs.expandNames ns paths := by
  induction ns generalizing p paths with
  | nil => rwa [Path.below_nil]
  | cons n ns ih =>
    obtain ⟨hn, hns⟩ := List.forall_mem_cons.mp hns
    obtain ⟨hfits, hself⟩ := List.forall_mem_cons.mp hself
    rw [← Path.child_below] at hfind ⊢
    obtain ⟨u, hu, hkept⟩ := exists_find_of_child_below hfind
    have hcontinues := mem_continuations_self hroot hdir hp hn hu hkept hfits
    refine ih (p := p.child n) hdir (hp.child hn) hns hfind hself ?_
    rw [← Path.join_front hp]
    exact List.mem_flatMap.mpr ⟨_, hpaths, List.mem_map.mpr ⟨n, hcontinues, rfl⟩⟩

/-- A path whose names alone fit themselves is the only one that fits its names. -/
theorem expandNames_front_eq (hself : ∀ n ∈ ns, NamePattern.FitsOnlyItself n) :
    fs.expandNames ns [p.front] = [(p.below ns).front] := by
  induction ns generalizing p with
  | nil => rw [Path.below_nil, expandNames]
  | cons n ns ih =>
    obtain ⟨hn, hns⟩ := List.forall_mem_cons.mp hns
    obtain ⟨hfits, hself⟩ := List.forall_mem_cons.mp hself
    rw [← Path.child_below] at hfind ⊢
    obtain ⟨u, hu, hkept⟩ := exists_find_of_child_below hfind
    have hcontinues := continuations_eq_singleton hroot hdir hp hn hu hkept hfits
    rw [expandNames, List.flatMap_singleton, hcontinues, List.map_singleton, Path.join_front hp]
    exact ih (p := p.child n) hdir (hp.child hn) hns hfind hself

end Names

/-- What is found for a pattern, the working directory aside. -/
theorem mem_expand_iff {pattern path : String} (hpath : path ≠ "") :
    path ∈ fs.expand pattern ↔
      path ∈ fs.expandNames (Glob.ofString pattern).names [(Glob.ofString pattern).front] := by
  rw [expand, List.mem_mergeSort]
  generalize fs.expandNames (Glob.ofString pattern).names [(Glob.ofString pattern).front] = found
  split
  · next h =>
    -- The working directory, which is left out, is not the path.
    rw [Bool.and_eq_true, beq_iff_eq] at h
    obtain ⟨found, rfl⟩ := List.head?_eq_some_iff.mp h.2
    simp [hpath]
  · rfl

section Found

variable {f : Path} (hroot : fs.root.Proper) (hf : f.IsWritten) (hne : f.names ≠ [])
  (hfind : fs.find f = .ok t)

include hroot hf hne hfind

/-- A path that leads to something is among the paths that fit its writing, if its names fit
themselves. -/
theorem display_mem_expand (hself : ∀ n ∈ f.names, NamePattern.FitsItself n) :
    f.display ∈ fs.expand f.display := by
  have hdir : f.start ≠ .here → fs.root.isDirectory = true := isDirectory_root hfind hne
  rw [Path.display_eq_front hne, mem_expand_iff (Path.front_ne_empty hf hne)]
  obtain ⟨p, ns, rfl, hglob⟩ := Glob.exists_ofString_front hf hne
  obtain ⟨hp, hns⟩ := List.forall_mem_append.mp hf
  have hfits := (List.forall_mem_append.mp hself).2
  rw [hglob]
  exact front_mem_expandNames (p := p) hroot hdir hp hns hfind hfits (List.mem_singleton_self _)

/-- It is the only one if nothing else fits its names. -/
theorem expand_display_eq (hself : ∀ n ∈ f.names, NamePattern.FitsOnlyItself n) :
    fs.expand f.display = [f.display] := by
  have hdir : f.start ≠ .here → fs.root.isDirectory = true := isDirectory_root hfind hne
  have hempty := Path.front_ne_empty hf hne
  rw [Path.display_eq_front hne]
  obtain ⟨p, ns, rfl, hglob⟩ := Glob.exists_ofString_front hf hne
  obtain ⟨hp, hns⟩ := List.forall_mem_append.mp hf
  have hfits := (List.forall_mem_append.mp hself).2
  have hfound := expandNames_front_eq (p := p) hroot hdir hp hns hfind hfits
  simp only [expand, hglob, hfound]
  rw [if_neg (by simp [hempty]), List.mergeSort_singleton]

end Found

end FileSystem

end TaggedComments
