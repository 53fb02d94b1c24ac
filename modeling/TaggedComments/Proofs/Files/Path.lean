import Mathlib.Data.List.Basic
import TaggedComments.Files.Path

/-!
# Names on the way

A path is written with slashes between its names, and what is read from a writing are names without
slashes. So a path that was read is the path that its writing is read as, and going down from a path
by further names appends them.

- `Path.IsPiece` are the names that may stand between slashes, `Path.IsEntryName` those of the
  entries of directories.
- `Path.IsWritten` says that a path is made of such names; `Path.ofString_display` says that its
  writing reads back.
- `Path.below` is the path of what names lead to from a path; `Path.normalize_of_forall` says that no
  step to the parent is carried out on a way down.
-/

namespace TaggedComments

namespace Path

/-! ## Section 1: Names -/

/-- A name that may stand between slashes: not empty, no single point and without a slash. -/
structure IsPiece (n : String) : Prop where
  /-- The name counts when a path is read. -/
  isName : isName n = true
  /-- No slash cuts the name. -/
  noSlash : '/' ∉ n.toList

/-- A name that an entry of a directory may have: two points are kept for the directory around. -/
structure IsEntryName (n : String) : Prop extends IsPiece n where
  /-- The name does not lead upward. -/
  ne_parent : n ≠ ".."

instance (n : String) : Decidable (IsPiece n) :=
  decidable_of_iff (isName n = true ∧ '/' ∉ n.toList)
    ⟨fun h => ⟨h.1, h.2⟩, fun h => ⟨h.isName, h.noSlash⟩⟩

instance (n : String) : Decidable (IsEntryName n) :=
  decidable_of_iff (IsPiece n ∧ n ≠ "..")
    ⟨fun h => ⟨h.1, h.2⟩, fun h => ⟨h.toIsPiece, h.ne_parent⟩⟩

theorem IsPiece.ne_empty {n : String} (h : IsPiece n) : n ≠ "" := by
  have hn := h.isName
  rintro rfl
  simp [Path.isName] at hn

theorem IsPiece.ne_point {n : String} (h : IsPiece n) : n ≠ "." := by
  have hn := h.isName
  rintro rfl
  simp [Path.isName] at hn

theorem IsPiece.exists_cons {n : String} (h : IsPiece n) :
    ∃ c s, n.toList = c :: s ∧ c ≠ '/' := by
  cases hn : n.toList with
  | nil => exact absurd (String.toList_eq_nil_iff.mp hn) h.ne_empty
  | cons c s =>
    refine ⟨c, s, rfl, ?_⟩
    rintro rfl
    exact h.noSlash (by simp [hn])

/-- A path that is made of names as they stand between slashes. -/
def IsWritten (p : Path) : Prop :=
  ∀ n ∈ p.names, IsPiece n

/-! ## Section 2: Writing and reading -/

/-- The names of a path with slashes between them. -/
def text (names : List String) : List Char :=
  Text.joinWith '/' (names.map String.toList)

theorem toList_intercalate_slash (names : List String) :
    ("/".intercalate names).toList = text names :=
  Text.toList_intercalate rfl names

theorem text_append {ns ms : List String} (hns : ns ≠ []) (hms : ms ≠ []) :
    text (ns ++ ms) = text ns ++ '/' :: text ms := by
  rw [text, List.map_append, Text.joinWith_append (by simpa using hns) (by simpa using hms)]
  rfl

/-- A text of names ends as the last one does. -/
theorem getLast?_text_concat (ns : List String) {n : String} (hn : IsPiece n) :
    (text (ns ++ [n])).getLast? = n.toList.getLast? := by
  obtain ⟨c, s, hc, -⟩ := hn.exists_cons
  cases ns with
  | nil => rfl
  | cons m ns =>
    have hone : text [n] = c :: s := hc
    rw [text_append (by simp) (by simp), List.getLast?_append, hone, hc, List.getLast?_cons_cons,
      List.getLast?_cons]
    rfl

/-- A text of names starts with the first one. -/
theorem exists_text_eq {n : String} (ns : List String) (hn : IsPiece n) :
    ∃ c s, text (n :: ns) = c :: s ∧ c ≠ '/' := by
  obtain ⟨c, s, hc, hne⟩ := hn.exists_cons
  cases ns with
  | nil => exact ⟨c, s, by simp [text, Text.joinWith, hc], hne⟩
  | cons m ns => exact ⟨c, _, by rw [text, List.map_cons, List.map_cons, Text.joinWith, hc]; rfl, hne⟩

/-- The text of names is cut into them. -/
theorem splitOn_text {names : List String} (hne : names ≠ []) (h : ∀ n ∈ names, IsPiece n) :
    Text.splitOn '/' (text names) = names.map String.toList := by
  apply Text.splitOn_joinWith (by simpa using hne)
  intro piece hpiece
  obtain ⟨n, hn, rfl⟩ := List.mem_map.mp hpiece
  exact (h n hn).noSlash

/-- Names are read back from their text. -/
theorem filter_splitString_text {names : List String} (h : ∀ n ∈ names, IsPiece n) :
    ((Text.splitOn '/' (text names)).map String.ofList).filter isName = names := by
  cases names with
  | nil => rfl
  | cons n ns =>
    have hback : ((n :: ns).map String.toList).map String.ofList = n :: ns := by
      simp
    rw [splitOn_text (by simp) h, hback, List.filter_eq_self]
    exact fun m hm => (h m hm).isName

theorem isWritten_ofString (s : String) : (ofString s).IsWritten := by
  intro n hn
  obtain ⟨hpiece, hname⟩ := List.mem_filter.mp hn
  exact ⟨hname, Text.not_mem_of_mem_splitString hpiece⟩

theorem toList_display {p : Path} (h : ¬ (p.start = .here ∧ p.names = [])) :
    p.display.toList = (startText p.start).toList ++ text p.names := by
  rw [display, if_neg h, String.toList_append, toList_intercalate_slash]

/-- Slashes at the start only add empty pieces. -/
theorem filter_splitOn_start (start : PathStart) (s : List Char) :
    ((Text.splitOn '/' ((startText start).toList ++ s)).map String.ofList).filter isName =
      ((Text.splitOn '/' s).map String.ofList).filter isName := by
  have hslash : ∀ s, ((Text.splitOn '/' ('/' :: s)).map String.ofList).filter isName =
      ((Text.splitOn '/' s).map String.ofList).filter isName := by
    intro s
    rw [Text.splitOn, if_pos rfl]
    rfl
  cases start with
  | here => rfl
  | root => exact hslash s
  | twoSlashes => exact (hslash _).trans (hslash s)

/-- The start of a path is read back before a character that is no slash. -/
theorem startOf_start (start : PathStart) {c : Char} (hc : c ≠ '/') (s : List Char) :
    startOf ((startText start).toList ++ c :: s) = start := by
  cases start with
  | here => simp [startText, startOf, hc]
  | root =>
    show startOf ('/' :: c :: s) = .root
    simp [startOf, hc]
  | twoSlashes =>
    show startOf ('/' :: '/' :: c :: s) = .twoSlashes
    simp [startOf, hc]

/-- The writing of a path reads back. -/
theorem ofString_display {p : Path} (h : p.IsWritten) : ofString p.display = p := by
  obtain ⟨start, names⟩ := p
  by_cases hpoint : start = .here ∧ names = []
  · obtain ⟨rfl, rfl⟩ := hpoint
    decide
  rw [ofString, Text.splitString, toList_display hpoint, filter_splitOn_start,
    filter_splitString_text h]
  congr 1
  cases names with
  | nil =>
    cases start with
    | here => exact absurd ⟨rfl, rfl⟩ hpoint
    | root => rfl
    | twoSlashes => rfl
  | cons n ns =>
    obtain ⟨c, s, hc, hne⟩ := exists_text_eq ns (h n (by simp))
    rw [hc]
    exact startOf_start start hne s

/-! ## Section 3: Going down -/

/-- The path of what names lead to from a path. -/
def below (p : Path) (names : List String) : Path :=
  { p with names := p.names ++ names }

@[simp] theorem start_below (p : Path) (ns : List String) : (p.below ns).start = p.start := rfl

@[simp] theorem names_below (p : Path) (ns : List String) : (p.below ns).names = p.names ++ ns := rfl

@[simp] theorem below_nil (p : Path) : p.below [] = p := by
  rw [below, List.append_nil]

@[simp] theorem child_below (p : Path) (n : String) (ns : List String) :
    (p.child n).below ns = p.below (n :: ns) := by
  rw [below, below, child, List.append_assoc, List.singleton_append]

theorem below_below (p : Path) (ns ms : List String) : (p.below ns).below ms = p.below (ns ++ ms) := by
  rw [below, below, below, List.append_assoc]

theorem below_injective (p : Path) {ns ms : List String} (h : p.below ns = p.below ms) :
    ns = ms :=
  List.append_cancel_left (Path.mk.inj h).2

theorem IsWritten.below {p : Path} (hp : p.IsWritten) {ns : List String}
    (hns : ∀ n ∈ ns, IsPiece n) : (p.below ns).IsWritten := by
  intro n hn
  exact (List.mem_append.mp hn).elim (hp n) (hns n)

theorem IsWritten.child {p : Path} (hp : p.IsWritten) {n : String} (hn : IsPiece n) :
    (p.child n).IsWritten :=
  hp.below (by simpa using hn)

/-- Carrying out the steps of several names is carrying them out one after the other. -/
theorem normalize_append (way ns ms : List String) :
    normalize way (ns ++ ms) = normalize (normalize way ns) ms :=
  List.foldl_append

/-- Names of entries are no steps to the parent. -/
theorem normalize_of_forall {ns : List String} (h : ∀ n ∈ ns, IsEntryName n) (way : List String) :
    normalize way ns = way ++ ns := by
  induction ns generalizing way with
  | nil => exact (List.append_nil way).symm
  | cons n ns ih =>
    obtain ⟨hn, hns⟩ := List.forall_mem_cons.mp h
    have hstep : normalize way (n :: ns) = normalize (way ++ [n]) ns := by
      rw [normalize, List.foldl_cons, if_neg hn.ne_parent]
      rfl
    rw [hstep, ih hns, List.append_assoc, List.singleton_append]

end Path

end TaggedComments
