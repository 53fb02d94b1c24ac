import Mathlib.Data.List.TakeWhile
import TaggedComments.Proofs.Files.Glob

/-!
# Paths in writing

A written path is read as the names between its slashes. Writing further names behind it goes on
from the path that it is read as, and following its pieces one by one leads where this path leads.
A written pattern begins with the writing of a path: that of its pieces before the first pattern.

- `Path.ofString_join` says what is read when a name is written behind a path.
- `FileSystem.atText_eq_ok_iff` says where a written path leads.
- `Glob.exists_pieces` takes a pattern apart; `Glob.start_front` and `Glob.mem_of_mem_names_front`
  describe the path of its front part, `Glob.mem_of_mem_names` the names after it.
-/

namespace TaggedComments

/-! ## Section 1: Paths in writing -/

namespace Path

/-- A slash in front is all that takes a written path to the root. -/
theorem startOf_eq_here_iff {s : List Char} : startOf s = .here ↔ s.head? ≠ some '/' := by
  fun_cases startOf s with
  | case1 | case2 | case3 => simp
  | case4 s _ _ hslash =>
    simp only [true_iff]
    intro h
    obtain ⟨t, rfl⟩ := List.head?_eq_some_iff.mp h
    exact hslash t rfl

theorem startOf_of_ne {c : Char} (hc : c ≠ '/') (s : List Char) : startOf (c :: s) = .here :=
  startOf_eq_here_iff.mpr (by simpa using hc)

/-- What follows does not change where a written path starts, unless it continues slashes. -/
theorem startOf_append {s t : List Char} (hs : s ≠ [])
    (h : (∀ c ∈ s, c = '/') → t.head? ≠ some '/') : startOf (s ++ t) = startOf s := by
  -- One slash, two slashes and more than two are told apart, so three characters settle it.
  obtain ⟨a, s, rfl⟩ := List.exists_cons_of_ne_nil hs
  by_cases ha : a = '/'
  case neg => rw [List.cons_append, startOf_of_ne ha, startOf_of_ne ha]
  subst ha
  cases s with
  | nil =>
    have ht := h (by simp)
    cases t with
    | nil => rfl
    | cons c t => simp_all [startOf]
  | cons b s =>
    by_cases hb : b = '/'
    case neg => simp [startOf, hb]
    subst hb
    cases s with
    | nil =>
      have ht := h (by simp)
      cases t with
      | nil => rfl
      | cons c t => simp_all [startOf]
    | cons c s => by_cases hc : c = '/' <;> simp [startOf, hc]

/-- Two written paths with a slash between them have the pieces of both. -/
theorem splitString_append (s m : String) : Text.splitString '/' (s ++ "/" ++ m) =
    Text.splitString '/' s ++ Text.splitString '/' m := by
  have htext : (s ++ "/" ++ m).toList = s.toList ++ '/' :: m.toList := by simp
  simp only [Text.splitString, htext, Text.splitOn_append_sep, List.map_append]

/-- A path that ends with a slash has another path before the slash. -/
theorem exists_eq_append_slash {s : String} (h : s.endsWith "/" = true) :
    ∃ r : String, s = r ++ "/" := by
  obtain ⟨r, hr⟩ := endsWith_iff.mp h
  exact ⟨String.ofList r, by rw [← String.toList_inj, ← hr]; simp⟩

/-- What is written behind a path goes on from it, if it does not start with a slash. -/
theorem ofString_join (s : String) {m : String} (hm : m.toList.head? ≠ some '/') :
    ofString (Glob.join s m) =
      (ofString s).below ((Text.splitString '/' m).filter isName) := by
  by_cases hempty : s = ""
  · subst hempty
    have hstart : startOf m.toList = .here := startOf_eq_here_iff.mpr hm
    have hjoin : Glob.join "" m = m := by simp [Glob.join]
    rw [hjoin, ofString, hstart]
    rfl
  have hne : s.toList ≠ [] := mt String.toList_eq_nil_iff.mp hempty
  by_cases hslash : s.endsWith "/" = true
  · -- The slash at the end of the path is the one between both.
    have hjoin : Glob.join s m = s ++ m := by simp [Glob.join, hslash]
    have hstart : startOf (s ++ m).toList = startOf s.toList := by
      rw [String.toList_append]
      exact startOf_append hne fun _ => hm
    rw [hjoin, ofString, hstart, ofString, below]
    obtain ⟨r, rfl⟩ := exists_eq_append_slash hslash
    have hback : r ++ "/" = r ++ "/" ++ "" := by simp
    rw [splitString_append, List.filter_append, hback, splitString_append, List.filter_append]
    congr 2
    exact (List.append_nil _).symm
  · have hjoin : Glob.join s m = s ++ "/" ++ m := by simp [Glob.join, hslash, hempty]
    have hstart : startOf (s ++ "/" ++ m).toList = startOf s.toList := by
      rw [String.append_assoc, String.toList_append]
      refine startOf_append hne fun hall => absurd ?_ hslash
      rw [endsWith_iff]
      obtain ⟨t, c, ht⟩ := List.eq_nil_or_concat s.toList |>.resolve_left hne
      rw [List.concat_eq_append] at ht
      exact ⟨t, by rw [ht, hall c (by simp [ht])]; rfl⟩
    rw [hjoin, ofString, hstart, splitString_append, List.filter_append]
    rfl

theorem isAbsolute_ofString (s : String) :
    (ofString s).isAbsolute = (s.toList.head? == some '/') := by
  have hstart : (ofString s).isAbsolute = !decide (startOf s.toList = .here) := rfl
  rw [hstart, Bool.eq_iff_iff, Bool.not_eq_true', decide_eq_false_iff_not, startOf_eq_here_iff,
    beq_iff_eq, not_not]

end Path

namespace FileSystem

variable {fs : FileSystem} {t : Tree} {s n : String} {ns : List String}

theorem eq_of_not_isName (hn : Path.isName n = false) : n = "" ∨ n = "." := by
  simpa [Path.isName, or_iff_not_imp_left] using hn

/-- Pieces that are no names stay at a directory. -/
theorem step_of_not_isName (hn : Path.isName n = false) (place : Place) :
    step place n = if place.1.isDirectory then .ok place else .error .throughFile := by
  have hstay := eq_of_not_isName hn
  obtain ⟨t, around⟩ := place
  cases t with
  | file bytes => rfl
  | directory es => simp [step, hstay, Tree.isDirectory]

theorem foldlM_step_file {bytes : List Nat} {around : List Tree} {next : Place}
    (h : ns.foldlM step (.file bytes, around) = .ok next) : ns = [] ∧ next = (.file bytes, around) := by
  cases ns with
  | nil =>
    cases h
    exact ⟨rfl, rfl⟩
  | cons n ns => cases h

/-- Such pieces can be left out, but at the end of the way they ask for a directory. -/
theorem foldlM_step_eq_ok_iff {place next : Place} :
    ns.foldlM step place = .ok next ↔ (ns.filter Path.isName).foldlM step place = .ok next
      ∧ ∀ n, ns.getLast? = some n → Path.isName n = false → next.1.isDirectory = true := by
  induction ns generalizing place with
  | nil => simp
  | cons n ns ih =>
    have hlast : (n :: ns).getLast? = some (ns.getLast?.getD n) := List.getLast?_cons
    simp only [hlast]
    cases hn : Path.isName n with
    | true =>
      -- The rest of the way ends like the whole, as this piece is a name.
      have hend : (∀ k, some (ns.getLast?.getD n) = some k → Path.isName k = false →
          next.1.isDirectory = true) ↔ ∀ k, ns.getLast? = some k → Path.isName k = false →
          next.1.isDirectory = true := by
        cases ns.getLast? <;> simp [hn]
      rw [List.filter_cons_of_pos hn, List.foldlM_cons, List.foldlM_cons, hend]
      simp only [bind_eq_ok_iff, ih, ← and_assoc, exists_and_right]
    | false =>
      rw [List.filter_cons_of_neg (by simp [hn]), List.foldlM_cons, step_of_not_isName hn]
      cases hplace : place.1.isDirectory with
      | true =>
        rw [if_pos rfl, ok_bind, ih]
        apply and_congr_right
        intro hnext
        cases hrest : ns.getLast? with
        | some k => simp
        | none =>
          obtain rfl := List.getLast?_eq_none_iff.mp hrest
          cases hnext
          simp [hplace]
      | false =>
        -- From a file nothing leads on.
        obtain ⟨t, around⟩ := place
        cases t with
        | directory es => cases hplace
        | file bytes =>
          constructor
          · intro h
            cases h
          · rintro ⟨hnext, hdirectory⟩
            obtain ⟨hnil, rfl⟩ := foldlM_step_file hnext
            have hnone : ∀ k ∈ ns, Path.isName k = false := by
              simpa [List.filter_eq_nil_iff] using hnil
            have hend : Path.isName (ns.getLast?.getD n) = false := by
              cases hrest : ns.getLast? with
              | none => exact hn
              | some k => exact hnone k (List.mem_of_getLast? hrest)
            cases hdirectory _ rfl hend

theorem locate_eq_ok_iff {absolute : Bool} : fs.locate absolute ns = .ok t ↔ ∃ start,
    (if absolute then .ok (fs.root, []) else fs.workingPlace) = .ok start
      ∧ ∃ place, ns.foldlM step start = .ok place ∧ place.1 = t := by
  have hsteps : ∀ start : Place, (do let place ← ns.foldlM step start; return place.1) = .ok t ↔
      ∃ place, ns.foldlM step start = .ok place ∧ place.1 = t := by
    intro start
    simp [bind_eq_ok_iff, pure, Except.pure]
  rw [locate]
  cases absolute with
  | true => simp only [if_true, ok_bind, hsteps, Except.ok.injEq, exists_eq_left']
  | false => simp only [Bool.false_eq_true, if_false, bind_eq_ok_iff, hsteps]

/-- A written path leads where it leads as a path, and to a directory if it does not end with a
name. -/
theorem atText_eq_ok_iff (hs : s ≠ "") : fs.atText s = .ok t ↔ fs.find (Path.ofString s) = .ok t
    ∧ ∀ n, (Text.splitString '/' s).getLast? = some n → Path.isName n = false →
      t.isDirectory = true := by
  rw [atText, if_neg hs, find, Path.isAbsolute_ofString, locate_eq_ok_iff, locate_eq_ok_iff]
  constructor
  · rintro ⟨start, hstart, place, hplace, rfl⟩
    obtain ⟨hnames, hlast⟩ := foldlM_step_eq_ok_iff.mp hplace
    exact ⟨⟨start, hstart, place, hnames, rfl⟩, hlast⟩
  · rintro ⟨⟨start, hstart, place, hnames, rfl⟩, hlast⟩
    exact ⟨start, hstart, place, foldlM_step_eq_ok_iff.mpr ⟨hnames, hlast⟩, rfl⟩

/-- Where a directory is, both are the same. -/
theorem atText_eq_ok_directory_iff {es : List (String × Tree)} :
    fs.atText s = .ok (.directory es) ↔ fs.find (Path.ofString s) = .ok (.directory es) := by
  by_cases hs : s = ""
  · subst hs
    rfl
  · rw [atText_eq_ok_iff hs]
    exact and_iff_left fun _ _ _ => rfl

end FileSystem

/-! ## Section 2: Patterns in writing -/

namespace Glob

variable {a : String}

/-- The slashes at the end of a front part are dropped from it. -/
theorem exists_trimFront (s : List Char) : trimFront s = s ∨
    ∃ t, s = trimFront s ++ t ∧ (∀ c ∈ t, c = '/') ∧ ∃ c ∈ trimFront s, c ≠ '/' := by
  rw [trimFront]
  split
  · exact .inl rfl
  · next hall =>
    have hback := Text.dropRightWhile_append (· == '/') s
    have hslashes : ∀ c ∈ (s.reverse.takeWhile (· == '/')).reverse, c = '/' := by
      intro c hc
      simpa using List.mem_takeWhile_imp (List.mem_reverse.mp hc)
    refine .inr ⟨_, hback.symm, hslashes, ?_⟩
    by_contra hnone
    push Not at hnone
    refine hall (List.all_eq_true.mpr fun c hc => beq_iff_eq.mpr ?_)
    rw [← hback] at hc
    exact (List.mem_append.mp hc).elim (hnone c) (hslashes c)

theorem startOf_trimFront (s : List Char) : Path.startOf (trimFront s) = Path.startOf s := by
  rcases exists_trimFront s with h | ⟨t, ht, -, c, hc, hne⟩
  · rw [h]
  · conv_rhs => rw [ht]
    exact (Path.startOf_append (List.ne_nil_of_mem hc) fun hall => absurd (hall c hc) hne).symm

theorem trimFront_eq_nil_iff {s : List Char} : trimFront s = [] ↔ s = [] := by
  constructor
  · intro hnil
    rcases exists_trimFront s with h | ⟨t, -, -, c, hc, -⟩
    · rw [← h, hnil]
    · simp [hnil] at hc
  · rintro rfl
    rfl

/-- A pattern is taken apart at its first piece with a pattern. -/
theorem exists_pieces (h : NamePattern.isMagic a = true) : ∃ fixed n more,
    Text.splitString '/' a = fixed ++ n :: more ∧ NamePattern.isMagic n = true
      ∧ (ofString a).front = String.ofList (trimFront (String.join (fixed.map (· ++ "/"))).toList)
      ∧ (ofString a).names = n :: dropEmpty more := by
  obtain ⟨plain, hplain⟩ : ∃ plain, plain = fun n => !NamePattern.isMagic n := ⟨_, rfl⟩
  -- No slash makes a pattern, so what does lies in one of the pieces.
  have hsome : ∃ n ∈ Text.splitString '/' a, plain n = false := by
    obtain ⟨c, hc, hmagic⟩ := List.any_eq_true.mp h
    have hslash : c ≠ '/' := by
      rintro rfl
      revert hmagic
      decide
    obtain ⟨piece, hpiece, hmem⟩ := Text.exists_mem_splitOn hc hslash
    refine ⟨String.ofList piece, List.mem_map.mpr ⟨piece, hpiece, rfl⟩, ?_⟩
    rw [hplain, Bool.not_eq_false']
    exact List.any_eq_true.mpr ⟨c, by rwa [String.toList_ofList], hmagic⟩
  generalize hpieces : Text.splitString '/' a = pieces at hsome
  have hsplit : pieces.takeWhile plain ++ pieces.dropWhile plain = pieces :=
    List.takeWhile_append_dropWhile
  have hdrop : pieces.drop (pieces.takeWhile plain).length = pieces.dropWhile plain :=
    (congrArg (List.drop _) hsplit.symm).trans List.drop_left
  cases hafter : pieces.dropWhile plain with
  | nil =>
    obtain ⟨n, hn, hplain⟩ := hsome
    rw [hafter, List.append_nil] at hsplit
    rw [← hsplit] at hn
    simp [List.mem_takeWhile_imp hn] at hplain
  | cons n more =>
    have hfirst := List.head?_dropWhile_not plain pieces
    simp only [hafter, List.head?_cons] at hfirst
    have hmagic : NamePattern.isMagic n = true := by simpa [hplain] using hfirst
    have hne : n ≠ "" := by
      rintro rfl
      exact absurd hmagic (by decide)
    have hnames : dropEmpty (n :: more) = n :: dropEmpty more := by
      cases more with
      | nil => rfl
      | cons m more =>
        rw [dropEmpty, if_neg hne]
        simp
    refine ⟨pieces.takeWhile plain, n, more, by rw [← hafter, hsplit], hmagic, ?_, ?_⟩
    · simp only [ofString, hpieces, ← hplain]
    · simp only [ofString, hpieces, ← hplain, hdrop, hafter, hnames]

/-- A piece that is empty is no name, so slashes at the end of a path add none. -/
theorem filter_splitOn_slashes {t : List Char} (ht : ∀ c ∈ t, c = '/') (s : List Char) :
    ((Text.splitOn '/' (s ++ t)).map String.ofList).filter Path.isName =
      ((Text.splitOn '/' s).map String.ofList).filter Path.isName := by
  induction t generalizing s with
  | nil => rw [List.append_nil]
  | cons c t ih =>
    obtain ⟨rfl, hrest⟩ := List.forall_mem_cons.mp ht
    rw [← List.singleton_append, ← List.append_assoc, ih hrest, Text.splitOn_append_sep]
    simp [Text.splitOn, Path.isName]

variable {fixed : List String} {n : String} {more : List String}

/-- A text whose pieces are known begins with the first ones, each with a slash behind it. -/
theorem toList_eq_of_pieces (h : Text.splitString '/' a = fixed ++ n :: more) :
    a.toList = (String.join (fixed.map (· ++ "/"))).toList ++ Path.text (n :: more) := by
  have hback := Text.joinWith_splitOn '/' a.toList
  have hpieces : Text.splitOn '/' a.toList = (fixed ++ n :: more).map String.toList := by
    rw [← h, Text.splitString, List.map_map]
    simp
  rw [← hback, hpieces]
  by_cases hfixed : fixed = []
  · rw [hfixed]
    rfl
  · rw [toList_join_slashes hfixed, List.append_assoc, List.singleton_append]
    exact Path.text_append hfixed (by simp)

theorem isPiece_of_isMagic (hn : n ∈ Text.splitString '/' a) (h : NamePattern.isMagic n = true) :
    Path.IsPiece n := by
  refine ⟨?_, Text.not_mem_of_mem_splitString hn⟩
  by_contra hname
  obtain rfl | rfl := FileSystem.eq_of_not_isName (Bool.not_eq_true _ ▸ hname)
  · exact absurd h (by decide)
  · exact absurd h (by decide)

/-- The front part of a pattern starts where the pattern starts. -/
theorem start_front (h : NamePattern.isMagic a = true) :
    (Path.ofString (ofString a).front).start = (Path.ofString a).start := by
  obtain ⟨fixed, n, more, hpieces, hmagic, hfront, -⟩ := exists_pieces h
  have hn : Path.IsPiece n := isPiece_of_isMagic (a := a) (by simp [hpieces]) hmagic
  obtain ⟨c, t, hc, hne⟩ := Path.exists_text_eq more hn
  have htext := toList_eq_of_pieces hpieces
  rw [hc] at htext
  rw [Path.ofString, Path.ofString, hfront, String.toList_ofList, startOf_trimFront, htext]
  generalize (String.join (fixed.map (· ++ "/"))).toList = front
  cases front with
  | nil => exact (Path.startOf_of_ne hne t).symm
  | cons d s =>
    -- Behind the front part stands a name, so the slashes in front end with it.
    refine (Path.startOf_append (List.cons_ne_nil d s) fun _ => ?_).symm
    simpa using hne

/-- The names of the front part are the first names of the pattern. -/
theorem mem_of_mem_names_front (h : NamePattern.isMagic a = true) {m : String}
    (hm : m ∈ (Path.ofString (ofString a).front).names) : m ∈ Text.splitString '/' a := by
  obtain ⟨fixed, n, more, hpieces, -, hfront, -⟩ := exists_pieces h
  have hslash : ∀ piece ∈ fixed.map String.toList, '/' ∉ piece := by
    intro piece hpiece
    obtain ⟨k, hk, rfl⟩ := List.mem_map.mp hpiece
    exact Text.not_mem_of_mem_splitString (s := a) (by simp [hpieces, hk])
  have hback : (fixed.map String.toList).map String.ofList = fixed := by simp
  have hnames : (Path.ofString (ofString a).front).names = fixed.filter Path.isName := by
    rw [Path.ofString, Text.splitString, hfront, String.toList_ofList]
    by_cases hfixed : fixed = []
    · rw [hfixed]
      rfl
    calc ((Text.splitOn '/' (trimFront (String.join (fixed.map (· ++ "/"))).toList)).map
          String.ofList).filter Path.isName
        = ((Text.splitOn '/' (String.join (fixed.map (· ++ "/"))).toList).map
          String.ofList).filter Path.isName := by
          rcases exists_trimFront (String.join (fixed.map (· ++ "/"))).toList with
            htrim | ⟨t, ht, hslashes, -⟩
          · rw [htrim]
          · conv_rhs => rw [ht]
            exact (filter_splitOn_slashes hslashes _).symm
      _ = ((Text.splitOn '/' (Path.text fixed)).map String.ofList).filter Path.isName := by
          rw [toList_join_slashes hfixed]
          exact filter_splitOn_slashes (by simp) _
      _ = fixed.filter Path.isName := by
          rw [Path.text, Text.splitOn_joinWith (by simpa using hfixed) hslash, hback]
  rw [hnames] at hm
  rw [hpieces]
  exact List.mem_append_left _ (List.mem_filter.mp hm).1

theorem mem_of_mem_dropEmpty {ns : List String} {m : String} (h : m ∈ dropEmpty ns) : m ∈ ns := by
  fun_induction dropEmpty ns with
  | case1 => exact h
  | case2 n => exact h
  | case3 ns hne ih => exact List.mem_cons_of_mem _ (ih h)
  | case4 n ns hne hn ih =>
    rcases List.mem_cons.mp h with rfl | h
    · exact List.mem_cons_self
    · exact List.mem_cons_of_mem n (ih h)

/-- Only the last of the names may be empty. -/
theorem ne_empty_of_mem_dropEmpty {ns : List String} {m : String}
    (h : m ∈ (dropEmpty ns).dropLast) : m ≠ "" := by
  fun_induction dropEmpty ns with
  | case1 => cases h
  | case2 n => cases h
  | case3 ns hne ih => exact ih h
  | case4 n ns hne hn ih =>
    cases hrest : dropEmpty ns with
    | nil => simp [hrest] at h
    | cons k ks =>
      rw [hrest] at h ih
      rcases List.mem_cons.mp h with rfl | h
      · exact hn
      · exact ih h

theorem mem_of_mem_names (h : NamePattern.isMagic a = true) {m : String}
    (hm : m ∈ (ofString a).names) : m ∈ Text.splitString '/' a := by
  obtain ⟨fixed, n, more, hpieces, -, -, hnames⟩ := exists_pieces h
  rw [hnames] at hm
  rw [hpieces]
  refine List.mem_append_right fixed ?_
  rcases List.mem_cons.mp hm with rfl | hm
  · exact List.mem_cons_self
  · exact List.mem_cons_of_mem n (mem_of_mem_dropEmpty hm)

end Glob

end TaggedComments
