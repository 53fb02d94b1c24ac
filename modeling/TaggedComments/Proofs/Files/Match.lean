import TaggedComments.Proofs.Files.Written

/-!
# What fits a pattern of paths

Patterns are written and expanded as texts, but what they find are paths: from the path of the front
part, each name of the pattern leads to what fits it, one name after the other. How the paths are
written on the way makes no difference, except that an empty path cannot be found.

- `Glob.Suits` says which names one name of a pattern may stand for.
- `FileSystem.FitsName` says what one name of a pattern leads to, `FileSystem.Fits` what all names
  do; `FileSystem.mem_continuations_iff` and `FileSystem.exists_mem_expandNames_iff` say that this is
  what is found.
- `FileSystem.Finds` is what a written pattern leads to, and `FileSystem.mem_map_expand_iff` says
  that its expansion consists of this.
-/

namespace TaggedComments

/-! ## Section 1: One name of a pattern -/

/-- Whether a name of a pattern may stand for a name on the way: a pattern for the name of an entry
that has its form, two stars for one that is not hidden, and any other name for itself. -/
def Glob.Suits (n m : String) : Prop :=
  if NamePattern.isMagic n then
    Path.IsEntryName m ∧
      if n = deep then m.toList.head? ≠ some '.' else NamePattern.accepts n m = true
  else m = n

namespace FileSystem

variable {fs : FileSystem} {p q : Path} {t u : Tree} {s n m : String} {ns ms : List String}

/-- The names on the way from a path to something that one name of a pattern leads to. Two stars lead
to everything whose way is not hidden, other patterns to the entries that have their form; before
further names they all look for directories only. A fixed name has to be there, and a piece that is
no name asks for a directory. -/
inductive FitsName (fs : FileSystem) (directories : Bool) (p : Path) :
    String → List String → Prop where
  | deep {es : List (String × Tree)} {ms : List String} {u : Tree}
      (hp : fs.find p = .ok (.directory es)) (hleads : Tree.Leads (.directory es) ms u)
      (hshown : ∀ m ∈ ms, m.toList.head? ≠ some '.')
      (hkind : ms ≠ [] → directories = true → u.isDirectory = true) :
      FitsName fs directories p Glob.deep ms
  | entry {es : List (String × Tree)} {n m : String} {u : Tree} (hn : n ≠ Glob.deep)
      (hmagic : NamePattern.isMagic n = true) (hp : fs.find p = .ok (.directory es))
      (hmem : (m, u) ∈ es) (haccepts : NamePattern.accepts n m = true)
      (hkind : directories = true → u.isDirectory = true) : FitsName fs directories p n [m]
  | fixed {n : String} {u : Tree} (hmagic : NamePattern.isMagic n = false)
      (hn : Path.isName n = true) (hfind : fs.find (p.child n) = .ok u) :
      FitsName fs directories p n [n]
  | stay {n : String} {es : List (String × Tree)} (hn : Path.isName n = false)
      (hp : fs.find p = .ok (.directory es)) : FitsName fs directories p n []

/-- What is written of these names: a name that is no pattern stays as it is. -/
def writing (n : String) (ms : List String) : String :=
  if NamePattern.isMagic n then "/".intercalate ms else n

theorem intercalate_cons (hms : ms ≠ []) (n : String) :
    "/".intercalate (n :: ms) = n ++ "/" ++ "/".intercalate ms := by
  obtain ⟨m, ms, rfl⟩ := List.exists_cons_of_ne_nil hms
  rw [← String.toList_inj, Path.toList_intercalate_slash, Path.text_cons_cons, String.toList_append,
    String.toList_append, Path.toList_intercalate_slash]
  simp

theorem intercalate_singleton (n : String) : "/".intercalate [n] = n := by
  rw [← String.toList_inj, Path.toList_intercalate_slash, Path.text_singleton]

/-- What is below a tree is what its names lead to, hidden names aside. -/
theorem mem_below_iff {directories : Bool} : s ∈ Glob.below directories t ↔
    ∃ ms u, ms ≠ [] ∧ t.Leads ms u ∧ (∀ m ∈ ms, m.toList.head? ≠ some '.')
      ∧ (directories = true → u.isDirectory = true) ∧ s = "/".intercalate ms := by
  induction t using Tree.induction generalizing s with
  | file bytes =>
    constructor
    · intro h
      cases h
    · rintro ⟨ms, u, hne, hleads, -⟩
      obtain ⟨m, ms, rfl⟩ := List.exists_cons_of_ne_nil hne
      exact absurd hleads Tree.not_leads_file
  | directory es ih =>
    rw [Glob.below, belowEntries_eq_flatMap]
    constructor
    · -- An entry that is not left out stands for itself and for what is below it.
      intro h
      obtain ⟨⟨n, t⟩, hmem, h⟩ := List.mem_flatMap.mp h
      split at h
      · cases h
      · next hkept =>
        simp only [Bool.or_eq_true, Bool.and_eq_true, Bool.not_eq_true', beq_iff_eq, not_or,
          not_and, Bool.not_eq_false] at hkept
        rcases List.mem_cons.mp h with rfl | h
        · exact ⟨[s], t, by simp, .down hmem (.here t), by simpa using hkept.2, hkept.1,
            (intercalate_singleton s).symm⟩
        · obtain ⟨s, hs, rfl⟩ := List.mem_map.mp h
          obtain ⟨ms, u, hne, hleads, hshown, hkind, rfl⟩ := (ih _ hmem).mp hs
          exact ⟨n :: ms, u, by simp, .down hmem hleads, by simpa using ⟨hkept.2, hshown⟩, hkind,
            (intercalate_cons hne n).symm⟩
    · rintro ⟨ms, u, hne, hleads, hshown, hkind, rfl⟩
      obtain ⟨n, ms, rfl⟩ := List.exists_cons_of_ne_nil hne
      obtain ⟨t, hmem, hleads⟩ := Tree.leads_cons_iff.mp hleads
      obtain ⟨hn, hshown⟩ := List.forall_mem_cons.mp hshown
      refine List.mem_flatMap.mpr ⟨(n, t), hmem, ?_⟩
      -- Only a directory has something below it, so the entry is not left out.
      have hdirectory : directories = true → t.isDirectory = true := by
        intro hdirectories
        cases ms with
        | nil =>
          rw [← Tree.leads_nil_iff.mp hleads]
          exact hkind hdirectories
        | cons m ms => exact hleads.isDirectory
      have hkept : ¬ ((directories && !t.isDirectory) || n.toList.head? == some '.') = true := by
        simp only [Bool.or_eq_true, Bool.and_eq_true, Bool.not_eq_true', beq_iff_eq, not_or,
          not_and, Bool.not_eq_false]
        exact ⟨hdirectory, hn⟩
      rw [if_neg hkept, List.mem_cons]
      by_cases hms : ms = []
      · subst hms
        exact .inl (intercalate_singleton n)
      · refine .inr (List.mem_map.mpr ⟨_, (ih _ hmem).mpr ⟨ms, u, hms, hleads, hshown, hkind, rfl⟩, ?_⟩)
        exact (intercalate_cons hms n).symm

section OneName

variable {directories : Bool}

theorem fitsName_deep_iff : fs.FitsName directories p Glob.deep ms ↔
    ∃ es u, fs.find p = .ok (.directory es) ∧ Tree.Leads (.directory es) ms u
      ∧ (∀ m ∈ ms, m.toList.head? ≠ some '.')
      ∧ (ms ≠ [] → directories = true → u.isDirectory = true) := by
  constructor
  · intro h
    cases h with
    | deep hp hleads hshown hkind => exact ⟨_, _, hp, hleads, hshown, hkind⟩
    | entry hn => exact absurd rfl hn
    | fixed hmagic => exact absurd hmagic (by decide)
    | stay hn => exact absurd hn (by decide)
  · rintro ⟨es, u, hp, hleads, hshown, hkind⟩
    exact .deep hp hleads hshown hkind

theorem fitsName_entry_iff (hn : n ≠ Glob.deep) (hmagic : NamePattern.isMagic n = true) :
    fs.FitsName directories p n ms ↔ ∃ es m u, fs.find p = .ok (.directory es) ∧ (m, u) ∈ es
      ∧ NamePattern.accepts n m = true ∧ (directories = true → u.isDirectory = true)
      ∧ ms = [m] := by
  constructor
  · intro h
    cases h with
    | deep => exact absurd rfl hn
    | entry _ _ hp hmem haccepts hkind => exact ⟨_, _, _, hp, hmem, haccepts, hkind, rfl⟩
    | fixed hfixed => simp [hmagic] at hfixed
    | stay hname =>
      obtain rfl | rfl := eq_of_not_isName hname <;> exact absurd hmagic (by decide)
  · rintro ⟨es, m, u, hp, hmem, haccepts, hkind, rfl⟩
    exact .entry hn hmagic hp hmem haccepts hkind

theorem fitsName_fixed_iff (hmagic : NamePattern.isMagic n = false) (hn : Path.isName n = true) :
    fs.FitsName directories p n ms ↔ (∃ u, fs.find (p.child n) = .ok u) ∧ ms = [n] := by
  constructor
  · intro h
    cases h with
    | deep => exact absurd hmagic (by decide)
    | entry _ hpattern => simp [hmagic] at hpattern
    | fixed _ _ hfind => exact ⟨⟨_, hfind⟩, rfl⟩
    | stay hstay => simp [hn] at hstay
  · rintro ⟨⟨u, hfind⟩, rfl⟩
    exact .fixed hmagic hn hfind

theorem fitsName_stay_iff (hn : Path.isName n = false) : fs.FitsName directories p n ms ↔
    (∃ es, fs.find p = .ok (.directory es)) ∧ ms = [] := by
  have hmagic : NamePattern.isMagic n = false := by
    obtain rfl | rfl := eq_of_not_isName hn <;> decide
  constructor
  · intro h
    cases h with
    | deep => exact absurd hmagic (by decide)
    | entry _ hpattern => simp [hmagic] at hpattern
    | fixed _ hname => simp [hn] at hname
    | stay _ hp => exact ⟨⟨_, hp⟩, rfl⟩
  · rintro ⟨⟨es, hp⟩, rfl⟩
    exact .stay hn hp

/-- What entries of a directory give is given by the directory that is at the written path. -/
theorem mem_match_directory_iff {α : Type} {x : α} {f : List (String × Tree) → List α} :
    (x ∈ match (fs.atText s).toOption with
      | some (.directory es) => f es
      | _ => []) ↔ ∃ es, fs.find (Path.ofString s) = .ok (.directory es) ∧ x ∈ f es := by
  simp only [← atText_eq_ok_directory_iff]
  cases fs.atText s with
  | error e => simp [Except.toOption]
  | ok t => cases t <;> simp [Except.toOption]

/-- A fixed name is there if the path of it leads to something, and to a directory if the name only
asks for one. -/
theorem atText_join_eq_ok_iff (hn : '/' ∉ n.toList) (hne : n ≠ "") :
    fs.atText (Glob.join s n) = .ok t ↔
      fs.find ((Path.ofString s).below ([n].filter Path.isName)) = .ok t
        ∧ (Path.isName n = false → t.isDirectory = true) := by
  have hpieces : Text.splitString '/' n = [n] := Text.splitString_of_not_mem hn
  have hhead : n.toList.head? ≠ some '/' := fun h => hn (List.mem_of_head? h)
  have hlast : (Text.splitString '/' (Glob.join s n)).getLast? = some n := by
    have hend : ∀ r, (Text.splitString '/' (r ++ "/" ++ n)).getLast? = some n := by
      intro r
      rw [Path.splitString_append, hpieces, List.getLast?_concat]
    rw [Glob.join]
    split
    · next hopen =>
      by_cases hs : s = ""
      · rw [hs, String.empty_append, hpieces]
        rfl
      · obtain ⟨r, rfl⟩ := Path.exists_eq_append_slash (by simpa [hs] using hopen)
        exact hend r
    · exact hend s
  rw [atText_eq_ok_iff (mt join_eq_empty_iff.mp fun h => hne h.2), Path.ofString_join s hhead,
    hpieces, hlast]
  simp

theorem mem_continuations_deep_iff : m ∈ fs.continuations directories Glob.deep s ↔
    ∃ ms, fs.FitsName directories (Path.ofString s) Glob.deep ms ∧ m = "/".intercalate ms := by
  rw [continuations, if_pos rfl]
  refine mem_match_directory_iff.trans ?_
  simp only [fitsName_deep_iff]
  constructor
  · rintro ⟨es, hp, hm⟩
    rcases List.mem_cons.mp hm with rfl | hm
    · exact ⟨[], ⟨es, _, hp, .here _, by simp, by simp⟩, rfl⟩
    · have hbelow : m ∈ Glob.below directories (.directory es) := hm
      obtain ⟨ms, u, -, hleads, hshown, hkind, rfl⟩ := mem_below_iff.mp hbelow
      exact ⟨ms, ⟨es, u, hp, hleads, hshown, fun _ => hkind⟩, rfl⟩
  · rintro ⟨ms, ⟨es, u, hp, hleads, hshown, hkind⟩, rfl⟩
    refine ⟨es, hp, List.mem_cons.mpr ?_⟩
    by_cases hms : ms = []
    · subst hms
      exact .inl rfl
    · have hbelow : "/".intercalate ms ∈ Glob.below directories (.directory es) :=
        mem_below_iff.mpr ⟨ms, u, hms, hleads, hshown, hkind hms, rfl⟩
      exact .inr hbelow

theorem mem_continuations_entry_iff (hn : n ≠ Glob.deep) (hmagic : NamePattern.isMagic n = true) :
    m ∈ fs.continuations directories n s ↔
      fs.FitsName directories (Path.ofString s) n [m] := by
  rw [continuations, if_neg hn, if_pos hmagic]
  refine mem_match_directory_iff.trans ?_
  simp only [fitsName_entry_iff hn hmagic, List.mem_map, List.mem_filter, Bool.and_eq_true,
    Bool.or_eq_true, Bool.not_eq_true']
  constructor
  · rintro ⟨es, hp, ⟨m, u⟩, ⟨hmem, hkind, haccepts⟩, rfl⟩
    refine ⟨es, m, u, hp, hmem, haccepts, fun hdirectories => ?_, rfl⟩
    simpa [hdirectories] using hkind
  · rintro ⟨es, m', u, hp, hmem, haccepts, hkind, heq⟩
    obtain ⟨rfl, -⟩ := List.cons.inj heq
    refine ⟨es, hp, (m, u), ⟨hmem, ?_, haccepts⟩, rfl⟩
    cases directories with
    | false => exact .inl rfl
    | true => exact .inr (hkind rfl)

theorem mem_continuations_fixed_iff (hn : '/' ∉ n.toList) (hmagic : NamePattern.isMagic n = false) :
    m ∈ fs.continuations directories n s ↔ ((n = "" → s ≠ "")
      ∧ ∃ ms, fs.FitsName directories (Path.ofString s) n ms) ∧ m = n := by
  have hdeep : n ≠ Glob.deep := by
    rintro rfl
    exact absurd hmagic (by decide)
  rw [continuations, if_neg hdeep, if_neg (by simp [hmagic])]
  by_cases hempty : n = ""
  · subst hempty
    -- Nothing is written behind the path, and a path that is not written leads nowhere.
    simp only [fitsName_stay_iff (n := "") rfl, exists_eq_right, ← atText_eq_ok_directory_iff]
    cases fs.atText s with
    | error e => simp [Except.toOption]
    | ok t => cases t <;> simp [Except.toOption, Tree.isDirectory]
  · have hfits : (∃ u, fs.atText (Glob.join s n) = .ok u) ↔
        ∃ ms, fs.FitsName directories (Path.ofString s) n ms := by
      simp only [atText_join_eq_ok_iff hn hempty]
      cases hname : Path.isName n with
      | true =>
        simp only [fitsName_fixed_iff hmagic hname, exists_eq_right, List.filter_cons_of_pos hname]
        simp [Path.below, Path.child]
      | false =>
        rw [List.filter_cons_of_neg (by simp [hname])]
        simp only [fitsName_stay_iff hname, exists_eq_right, List.filter_nil, Path.below_nil]
        constructor
        · rintro ⟨u, hfind, hdirectory⟩
          cases u with
          | file bytes => cases hdirectory trivial
          | directory es => exact ⟨es, hfind⟩
        · rintro ⟨es, hfind⟩
          exact ⟨_, hfind, fun _ => rfl⟩
    rw [if_neg hempty, ← hfits]
    cases fs.atText (Glob.join s n) with
    | error e => simp
    | ok t => simp [hempty]

/-- **One name of a pattern.** What continues a written path is the writing of what fits the name
below the path. The empty name does not continue the empty path. -/
theorem mem_continuations_iff (hn : '/' ∉ n.toList) : m ∈ fs.continuations directories n s ↔
    (n = "" → s ≠ "") ∧
      ∃ ms, fs.FitsName directories (Path.ofString s) n ms ∧ m = writing n ms := by
  cases hmagic : NamePattern.isMagic n with
  | false =>
    simp only [mem_continuations_fixed_iff hn hmagic, writing, hmagic, Bool.false_eq_true, if_false,
      exists_and_right, and_assoc]
  | true =>
    have hne : n = "" → s ≠ "" := by
      rintro rfl
      exact absurd hmagic (by decide)
    have hwriting : ∀ ms, writing n ms = "/".intercalate ms := fun ms => if_pos hmagic
    rw [and_iff_right hne]
    simp only [hwriting]
    by_cases hdeep : n = Glob.deep
    · subst hdeep
      exact mem_continuations_deep_iff
    · rw [mem_continuations_entry_iff hdeep hmagic]
      constructor
      · intro h
        exact ⟨_, h, (intercalate_singleton m).symm⟩
      · rintro ⟨ms, h, rfl⟩
        obtain ⟨es, k, u, -, -, -, -, rfl⟩ := (fitsName_entry_iff hdeep hmagic).mp h
        rwa [intercalate_singleton]

end OneName

/-! ## Section 2: All names of a pattern -/

section Names

variable (hroot : fs.root.Proper) {directories : Bool}

include hroot

theorem FitsName.isPiece (h : fs.FitsName directories p n ms) (hn : '/' ∉ n.toList) :
    ∀ m ∈ ms, Path.IsPiece m := by
  cases h with
  | deep hp hleads =>
    exact fun m hm => (((proper_of_find hroot hp).leads hleads).2 m hm).toIsPiece
  | entry _ _ hp hmem =>
    have hnames := ((proper_of_find hroot hp).leads (.down hmem (.here _))).2
    exact fun m hm => (hnames m hm).toIsPiece
  | fixed _ hname => simpa using ⟨hname, hn⟩
  | stay => simp

/-- What is written of names is read as these names. -/
theorem FitsName.filter_splitString_writing (h : fs.FitsName directories p n ms)
    (hn : '/' ∉ n.toList) : (Text.splitString '/' (writing n ms)).filter Path.isName = ms := by
  have hpieces := h.isPiece hroot hn
  have hmany : NamePattern.isMagic n = true →
      (Text.splitString '/' (writing n ms)).filter Path.isName = ms := by
    intro hmagic
    rw [writing, if_pos hmagic, Text.splitString, Path.toList_intercalate_slash]
    exact Path.filter_splitString_text hpieces
  cases h with
  | deep => exact hmany (by decide)
  | entry _ hmagic => exact hmany hmagic
  | fixed hmagic hname =>
    rw [writing, if_neg (by simp [hmagic]), Text.splitString_of_not_mem hn,
      List.filter_cons_of_pos hname]
    rfl
  | stay hname =>
    obtain rfl | rfl := eq_of_not_isName hname <;> rfl

theorem FitsName.head?_writing (h : fs.FitsName directories p n ms) (hn : '/' ∉ n.toList) :
    (writing n ms).toList.head? ≠ some '/' := by
  have hpieces := h.isPiece hroot hn
  rw [writing]
  split
  · rw [Path.toList_intercalate_slash]
    cases ms with
    | nil => simp [Path.text, Text.joinWith]
    | cons m ms =>
      obtain ⟨c, t, hc, hne⟩ := Path.exists_text_eq ms (hpieces m (by simp))
      simp [hc, hne]
  · exact fun h => hn (List.mem_of_head? h)

/-- Nothing is written if the names stay where they are, a point aside. -/
theorem FitsName.writing_eq_empty_iff (h : fs.FitsName directories p n ms) (hn : '/' ∉ n.toList) :
    writing n ms = "" ↔ ms = [] ∧ n ≠ "." := by
  have hpieces := h.isPiece hroot hn
  have hmany : ms ≠ [] → "/".intercalate ms ≠ "" := by
    intro hne hempty
    obtain ⟨m, ms, rfl⟩ := List.exists_cons_of_ne_nil hne
    obtain ⟨c, t, hc, -⟩ := Path.exists_text_eq ms (hpieces m (by simp))
    rw [← String.toList_inj, Path.toList_intercalate_slash, hc] at hempty
    cases hempty
  cases h with
  | deep =>
    rw [writing, if_pos (by decide), and_iff_left (by decide)]
    constructor
    · exact not_imp_not.mp hmany
    · rintro rfl
      rfl
  | entry _ hmagic =>
    rw [writing, if_pos hmagic]
    simpa using hmany (by simp)
  | fixed hmagic hname =>
    rw [writing, if_neg (by simp [hmagic])]
    simpa using Path.IsPiece.ne_empty ⟨hname, hn⟩
  | stay hname =>
    obtain rfl | rfl := eq_of_not_isName hname <;> decide

/-- What is written of names behind a path is read as the path of what they lead to. -/
theorem FitsName.ofString_join (h : fs.FitsName directories (Path.ofString s) n ms)
    (hn : '/' ∉ n.toList) :
    Path.ofString (Glob.join s (writing n ms)) = (Path.ofString s).below ms := by
  rw [Path.ofString_join s (h.head?_writing hroot hn), h.filter_splitString_writing hroot hn]

end Names

/-- The names on the way from a path to something that the names of a pattern lead to, one after the
other. -/
inductive Fits (fs : FileSystem) : Path → List String → List String → Prop where
  | nil (p : Path) : Fits fs p [] []
  | cons {p : Path} {n : String} {ns ms ks : List String}
      (hname : fs.FitsName (!ns.isEmpty) p n ms) (hrest : Fits fs (p.below ms) ns ks) :
      Fits fs p (n :: ns) (ms ++ ks)

theorem fits_nil_iff {ks : List String} : fs.Fits p [] ks ↔ ks = [] := by
  constructor
  · rintro ⟨⟩
    rfl
  · rintro rfl
    exact .nil p

theorem fits_cons_iff {ks : List String} : fs.Fits p (n :: ns) ks ↔ ∃ ms, fs.FitsName (!ns.isEmpty) p n ms
    ∧ ∃ ls, fs.Fits (p.below ms) ns ls ∧ ks = ms ++ ls := by
  constructor
  · rintro (_ | ⟨hname, hrest⟩)
    exact ⟨_, hname, _, hrest, rfl⟩
  · rintro ⟨ms, hname, ls, hrest, rfl⟩
    exact .cons hname hrest

/-- A name of a pattern leads only through names that it may stand for. -/
theorem FitsName.suits (hroot : fs.root.Proper) {directories : Bool}
    (h : fs.FitsName directories p n ms) : ∀ m ∈ ms, Glob.Suits n m := by
  cases h with
  | deep hp hleads hshown =>
    intro m hm
    have hname := ((proper_of_find hroot hp).leads hleads).2 m hm
    rw [Glob.Suits, if_pos (by decide), if_pos rfl]
    exact ⟨hname, hshown m hm⟩
  | @entry es _ k _ hn hmagic hp hmem haccepts =>
    intro m hm
    obtain rfl := List.mem_singleton.mp hm
    have hname := ((proper_of_find hroot hp).leads (.down hmem (.here _))).2 m (by simp)
    rw [Glob.Suits, if_pos hmagic, if_neg hn]
    exact ⟨hname, haccepts⟩
  | fixed hmagic =>
    intro m hm
    rw [Glob.Suits, if_neg (by simp [hmagic])]
    exact List.mem_singleton.mp hm
  | stay => simp

theorem Fits.suits (hroot : fs.root.Proper) {ks : List String} (h : fs.Fits p ns ks) :
    ∀ k ∈ ks, ∃ n ∈ ns, Glob.Suits n k := by
  induction h with
  | nil => simp
  | cons hname _ ih =>
    intro k hk
    rcases List.mem_append.mp hk with hk | hk
    · exact ⟨_, List.mem_cons_self, hname.suits hroot k hk⟩
    · obtain ⟨n, hn, hsuits⟩ := ih k hk
      exact ⟨n, List.mem_cons_of_mem _ hn, hsuits⟩

/-- What fits names after several paths fits them after one of these. -/
theorem mem_expandNames_iff {paths : List String} :
    s ∈ fs.expandNames ns paths ↔ ∃ r ∈ paths, s ∈ fs.expandNames ns [r] := by
  induction ns generalizing paths with
  | nil => simp [expandNames]
  | cons n ns ih =>
    simp only [expandNames]
    rw [ih]
    constructor
    · rintro ⟨r, hr, hs⟩
      obtain ⟨r', hr', hr⟩ := List.mem_flatMap.mp hr
      exact ⟨r', hr', ih.mpr ⟨r, by simpa using hr, hs⟩⟩
    · rintro ⟨r', hr', hs⟩
      obtain ⟨r, hr, hs⟩ := ih.mp hs
      exact ⟨r, List.mem_flatMap.mpr ⟨r', hr', by simpa using hr⟩, hs⟩

theorem mem_expandNames_cons_iff : s ∈ fs.expandNames (n :: ns) [m] ↔
    ∃ k ∈ fs.continuations (!ns.isEmpty) n m, s ∈ fs.expandNames ns [Glob.join m k] := by
  rw [expandNames, mem_expandNames_iff, List.flatMap_singleton]
  simp only [List.mem_map, exists_exists_and_eq_and]

/-- **All names of a pattern.** The written paths that fit the names of a pattern after a path are
read as the paths of what these names lead to. Only the empty path stays out: it stands for the
working directory, to which a point leads as well. -/
theorem exists_mem_expandNames_iff (hroot : fs.root.Proper) (hslash : ∀ n ∈ ns, '/' ∉ n.toList)
    (hempty : ∀ n ∈ ns.dropLast, n ≠ "") :
    (∃ t ∈ fs.expandNames ns [s], t ≠ "" ∧ Path.ofString t = q) ↔
      ∃ ks, fs.Fits (Path.ofString s) ns ks ∧ (s = "" → ks = [] → "." ∈ ns)
        ∧ q = (Path.ofString s).below ks := by
  induction ns generalizing s with
  | nil =>
    simp only [expandNames, List.mem_singleton, exists_eq_left, fits_nil_iff, Path.below_nil]
    constructor
    · rintro ⟨hs, rfl⟩
      exact ⟨fun h => absurd h hs, rfl⟩
    · rintro ⟨hs, rfl⟩
      exact ⟨fun h => List.not_mem_nil (hs h trivial), rfl⟩
  | cons n ns ih =>
    obtain ⟨hn, hslash⟩ := List.forall_mem_cons.mp hslash
    have hfirst : ns ≠ [] → n ≠ "" := fun hne =>
      hempty n (by rw [List.dropLast_cons_of_ne_nil hne]; exact List.mem_cons_self)
    have hlater : ∀ m ∈ ns.dropLast, m ≠ "" := by
      intro m hm
      have hne : ns ≠ [] := by
        rintro rfl
        cases hm
      exact hempty m (by rw [List.dropLast_cons_of_ne_nil hne]; exact List.mem_cons_of_mem n hm)
    constructor
    · rintro ⟨t, ht, hne, rfl⟩
      obtain ⟨k, hk, ht⟩ := mem_expandNames_cons_iff.mp ht
      obtain ⟨-, ms, hname, rfl⟩ := (mem_continuations_iff hn).mp hk
      obtain ⟨ks, hrest, hpoint, hq⟩ := (ih hslash hlater).mp ⟨t, ht, hne, rfl⟩
      rw [hname.ofString_join hroot hn] at hrest hq
      -- If no names are written behind the empty path, it stays empty, except for a point.
      refine ⟨ms ++ ks, .cons hname hrest, fun hs hnil => ?_, by rw [hq, Path.below_below]⟩
      obtain ⟨rfl, rfl⟩ := List.append_eq_nil_iff.mp hnil
      by_cases hn' : n = "."
      · simp [hn']
      · have hwriting := (hname.writing_eq_empty_iff hroot hn).mpr ⟨rfl, hn'⟩
        exact List.mem_cons_of_mem n (hpoint (join_eq_empty_iff.mpr ⟨hs, hwriting⟩) rfl)
    · rintro ⟨_, hfits, hpoint, rfl⟩
      obtain ⟨ms, hname, ks, hrest, rfl⟩ := fits_cons_iff.mp hfits
      -- The empty name comes last; behind the empty path it would lead to the working directory.
      have hopen : n = "" → s ≠ "" := by
        rintro rfl hs
        obtain rfl : ns = [] := not_not.mp fun hne => hfirst hne rfl
        obtain ⟨-, rfl⟩ := (fitsName_stay_iff rfl).mp hname
        simpa using hpoint hs (fits_nil_iff.mp hrest)
      have hk := (mem_continuations_iff hn).mpr ⟨hopen, ms, hname, rfl⟩
      rw [← hname.ofString_join hroot hn] at hrest
      have hpath : (Path.ofString s).below (ms ++ ks) =
          (Path.ofString (Glob.join s (writing n ms))).below ks := by
        rw [hname.ofString_join hroot hn, Path.below_below]
      have hpoint' : Glob.join s (writing n ms) = "" → ks = [] → "." ∈ ns := by
        intro hjoin hks
        obtain ⟨hs, hwriting⟩ := join_eq_empty_iff.mp hjoin
        obtain ⟨rfl, hn'⟩ := (hname.writing_eq_empty_iff hroot hn).mp hwriting
        exact (List.mem_cons.mp (hpoint hs hks)).resolve_left (Ne.symm hn')
      obtain ⟨t, ht, hne, heq⟩ := (ih hslash hlater).mpr ⟨ks, hrest, hpoint', hpath⟩
      exact ⟨t, mem_expandNames_cons_iff.mpr ⟨_, hk, ht⟩, hne, heq⟩

/-! ## Section 3: Written patterns -/

variable {a : String} {ks : List String}

/-- The names on the way from the front part of a pattern to something that fits the pattern. The
working directory itself fits a pattern of stars with a point only. -/
def Finds (fs : FileSystem) (a : String) (ks : List String) : Prop :=
  fs.Fits (Path.ofString (Glob.ofString a).front) (Glob.ofString a).names ks
    ∧ ((Glob.ofString a).front = "" → ks = [] → "." ∈ (Glob.ofString a).names)

/-- Only the empty path goes on to the empty path. -/
theorem eq_empty_of_mem_expandNames (h : "" ∈ fs.expandNames ns [s]) : s = "" := by
  induction ns generalizing s with
  | nil => exact (List.mem_singleton.mp h).symm
  | cons n ns ih =>
    obtain ⟨k, -, hk⟩ := mem_expandNames_cons_iff.mp h
    exact (join_eq_empty_iff.mp (ih hk)).1

theorem startsWith_iff {s t : String} : s.startsWith t = true ↔ t.toList <+: s.toList := by
  rw [← String.startsWith_toSlice, String.Slice.startsWith_string_iff, String.copy_toSlice]

section Found

variable (hroot : fs.root.Proper) (hmagic : NamePattern.isMagic a = true)

include hroot hmagic

theorem exists_mem_expandNames_iff_finds :
    (∃ t ∈ fs.expandNames (Glob.ofString a).names [(Glob.ofString a).front],
      t ≠ "" ∧ Path.ofString t = q) ↔
      ∃ ks, fs.Finds a ks ∧ q = (Path.ofString (Glob.ofString a).front).below ks := by
  have hslash : ∀ n ∈ (Glob.ofString a).names, '/' ∉ n.toList := fun n hn =>
    Text.not_mem_of_mem_splitString (Glob.mem_of_mem_names hmagic hn)
  have hempty : ∀ n ∈ (Glob.ofString a).names.dropLast, n ≠ "" := by
    intro n hn
    rw [Glob.ofString] at hn
    exact Glob.ne_empty_of_mem_dropEmpty hn
  rw [exists_mem_expandNames_iff hroot hslash hempty]
  simp only [Finds, and_assoc]

/-- The working directory is left out if only stars lead to it. -/
theorem empty_notMem_expand : "" ∉ fs.expand a := by
  obtain ⟨fixed, n, more, hpieces, hn, hfront, hnames⟩ := Glob.exists_pieces hmagic
  have hn' : '/' ∉ n.toList := (Glob.isPiece_of_isMagic (a := a) (by simp [hpieces]) hn).noSlash
  have hfirst : "" ∉ [(Glob.ofString a).front].tail := List.not_mem_nil
  have htail := empty_notMem_tail_expandNames hroot (Glob.ofString a).names hfirst
  -- An empty path is made of empty parts, so two stars are all that the pattern begins with.
  have hstart : "" ∈ fs.expandNames (Glob.ofString a).names [(Glob.ofString a).front] →
      a.startsWith Glob.deep = true := by
    intro hmem
    rw [hnames] at hmem
    obtain ⟨k, hk, hmem⟩ := mem_expandNames_cons_iff.mp hmem
    obtain ⟨hopen, rfl⟩ := join_eq_empty_iff.mp (eq_empty_of_mem_expandNames hmem)
    obtain ⟨-, ms, hname, hwriting⟩ := (mem_continuations_iff hn').mp hk
    obtain ⟨rfl, -⟩ := (hname.writing_eq_empty_iff hroot hn').mp hwriting.symm
    obtain rfl : n = Glob.deep := by
      by_contra hdeep
      obtain ⟨_, _, _, -, -, -, -, hnil⟩ := (fitsName_entry_iff hdeep hn).mp hname
      cases hnil
    have hjoin : (String.join (fixed.map (· ++ "/"))).toList = [] := by
      rw [← Glob.trimFront_eq_nil_iff, ← String.ofList_eq_empty_iff, ← hfront, hopen]
    rw [startsWith_iff, Glob.toList_eq_of_pieces hpieces, hjoin, List.nil_append]
    cases more with
    | nil => exact List.prefix_refl _
    | cons m more => exact List.prefix_append _ _
  rw [expand, List.mem_mergeSort]
  generalize fs.expandNames (Glob.ofString a).names [(Glob.ofString a).front] = found at htail hstart
  split
  · rwa [List.drop_one]
  · next hkept =>
    intro hmem
    have hhead : found.head? = some "" := by
      cases found with
      | nil => cases hmem
      | cons s found => exact congrArg some ((List.mem_cons.mp hmem).resolve_right htail).symm
    exact hkept (by rw [hstart hmem, hhead]; rfl)

/-- **What fits a pattern.** The paths that fit a written pattern are those of what its names lead to
below the path of its front part. -/
theorem mem_map_expand_iff : q ∈ (fs.expand a).map Path.ofString ↔
    ∃ ks, fs.Finds a ks ∧ q = (Path.ofString (Glob.ofString a).front).below ks := by
  rw [← exists_mem_expandNames_iff_finds hroot hmagic, List.mem_map]
  apply exists_congr
  intro t
  constructor
  · rintro ⟨ht, rfl⟩
    have hne : t ≠ "" := by
      rintro rfl
      exact empty_notMem_expand hroot hmagic ht
    exact ⟨(mem_expand_iff hne).mp ht, hne, rfl⟩
  · rintro ⟨ht, hne, rfl⟩
    exact ⟨(mem_expand_iff hne).mpr ht, rfl⟩

end Found

end FileSystem

end TaggedComments
