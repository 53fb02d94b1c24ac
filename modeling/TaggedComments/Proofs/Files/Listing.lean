import Mathlib.Data.List.Perm.Basic
import Mathlib.Data.String.Basic
import TaggedComments.Files.Glob
import TaggedComments.Proofs.Files.Tree

/-!
# Listings in another order

A file system names the entries of a directory in an order of its own. What is found at a path, what
a file holds and which paths fit a pattern do not depend on it.

- `Tree.Relisted` relates the trees with the same entries in any order.
- `FileSystem.Relisted` relates file systems; `FileSystem.Relisted.find` says that related trees are
  found at each path.
- `FileSystem.Relisted.expand_eq` says that the same paths fit a pattern.
-/

namespace TaggedComments

/-! ## Section 1: Trees -/

namespace Tree

/-- Two listings of one tree: in each directory stand the same names in some order, and under each
name are listings of one tree again. -/
inductive Relisted : Tree → Tree → Prop where
  | file (bytes : List Nat) : Relisted (.file bytes) (.file bytes)
  | directory {es es' : List (String × Tree)} (names : (es.map (·.1)).Perm (es'.map (·.1)))
      (below : ∀ n t t', (n, t) ∈ es → (n, t') ∈ es' → Relisted t t') :
      Relisted (.directory es) (.directory es')

variable {t t' u : Tree} {ns : List String}

theorem Relisted.symm (h : Relisted t t') : Relisted t' t := by
  induction h with
  | file bytes => exact .file bytes
  | directory names _ ih =>
    exact .directory names.symm fun n t' t ht' ht => ih n t t' ht ht'

theorem Relisted.refl (ht : t.Proper) : Relisted t t := by
  induction ht with
  | file bytes => exact .file bytes
  | directory distinct _ _ ih =>
    refine .directory (.refl _) fun n s s' hs hs' => ?_
    -- No two entries share a name.
    rw [← lookup_eq_some_iff distinct] at hs'
    obtain rfl := Option.some.inj (((lookup_eq_some_iff distinct).mpr hs).symm.trans hs')
    exact ih _ hs

theorem Relisted.isDirectory_eq (h : Relisted t t') : t'.isDirectory = t.isDirectory := by
  cases h <;> rfl

/-- Each entry of the one listing has its counterpart in the other. -/
theorem exists_entry_of_perm {es es' : List (String × Tree)}
    (names : (es.map (·.1)).Perm (es'.map (·.1))) {n : String} (h : (n, t) ∈ es) :
    ∃ t', (n, t') ∈ es' := by
  have hn : n ∈ es.map (·.1) := List.mem_map.mpr ⟨_, h, rfl⟩
  obtain ⟨⟨m, t'⟩, hmem, rfl⟩ := List.mem_map.mp (names.mem_iff.mp hn)
  exact ⟨t', hmem⟩

theorem Proper.relisted (ht : t.Proper) (h : Relisted t t') : t'.Proper := by
  induction ht generalizing t' with
  | file bytes =>
    cases h
    exact .file bytes
  | directory distinct names _ ih =>
    cases h with
    | directory hnames hbelow =>
      refine .directory (hnames.nodup_iff.mp distinct) ?_ ?_
      · intro e he
        obtain ⟨s, hs⟩ := exists_entry_of_perm hnames.symm he
        exact names (e.1, s) hs
      · intro e he
        obtain ⟨s, hs⟩ := exists_entry_of_perm hnames.symm he
        exact ih (e.1, s) hs (hbelow e.1 s e.2 hs he)

/-- Names that lead somewhere in the one listing lead to a listing of the same tree in the other. -/
theorem Relisted.leads (h : Relisted t t') (hu : t.Leads ns u) :
    ∃ u', t'.Leads ns u' ∧ Relisted u u' := by
  induction hu generalizing t' with
  | here t => exact ⟨t', .here t', h⟩
  | down hmem _ ih =>
    cases h with
    | directory names below =>
      obtain ⟨s, hs⟩ := exists_entry_of_perm names hmem
      obtain ⟨u', hleads, hu'⟩ := ih (below _ _ _ hmem hs)
      exact ⟨u', .down hs hleads, hu'⟩

theorem Relisted.leads_file_iff (h : Relisted t t') {bytes : List Nat} :
    t'.Leads ns (.file bytes) ↔ t.Leads ns (.file bytes) := by
  constructor
  · intro hleads
    obtain ⟨u, hu, hfile⟩ := h.symm.leads hleads
    cases hfile
    exact hu
  · intro hleads
    obtain ⟨u, hu, hfile⟩ := h.leads hleads
    cases hfile
    exact hu

/-- What is collected entry by entry is the same up to order if it is so for entries of one name. -/
theorem perm_flatMap_of_perm {α : Type} {es es' : List (String × Tree)}
    (names : (es.map (·.1)).Perm (es'.map (·.1))) {f : String × Tree → List α}
    (h : ∀ n t t', (n, t) ∈ es → (n, t') ∈ es' → (f (n, t)).Perm (f (n, t'))) :
    (es.flatMap f).Perm (es'.flatMap f) := by
  induction es generalizing es' with
  | nil =>
    obtain rfl : es' = [] := List.map_eq_nil_iff.mp (List.nil_perm.mp names)
    exact .nil
  | cons e es ih =>
    obtain ⟨n, t⟩ := e
    -- The entry of the same name comes to the front of the other listing.
    obtain ⟨t', ht'⟩ := exists_entry_of_perm names (List.mem_cons_self)
    obtain ⟨before, after, rfl⟩ := List.append_of_mem ht'
    have hfront : (before ++ (n, t') :: after).Perm ((n, t') :: (before ++ after)) :=
      List.perm_middle
    have hnames : (es.map (·.1)).Perm ((before ++ after).map (·.1)) :=
      (names.trans (hfront.map _)).cons_inv
    refine .trans ?_ (hfront.flatMap_right f).symm
    rw [List.flatMap_cons, List.flatMap_cons]
    refine (h n t t' (by simp) (by simp)).append (ih hnames fun m s s' hs hs' => ?_)
    refine h m s s' (List.mem_cons_of_mem _ hs) ?_
    rcases List.mem_append.mp hs' with hs' | hs' <;> simp [hs']

end Tree

/-! ## Section 2: Places -/

/-- Two outcomes of looking for something: related results or the same absence. -/
inductive SameOutcome {α : Type} (R : α → α → Prop) : Except Absence α → Except Absence α → Prop where
  | found {x y : α} (h : R x y) : SameOutcome R (.ok x) (.ok y)
  | absent (e : Absence) : SameOutcome R (.error e) (.error e)

theorem SameOutcome.bind {α β : Type} {R : α → α → Prop} {S : β → β → Prop}
    {x y : Except Absence α} {f g : α → Except Absence β} (h : SameOutcome R x y)
    (hnext : ∀ a b, R a b → SameOutcome S (f a) (g b)) : SameOutcome S (x >>= f) (y >>= g) := by
  cases h with
  | found h => exact hnext _ _ h
  | absent e => exact .absent e

namespace FileSystem

/-- Two file systems with listings of one tree and the same working directory. -/
structure Relisted (fs fs' : FileSystem) : Prop where
  /-- The trees are listings of one tree. -/
  root : fs.root.Relisted fs'.root
  /-- The programs work at the same place. -/
  working : fs'.working = fs.working

/-- A place in proper trees and the same place in listings of them. -/
structure Place.Relisted (place place' : Place) : Prop where
  /-- The trees are proper. -/
  proper : Place.Proper place
  /-- The trees at the place are listings of one tree. -/
  tree : place.1.Relisted place'.1
  /-- So are the directories around it. -/
  around : List.Forall₂ Tree.Relisted place.2 place'.2

variable {fs fs' : FileSystem} {place place' : Place}

theorem lookup_relisted {es es' : List (String × Tree)} (hproper : (Tree.directory es).Proper)
    (h : Tree.Relisted (.directory es) (.directory es')) (n : String) :
    (∃ t t', es.lookup n = some t ∧ es'.lookup n = some t' ∧ t.Relisted t')
      ∨ (es.lookup n = none ∧ es'.lookup n = none) := by
  cases hproper.relisted h with
  | directory distinct' =>
  cases hproper with
  | directory distinct =>
  cases h with
  | directory names below =>
    cases hlookup : es.lookup n with
    | some t =>
      have hmem := (lookup_eq_some_iff distinct).mp hlookup
      obtain ⟨t', ht'⟩ := Tree.exists_entry_of_perm names hmem
      exact .inl ⟨t, t', rfl, (lookup_eq_some_iff distinct').mpr ht', below n t t' hmem ht'⟩
    | none =>
      refine .inr ⟨rfl, Option.eq_none_iff_forall_ne_some.mpr fun t' ht' => ?_⟩
      have hmem' := (lookup_eq_some_iff distinct').mp ht'
      obtain ⟨t, ht⟩ := Tree.exists_entry_of_perm names.symm hmem'
      rw [(lookup_eq_some_iff distinct).mpr ht] at hlookup
      cases hlookup

/-- A step leads to the same place in both listings. -/
theorem Place.Relisted.step (h : Place.Relisted place place') (n : String) :
    SameOutcome Place.Relisted (FileSystem.step place n) (FileSystem.step place' n) := by
  have hproper : ∀ {next}, FileSystem.step place n = .ok next → Place.Proper next := h.proper.step
  obtain ⟨t, around⟩ := place
  obtain ⟨t', around'⟩ := place'
  obtain ⟨hplace, htree, haround⟩ := h
  cases htree with
  | file bytes => exact .absent _
  | @directory es es' names below =>
    have hdirectory := Tree.Relisted.directory names below
    rw [FileSystem.step, FileSystem.step]
    rw [FileSystem.step] at hproper
    simp only at haround hproper ⊢
    split
    · exact .found ⟨hplace, hdirectory, haround⟩
    · next hstay =>
      simp only [hstay, if_false] at hproper
      split
      · next hparent =>
        simp only [hparent, if_true] at hproper
        cases haround with
        | nil => exact .found ⟨hplace, hdirectory, .nil⟩
        | cons hs haround => exact .found ⟨hproper rfl, hs, haround⟩
      · next hparent =>
        simp only [hparent, if_false] at hproper
        rcases lookup_relisted hplace.1 hdirectory n with ⟨s, s', hs, hs', hsub⟩ | ⟨hs, hs'⟩
        · simp only [hs, hs'] at hproper ⊢
          exact .found ⟨hproper rfl, hsub, .cons hdirectory haround⟩
        · simp only [hs, hs']
          exact .absent _

theorem Place.Relisted.foldlM (h : Place.Relisted place place') (ns : List String) :
    SameOutcome Place.Relisted (ns.foldlM FileSystem.step place)
      (ns.foldlM FileSystem.step place') := by
  induction ns generalizing place place' with
  | nil => exact .found h
  | cons n ns ih =>
    rw [List.foldlM_cons, List.foldlM_cons]
    exact (h.step n).bind fun _ _ hnext => ih hnext

/-! ## Section 3: Paths -/

section Paths

variable (hroot : fs.root.Proper) (h : fs.Relisted fs')

include hroot h

theorem Relisted.locate (absolute : Bool) (names : List String) :
    SameOutcome Tree.Relisted (fs.locate absolute names) (fs'.locate absolute names) := by
  have hstart : Place.Relisted (fs.root, []) (fs'.root, []) :=
    ⟨⟨hroot, by simp⟩, h.root, .nil⟩
  have hsteps : ∀ place place', Place.Relisted place place' → SameOutcome Tree.Relisted
      (names.foldlM FileSystem.step place >>= fun place => pure place.1)
      (names.foldlM FileSystem.step place' >>= fun place => pure place.1) := fun _ _ hplace =>
    (hplace.foldlM names).bind fun _ _ hend => .found hend.tree
  rw [FileSystem.locate, FileSystem.locate]
  split
  · exact hsteps _ _ hstart
  · refine SameOutcome.bind ?_ hsteps
    rw [workingPlace, workingPlace, h.working]
    exact hstart.foldlM fs.working

/-- Listings of one tree are found at each path. -/
theorem Relisted.find (p : Path) : SameOutcome Tree.Relisted (fs.find p) (fs'.find p) :=
  h.locate hroot p.isAbsolute p.names

/-- A path that leads to a directory leads to another listing of it. -/
theorem Relisted.exists_find {p : Path} {es : List (String × Tree)}
    (hp : fs.find p = .ok (.directory es)) :
    ∃ es', fs'.find p = .ok (.directory es') ∧ Tree.Relisted (.directory es) (.directory es') := by
  have hfind := h.find hroot p
  rw [hp] at hfind
  generalize fs'.find p = found at hfind
  cases hfind with
  | found htree =>
    cases htree with
    | directory names below => exact ⟨_, rfl, .directory names below⟩

/-- A file holds the same bytes. -/
theorem Relisted.read_eq (p : Path) : fs'.read p = fs.read p := by
  have hfind := h.find hroot p
  rw [FileSystem.read, FileSystem.read]
  generalize fs.find p = found at hfind
  generalize fs'.find p = found' at hfind
  cases hfind with
  | found htree => cases htree <;> rfl
  | absent e => cases e <;> rfl

theorem Relisted.atText (path : String) :
    SameOutcome Tree.Relisted (fs.atText path) (fs'.atText path) := by
  rw [FileSystem.atText, FileSystem.atText]
  split
  · exact h.locate hroot _ _
  · exact h.locate hroot _ _

end Paths

/-! ## Section 4: Patterns -/

theorem belowEntries_eq_flatMap (directories : Bool) (es : List (String × Tree)) :
    Glob.belowEntries directories es = es.flatMap fun e =>
      if (directories && !e.2.isDirectory) || e.1.toList.head? == some '.' then []
      else e.1 :: (Glob.below directories e.2).map (e.1 ++ "/" ++ ·) := by
  induction es with
  | nil => rfl
  | cons e es ih => rw [Glob.belowEntries, List.flatMap_cons, ih]

/-- The same paths are below two listings of one tree. -/
theorem perm_below (directories : Bool) {t t' : Tree} (h : t.Relisted t') :
    (Glob.below directories t).Perm (Glob.below directories t') := by
  induction h with
  | file bytes => exact .refl _
  | directory names below ih =>
    rw [Glob.below, Glob.below, belowEntries_eq_flatMap, belowEntries_eq_flatMap]
    refine Tree.perm_flatMap_of_perm names fun n t t' ht ht' => ?_
    simp only [(below n t t' ht ht').isDirectory_eq]
    split
    · exact .refl _
    · exact .cons _ ((ih n t t' ht ht').map _)

theorem map_filter_eq_flatMap {α β : Type} (keep : α → Bool) (f : α → β) (xs : List α) :
    (xs.filter keep).map f = xs.flatMap fun x => if keep x then [f x] else [] := by
  induction xs with
  | nil => rfl
  | cons x xs ih =>
    rw [List.filter_cons, List.flatMap_cons, ← ih]
    split <;> rfl

section Patterns

variable (hroot : fs.root.Proper) (h : fs.Relisted fs')

include hroot h

/-- The same continuations of a path fit. -/
theorem Relisted.continuations_perm (directories : Bool) (name path : String) :
    (fs.continuations directories name path).Perm (fs'.continuations directories name path) := by
  have hpath := h.atText hroot path
  have hnext := h.atText hroot (Glob.join path name)
  rw [continuations, continuations]
  -- What is found in the one listing and in the other goes through the same cases.
  generalize fs.atText path = found at hpath
  generalize fs'.atText path = found' at hpath
  generalize fs.atText (Glob.join path name) = next at hnext
  generalize fs'.atText (Glob.join path name) = next' at hnext
  cases hpath with
  | absent e =>
    cases hnext <;> exact .refl _
  | found htree =>
    simp only [Except.toOption, Option.map_some, htree.isDirectory_eq]
    split
    · -- Two stars: the directory and everything below it.
      cases htree with
      | file bytes => exact .refl _
      | directory names below => exact (perm_below directories (.directory names below)).cons ""
    · split
      · -- A pattern: the entries that it fits.
        cases htree with
        | file bytes => exact .refl _
        | directory names below =>
          simp only [map_filter_eq_flatMap]
          refine Tree.perm_flatMap_of_perm names fun n t t' ht ht' => ?_
          simp only [(below n t t' ht ht').isDirectory_eq]
          exact .refl _
      · split
        · exact .refl _
        · cases hnext <;> exact .refl _

theorem Relisted.expandNames_perm (names : List String) {paths paths' : List String}
    (hpaths : paths.Perm paths') :
    (fs.expandNames names paths).Perm (fs'.expandNames names paths') := by
  induction names generalizing paths paths' with
  | nil => exact hpaths
  | cons n ns ih =>
    rw [expandNames, expandNames]
    exact ih (hpaths.flatMap fun p _ => (h.continuations_perm hroot _ n p).map _)

end Patterns

/-! ## Section 5: The working directory among the paths -/

theorem join_eq_empty_iff {path name : String} :
    Glob.join path name = "" ↔ path = "" ∧ name = "" := by
  rw [Glob.join]
  split
  · exact String.append_eq_empty_iff
  · next hpath =>
    simp only [Bool.or_eq_true, decide_eq_true_eq, not_or] at hpath
    simp [String.append_eq_empty_iff, hpath.1]

theorem empty_notMem_belowEntries {directories : Bool} {es : List (String × Tree)}
    (h : ∀ e ∈ es, Path.IsEntryName e.1) : "" ∉ Glob.belowEntries directories es := by
  rw [belowEntries_eq_flatMap, List.mem_flatMap]
  rintro ⟨e, he, hmem⟩
  have hne := (h e he).ne_empty
  split at hmem
  · cases hmem
  · rcases List.mem_cons.mp hmem with heq | hmem
    · exact hne heq.symm
    · obtain ⟨s, -, hs⟩ := List.mem_map.mp hmem
      exact hne (String.append_eq_empty_iff.mp (String.append_eq_empty_iff.mp hs).1).1

/-- The working directory itself fits two stars only, and then it comes first. -/
theorem empty_notMem_tail_continuations (hroot : fs.root.Proper) (directories : Bool)
    (name : String) : "" ∉ (fs.continuations directories name "").tail := by
  have hentries : ∀ es, (fs.atText "").toOption = some (.directory es) →
      ∀ e ∈ es, Path.IsEntryName e.1 := by
    intro es hes
    have hfind : fs.find ⟨.here, []⟩ = .ok (.directory es) := by
      have hat : fs.atText "" = fs.find ⟨.here, []⟩ := rfl
      cases hfound : fs.atText "" with
      | error e => simp [hfound, Except.toOption] at hes
      | ok t =>
        rw [hfound] at hes hat
        rw [← hat, Option.some.inj hes]
    cases proper_of_find hroot hfind with
    | directory _ names => exact names
  rw [continuations]
  generalize (fs.atText "").toOption = tree at hentries
  split
  · split
    · exact empty_notMem_belowEntries (hentries _ rfl)
    · exact List.not_mem_nil
  · split
    · split
      · intro hmem
        obtain ⟨e, he, heq⟩ := List.mem_map.mp (List.mem_of_mem_tail hmem)
        exact (hentries _ rfl e (List.mem_filter.mp he).1).ne_empty heq
      · exact List.not_mem_nil
    · split
      · exact List.not_mem_nil
      · split <;> exact List.not_mem_nil

/-- The working directory comes first among the paths that fit, if at all. -/
theorem empty_notMem_tail_expandNames (hroot : fs.root.Proper) (names : List String)
    {paths : List String} (h : "" ∉ paths.tail) : "" ∉ (fs.expandNames names paths).tail := by
  induction names generalizing paths with
  | nil => exact h
  | cons n ns ih =>
    rw [expandNames]
    apply ih
    -- Only the working directory continues to itself.
    have hrest : ∀ p, p ≠ "" → "" ∉ (fs.continuations (!ns.isEmpty) n p).map (Glob.join p) := by
      intro p hp hmem
      obtain ⟨m, -, hm⟩ := List.mem_map.mp hmem
      exact hp (join_eq_empty_iff.mp hm).1
    cases paths with
    | nil => exact h
    | cons p ps =>
      have hps : "" ∉ ps.flatMap fun p => (fs.continuations (!ns.isEmpty) n p).map (Glob.join p) := by
        intro hmem
        obtain ⟨q, hq, hmem⟩ := List.mem_flatMap.mp hmem
        exact hrest q (fun heq => h (heq ▸ hq)) hmem
      have hp : "" ∉ ((fs.continuations (!ns.isEmpty) n p).map (Glob.join p)).tail := by
        by_cases hempty : p = ""
        · subst hempty
          have hjoin : Glob.join "" = id := by
            funext m
            simp [Glob.join]
          rw [hjoin, List.map_id]
          exact empty_notMem_tail_continuations hroot _ n
        · exact fun hmem => hrest p hempty (List.mem_of_mem_tail hmem)
      rw [List.flatMap_cons]
      generalize (fs.continuations (!ns.isEmpty) n p).map (Glob.join p) = own at hp
      cases own with
      | nil => exact fun hmem => hps (List.mem_of_mem_tail hmem)
      | cons m own =>
        rw [List.cons_append, List.tail_cons]
        exact fun hmem => (List.mem_append.mp hmem).elim hp hps

/-- What stands first in a list or nowhere stands first in the same items in another order. -/
theorem head?_eq_some_of_perm {α : Type} {x : α} {xs ys : List α} (hperm : xs.Perm ys)
    (hys : x ∉ ys.tail) (h : xs.head? = some x) : ys.head? = some x := by
  have hmem : x ∈ ys := hperm.subset (List.mem_of_head? h)
  cases ys with
  | nil => cases hmem
  | cons y ys =>
    rcases List.mem_cons.mp hmem with rfl | hmem
    · rfl
    · exact absurd hmem hys

/-- What is put into the order of its texts stands in this order. -/
theorem pairwise_mergeSort_text {α : Type} (text : α → String) (xs : List α) :
    (xs.mergeSort fun a b => text a ≤ text b).Pairwise fun a b => text a ≤ text b := by
  refine (List.pairwise_mergeSort ?_ ?_ xs).imp of_decide_eq_true
  · intro a b c hab hbc
    exact decide_eq_true (String.le_trans (of_decide_eq_true hab) (of_decide_eq_true hbc))
  · intro a b
    simpa using String.le_total (text a) (text b)

/-- Texts are put into one order, however they are listed. -/
theorem mergeSort_eq_of_perm {xs ys : List String} (h : xs.Perm ys) :
    ys.mergeSort (fun a b => a ≤ b) = xs.mergeSort fun a b => a ≤ b := by
  apply List.Perm.eq_of_pairwise (fun _ _ _ _ => String.le_antisymm)
    (pairwise_mergeSort_text id ys) (pairwise_mergeSort_text id xs)
  exact (List.mergeSort_perm ys _).trans (h.symm.trans (List.mergeSort_perm xs _).symm)

/-- The same paths fit a pattern, in the same order. -/
theorem Relisted.expand_eq (hroot : fs.root.Proper) (h : fs.Relisted fs') (pattern : String) :
    fs'.expand pattern = fs.expand pattern := by
  have hperm := h.expandNames_perm hroot (Glob.ofString pattern).names
    (.refl [(Glob.ofString pattern).front])
  have hfront : "" ∉ [(Glob.ofString pattern).front].tail := List.not_mem_nil
  have htail := empty_notMem_tail_expandNames hroot (Glob.ofString pattern).names hfront
  have htail' := empty_notMem_tail_expandNames (hroot.relisted h.root)
    (Glob.ofString pattern).names hfront
  rw [expand, expand]
  generalize fs.expandNames _ _ = found at hperm htail
  generalize fs'.expandNames _ _ = found' at hperm htail'
  -- The working directory is left out of both or of none.
  have hhead : (found'.head? == some "") = (found.head? == some "") := by
    rw [Bool.eq_iff_iff, beq_iff_eq, beq_iff_eq]
    exact ⟨head?_eq_some_of_perm hperm.symm htail, head?_eq_some_of_perm hperm htail'⟩
  simp only [hhead]
  split
  · next hdrop =>
    simp only [Bool.and_eq_true, beq_iff_eq] at hdrop
    have hfirst' := head?_eq_some_of_perm hperm htail' hdrop.2
    obtain ⟨rest, rfl⟩ := List.head?_eq_some_iff.mp hdrop.2
    obtain ⟨rest', rfl⟩ := List.head?_eq_some_iff.mp hfirst'
    exact mergeSort_eq_of_perm hperm.cons_inv
  · exact mergeSort_eq_of_perm hperm

end FileSystem

end TaggedComments
