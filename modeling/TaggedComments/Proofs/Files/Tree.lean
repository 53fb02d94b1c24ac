import TaggedComments.Files.Tree
import TaggedComments.Proofs.Files.Path
import TaggedComments.Proofs.Steps

/-!
# What names lead to

In a tree whose directories hold no name twice, following names one by one and looking for entries
by their names come to the same, and a path below a directory leads to what the tree of the
directory has there.

- `Tree.induction` is induction over trees.
- `Tree.Proper` are the trees in which no directory holds a name twice or a name that cannot be
  written, `FileSystem.WellFormed` the file systems with such trees.
- `Tree.Leads` says what names lead to below a tree.
- `FileSystem.find_below_eq_ok_iff` says what is found at a path below another one.
-/

namespace TaggedComments

/-! ## Section 1: Trees -/

namespace Tree

mutual

/-- What holds of every file, and of a directory if it holds of all its entries, holds of every
tree. -/
@[elab_as_elim] theorem induction {motive : Tree → Prop} (file : ∀ bytes, motive (.file bytes))
    (directory : ∀ es, (∀ e ∈ es, motive e.2) → motive (.directory es)) : (t : Tree) → motive t
  | .file bytes => file bytes
  | .directory es => directory es (forall_entries file directory es)

theorem forall_entries {motive : Tree → Prop} (file : ∀ bytes, motive (.file bytes))
    (directory : ∀ es, (∀ e ∈ es, motive e.2) → motive (.directory es)) :
    (es : List (String × Tree)) → ∀ e ∈ es, motive e.2
  | [] => by simp
  | (_, t) :: es => List.forall_mem_cons.mpr
      ⟨induction file directory t, forall_entries file directory es⟩

end

/-- A tree as file systems hold it: each entry of a directory has a name of its own, and one that
stands between slashes. -/
inductive Proper : Tree → Prop where
  | file (bytes : List Nat) : Proper (.file bytes)
  | directory {es : List (String × Tree)} (distinct : (es.map (·.1)).Nodup)
      (names : ∀ e ∈ es, Path.IsEntryName e.1) (below : ∀ e ∈ es, Proper e.2) :
      Proper (.directory es)

/-- What names lead to below a tree, one entry after the other. -/
inductive Leads : Tree → List String → Tree → Prop where
  | here (t : Tree) : Leads t [] t
  | down {es : List (String × Tree)} {n : String} {ns : List String} {t u : Tree}
      (hmem : (n, t) ∈ es) (hleads : Leads t ns u) : Leads (.directory es) (n :: ns) u

variable {t u : Tree} {n : String} {ns ms : List String}

theorem leads_nil_iff : Leads t [] u ↔ u = t := by
  constructor
  · rintro ⟨⟩
    rfl
  · rintro rfl
    exact .here _

theorem leads_cons_iff {es : List (String × Tree)} :
    Leads (.directory es) (n :: ns) u ↔ ∃ t, (n, t) ∈ es ∧ Leads t ns u := by
  constructor
  · rintro (_ | ⟨hmem, hleads⟩)
    exact ⟨_, hmem, hleads⟩
  · rintro ⟨t, hmem, hleads⟩
    exact .down hmem hleads

theorem not_leads_file {bytes : List Nat} : ¬ Leads (.file bytes) (n :: ns) u := nofun

theorem leads_append_iff :
    Leads t (ns ++ ms) u ↔ ∃ v, Leads t ns v ∧ Leads v ms u := by
  induction ns generalizing t with
  | nil => simp [leads_nil_iff]
  | cons n ns ih =>
    cases t with
    | file bytes => simp [not_leads_file]
    | directory es =>
      simp only [List.cons_append, leads_cons_iff, ih]
      constructor
      · rintro ⟨t, hmem, v, hv, hu⟩
        exact ⟨v, ⟨t, hmem, hv⟩, hu⟩
      · rintro ⟨v, ⟨t, hmem, hv⟩, hu⟩
        exact ⟨t, hmem, v, hv, hu⟩

/-- Only a directory leads further. -/
theorem Leads.isDirectory (h : Leads t (n :: ns) u) : t.isDirectory = true := by
  cases h
  rfl

/-- The entries that a proper tree is made of have names of their own and are proper too. -/
theorem Proper.leads (ht : t.Proper) (h : Leads t ns u) :
    u.Proper ∧ ∀ n ∈ ns, Path.IsEntryName n := by
  induction h with
  | here t => exact ⟨ht, by simp⟩
  | down hmem _ ih =>
    cases ht with
    | directory _ names below =>
      obtain ⟨hu, hns⟩ := ih (below _ hmem)
      exact ⟨hu, List.forall_mem_cons.mpr ⟨names _ hmem, hns⟩⟩

mutual

/-- Whether a tree is proper. -/
def isProper : Tree → Bool
  | .file _ => true
  | .directory es => decide (es.map (·.1)).Nodup && areProper es
termination_by structural t => t

/-- Whether entries have proper names and trees. -/
def areProper : List (String × Tree) → Bool
  | [] => true
  | (n, t) :: es => decide (Path.IsEntryName n) && isProper t && areProper es
termination_by structural es => es

end

mutual

theorem proper_of_isProper : (t : Tree) → t.isProper = true → t.Proper
  | .file bytes, _ => .file bytes
  | .directory es, h => by
    rw [isProper, Bool.and_eq_true, decide_eq_true_eq] at h
    have hes := proper_of_areProper es h.2
    exact .directory h.1 (fun e he => (hes e he).1) fun e he => (hes e he).2

theorem proper_of_areProper : (es : List (String × Tree)) → areProper es = true →
    ∀ e ∈ es, Path.IsEntryName e.1 ∧ e.2.Proper
  | [], _ => by simp
  | (n, t) :: es, h => by
    rw [areProper, Bool.and_eq_true, Bool.and_eq_true, decide_eq_true_eq] at h
    exact List.forall_mem_cons.mpr
      ⟨⟨h.1.1, proper_of_isProper t h.1.2⟩, proper_of_areProper es h.2⟩

end

theorem areProper_of_forall {es : List (String × Tree)} (names : ∀ e ∈ es, Path.IsEntryName e.1)
    (below : ∀ e ∈ es, e.2.isProper = true) : areProper es = true := by
  induction es with
  | nil => rfl
  | cons e es ih =>
    rw [List.forall_mem_cons] at names below
    rw [areProper, decide_eq_true names.1, below.1, ih names.2 below.2]
    rfl

theorem isProper_iff : t.isProper = true ↔ t.Proper := by
  refine ⟨proper_of_isProper t, fun h => ?_⟩
  induction h with
  | file bytes => rfl
  | directory distinct names _ ih =>
    rw [isProper, decide_eq_true distinct, areProper_of_forall names ih]
    rfl

instance (t : Tree) : Decidable t.Proper :=
  decidable_of_iff _ isProper_iff

end Tree

/-! ## Section 2: Steps from place to place -/

namespace FileSystem

/-- A file system as a program finds it: the names on the way to the working directory are those of
entries, and its tree is proper. -/
structure WellFormed (fs : FileSystem) : Prop where
  /-- The tree is proper. -/
  root : fs.root.Proper
  /-- The working directory is reached by the names of entries. -/
  working : ∀ n ∈ fs.working, Path.IsEntryName n

/-- The place that a path leads to. -/
def placeAt (fs : FileSystem) (p : Path) : Except Absence Place :=
  (if p.isAbsolute then .ok (fs.root, []) else fs.workingPlace) >>= p.names.foldlM step

variable {fs : FileSystem} {p : Path} {t u : Tree} {around : List Tree} {place : Place}
  {n : String} {ns : List String}

theorem find_eq (fs : FileSystem) (p : Path) : fs.find p = (fs.placeAt p).map (·.1) := by
  have hsteps : ∀ start : Place, (do let place ← p.names.foldlM step start; return place.1) =
      (p.names.foldlM step start).map (·.1) := by
    intro start
    cases p.names.foldlM step start <;> rfl
  rw [find, locate, placeAt]
  split
  · exact hsteps _
  · cases fs.workingPlace with
    | error e => rfl
    | ok start => exact hsteps start

theorem placeAt_below (fs : FileSystem) (p : Path) (ns : List String) :
    fs.placeAt (p.below ns) = fs.placeAt p >>= ns.foldlM step := by
  have habsolute : (p.below ns).isAbsolute = p.isAbsolute := rfl
  rw [placeAt, placeAt, habsolute, Path.names_below, bind_assoc]
  congr 1
  funext start
  rw [List.foldlM_append]

/-- The name of an entry leads into the directory or nowhere. -/
theorem step_entry (hn : Path.IsEntryName n) (es : List (String × Tree)) (around : List Tree) :
    step (.directory es, around) n = match es.lookup n with
      | some t => .ok (t, .directory es :: around)
      | none => .error .missing := by
  have hstay : ¬ (n = "" ∨ n = ".") := not_or.mpr ⟨hn.ne_empty, hn.ne_point⟩
  exact (if_neg hstay).trans (if_neg hn.ne_parent)

/-- Following the names of entries comes to what they lead to. -/
theorem exists_foldlM_step_iff (ht : t.Proper) (hns : ∀ n ∈ ns, Path.IsEntryName n) :
    (∃ inner, ns.foldlM step (t, around) = .ok (u, inner)) ↔ t.Leads ns u := by
  induction ns generalizing t around with
  | nil =>
    rw [Tree.leads_nil_iff, List.foldlM_nil]
    constructor
    · rintro ⟨inner, h⟩
      cases h
      rfl
    · rintro rfl
      exact ⟨around, rfl⟩
  | cons n ns ih =>
    obtain ⟨hn, hns⟩ := List.forall_mem_cons.mp hns
    rw [List.foldlM_cons]
    cases ht with
    | file bytes =>
      constructor
      · rintro ⟨inner, h⟩
        cases h
      · intro h
        exact absurd h Tree.not_leads_file
    | @directory es distinct names below =>
      rw [step_entry hn, Tree.leads_cons_iff]
      cases hlookup : es.lookup n with
      | none =>
        constructor
        · rintro ⟨inner, h⟩
          cases h
        · rintro ⟨s, hmem, -⟩
          rw [(lookup_eq_some_iff distinct).mpr hmem] at hlookup
          cases hlookup
      | some s =>
        have hmem := (lookup_eq_some_iff distinct).mp hlookup
        rw [ok_bind, ih (below _ hmem) hns]
        constructor
        · intro hleads
          exact ⟨s, hmem, hleads⟩
        · rintro ⟨s', hmem', hleads⟩
          rw [(lookup_eq_some_iff distinct).mpr hmem'] at hlookup
          obtain rfl := Option.some.inj hlookup
          exact hleads

/-- A place in proper trees. -/
def Place.Proper (place : Place) : Prop :=
  place.1.Proper ∧ ∀ t ∈ place.2, t.Proper

/-- A step from a place in proper trees stays in them. -/
theorem Place.Proper.step (h : Place.Proper place) {next : Place}
    (hstep : FileSystem.step place n = .ok next) : Place.Proper next := by
  obtain ⟨t, around⟩ := place
  obtain ⟨ht, haround⟩ := h
  cases ht with
  | file bytes => cases hstep
  | @directory es distinct names below =>
    have hdirectory := Tree.Proper.directory distinct names below
    rw [FileSystem.step] at hstep
    simp only at hstep
    split at hstep
    · cases hstep
      exact ⟨hdirectory, haround⟩
    · split at hstep
      · -- A step upward leads to a directory around, or stays at the root.
        cases around with
        | nil =>
          cases hstep
          exact ⟨hdirectory, haround⟩
        | cons s around =>
          cases hstep
          exact List.forall_mem_cons.mp haround
      · cases hlookup : es.lookup n with
        | none => simp [hlookup] at hstep
        | some s =>
          simp only [hlookup, Except.ok.injEq] at hstep
          subst hstep
          have hmem := (lookup_eq_some_iff distinct).mp hlookup
          exact ⟨below _ hmem, List.forall_mem_cons.mpr ⟨hdirectory, haround⟩⟩

theorem Place.Proper.foldlM (h : Place.Proper place) {next : Place}
    (hsteps : ns.foldlM FileSystem.step place = .ok next) : Place.Proper next := by
  induction ns generalizing place with
  | nil =>
    cases hsteps
    exact h
  | cons n ns ih =>
    rw [List.foldlM_cons] at hsteps
    obtain ⟨mid, hmid, hrest⟩ := bind_eq_ok_iff.mp hsteps
    exact ih (h.step hmid) hrest

/-! ## Section 3: Paths -/

theorem proper_of_placeAt (hroot : fs.root.Proper) (h : fs.placeAt p = .ok place) :
    Place.Proper place := by
  have hstart : Place.Proper (fs.root, []) := ⟨hroot, by simp⟩
  obtain ⟨start, hs, hsteps⟩ := bind_eq_ok_iff.mp h
  refine Place.Proper.foldlM ?_ hsteps
  split at hs
  · cases hs
    exact hstart
  · exact hstart.foldlM hs

theorem proper_of_find (hroot : fs.root.Proper) (h : fs.find p = .ok t) : t.Proper := by
  rw [find_eq] at h
  obtain ⟨place, hplace, rfl⟩ := map_eq_ok_iff.mp h
  exact (proper_of_placeAt hroot hplace).1

/-- Below a path is what the tree at the path has there. -/
theorem find_below_eq_ok_iff (hroot : fs.root.Proper) (hp : fs.find p = .ok t)
    (hns : ∀ n ∈ ns, Path.IsEntryName n) : fs.find (p.below ns) = .ok u ↔ t.Leads ns u := by
  have ht := proper_of_find hroot hp
  rw [find_eq] at hp
  obtain ⟨⟨t', around⟩, hplace, rfl⟩ := map_eq_ok_iff.mp hp
  rw [find_eq, placeAt_below, hplace, ok_bind, map_eq_ok_iff,
    ← exists_foldlM_step_iff ht hns]
  constructor
  · rintro ⟨⟨u', inner⟩, h, rfl⟩
    exact ⟨inner, h⟩
  · rintro ⟨inner, h⟩
    exact ⟨_, h, rfl⟩

/-- Going down by the names of entries needs no step upward. -/
theorem resolve_below (fs : FileSystem) (p : Path) (hns : ∀ n ∈ ns, Path.IsEntryName n) :
    fs.resolve (p.below ns) = fs.resolve p ++ ns := by
  have habsolute : (p.below ns).isAbsolute = p.isAbsolute := rfl
  rw [resolve, resolve, habsolute, Path.names_below, Path.normalize_append, Path.normalize_of_forall hns]

/-- The names on the way to the place of a written path may stand between slashes. -/
theorem isPiece_of_mem_resolve (hfs : fs.WellFormed) (hp : p.IsWritten) (hn : n ∈ fs.resolve p) :
    Path.IsPiece n := by
  -- Each step upward drops a name, each other step adds one of the path.
  have hnormalize : ∀ (names way : List String), (∀ m ∈ names, Path.IsPiece m) →
      (∀ m ∈ way, Path.IsPiece m) → ∀ m ∈ Path.normalize way names, Path.IsPiece m := by
    intro names
    induction names with
    | nil => exact fun way _ hway => hway
    | cons m names ih =>
      intro way hnames hway
      obtain ⟨hm, hnames⟩ := List.forall_mem_cons.mp hnames
      apply ih _ hnames
      intro k hk
      simp only at hk
      split at hk
      · exact hway k (List.dropLast_subset way hk)
      · rcases List.mem_append.mp hk with hk | hk
        · exact hway k hk
        · rwa [List.mem_singleton.mp hk]
  apply hnormalize p.names _ hp _ n hn
  intro m hm
  split at hm
  · cases hm
  · exact (hfs.working m hm).toIsPiece

end FileSystem

end TaggedComments
