import TaggedComments.Proofs.Files.Tree

/-!
# The places of paths

There are no links in a tree, so the names on the way from the root tell places apart. Following a
path step by step comes to the place that its names mean when the steps to the parent are carried
out beforehand.

- `FileSystem.Place.At` says by which names a place is reached from the root; `Place.At.step` and
  `Place.At.foldlM` keep track of them.
- `FileSystem.leads_resolve` says that the resolved names of a path lead to what the path leads to,
  `FileSystem.find_resolvePath` that the resolved path does so.
- `FileSystem.resolve_injective` says that paths from one start without steps to the parent have
  places of their own.
-/

namespace TaggedComments

namespace FileSystem

variable {fs : FileSystem} {p q : Path} {t : Tree} {around : List Tree} {root : Tree}
  {place next : Place} {way ns : List String} {n : String}

/-! ## Section 1: Places and the names on the way to them -/

/-- The names on the way from a root to a place: each directory around the place has the next one as
an entry. -/
inductive Place.At (root : Tree) : Place → List String → Prop where
  | root : Place.At root (root, []) []
  | entry {es : List (String × Tree)} {around : List Tree} {way : List String} {n : String}
      {t : Tree} (hat : Place.At root (.directory es, around) way) (hmem : (n, t) ∈ es) :
      Place.At root (t, .directory es :: around) (way ++ [n])

/-- The names on the way to a place lead to what is there. -/
theorem Place.At.leads (h : Place.At root place way) : root.Leads way place.1 := by
  induction h with
  | root => exact .here root
  | entry _ hmem ih => exact Tree.leads_append_iff.mpr ⟨_, ih, .down hmem (.here _)⟩

/-- Nothing is around the root. -/
theorem Place.At.eq_root (h : Place.At root (t, []) way) : t = root ∧ way = [] := by
  cases h
  exact ⟨rfl, rfl⟩

/-- A step to the parent takes the last name away. -/
theorem Place.At.parent {s : Tree} (h : Place.At root (t, s :: around) way) :
    Place.At root (s, around) way.dropLast := by
  cases h with
  | entry hat _ => rwa [List.dropLast_concat]

/-- A step goes where its name means. -/
theorem Place.At.step (h : Place.At root place way) (hn : Path.IsPiece n)
    (hstep : FileSystem.step place n = .ok next) : Place.At root next (Path.normalize way [n]) := by
  obtain ⟨t, around⟩ := place
  cases t with
  | file bytes => cases hstep
  | directory es =>
    have hstay : ¬ (n = "" ∨ n = ".") := not_or.mpr ⟨hn.ne_empty, hn.ne_point⟩
    rw [FileSystem.step] at hstep
    simp only [if_neg hstay] at hstep
    rw [Path.normalize, List.foldl_cons, List.foldl_nil]
    split at hstep
    · next hparent =>
      rw [if_pos hparent]
      cases around with
      | nil =>
        -- The root is its own parent.
        cases hstep
        obtain ⟨rfl, rfl⟩ := h.eq_root
        exact .root
      | cons s around =>
        cases hstep
        exact h.parent
    · next hparent =>
      rw [if_neg hparent]
      cases hlookup : es.lookup n with
      | none => simp [hlookup] at hstep
      | some s =>
        simp only [hlookup, Except.ok.injEq] at hstep
        subst hstep
        obtain ⟨before, after, rfl, -⟩ := List.lookup_eq_some_iff.mp hlookup
        exact .entry h (by simp)

/-- Steps go where their names mean. -/
theorem Place.At.foldlM (h : Place.At root place way) (hns : ∀ n ∈ ns, Path.IsPiece n)
    (hsteps : ns.foldlM FileSystem.step place = .ok next) :
    Place.At root next (Path.normalize way ns) := by
  induction ns generalizing place way with
  | nil =>
    cases hsteps
    exact h
  | cons n ns ih =>
    obtain ⟨hn, hns⟩ := List.forall_mem_cons.mp hns
    rw [List.foldlM_cons] at hsteps
    obtain ⟨mid, hmid, hrest⟩ := bind_eq_ok_iff.mp hsteps
    rw [← List.singleton_append, Path.normalize_append]
    exact ih (h.step hn hmid) hns hrest

/-! ## Section 2: Resolved paths -/

section Resolved

variable (hfs : fs.WellFormed) (hp : p.IsWritten)

include hfs hp

/-- The resolved names of a path lead to what the path leads to. -/
theorem leads_resolve (h : fs.find p = .ok t) : fs.root.Leads (fs.resolve p) t := by
  rw [find_eq] at h
  obtain ⟨place, hplace, rfl⟩ := map_eq_ok_iff.mp h
  obtain ⟨start, hstart, hsteps⟩ := bind_eq_ok_iff.mp hplace
  refine (Place.At.foldlM ?_ hp hsteps).leads
  cases habsolute : p.isAbsolute with
  | true =>
    rw [habsolute] at hstart
    cases hstart
    exact .root
  | false =>
    rw [habsolute] at hstart
    have hworking : Path.normalize [] fs.working = fs.working :=
      Path.normalize_of_forall hfs.working []
    have hat := Place.At.foldlM (.root : Place.At fs.root _ _)
      (fun n hn => (hfs.working n hn).toIsPiece) hstart
    rwa [hworking] at hat

theorem isEntryName_of_mem_resolve (h : fs.find p = .ok t) :
    ∀ n ∈ fs.resolve p, Path.IsEntryName n :=
  (hfs.root.leads (leads_resolve hfs hp h)).2

/-- The resolved path of what is found leads there too. -/
theorem find_resolvePath (h : fs.find p = .ok t) : fs.find (fs.resolvePath p) = .ok t := by
  have hstart : fs.find ⟨.root, []⟩ = .ok fs.root := rfl
  exact (find_below_eq_ok_iff hfs.root hstart (isEntryName_of_mem_resolve hfs hp h)).mpr
    (leads_resolve hfs hp h)

/-- Resolving a path again changes nothing. -/
theorem resolve_resolvePath (h : fs.find p = .ok t) :
    fs.resolve (fs.resolvePath p) = fs.resolve p :=
  Path.normalize_of_forall (isEntryName_of_mem_resolve hfs hp h) []

end Resolved

/-- Paths that start alike and have no steps to the parent mean different places. -/
theorem resolve_injective (hp : p.IsWritten) (hq : q.IsWritten) (hstart : p.start = q.start)
    (hp' : ".." ∉ p.names) (hq' : ".." ∉ q.names) (h : fs.resolve p = fs.resolve q) : p = q := by
  have hentry : ∀ {r : Path}, r.IsWritten → ".." ∉ r.names → ∀ n ∈ r.names, Path.IsEntryName n :=
    fun hr hr' n hn => ⟨hr n hn, ne_of_mem_of_not_mem hn hr'⟩
  have habsolute : p.isAbsolute = q.isAbsolute := by rw [Path.isAbsolute, Path.isAbsolute, hstart]
  rw [resolve, resolve, habsolute, Path.normalize_of_forall (hentry hp hp'),
    Path.normalize_of_forall (hentry hq hq')] at h
  obtain ⟨start, names⟩ := p
  obtain ⟨start', names'⟩ := q
  rw [Path.mk.injEq]
  exact ⟨hstart, List.append_cancel_left h⟩

end FileSystem

end TaggedComments
