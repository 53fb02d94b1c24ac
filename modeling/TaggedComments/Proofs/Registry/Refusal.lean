import TaggedComments.Proofs.Data.Writable
import TaggedComments.Proofs.Registry.Merge

/-!
# Why associations are refused

An association that stands for no entry is refused for the first of its parts that is not in order,
and several associations for the first of them that is refused.

- `Entry.Refused` lists the reasons to refuse one association; `Entry.read_eq_error_iff` says that
  these are the failures of reading it.
- `Registry.Refused` does so for the value that gives associations, with
  `Registry.register_eq_error_iff`.
-/

namespace TaggedComments

/-! ## Section 1: One association -/

namespace Entry

/-- A value is a well-formed extension. -/
def NamesExtension (d : Data) : Prop :=
  ∃ s, d = .text s ∧ IsExtension s

/-- A value is the name of a parser. -/
def NamesParser (d : Data) : Prop :=
  ∃ s, d = .text s ∧ s ≠ ""

/-- An association gives names of parsers, at least one, and nothing else in their place. -/
def GivesNames (a : Association) : Prop :=
  ∃ n ns, nameList? (parts a).1 = some (n :: ns) ∧ ∀ m ∈ n :: ns, NamesParser m

/-- The first part of an association that is not in order, and the failure that it makes. An integer
that is too long to be written is the failure instead of a wording that would show it. -/
inductive Refused : Data → Association → Failure → Prop where
  | extension {d : Data} {a : Association} (h : ¬ NamesExtension d) :
      Refused d a (.showing d (.badExtension d))
  | noParser {s : String} {a : Association} (hs : IsExtension s)
      (h : ∀ n ns, nameList? (parts a).1 ≠ some (n :: ns)) :
      Refused (.text s) a (.parserMissing s)
  | parser {s : String} {a : Association} {before later : List Data} {n : Data}
      (hs : IsExtension s) (h : nameList? (parts a).1 = some (before ++ n :: later))
      (hbefore : ∀ m ∈ before, NamesParser m) (hn : ¬ NamesParser n) :
      Refused (.text s) a (.showing n (.badParserName s n))
  | notList {s : String} {a : Association} (hs : IsExtension s) (hnames : GivesNames a)
      (h : (parts a).2.asSequence? = none) : Refused (.text s) a (.includedNotList s)
  | included {s : String} {a : Association} {before later : List Data} {x : Data}
      (hs : IsExtension s) (hnames : GivesNames a)
      (h : (parts a).2.asSequence? = some (before ++ x :: later))
      (hbefore : ∀ y ∈ before, NamesExtension y) (hx : ¬ NamesExtension x) :
      Refused (.text s) a (.showing x (.badExtension x))

theorem checkExtension_isOk_iff {d : Data} :
    (∃ s, checkExtension d = .ok s) ↔ NamesExtension d := by
  simp only [checkExtension_eq_ok_iff, NamesExtension]

theorem checkName_isOk_iff (extension : String) {d : Data} :
    (∃ s, checkName extension d = .ok s) ↔ NamesParser d := by
  simp only [checkName_eq_ok_iff, NamesParser]

theorem checkExtension_eq_error_iff {d : Data} {e : Failure} :
    checkExtension d = .error e ↔ ¬ NamesExtension d ∧ e = .showing d (.badExtension d) := by
  rw [← checkExtension_isOk_iff]
  unfold checkExtension
  split
  · split
    · simp
    · simp [eq_comm]
  · simp [eq_comm]

theorem checkName_eq_error_iff {extension : String} {d : Data} {e : Failure} :
    checkName extension d = .error e ↔
      ¬ NamesParser d ∧ e = .showing d (.badParserName extension d) := by
  rw [← checkName_isOk_iff extension]
  unfold checkName
  split
  · split
    · simp [eq_comm]
    · simp
  · simp [eq_comm]

/-- The names of an association, checked. -/
def readNames (extension : String) (a : Association) : Except Failure (List String) :=
  match nameList? (parts a).1 with
  | some (n :: ns) => (n :: ns).mapM (checkName extension)
  | _ => .error (.parserMissing extension)

/-- The included extensions of an association, checked. -/
def readIncluded (extension : String) (a : Association) : Except Failure (List String) :=
  match (parts a).2.asSequence? with
  | some ds => ds.mapM checkExtension
  | none => .error (.includedNotList extension)

theorem read_eq (d : Data) (a : Association) :
    read d a = checkExtension d >>= fun s => readNames s a >>= fun names =>
      readIncluded s a >>= fun included => .ok ⟨names, included⟩ := by
  unfold read readNames readIncluded
  obtain ⟨names, included⟩ := parts a
  dsimp only
  -- What is given as names and as included extensions decides which steps are taken.
  cases nameList? names with
  | none => rfl
  | some ns =>
    cases ns with
    | nil => rfl
    | cons n ns => cases included.asSequence? <;> rfl

theorem readNames_isOk_iff {s : String} {a : Association} :
    (∃ names, readNames s a = .ok names) ↔ GivesNames a := by
  unfold readNames GivesNames
  split
  · next n ns h =>
    simp only [mapM_isOk_iff, checkName_isOk_iff, h, Option.some.injEq]
    constructor
    · intro hnames
      exact ⟨n, ns, rfl, hnames⟩
    · rintro ⟨_, _, hlist, hnames⟩
      cases hlist
      exact hnames
  · next h =>
    constructor
    · rintro ⟨names, hnames⟩
      cases hnames
    · rintro ⟨n, ns, hlist, -⟩
      exact absurd hlist (h n ns)

theorem readNames_eq_error_iff {s : String} {a : Association} {e : Failure} :
    readNames s a = .error e ↔
      ((∀ n ns, nameList? (parts a).1 ≠ some (n :: ns)) ∧ e = .parserMissing s)
        ∨ ∃ before n later, nameList? (parts a).1 = some (before ++ n :: later)
          ∧ (∀ m ∈ before, NamesParser m) ∧ ¬ NamesParser n
          ∧ e = .showing n (.badParserName s n) := by
  unfold readNames
  split
  · next n ns h =>
    simp only [mapM_eq_error_iff, checkName_isOk_iff, checkName_eq_error_iff, h, Option.some.injEq]
    constructor
    · exact .inr
    · rintro (⟨hnone, -⟩ | hname)
      · exact absurd rfl (hnone n ns)
      · exact hname
  · next h =>
    constructor
    · intro he
      cases he
      exact .inl ⟨h, rfl⟩
    · rintro (⟨-, rfl⟩ | ⟨before, n, later, hlist, -⟩)
      · rfl
      · -- A list with a name in it is not empty.
        cases before with
        | nil => exact absurd hlist (h _ _)
        | cons m before => exact absurd hlist (h _ _)

theorem readIncluded_eq_error_iff {s : String} {a : Association} {e : Failure} :
    readIncluded s a = .error e ↔
      ((parts a).2.asSequence? = none ∧ e = .includedNotList s)
        ∨ ∃ before x later, (parts a).2.asSequence? = some (before ++ x :: later)
          ∧ (∀ y ∈ before, NamesExtension y) ∧ ¬ NamesExtension x
          ∧ e = .showing x (.badExtension x) := by
  unfold readIncluded
  cases (parts a).2.asSequence? with
  | none => simp [eq_comm]
  | some ds =>
    simp [mapM_eq_error_iff, checkExtension_isOk_iff, checkExtension_eq_error_iff]

/-- Reading fails for the first part that is not in order. -/
theorem read_eq_error_iff {d : Data} {a : Association} {e : Failure} :
    read d a = .error e ↔ Refused d a e := by
  rw [read_eq]
  simp only [bind_eq_error_iff, checkExtension_eq_error_iff, checkExtension_eq_ok_iff,
    readNames_eq_error_iff, readIncluded_eq_error_iff]
  constructor
  · rintro (⟨hd, rfl⟩ | ⟨s, ⟨rfl, hs⟩, (⟨h, rfl⟩ | ⟨before, n, later, h, hbefore, hn, rfl⟩) | ⟨names, hnames, h⟩⟩)
    · exact .extension hd
    · exact .noParser hs h
    · exact .parser hs h hbefore hn
    · have hgives : GivesNames a := readNames_isOk_iff.mp ⟨names, hnames⟩
      rcases h with (⟨h, rfl⟩ | ⟨before, x, later, h, hbefore, hx, rfl⟩) | ⟨included, -, h⟩
      · exact .notList hs hgives h
      · exact .included hs hgives h hbefore hx
      · cases h
  · intro h
    cases h with
    | extension hd => exact .inl ⟨hd, rfl⟩
    | noParser hs h => exact .inr ⟨_, ⟨rfl, hs⟩, .inl (.inl ⟨h, rfl⟩)⟩
    | parser hs h hbefore hn =>
      exact .inr ⟨_, ⟨rfl, hs⟩, .inl (.inr ⟨_, _, _, h, hbefore, hn, rfl⟩)⟩
    | notList hs hgives h =>
      obtain ⟨names, hnames⟩ := readNames_isOk_iff.mpr hgives
      exact .inr ⟨_, ⟨rfl, hs⟩, .inr ⟨names, hnames, .inl (.inl ⟨h, rfl⟩)⟩⟩
    | included hs hgives h hbefore hx =>
      obtain ⟨names, hnames⟩ := readNames_isOk_iff.mpr hgives
      exact .inr ⟨_, ⟨rfl, hs⟩, .inr ⟨names, hnames, .inl (.inr ⟨_, _, _, h, hbefore, hx, rfl⟩)⟩⟩

end Entry

/-! ## Section 2: The associations of a value -/

namespace Registry

/-- Why the associations of a value are refused: it counts as true and is no mapping, or one of its
entries is refused, and those before it stand for something. -/
inductive Refused : Data → Failure → Prop where
  | notMapping {given : Data} (htrue : given.truthy = true) (h : given.asMapping? = none) :
      Refused given .entriesNotMapping
  | entry {given : Data} {before later : List (Data × Data)} {x : Data × Data} {e : Failure}
      (htrue : given.truthy = true) (h : given.asMapping? = some (before ++ x :: later))
      (hbefore : ∀ y ∈ before, ∃ s d, y.1 = .text s ∧ (Association.value y.2).StandsFor s d)
      (hx : Entry.Refused x.1 (.value x.2) e) : Refused given e

/-- One association is read as an entry of its extension. -/
theorem readEntries_eq (given : List (Data × Association)) :
    readEntries given = given.mapM fun x => Entry.checkExtension x.1 >>= fun s =>
      (Entry.read x.1 x.2).map fun e => (s, e) := by
  have hmap : ∀ (s : String) (x : Except Failure (Entry String)),
      (x >>= fun e => .ok (s, e)) = x.map fun e => (s, e) := by
    intro s x
    cases x <;> rfl
  simp only [← hmap]
  rfl

theorem readEntries_eq_error_iff {given : List (Data × Association)} {e : Failure} :
    readEntries given = .error e ↔ ∃ before x later, given = before ++ x :: later
      ∧ (∀ y ∈ before, ∃ s d, y.1 = .text s ∧ y.2.StandsFor s d) ∧ Entry.Refused x.1 x.2 e := by
  have hok : ∀ y : Data × Association,
      (∃ z, (Entry.checkExtension y.1 >>= fun s => (Entry.read y.1 y.2).map fun e => (s, e)) =
        .ok z) ↔ ∃ s d, y.1 = .text s ∧ y.2.StandsFor s d := by
    intro y
    simp only [bind_eq_ok_iff, map_eq_ok_iff, Entry.checkExtension_eq_ok_iff, Entry.read_eq_ok_iff]
    constructor
    · rintro ⟨_, s, ⟨hs, -⟩, d, ⟨s', hs', hd⟩, -⟩
      exact ⟨s', d, hs', hd⟩
    · rintro ⟨s, d, hs, hd⟩
      exact ⟨_, s, ⟨hs, hd.extension⟩, d, ⟨s, hs, hd⟩, rfl⟩
  -- Reading checks the extension once more, so it fails whenever the first check does.
  have herror : ∀ x : Data × Association,
      (Entry.checkExtension x.1 >>= fun s => (Entry.read x.1 x.2).map fun e => (s, e)) =
        .error e ↔ Entry.Refused x.1 x.2 e := by
    intro x
    simp only [bind_eq_error_iff, map_eq_error_iff, ← Entry.read_eq_error_iff]
    constructor
    · rintro (h | ⟨-, -, h⟩)
      · rw [Entry.read_eq, h]
        rfl
      · exact h
    · intro h
      cases hcheck : Entry.checkExtension x.1 with
      | error f =>
        rw [Entry.read_eq, hcheck] at h
        cases h
        exact .inl rfl
      | ok s => exact .inr ⟨s, rfl, h⟩
  rw [readEntries_eq, mapM_eq_error_iff]
  simp only [hok, herror]

theorem register_eq_error_iff {r : Registry} {given : Data} {e : Failure} :
    r.register given = .error e ↔ Refused given e := by
  have hmerge : ∀ es, r.merge es = .error e ↔ readEntries es = .error e := by
    intro es
    unfold merge
    cases es with
    | nil => simp [readEntries, pure, Except.pure]
    | cons x es =>
      rw [if_neg (by simp)]
      cases readEntries (x :: es) <;> simp [Except.map]
  show (associationsOf given >>= r.merge) = .error e ↔ _
  simp only [bind_eq_error_iff, hmerge, readEntries_eq_error_iff, associationsOf_eq_ok_iff]
  constructor
  · rintro (h | ⟨es, hes, before, x, later, hsplit, hbefore, hx⟩)
    · unfold associationsOf at h
      split at h
      · next htrue =>
        split at h
        · next hmapping =>
          cases h
          exact .notMapping htrue hmapping
        · cases h
      · cases h
    · rcases hes with ⟨-, rfl⟩ | ⟨htrue, fs, hfs, rfl⟩
      · simp at hsplit
      · -- The associations before the refused one come from the entries before its own.
        obtain ⟨front, back, rfl, rfl, hback⟩ := List.map_eq_append_iff.mp hsplit
        obtain ⟨z, later', rfl, rfl, rfl⟩ := List.map_eq_cons_iff.mp hback
        refine .entry htrue hfs (fun y hy => ?_) hx
        exact hbefore (y.1, .value y.2) (List.mem_map_of_mem hy)
  · intro h
    cases h with
    | notMapping htrue hmapping =>
      left
      rw [associationsOf, if_pos htrue, hmapping]
    | @entry before later x _ htrue hmapping hbefore hx =>
      right
      refine ⟨_, .inr ⟨htrue, _, hmapping, rfl⟩, before.map fun y => (y.1, .value y.2),
        (x.1, .value x.2), later.map fun y => (y.1, .value y.2), by simp, ?_, hx⟩
      intro y hy
      obtain ⟨z, hz, rfl⟩ := List.mem_map.mp hy
      exact hbefore z hz

end Registry

/-! ## Section 3: What a refusal names -/

namespace Entry

theorem isWritable_parts {d : Data} (h : d.isWritable = true) :
    (parts (.value d)).1.isWritable = true ∧ (parts (.value d)).2.isWritable = true := by
  have heither : ∀ key other, (either d key other).isWritable = true := by
    intro key other
    unfold either
    cases hkey : d.get? key with
    | some v => exact Data.isWritable_of_get? h hkey
    | none =>
      cases hother : d.get? other with
      | some v => exact Data.isWritable_of_get? h hother
      | none => rfl
  rw [parts]
  split
  · refine ⟨heither _ _, ?_⟩
    unfold Data.orElse
    split
    · exact heither _ _
    · rfl
  · exact ⟨h, rfl⟩

theorem isWritable_of_nameList? {d : Data} {names : List Data} (h : d.isWritable = true)
    (hnames : nameList? d = some names) : ∀ n ∈ names, n.isWritable = true := by
  unfold nameList? at hnames
  split at hnames
  · cases hnames
    simp
  · exact Data.isWritable_of_asSequence? h hnames

/-- The refusal of an association whose integers can be written names the part that is not in
order. -/
theorem Refused.field?_isSome {d a : Data} {e : Failure} (h : Refused d (.value a) e)
    (hd : d.isWritable = true) (ha : a.isWritable = true) : e.field?.isSome = true := by
  have hshowing : ∀ (x : Data) (f : Failure), x.isWritable = true → Failure.showing x f = f := by
    intro x f hx
    rw [Failure.showing, if_pos hx]
  cases h with
  | extension => rw [hshowing d _ hd]; rfl
  | noParser => rfl
  | parser _ hlist =>
    rw [hshowing _ _ (isWritable_of_nameList? (isWritable_parts ha).1 hlist _ (by simp))]
    rfl
  | notList => rfl
  | included _ _ hincluded =>
    rw [hshowing _ _ (Data.isWritable_of_asSequence? (isWritable_parts ha).2 hincluded _ (by simp))]
    rfl

end Entry

theorem Registry.Refused.field?_isSome {given : Data} {e : Failure} (h : Registry.Refused given e)
    (hgiven : given.isWritable = true) : e.field?.isSome = true := by
  cases h with
  | notMapping => rfl
  | entry _ hmapping _ hx =>
    have hentry := Data.isWritable_of_asMapping? hgiven hmapping _ (List.mem_append_right _ List.mem_cons_self)
    exact hx.field?_isSome hentry.1 hentry.2

end TaggedComments
