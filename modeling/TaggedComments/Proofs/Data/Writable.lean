import TaggedComments.Data.Access

/-!
# Values that can be written

A value can be written if none of its integers is too long. Its parts can then be written too, also
if the value contains itself.

- `Data.areWritable_iff` and `Data.areWritableEntries_iff` say so of items and entries.
- `Data.isWritable_unfold` opens a value that contains itself.
- `Data.isWritable_of_get?` and the lemmas beside it take a value apart.
-/

namespace TaggedComments.Data

variable {d : Data}

theorem isWritable_int_iff {n : Int} :
    (Data.int n).isWritable = true ↔ n.natAbs < Nat.pow 10 Integer.maxDigits := by
  rw [isWritable, decide_eq_true_eq]

theorem areWritable_iff {xs : List Data} :
    areWritable xs = true ↔ ∀ x ∈ xs, x.isWritable = true := by
  induction xs with
  | nil => simp [areWritable]
  | cons x xs ih => rw [areWritable, Bool.and_eq_true, ih, List.forall_mem_cons]

theorem areWritableEntries_iff {es : List (Data × Data)} :
    areWritableEntries es = true ↔
      ∀ e ∈ es, e.1.isWritable = true ∧ e.2.isWritable = true := by
  induction es with
  | nil => simp [areWritableEntries]
  | cons e es ih =>
    obtain ⟨k, v⟩ := e
    rw [areWritableEntries, Bool.and_eq_true, Bool.and_eq_true, ih, List.forall_mem_cons]

mutual

/-- What can be written may stand in the places of a name. -/
theorem isWritable_tie {n : Nat} {whole : Data} (hwhole : whole.isWritable = true) :
    ∀ d : Data, d.isWritable = true → (tie n whole d).isWritable = true
  | .scalar s, h => h
  | .list xs, h => areWritable_tie hwhole xs h
  | .mapping es, h => areWritableEntries_tie hwhole es h
  | .set xs, h => areWritable_tie hwhole xs h
  | .pair a b, h => by
    obtain ⟨ha, hb⟩ := Bool.and_eq_true_iff.mp h
    exact Bool.and_eq_true_iff.mpr ⟨isWritable_tie hwhole a ha, isWritable_tie hwhole b hb⟩
  | .knot m b, h => by
    rw [tie]
    split
    · exact h
    · exact isWritable_tie hwhole b h
  | .again m, h => by
    rw [tie]
    split
    · exact hwhole
    · exact h

theorem areWritable_tie {n : Nat} {whole : Data} (hwhole : whole.isWritable = true) :
    ∀ xs : List Data, areWritable xs = true → areWritable (tieItems n whole xs) = true
  | [], h => h
  | x :: xs, h => by
    obtain ⟨hx, hxs⟩ := Bool.and_eq_true_iff.mp h
    exact Bool.and_eq_true_iff.mpr ⟨isWritable_tie hwhole x hx, areWritable_tie hwhole xs hxs⟩

theorem areWritableEntries_tie {n : Nat} {whole : Data} (hwhole : whole.isWritable = true) :
    ∀ es : List (Data × Data), areWritableEntries es = true →
      areWritableEntries (tieEntries n whole es) = true
  | [], h => h
  | (k, v) :: es, h => by
    obtain ⟨hkv, hes⟩ := Bool.and_eq_true_iff.mp h
    obtain ⟨hk, hv⟩ := Bool.and_eq_true_iff.mp hkv
    rw [tieEntries, areWritableEntries, isWritable_tie hwhole k hk, isWritable_tie hwhole v hv,
      areWritableEntries_tie hwhole es hes]
    rfl

end

theorem isWritable_unfold (h : d.isWritable = true) : d.unfold.isWritable = true := by
  cases d with
  | knot n b => exact isWritable_tie h b h
  | _ => exact h

theorem isWritable_of_asMapping? {es : List (Data × Data)} (h : d.isWritable = true)
    (hes : d.asMapping? = some es) : ∀ e ∈ es, e.1.isWritable = true ∧ e.2.isWritable = true := by
  unfold asMapping? at hes
  split at hes
  · next fs hmapping =>
    cases hes
    have hunfold := isWritable_unfold h
    rw [hmapping] at hunfold
    exact areWritableEntries_iff.mp hunfold
  · cases hes

theorem isWritable_of_asSequence? {xs : List Data} (h : d.isWritable = true)
    (hxs : d.asSequence? = some xs) : ∀ x ∈ xs, x.isWritable = true := by
  have hunfold := isWritable_unfold h
  unfold asSequence? at hxs
  split at hxs
  · next ys hlist =>
    cases hxs
    rw [hlist] at hunfold
    exact areWritable_iff.mp hunfold
  · next a b hpair =>
    cases hxs
    rw [hpair] at hunfold
    obtain ⟨ha, hb⟩ := Bool.and_eq_true_iff.mp hunfold
    simp [ha, hb]
  · cases hxs

theorem isWritable_of_get? {key : String} {v : Data} (h : d.isWritable = true)
    (hv : d.get? key = some v) : v.isWritable = true := by
  unfold get? lookup? at hv
  split at hv
  · next es hmapping =>
    obtain ⟨e, he, rfl⟩ := Option.map_eq_some_iff.mp hv
    have hes : d.asMapping? = some es := by rw [asMapping?, hmapping]
    exact (isWritable_of_asMapping? h hes e (List.mem_of_find?_eq_some he)).2
  · cases hv

end TaggedComments.Data
