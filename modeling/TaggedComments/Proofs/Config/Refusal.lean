import TaggedComments.Config.Basic
import TaggedComments.Proofs.Steps

/-!
# When settings are refused

The settings of a mapping are read one after another. Each can be given in a form that stands for
nothing, and the first that is decides the failure. A setting that counts as false is as good as a
missing one.

- `Config.NamesRefused`, `Config.EntryRefused` and `Config.EntriesRefused` say why a list of names, an
  item of a list of entries and the entries of a setting are refused.
- `Config.causes` lists why a mapping is refused, `Config.ofData_eq_error_iff` says that the list is
  complete.
-/

namespace TaggedComments

/-! ## Section 1: Elements and entries -/

namespace Data

/-- Whatever has no elements fails alike. -/
theorem elements_eq_error_iff {d : Data} {e : Failure} :
    d.elements = .error e ↔ (∀ xs, d.elements ≠ .ok xs) ∧ e = .wrongKind := by
  unfold elements
  split <;> simp [eq_comm]

theorem shown_eq_error_iff {d : Data} {e : Failure} :
    d.shown = .error e ↔ d.isWritable = false ∧ e = .numberTooLong := by
  unfold shown
  cases d.isWritable <;> simp [eq_comm]

/-- A mapping has the fields that are found in it. -/
theorem field_of_asMapping? {d : Data} {key : String} (h : d.asMapping?.isSome = true) :
    d.field key = .ok (d.get? key) := by
  unfold asMapping? at h
  unfold field get?
  cases hvalue : d.unfold with
  | mapping es => rfl
  | _ => simp [hvalue] at h

/-- Only mappings have fields. -/
theorem field_eq_error_iff {d : Data} {key : String} {e : Failure} :
    d.field key = .error e ↔ d.asMapping? = none ∧ e = .noSuchPart := by
  unfold field asMapping?
  cases d.unfold <;> simp [eq_comm]

end Data

namespace Config

open Data (asEntry)

/-- Why a value is refused as a list of names: it has no elements, or one that cannot be written. -/
inductive NamesRefused (v : Data) : Failure → Prop where
  | noElements (h : ∀ xs, v.elements ≠ .ok xs) : NamesRefused v .wrongKind
  | tooLong {xs : List Data} {x : Data} (hxs : v.elements = .ok xs) (hx : x ∈ xs)
      (h : x.isWritable = false) : NamesRefused v .numberTooLong

/-- A value stands for an entry: it has two elements, the first of which may be a key. -/
def IsEntry (x : Data) : Prop :=
  ∃ k v, x.elements = .ok [k, v] ∧ k.isKey = true

/-- Why a value at a place of a list stands for no entry. -/
inductive EntryRefused (index : Nat) (x : Data) : Failure → Prop where
  | noElements (h : ∀ xs, x.elements ≠ .ok xs) : EntryRefused index x .wrongKind
  | badKey {k v : Data} (hxs : x.elements = .ok [k, v]) (hk : k.isKey = false) :
      EntryRefused index x .wrongKind
  | badLength {xs : List Data} (hxs : x.elements = .ok xs) (hlength : xs.length ≠ 2) :
      EntryRefused index x (.badPair index xs.length)

/-- Why a value is refused as the entries of a setting: it is neither a mapping nor has it elements,
or one of these stands for no entry, and this is the first. -/
inductive EntriesRefused (v : Data) : Failure → Prop where
  | noElements (hmapping : v.asMapping? = none) (h : ∀ xs, v.elements ≠ .ok xs) :
      EntriesRefused v .wrongKind
  | item {before later : List Data} {x : Data} {e : Failure} (hmapping : v.asMapping? = none)
      (hxs : v.elements = .ok (before ++ x :: later)) (hbefore : ∀ y ∈ before, IsEntry y)
      (hx : EntryRefused before.length x e) : EntriesRefused v e

/-- Why a mapping is refused, in the order in which the causes count. -/
def causes (d : Data) : List (Failure → Prop) := [
  fun e => ∃ v, d.get? "tags" = some v ∧ v.truthy = true ∧ NamesRefused v e,
  fun e => ∃ v, d.get? "ignore" = some v ∧ v.truthy = true ∧ NamesRefused v e,
  fun e => ∃ v, d.get? "associate" = some v ∧ v.truthy = true ∧ EntriesRefused v e,
  fun e => ∃ v, d.get? "reporter" = some v ∧ v.isWritable = false ∧ e = .numberTooLong,
  fun e => ∃ v, d.get? "scan" = some v ∧ v.truthy = true ∧ v.asMapping? = none
    ∧ e = .noSuchPart]

/-! ## Section 2: One setting -/

theorem mapM_shown_eq_error_iff {xs : List Data} {e : Failure} :
    xs.mapM Data.shown = .error e ↔ (∃ x ∈ xs, x.isWritable = false) ∧ e = .numberTooLong := by
  have hunique : ∀ x ∈ xs, ∀ e, x.shown = .error e → e = .numberTooLong :=
    fun x _ e h => (Data.shown_eq_error_iff.mp h).2
  rw [mapM_eq_error_iff_of_unique hunique]
  simp only [Data.shown_eq_error_iff, and_true]

theorem readNames_eq_error_iff {setting : Option Data} {e : Failure} :
    readNames setting = .error e ↔
      ∃ v, setting = some v ∧ v.truthy = true ∧ NamesRefused v e := by
  cases setting with
  | none => simp [readNames]
  | some v =>
    rw [readNames]
    split
    · next htrue =>
      simp only [bind_eq_error_iff, Data.elements_eq_error_iff, mapM_shown_eq_error_iff,
        Option.some.injEq, exists_eq_left', htrue, true_and]
      constructor
      · rintro (⟨h, rfl⟩ | ⟨xs, hxs, ⟨x, hx, h⟩, rfl⟩)
        · exact .noElements h
        · exact .tooLong hxs hx h
      · intro h
        cases h with
        | noElements h => exact .inl ⟨h, rfl⟩
        | tooLong hxs hx h => exact .inr ⟨_, hxs, ⟨_, hx, h⟩, rfl⟩
    · next hfalse => simp [hfalse]

theorem asEntry_isOk_iff {index : Nat} {x : Data} :
    (∃ entry, asEntry index x = .ok entry) ↔ IsEntry x := by
  unfold asEntry IsEntry
  cases hxs : x.elements with
  | error e => simp [bind_eq_ok_iff]
  | ok xs =>
    simp only [ok_bind, Except.ok.injEq]
    split
    · next k v => cases hk : k.isKey <;> simp [hk]
    · next hshape =>
      constructor
      · rintro ⟨entry, h⟩
        cases h
      · rintro ⟨k, v, rfl, -⟩
        exact absurd rfl (hshape k v)

theorem asEntry_eq_error_iff {index : Nat} {x : Data} {e : Failure} :
    asEntry index x = .error e ↔ EntryRefused index x e := by
  unfold asEntry
  rw [bind_eq_error_iff, Data.elements_eq_error_iff]
  constructor
  · rintro (⟨h, rfl⟩ | ⟨xs, hxs, h⟩)
    · exact .noElements h
    · split at h
      · next k v =>
        cases hk : k.isKey with
        | true => simp [hk] at h
        | false =>
          simp only [hk, Bool.false_eq_true, if_false] at h
          cases h
          exact .badKey hxs hk
      · next hshape =>
        cases h
        refine .badLength hxs fun hlength => ?_
        obtain ⟨k, v, rfl⟩ := List.length_eq_two.mp hlength
        exact hshape k v rfl
  · intro h
    cases h with
    | noElements h => exact .inl ⟨h, rfl⟩
    | badKey hxs hk => exact .inr ⟨_, hxs, by simp [hk]⟩
    | @badLength xs hxs hlength =>
      refine .inr ⟨xs, hxs, ?_⟩
      split
      · next k v => exact absurd rfl hlength
      · rfl

/-- Items of a list are asked for their entries by their places. -/
theorem mapM_asEntry_eq_error_iff {n : Nat} {xs : List Data} {e : Failure} :
    ((xs.zipIdx n).mapM fun x => asEntry x.2 x.1) = .error e ↔ ∃ before x later,
      xs = before ++ x :: later ∧ (∀ y ∈ before, IsEntry y)
        ∧ EntryRefused (n + before.length) x e := by
  -- The places behind the first item count on, so the induction is for any first place.
  induction xs generalizing n with
  | nil =>
    constructor
    · intro h
      cases h
    · rintro ⟨before, x, later, h, -⟩
      cases before <;> cases h
  | cons x xs ih =>
    rw [List.zipIdx_cons, List.mapM_cons, bind_eq_error_iff, asEntry_eq_error_iff]
    constructor
    · rintro (hx | ⟨entry, hentry, h⟩)
      · exact ⟨[], x, xs, rfl, by simp, hx⟩
      · rcases bind_eq_error_iff.mp h with h | ⟨ys, -, h⟩
        · obtain ⟨before, y, later, rfl, hbefore, hy⟩ := ih.mp h
          have hall := List.forall_mem_cons.mpr ⟨asEntry_isOk_iff.mp ⟨entry, hentry⟩, hbefore⟩
          refine ⟨x :: before, y, later, rfl, hall, ?_⟩
          rw [List.length_cons, Nat.add_comm before.length, ← Nat.add_assoc]
          exact hy
        · cases h
    · rintro ⟨before, y, later, hsplit, hbefore, hy⟩
      cases before with
      | nil =>
        obtain ⟨rfl, -⟩ := List.cons.inj hsplit
        exact .inl hy
      | cons z before =>
        obtain ⟨rfl, rfl⟩ := List.cons.inj hsplit
        obtain ⟨hz, hbefore⟩ := List.forall_mem_cons.mp hbefore
        obtain ⟨entry, hentry⟩ := asEntry_isOk_iff.mpr hz
        rw [List.length_cons, Nat.add_comm before.length, ← Nat.add_assoc] at hy
        have hlater := ih.mpr ⟨before, y, later, rfl, hbefore, hy⟩
        exact .inr ⟨entry, hentry, bind_eq_error_iff.mpr (.inl hlater)⟩

theorem asEntries_eq_error_iff {v : Data} {e : Failure} :
    v.asEntries = .error e ↔ EntriesRefused v e := by
  unfold Data.asEntries
  cases hmapping : v.asMapping? with
  | some es =>
    simp only [reduceCtorEq, false_iff]
    intro h
    cases h with
    | noElements hnone => simp [hmapping] at hnone
    | item hnone => simp [hmapping] at hnone
  | none =>
    simp only [bind_eq_error_iff, Data.elements_eq_error_iff, mapM_asEntry_eq_error_iff,
      Nat.zero_add]
    constructor
    · rintro (⟨h, rfl⟩ | ⟨xs, hxs, ⟨before, x, later, rfl, hbefore, hx⟩ | ⟨_, -, h⟩⟩)
      · exact .noElements hmapping h
      · exact .item hmapping hxs hbefore hx
      · cases h
    · intro h
      cases h with
      | noElements _ h => exact .inl ⟨h, rfl⟩
      | item _ hxs hbefore hx => exact .inr ⟨_, hxs, .inl ⟨_, _, _, rfl, hbefore, hx⟩⟩

theorem readEntries_eq_error_iff {setting : Option Data} {e : Failure} :
    readEntries setting = .error e ↔
      ∃ v, setting = some v ∧ v.truthy = true ∧ EntriesRefused v e := by
  cases setting with
  | none => simp [readEntries]
  | some v => cases htrue : v.truthy <;> simp [readEntries, htrue, asEntries_eq_error_iff]

/-- The text `table` stands for a setting that is missing. -/
theorem reporter_eq_error_iff {setting : Option Data} {e : Failure} :
    (setting.getD (.text "table")).shown = .error e ↔
      ∃ v, setting = some v ∧ v.isWritable = false ∧ e = .numberTooLong := by
  cases setting <;> simp [Data.shown_eq_error_iff]

/-- Switches can be read off what counts as false and off mappings. -/
theorem readSwitch_eq_error_iff {setting : Option Data} {key : String} {e : Failure} :
    readSwitch ((setting.getD .null).orElse (.mapping [])) key = .error e ↔
      ∃ v, setting = some v ∧ v.truthy = true ∧ v.asMapping? = none ∧ e = .noSuchPart := by
  rw [readSwitch, map_eq_error_iff, Data.field_eq_error_iff]
  cases setting with
  | none => simp [Data.orElse, Data.truthy, Scalar.truthy, Data.asMapping?]
  | some v => cases htrue : v.truthy <;> simp [Data.orElse, htrue, Data.asMapping?]

/-! ## Section 3: All settings -/

/-- The settings of a mapping are refused for the causes in the list, in their order. -/
theorem ofData_eq_error_iff {d : Data} (hd : d.asMapping?.isSome = true) (e : Failure) :
    ofData d = .error e ↔ FirstOf (causes d) e := by
  unfold ofData
  rw [Data.field_of_asMapping? hd, ok_bind]
  refine bind_eq_error_iff_firstOf [_] ((causes d).drop 1) ?_ ?_ e
  · intro e
    rw [readNames_eq_error_iff, firstOf_singleton]
  intro tags _
  refine bind_eq_error_iff_firstOf [_] ((causes d).drop 2) ?_ ?_
  · intro e
    rw [readNames_eq_error_iff, firstOf_singleton]
  intro ignore _
  refine bind_eq_error_iff_firstOf [_] ((causes d).drop 3) ?_ ?_
  · intro e
    rw [readEntries_eq_error_iff, firstOf_singleton]
  intro associate _
  refine bind_eq_error_iff_firstOf [_] ((causes d).drop 4) ?_ ?_
  · intro e
    rw [reporter_eq_error_iff, firstOf_singleton]
  intro reporter _
  -- All switches are read off one value: if the first can be, then so can the others.
  refine bind_eq_error_iff_firstOf [_] [] ?_ ?_
  · intro e
    rw [readSwitch_eq_error_iff, firstOf_singleton]
  intro inlineFiles hfirst e
  have hnone : ∀ key f,
      readSwitch (((d.get? "scan").getD .null).orElse (.mapping [])) key ≠ .error f := by
    intro key f hf
    cases hfirst.symm.trans (readSwitch_eq_error_iff.mpr (readSwitch_eq_error_iff.mp hf))
  simp only [bind_eq_error_iff, hnone, false_or, FirstOf, iff_false]
  rintro ⟨_, -, _, -, h⟩
  cases h

end Config

end TaggedComments
