import TaggedComments.Proofs.Registry.Entry
import TaggedComments.Registry.Builtin

/-!
# Registries as tables

A registry is a table in which an entry can only be added or replaced.

- `Registry.find?_set` and `Registry.find?_setAll` say what is found after entries are set.
- `Registry.WellFormed` says that keys and entries have the right form and that no key occurs twice;
  `Registry.WellFormed.setAll` keeps it, `Registry.wellFormed_builtin` starts it.
- `Registry.supports_setAll` says that no key is lost.
-/

namespace TaggedComments.Registry

variable {r : Registry} {x y : String} {e : Entry String} {es added : List (String × Entry String)}

/-! ## Section 1: What is found -/

theorem lookup_cons_eq_ite {k : String} {d : Entry String} :
    ((k, d) :: es).lookup y = if y = k then some d else es.lookup y := by
  rw [List.lookup_cons]
  by_cases h : y = k
  · simp [h]
  · simp [h, beq_eq_false_iff_ne.mpr h]

theorem lookup_setEntry :
    (setEntry x e es).lookup y = if y = x then some e else es.lookup y := by
  induction es with
  | nil => exact lookup_cons_eq_ite
  | cons head es ih =>
    obtain ⟨k, d⟩ := head
    rw [setEntry]
    split
    · next hk =>
      -- The key is found here, and its entry is replaced.
      obtain rfl : k = x := hk
      rw [lookup_cons_eq_ite, lookup_cons_eq_ite]
      by_cases h : y = k
      · simp [h]
      · simp [h]
    · next hk =>
      rw [lookup_cons_eq_ite, ih, lookup_cons_eq_ite]
      by_cases hyk : y = k
      · have hyx : ¬ y = x := fun hyx => hk (hyk.symm.trans hyx)
        simp [hyk, hyk ▸ hyx]
      · simp [hyk]

@[simp] theorem find?_set : (r.set x e).find? y = if y = x then some e else r.find? y :=
  lookup_setEntry

/-- Of the entries that are set for one key the last one is found. -/
theorem find?_setAll : (r.setAll added).find? y = (added.reverse.lookup y).or (r.find? y) := by
  induction added generalizing r with
  | nil => rfl
  | cons head added ih =>
    obtain ⟨k, d⟩ := head
    have hstep : r.setAll ((k, d) :: added) = (r.set k d).setAll added := rfl
    rw [hstep, ih, List.reverse_cons, List.lookup_append, find?_set, lookup_cons_eq_ite,
      List.lookup_nil, Option.or_assoc]
    by_cases h : y = k
    · simp [h]
    · simp [h]

/-! ## Section 2: Keys -/

/-- The keys of entries after one is set: a known key keeps its place, a new one comes last. -/
theorem map_fst_setEntry :
    (setEntry x e es).map (·.1) =
      if x ∈ es.map (·.1) then es.map (·.1) else es.map (·.1) ++ [x] := by
  induction es with
  | nil => rfl
  | cons head es ih =>
    rw [setEntry]
    split
    · next hk => simp [hk]
    · next hk =>
      rw [List.map_cons, ih]
      have hne : ¬ x = head.1 := fun h => hk h.symm
      by_cases h : x ∈ es.map (·.1)
      · simp [h]
      · simp [h, hne]

theorem mem_setEntry {z : String × Entry String} (h : z ∈ setEntry x e es) :
    z = (x, e) ∨ z ∈ es := by
  induction es with
  | nil => exact .inl (List.mem_singleton.mp h)
  | cons head es ih =>
    rw [setEntry] at h
    split at h
    · next hk =>
      rcases List.mem_cons.mp h with rfl | h
      · exact .inl (by rw [hk])
      · exact .inr (List.mem_cons_of_mem _ h)
    · rcases List.mem_cons.mp h with rfl | h
      · exact .inr List.mem_cons_self
      · exact (ih h).imp id (List.mem_cons_of_mem _)

theorem supports_iff : r.supports x = true ↔ x ∈ r.entries.map (·.1) := by
  rw [supports, find?, ← not_iff_not, Bool.not_eq_true, Option.isSome_eq_false_iff,
    Option.isNone_iff_eq_none, List.lookup_eq_none_iff]
  simp only [bne_iff_ne, ne_eq, List.mem_map, not_exists, not_and]
  constructor
  · intro h z hz hzx
    exact h z hz hzx.symm
  · intro h z hz hzx
    exact h z hz hzx.symm

/-- Setting entries takes no key away. -/
theorem supports_setAll (h : r.supports x = true) : (r.setAll added).supports x = true := by
  rw [supports, find?_setAll, Option.isSome_or]
  rw [supports] at h
  rw [h, Bool.or_true]

/-! ## Section 3: The form of a registry -/

/-- A registry has one entry for each of its keys, the keys are extensions, and the entries are
well-formed. -/
structure WellFormed (r : Registry) : Prop where
  nodup : (r.entries.map (·.1)).Nodup
  extension : ∀ z ∈ r.entries, Entry.IsExtension z.1
  entry : ∀ z ∈ r.entries, z.2.WellFormed

theorem WellFormed.set (h : r.WellFormed) (hx : Entry.IsExtension x) (he : e.WellFormed) :
    (r.set x e).WellFormed where
  nodup := by
    rw [Registry.set, map_fst_setEntry]
    split
    · exact h.nodup
    · next hnew =>
      rw [List.nodup_append]
      refine ⟨h.nodup, by simp, ?_⟩
      rintro k hk _ hkx rfl
      exact hnew (List.mem_singleton.mp hkx ▸ hk)
  extension := by
    intro z hz
    rcases mem_setEntry hz with rfl | hz
    · exact hx
    · exact h.extension z hz
  entry := by
    intro z hz
    rcases mem_setEntry hz with rfl | hz
    · exact he
    · exact h.entry z hz

theorem WellFormed.setAll (h : r.WellFormed)
    (hadded : ∀ z ∈ added, Entry.IsExtension z.1 ∧ z.2.WellFormed) :
    (r.setAll added).WellFormed := by
  induction added generalizing r with
  | nil => exact h
  | cons head added ih =>
    obtain ⟨hhead, hadded⟩ := List.forall_mem_cons.mp hadded
    exact ih (h.set hhead.1 hhead.2) hadded

/-- Entries that associations stand for have the right form. -/
theorem StandFor.wellFormed {given : List (Data × Association)} (h : StandFor given added) :
    ∀ z ∈ added, Entry.IsExtension z.1 ∧ z.2.WellFormed := by
  induction h with
  | nil => simp
  | cons hhead _ ih =>
    exact List.forall_mem_cons.mpr ⟨⟨hhead.2.extension, hhead.2.wellFormed⟩, ih⟩

/-! ## Section 4: The builtin registry -/

/-- Every builtin association is in order, so each of its extensions has an entry. -/
theorem map_fst_builtin : builtin.entries.map (·.1) = builtinAssociations.map (·.1) := by
  decide +kernel

theorem wellFormed_builtin : builtin.WellFormed := by
  have hentry : ∀ z ∈ builtin.entries, ∃ a : Association, a.StandsFor z.1 z.2 := by
    intro z hz
    obtain ⟨⟨s, a⟩, -, hread⟩ := List.mem_filterMap.mp hz
    obtain ⟨e, he, rfl⟩ := Option.map_eq_some_iff.mp hread
    -- What is kept of the builtin associations was read.
    cases hok : Entry.read (.text s) a with
    | error f => simp [hok, Except.toOption] at he
    | ok e' =>
      obtain ⟨t, ht, hstands⟩ := Entry.read_eq_ok_iff.mp hok
      simp only [hok, Except.toOption, Option.some.injEq] at he
      cases ht
      exact ⟨a, he ▸ hstands⟩
  refine ⟨?_, fun z hz => ?_, fun z hz => ?_⟩
  · rw [map_fst_builtin]
    decide +kernel
  · obtain ⟨a, hstands⟩ := hentry z hz
    exact hstands.extension
  · obtain ⟨a, hstands⟩ := hentry z hz
    exact hstands.wellFormed

end TaggedComments.Registry
