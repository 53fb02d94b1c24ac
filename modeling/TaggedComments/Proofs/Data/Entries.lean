import Mathlib.Data.List.Induction
import TaggedComments.Data.Basic
import TaggedComments.Distinct

/-!
# Looking keys up

A key that is set is found with its value, and every other key is found as before. Of several values
for one key the last counts.

- `Data.lookup?_put` and `Data.lookup?_putAll` say so of one key and of several.
- `Data.DistinctKeys` says that no key is there twice, `Data.lookup?_of_mem` that an entry is then
  found by its key; `Data.lookup?_putAll_putAll` is about entries that are set twice.
- `Data.map_fst_putAll` says in which order keys stand that are set one after another.
-/

namespace TaggedComments.Data

variable {key value : Data} {entries added : List (Data × Data)}

/-- Keys that are the same as one key are the same as the same keys. -/
theorem same_congr {a b : Data} (h : a.same b = true) (c : Data) : a.same c = b.same c := by
  apply Bool.eq_iff_iff.mpr
  constructor
  · intro hac
    rw [same_comm] at h
    exact same_trans h hac
  · exact same_trans h

theorem lookup?_cons (e : Data × Data) (es : List (Data × Data)) :
    lookup? key (e :: es) = if e.1.same key then some e.2 else lookup? key es := by
  unfold lookup?
  rw [List.find?_cons]
  cases e.1.same key <;> rfl

theorem lookup?_append (es fs : List (Data × Data)) :
    lookup? key (es ++ fs) = (lookup? key es).or (lookup? key fs) := by
  rw [lookup?, List.find?_append, Option.map_or]
  rfl

/-- A key that is set is found with its value, and every other key as before. -/
theorem lookup?_put (k : Data) :
    lookup? k (put key value entries) = if key.same k then some value else lookup? k entries := by
  induction entries with
  | nil => rw [put, lookup?_cons]
  | cons e es ih =>
    rw [put]
    split
    · next hkey =>
      rw [lookup?_cons, lookup?_cons, same_congr hkey]
      cases key.same k <;> rfl
    · next hkey =>
      rw [lookup?_cons, ih, lookup?_cons]
      cases hek : e.1.same k with
      | false => rfl
      | true =>
        -- Two keys that are found as one would be the same.
        have hne : key.same k = false := by
          apply Bool.eq_false_iff.mpr
          intro hk
          rw [same_comm] at hk
          exact hkey (same_trans hek hk)
        simp [hne]

/-- Of several values that are set for a key the last is found. -/
theorem lookup?_putAll (k : Data) :
    lookup? k (putAll entries added) = (lookup? k added.reverse).or (lookup? k entries) := by
  induction added generalizing entries with
  | nil => rfl
  | cons a added ih =>
    have hput : putAll entries (a :: added) = putAll (put a.1 a.2 entries) added := rfl
    rw [hput, ih, lookup?_put, List.reverse_cons, lookup?_append, Option.or_assoc, lookup?_cons]
    cases a.1.same k <;> rfl

/-- No key is there twice. -/
def DistinctKeys (entries : List (Data × Data)) : Prop :=
  entries.Pairwise fun e f => e.1.same f.1 = false

/-- The key of an entry is one of the old keys or the one that was set. -/
theorem fst_of_mem_put {f : Data × Data} (h : f ∈ put key value entries) :
    f.1 = key ∨ ∃ e ∈ entries, f.1 = e.1 := by
  induction entries with
  | nil =>
    obtain rfl := List.mem_singleton.mp h
    exact .inl rfl
  | cons e es ih =>
    rw [put] at h
    split at h
    · rcases List.mem_cons.mp h with rfl | h
      · exact .inr ⟨e, List.mem_cons_self, rfl⟩
      · exact .inr ⟨f, List.mem_cons_of_mem e h, rfl⟩
    · rcases List.mem_cons.mp h with rfl | h
      · exact .inr ⟨f, List.mem_cons_self, rfl⟩
      · rcases ih h with hkey | ⟨g, hg, hkey⟩
        · exact .inl hkey
        · exact .inr ⟨g, List.mem_cons_of_mem e hg, hkey⟩

theorem distinctKeys_put (h : DistinctKeys entries) : DistinctKeys (put key value entries) := by
  induction entries with
  | nil => exact .cons (by simp) .nil
  | cons e es ih =>
    obtain ⟨he, hes⟩ := List.pairwise_cons.mp h
    rw [put]
    split
    · exact .cons he hes
    · next hkey =>
      refine .cons (fun f hf => ?_) (ih hes)
      rcases fst_of_mem_put hf with hf | ⟨g, hg, hf⟩
      · rw [hf]
        exact Bool.eq_false_iff.mpr hkey
      · rw [hf]
        exact he g hg

theorem distinctKeys_putAll (h : DistinctKeys entries) : DistinctKeys (putAll entries added) := by
  induction added generalizing entries with
  | nil => exact h
  | cons a added ih => exact ih (distinctKeys_put h)

/-- Where no key is there twice, an entry is found by its key. -/
theorem lookup?_of_mem (h : DistinctKeys entries) {e : Data × Data} (he : e ∈ entries) :
    lookup? e.1 entries = some e.2 := by
  induction entries with
  | nil => cases he
  | cons f fs ih =>
    obtain ⟨hf, hfs⟩ := List.pairwise_cons.mp h
    rw [lookup?_cons]
    rcases List.mem_cons.mp he with rfl | he
    · rw [same_refl, if_pos rfl]
    · rw [hf e he, if_neg Bool.false_ne_true, ih hfs he]

/-- Where no key is there twice, it does not matter from which end a key is looked up. -/
theorem lookup?_reverse (h : DistinctKeys entries) (k : Data) :
    lookup? k entries.reverse = lookup? k entries := by
  induction entries with
  | nil => rfl
  | cons e es ih =>
    obtain ⟨he, hes⟩ := List.pairwise_cons.mp h
    rw [List.reverse_cons, lookup?_append, ih hes, lookup?_cons, lookup?_cons]
    cases hek : e.1.same k with
    | false => simp [lookup?]
    | true =>
      have hnone : es.find? (fun f => f.1.same k) = none := by
        rw [List.find?_eq_none]
        intro f hf hfk
        have hne := he f hf
        rw [same_congr hek, same_comm, hfk] at hne
        cases hne
      simp [lookup?, hnone]

/-- Entries that were set on their own may be set again: the last of them counts for a key, and where
there is none the entry that was there before. -/
theorem lookup?_putAll_putAll (k : Data) :
    lookup? k (putAll entries (putAll [] added)) =
      (lookup? k added.reverse).or (lookup? k entries) := by
  have hdistinct : DistinctKeys (putAll [] added) := distinctKeys_putAll .nil
  rw [lookup?_putAll, lookup?_reverse hdistinct, lookup?_putAll]
  simp [lookup?]

/-! ## The order of keys -/

/-- The keys after one is set: a known key keeps its place, a new one comes last. -/
theorem map_fst_put : (put key value entries).map (·.1) =
    entries.map (·.1) ++ if (entries.map (·.1)).any (·.same key) then [] else [key] := by
  induction entries with
  | nil => rfl
  | cons e es ih =>
    rw [put]
    cases hek : e.1.same key with
    | true => simp [hek]
    | false =>
      rw [if_neg Bool.false_ne_true, List.map_cons, ih, List.map_cons, List.any_cons, hek,
        Bool.false_or, List.cons_append]

/-- What is the same as a key is the same as one of its first occurrences. -/
theorem any_same_distinctBy (keys : List Data) :
    (distinctBy same keys).any (·.same key) = keys.any (·.same key) := by
  rw [Bool.eq_iff_iff, List.any_eq_true, List.any_eq_true]
  constructor
  · rintro ⟨k, hk, hsame⟩
    exact ⟨k, (distinctBy_sublist same keys).subset hk, hsame⟩
  · rintro ⟨k, hk, hsame⟩
    obtain ⟨first, hfirst, hfk⟩ := exists_same_of_mem same_refl (fun _ _ _ => same_trans) hk
    exact ⟨first, hfirst, same_trans hfk hsame⟩

/-- Keys that are set one after another stand in the order in which they first occur. -/
theorem map_fst_putAll (added : List (Data × Data)) :
    (putAll [] added).map (·.1) = distinctBy same (added.map (·.1)) := by
  induction added using List.reverseRecOn with
  | nil => rfl
  | append_singleton added a ih =>
    have hput : putAll [] (added ++ [a]) = put a.1 a.2 (putAll [] added) := by simp [putAll]
    have hlast : distinctBy same ([a].map (·.1)) = [a.1] := rfl
    rw [hput, map_fst_put, ih, any_same_distinctBy, List.map_append, distinctBy_append, hlast,
      List.filter_cons, List.filter_nil]
    cases (added.map (·.1)).any (·.same a.1) <;> rfl

/-- Texts are the same key exactly if they are equal. -/
theorem distinctBy_same_text (ss : List String) :
    distinctBy same (ss.map .text) = (distinct ss).map .text := by
  induction ss with
  | nil => rfl
  | cons s ss ih =>
    rw [List.map_cons, distinctBy, ih, distinct_cons, List.map_cons, List.filter_map]
    congr 2
    apply List.filter_congr
    intro t _
    simp [Function.comp_apply, beq_eq_decide]

end TaggedComments.Data
