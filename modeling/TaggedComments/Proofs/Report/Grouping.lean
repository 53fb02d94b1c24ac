import Mathlib.Data.List.Induction
import TaggedComments.Proofs.Data.Entries
import TaggedComments.Report.Group

/-!
# What a table holds

A table that has taken up comments has their keys, each where it first occurs, and for each key what
the comments of this key come to, in the order of the list and apart from all others.

- `keysOf_concat` and `amend_map` say what one more comment does to the keys and to the values.
- `tabulate_eq` is what a table holds after any comments; `groupOn_eq` and `countOn_eq` are the two
  tables that reports fill.
-/

namespace TaggedComments.Report

variable {β : Type} {key : Comment → Data} {cs : List Comment}

/-! ## Section 1: One comment -/

/-- A key is among the first occurrences exactly if it is among the keys. -/
theorem any_keysOf (k : Data) :
    (keysOf key cs).any (fun j => j.same k) = (cs.map key).any (fun j => j.same k) := by
  rw [Bool.eq_iff_iff, List.any_eq_true, List.any_eq_true]
  constructor
  · rintro ⟨j, hj, hsame⟩
    exact ⟨j, (distinctBy_sublist Data.same _).subset hj, hsame⟩
  · rintro ⟨j, hj, hsame⟩
    obtain ⟨i, hi, hij⟩ :=
      exists_same_of_mem Data.same_refl (fun _ _ _ => Data.same_trans) hj
    exact ⟨i, hi, Data.same_trans hij hsame⟩

/-- One more comment adds its key, unless it is there. -/
theorem keysOf_concat (c : Comment) : keysOf key (cs ++ [c]) =
    if (keysOf key cs).any (fun j => j.same (key c)) then keysOf key cs
    else keysOf key cs ++ [key c] := by
  have hone : distinctBy Data.same ([c].map key) = [key c] := rfl
  rw [any_keysOf, keysOf, List.map_append, distinctBy_append, hone, List.filter_cons,
    List.filter_nil]
  cases (cs.map key).any (fun j => j.same (key c)) <;> simp [keysOf]

/-- In a table with each key once, changing the value of a key changes the values of the keys that are
the same, and adds the key if there is none. -/
theorem amend_map {keys : List Data} (hkeys : keys.Pairwise fun i j => i.same j = false) (k : Data)
    {first : β} {value : Data → β} (change : β → β)
    (hnew : keys.any (fun j => j.same k) = false → value k = first) :
    amend k first change (keys.map fun j => (j, value j)) =
      (if keys.any (fun j => j.same k) then keys else keys ++ [k]).map fun j =>
        (j, if j.same k then change (value j) else value j) := by
  induction keys with
  | nil => simp [amend, hnew rfl]
  | cons i keys ih =>
    obtain ⟨hi, hkeys⟩ := List.pairwise_cons.mp hkeys
    rw [List.map_cons, amend, List.any_cons]
    split
    · next hik =>
      -- No later key is the same as well.
      have hrest : ∀ j ∈ keys, j.same k = false := by
        intro j hj
        have hne := hi j hj
        rw [Data.same_congr hik, Data.same_comm] at hne
        exact hne
      have hmap : (keys.map fun j => (j, if j.same k then change (value j) else value j)) =
          keys.map fun j => (j, value j) := by
        refine List.map_congr_left fun j hj => ?_
        simp [hrest j hj]
      simp [hik, hmap]
    · next hik =>
      rw [ih hkeys fun hnone => hnew (by simp [hik, hnone])]
      cases hany : keys.any (fun j => j.same k) <;> simp [hik]

/-! ## Section 2: Any comments -/

/-- A table holds each key where it first occurs, with what the comments of this key come to. -/
theorem tabulate_eq (key : Comment → Data) (first : β) (add : β → Comment → β)
    (cs : List Comment) : tabulate key first add cs = (keysOf key cs).map fun k =>
      (k, (cs.filter fun c => k.same (key c)).foldl add first) := by
  -- The table takes up comments at the end of the list, so the induction is from there.
  induction cs using List.reverseRecOn with
  | nil => rfl
  | append_singleton cs c ih =>
    have hstep : tabulate key first add (cs ++ [c]) =
        amend (key c) first (fun v => add v c) (tabulate key first add cs) := by
      rw [tabulate, List.foldl_append]
      rfl
    have hnew : (keysOf key cs).any (fun j => j.same (key c)) = false →
        (cs.filter fun d => (key c).same (key d)).foldl add first = first := by
      intro hnone
      rw [any_keysOf, List.any_eq_false] at hnone
      rw [List.filter_eq_nil_iff.mpr, List.foldl_nil]
      intro d hd
      rw [Data.same_comm]
      exact hnone _ (List.mem_map_of_mem hd)
    have hkeys : (keysOf key cs).Pairwise fun i j => i.same j = false :=
      pairwise_distinctBy Data.same _
    rw [hstep, ih, amend_map hkeys (key c) _ hnew, keysOf_concat]
    refine List.map_congr_left fun k _ => ?_
    rw [List.filter_append, List.foldl_append]
    cases hk : k.same (key c) <;> simp [hk]

theorem groupOn_eq (key : Comment → Data) (cs : List Comment) :
    groupOn key cs = (keysOf key cs).map fun k => (k, cs.filter fun c => k.same (key c)) := by
  have hgroup : ∀ ds : List Comment, ds.foldl (fun group c => group ++ [c]) [] = ds := by
    intro ds
    rw [List.foldl_append_eq_append, List.nil_append, ← List.flatMap_def, List.flatMap_singleton']
  rw [groupOn, tabulate_eq]
  simp only [hgroup]

theorem countOn_eq (key : Comment → Data) (cs : List Comment) :
    countOn key cs = (keysOf key cs).map fun k => (k, (cs.filter fun c => k.same (key c)).length) := by
  have hcount : ∀ ds : List Comment, ds.foldl (fun n _ => n + 1) 0 = ds.length := by
    intro ds
    simp
  rw [countOn, tabulate_eq]
  simp only [hcount]

@[simp] theorem map_fst_groupOn (key : Comment → Data) (cs : List Comment) :
    (groupOn key cs).map (·.1) = keysOf key cs := by
  simp [groupOn_eq, Function.comp_def]

/-- Every group is a part of the list, in its order. -/
theorem sublist_of_mem_groupOn {g : Data × List Comment} (h : g ∈ groupOn key cs) :
    g.2.Sublist cs := by
  rw [groupOn_eq] at h
  obtain ⟨k, -, rfl⟩ := List.mem_map.mp h
  exact List.filter_sublist

/-- Every comment is in a group. -/
theorem exists_mem_groupOn {c : Comment} (hc : c ∈ cs) : ∃ g ∈ groupOn key cs, c ∈ g.2 := by
  obtain ⟨k, hk, hsame⟩ := exists_same_of_mem Data.same_refl (fun _ _ _ => Data.same_trans)
    (List.mem_map_of_mem (f := key) hc)
  rw [groupOn_eq]
  exact ⟨_, List.mem_map_of_mem hk, List.mem_filter.mpr ⟨hc, hsame⟩⟩

end TaggedComments.Report
