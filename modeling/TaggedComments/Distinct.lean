/-!
# First occurrences

Several lists are kept free of repetitions, the first of equal items staying in its place: the
tags of a request, the parsers of an extension, the comments of a file, the paths of a scan.

- `distinctBy` keeps the first of the items that a relation counts as the same, `distinct` the
  first of equal items.
- `distinctBy_sublist`, `pairwise_distinctBy` and `exists_same_of_mem` say that the result is a
  part of the list, holds no item twice and stands for every item.
- `mem_distinct` and `nodup_distinct` say so for equality.
- `distinctBy_eq_self` and `distinct_eq_self` say that a list without repetitions stays as it is.
- `distinctBy_append` and `distinct_append` say what a second list adds.
- `lookup_eq_some_iff` and `lookup_eq_of_perm` are about tables in which no key is repeated.
-/

namespace TaggedComments

variable {α : Type}

/-- The items that are not the same as an earlier one. -/
def distinctBy (same : α → α → Bool) : List α → List α
  | [] => []
  | x :: xs => x :: (distinctBy same xs).filter fun y => !same x y

/-- The items that are not equal to an earlier one. -/
def distinct [DecidableEq α] (xs : List α) : List α :=
  distinctBy (fun x y => decide (x = y)) xs

/-- First occurrences stand in the order of the list. -/
theorem distinctBy_sublist (same : α → α → Bool) (xs : List α) :
    (distinctBy same xs).Sublist xs := by
  induction xs with
  | nil => exact .slnil
  | cons x xs ih => exact (List.filter_sublist.trans ih).cons_cons x

/-- No kept item is the same as a later one. -/
theorem pairwise_distinctBy (same : α → α → Bool) (xs : List α) :
    (distinctBy same xs).Pairwise fun x y => same x y = false := by
  induction xs with
  | nil => exact .nil
  | cons x xs ih =>
    refine .cons (fun y hy => ?_) (ih.filter _)
    simpa using (List.mem_filter.1 hy).2

theorem distinctBy_eq_self {same : α → α → Bool} {xs : List α}
    (h : xs.Pairwise fun x y => same x y = false) : distinctBy same xs = xs := by
  induction xs with
  | nil => rfl
  | cons x xs ih =>
    obtain ⟨hx, hxs⟩ := List.pairwise_cons.1 h
    rw [distinctBy, ih hxs, List.filter_eq_self.2]
    intro y hy
    simp [hx y hy]

/-- Every item is the same as a kept one, for a relation that is reflexive and transitive. -/
theorem exists_same_of_mem {same : α → α → Bool} (refl : ∀ x, same x x = true)
    (trans : ∀ x y z, same x y = true → same y z = true → same x z = true) {xs : List α} {x : α}
    (h : x ∈ xs) : ∃ y ∈ distinctBy same xs, same y x = true := by
  induction xs with
  | nil => cases h
  | cons z xs ih =>
    rcases List.mem_cons.1 h with rfl | h
    · exact ⟨x, by simp [distinctBy], refl x⟩
    · obtain ⟨y, hy, hyx⟩ := ih h
      by_cases hzy : same z y = true
      · exact ⟨z, by simp [distinctBy], trans z y x hzy hyx⟩
      · exact ⟨y, by simp [distinctBy, hy, hzy], hyx⟩

/-- First occurrences are the same items. -/
@[simp] theorem mem_distinct [DecidableEq α] {x : α} {xs : List α} : x ∈ distinct xs ↔ x ∈ xs := by
  refine ⟨fun h => (distinctBy_sublist _ xs).subset h, fun h => ?_⟩
  obtain ⟨y, hy, heq⟩ := @exists_same_of_mem α (fun x y => decide (x = y)) (by simp)
    (fun a b c hab hbc => by simp_all) xs x h
  exact of_decide_eq_true heq ▸ hy

/-- First occurrences are not repeated. -/
theorem nodup_distinct [DecidableEq α] (xs : List α) : (distinct xs).Nodup :=
  (pairwise_distinctBy _ xs).imp fun h => of_decide_eq_false h

theorem distinct_eq_self [DecidableEq α] {xs : List α} (h : xs.Nodup) : distinct xs = xs :=
  distinctBy_eq_self (h.imp fun hne => decide_eq_false hne)

theorem distinct_cons [DecidableEq α] (x : α) (xs : List α) :
    distinct (x :: xs) = x :: (distinct xs).filter fun y => !decide (x = y) := rfl

/-- A second list adds those of its first occurrences that are not the same as an item of the first
list. -/
theorem distinctBy_append (same : α → α → Bool) (xs ys : List α) :
    distinctBy same (xs ++ ys) =
      distinctBy same xs ++ (distinctBy same ys).filter fun y => !xs.any (same · y) := by
  induction xs with
  | nil => exact (List.filter_eq_self.2 fun _ _ => rfl).symm
  | cons x xs ih =>
    rw [List.cons_append, distinctBy, distinctBy, ih, List.filter_append, List.filter_filter,
      List.cons_append]
    simp only [List.any_cons, Bool.not_or]

/-- A second list adds those of its items that are not in the first list. -/
theorem distinct_append [DecidableEq α] (xs ys : List α) :
    distinct (xs ++ ys) = distinct xs ++ (distinct ys).filter fun y => y ∉ xs := by
  rw [distinct, distinctBy_append]
  congr 2
  funext y
  rw [Bool.eq_iff_iff]
  simp only [Bool.not_eq_true', List.any_eq_false, decide_eq_true_eq]
  exact ⟨fun h hy => h y hy rfl, fun h x hx hxy => h (hxy ▸ hx)⟩

/-! ## Tables -/

variable {β : Type} [DecidableEq α] {es fs : List (α × β)} {k : α} {v : β}

/-- Where no key is repeated, a key is found with the value that stands beside it. -/
theorem lookup_eq_some_iff (h : (es.map (·.1)).Nodup) : es.lookup k = some v ↔ (k, v) ∈ es := by
  induction es with
  | nil => simp
  | cons e es ih =>
    obtain ⟨m, w⟩ := e
    obtain ⟨hm, hes⟩ := List.nodup_cons.mp h
    rw [List.lookup_cons, List.mem_cons, Prod.mk.injEq]
    by_cases hkm : k = m
    · subst hkm
      have hnot : (k, v) ∉ es := fun hmem => hm (List.mem_map.mpr ⟨_, hmem, rfl⟩)
      simp [hnot, eq_comm]
    · rw [beq_false_of_ne hkm, ih hes]
      simp [hkm]

/-- Where no key is repeated, the order does not matter for what is found. -/
theorem lookup_eq_of_perm (h : (es.map (·.1)).Nodup) (hperm : es.Perm fs) :
    es.lookup k = fs.lookup k := by
  have h' : (fs.map (·.1)).Nodup := (hperm.map (·.1)).nodup_iff.mp h
  apply Option.ext
  intro v
  rw [lookup_eq_some_iff h, lookup_eq_some_iff h', hperm.mem_iff]

end TaggedComments
