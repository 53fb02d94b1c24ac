import Mathlib.Data.List.Induction
import TaggedComments.Proofs.Aggregate.NormalForm

/-!
# Normal forms of longer lists

The normal form of a list is made up of the normal forms of its parts, and a longer list keeps all
that a part of it has in its normal form.

- `normalForm_append` takes the normal form of two lists in stages, `normalForm_flatten` and
  `normalForm_foldl` that of many.
- `normalForm_flatMap_distinct` drops lists that occur again.
- `normalForm_eq_filter` finds the normal form of a list in that of a longer one.
-/

namespace TaggedComments

/-! ## Section 1: First occurrences -/

section Distinct

variable {α : Type} {same : α → α → Bool}

variable (refl : ∀ x, same x x = true)
  (trans : ∀ x y z, same x y = true → same y z = true → same x z = true)

include refl trans

/-- An item is the same as a first occurrence if it is the same as any item. -/
theorem any_distinctBy (xs : List α) (y : α) :
    (distinctBy same xs).any (same · y) = xs.any (same · y) := by
  rw [Bool.eq_iff_iff, List.any_eq_true, List.any_eq_true]
  constructor
  · intro ⟨x, hx, hxy⟩
    exact ⟨x, (distinctBy_sublist same xs).subset hx, hxy⟩
  · intro ⟨x, hx, hxy⟩
    -- Some first occurrence is the same as this item, hence as the other.
    obtain ⟨z, hz, hzx⟩ := exists_same_of_mem refl trans hx
    exact ⟨z, hz, trans z x y hzx hxy⟩

theorem distinctBy_append_distinctBy (xs ys : List α) :
    distinctBy same (distinctBy same xs ++ distinctBy same ys) = distinctBy same (xs ++ ys) := by
  have hself : ∀ zs : List α, distinctBy same (distinctBy same zs) = distinctBy same zs :=
    fun zs => distinctBy_eq_self (pairwise_distinctBy same zs)
  rw [distinctBy_append, distinctBy_append, hself, hself]
  simp only [any_distinctBy refl trans]

omit trans in
/-- Items that occur before add nothing. -/
theorem distinctBy_append_of_subset {xs ys : List α} (h : ys ⊆ xs) :
    distinctBy same (xs ++ ys) = distinctBy same xs := by
  have hold : (distinctBy same ys).filter (fun y => !xs.any (same · y)) = [] := by
    apply List.filter_eq_nil_iff.mpr
    intro y hy
    have hmem : y ∈ xs := h ((distinctBy_sublist same ys).subset hy)
    have hany : xs.any (same · y) = true := List.any_eq_true.mpr ⟨y, hmem, refl y⟩
    simp [hany]
  rw [distinctBy_append, hold, List.append_nil]

end Distinct

theorem distinct_concat {α : Type} [DecidableEq α] (xs : List α) (x : α) :
    distinct (xs ++ [x]) = if x ∈ xs then distinct xs else distinct xs ++ [x] := by
  have hone : distinct [x] = [x] := rfl
  rw [distinct_append, hone]
  by_cases hx : x ∈ xs
  · simp [hx]
  · simp [hx]

/-! ## Section 2: Taking normal forms in stages -/

/-- The normal form of two lists is that of their normal forms. -/
theorem normalForm_append (xs ys : List Comment) :
    normalForm (xs ++ ys) = normalForm (normalForm xs ++ normalForm ys) := by
  apply eq_of_onLine_eq (ascending_normalForm _) (ascending_normalForm _)
  intro n
  -- A line keeps the first of each key of the two lists, in stages or at once.
  have hstages := distinctBy_append_distinctBy Comment.sameKey_refl
    (fun _ _ _ => Comment.sameKey_trans) (onLine n xs) (onLine n ys)
  simp only [onLine_normalForm, onLine_append]
  exact hstages.symm

@[simp] theorem normalForm_nil : normalForm [] = [] := by
  apply eq_of_onLine_eq (ascending_normalForm _) .nil
  intro n
  rw [onLine_normalForm]
  rfl

@[simp] theorem normalForm_normalForm (xs : List Comment) :
    normalForm (normalForm xs) = normalForm xs := by
  have h := normalForm_append xs []
  rw [normalForm_nil, List.append_nil, List.append_nil] at h
  exact h.symm

theorem normalForm_append_left (xs ys : List Comment) :
    normalForm (normalForm xs ++ ys) = normalForm (xs ++ ys) := by
  rw [normalForm_append (normalForm xs), normalForm_normalForm, ← normalForm_append]

theorem normalForm_append_right (xs ys : List Comment) :
    normalForm (xs ++ normalForm ys) = normalForm (xs ++ ys) := by
  rw [normalForm_append xs (normalForm ys), normalForm_normalForm, ← normalForm_append]

/-- The normal form of many lists is that of their normal forms. -/
theorem normalForm_flatten (css : List (List Comment)) :
    normalForm (css.map normalForm).flatten = normalForm css.flatten := by
  induction css with
  | nil => rfl
  | cons cs css ih =>
    rw [List.map_cons, List.flatten_cons, List.flatten_cons, normalForm_append_left,
      ← normalForm_append_right, ih, normalForm_append_right]

/-- Many lists may be added one by one to the normal form of those before. -/
theorem normalForm_foldl (css : List (List Comment)) :
    css.foldl (fun sofar cs => normalForm (sofar ++ cs)) [] = normalForm css.flatten := by
  -- Generalized to any start in normal form, since the induction moves it.
  have hfrom : ∀ start : List Comment,
      css.foldl (fun sofar cs => normalForm (sofar ++ cs)) (normalForm start) =
        normalForm (start ++ css.flatten) := by
    induction css with
    | nil => simp
    | cons cs css ih =>
      intro start
      rw [List.foldl_cons, normalForm_append_left, ih, List.flatten_cons, List.append_assoc]
  have h := hfrom []
  rw [normalForm_nil, List.nil_append] at h
  exact h

theorem normalForm_append_of_subset {xs ys : List Comment} (h : ys ⊆ xs) :
    normalForm (xs ++ ys) = normalForm xs := by
  apply eq_of_onLine_eq (ascending_normalForm _) (ascending_normalForm _)
  intro n
  have hline : onLine n ys ⊆ onLine n xs := by
    intro c hc
    rw [mem_onLine] at hc ⊢
    exact ⟨h hc.1, hc.2⟩
  rw [onLine_normalForm, onLine_normalForm, onLine_append]
  exact distinctBy_append_of_subset Comment.sameKey_refl hline

/-- Lists that occur again add nothing. -/
theorem normalForm_flatMap_distinct {α : Type} [DecidableEq α] (f : α → List Comment)
    (xs : List α) : normalForm ((distinct xs).flatMap f) = normalForm (xs.flatMap f) := by
  -- Induction from the end, where it shows whether an item occurred before.
  induction xs using List.reverseRecOn with
  | nil => rfl
  | append_singleton xs x ih =>
    have hone : [x].flatMap f = f x := by simp
    rw [distinct_concat, List.flatMap_append, hone]
    by_cases hx : x ∈ xs
    · have hsubset : f x ⊆ xs.flatMap f := fun c hc => List.mem_flatMap.mpr ⟨x, hx, hc⟩
      rw [if_pos hx, ih, normalForm_append_of_subset hsubset]
    · rw [if_neg hx, List.flatMap_append, hone, ← normalForm_append_left, ih,
        normalForm_append_left]

/-! ## Section 3: What a longer list keeps -/

/-- Sorting commutes with any choice of comments. -/
theorem filter_sortByLine (p : Comment → Bool) (cs : List Comment) :
    (sortByLine cs).filter p = sortByLine (cs.filter p) := by
  apply eq_of_onLine_eq ((ascending_sortByLine cs).filter p) (ascending_sortByLine _)
  intro n
  rw [onLine_sortByLine]
  -- On a line sorting moves nothing, and the two choices may be exchanged.
  have hcomm : ∀ ds : List Comment, onLine n (ds.filter p) = (onLine n ds).filter p := by
    intro ds
    rw [onLine, onLine, List.filter_filter, List.filter_filter]
    simp only [Bool.and_comm]
  rw [hcomm, hcomm, onLine_sortByLine]

/-- The normal form of a list consists of those comments in that of a longer one whose keys occur in
the list. -/
theorem normalForm_eq_filter (xs ys : List Comment) :
    normalForm xs = (normalForm (xs ++ ys)).filter fun c => xs.any (·.sameKey c) := by
  have hfirst : (firstOfKey (xs ++ ys)).filter (fun c => xs.any (·.sameKey c)) = firstOfKey xs := by
    rw [firstOfKey, distinctBy_append, List.filter_append, List.filter_filter]
    have hkept : (distinctBy Comment.sameKey xs).filter (fun c => xs.any (·.sameKey c)) =
        distinctBy Comment.sameKey xs := by
      apply List.filter_eq_self.mpr
      intro c hc
      exact List.any_eq_true.mpr ⟨c, (distinctBy_sublist _ _).subset hc, c.sameKey_refl⟩
    -- What the second list adds has keys that do not occur in the first.
    have hadded : ∀ c : Comment,
        ((xs.any fun x => x.sameKey c) && !xs.any fun x => x.sameKey c) = false := by
      intro c
      cases xs.any fun x => x.sameKey c <;> rfl
    simp only [hkept, hadded, firstOfKey]
    simp
  rw [normalForm, firstOfKey_sortByLine, normalForm, firstOfKey_sortByLine, filter_sortByLine,
    hfirst]

/-- A longer list keeps the normal form of a list, in its order. -/
theorem normalForm_sublist_append (xs ys : List Comment) :
    (normalForm xs).Sublist (normalForm (xs ++ ys)) := by
  rw [normalForm_eq_filter xs ys]
  exact List.filter_sublist

end TaggedComments
