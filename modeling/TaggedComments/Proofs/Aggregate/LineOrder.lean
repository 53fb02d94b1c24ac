import Mathlib.Data.List.Sort
import TaggedComments.Aggregate

/-!
# Sorting by line and first occurrences

Sorting by line does not change the comments of any one line, and lists in the order of their lines
are determined by those. So what holds line by line holds of the whole list.

- `filter_mergeSort` states that a sort is stable.
- `eq_of_filter_line_eq` compares two lists in the order of their lines.
- `find?_of_mem_distinctBy` and `pairwise_idxOf_distinctBy` say which items first occurrences are
  and how they are placed.
-/

namespace TaggedComments

/-! ## Section 1: Stable sorting -/

section Stable

variable {α : Type} {le : α → α → Bool}

/-- Sorting does not move items that count as equal. -/
theorem filter_mergeSort (trans : ∀ a b c, le a b = true → le b c = true → le a c = true)
    (total : ∀ a b, (le a b || le b a) = true) {p : α → Bool}
    (hp : ∀ a b, p a = true → p b = true → le a b = true) (xs : List α) :
    (xs.mergeSort le).filter p = xs.filter p := by
  have hordered : (xs.filter p).Pairwise fun a b => le a b = true := by
    apply List.pairwise_filter.mpr
    apply List.pairwise_of_forall
    intro a b ha hb
    exact hp a b ha hb
  -- The items in question stay in their order, and no others are like them.
  have hsub : ((xs.filter p).filter p).Sublist ((xs.mergeSort le).filter p) :=
    (List.sublist_mergeSort trans total hordered List.filter_sublist).filter p
  have hlength : (xs.filter p).length = ((xs.mergeSort le).filter p).length :=
    ((List.mergeSort_perm xs le).filter p).length_eq.symm
  simp only [List.filter_filter, Bool.and_self] at hsub
  exact (hsub.eq_of_length hlength).symm

end Stable

/-! ## Section 2: The order of lines -/

theorem lineLe_trans (a b c : Comment) (hab : decide (a.line.value ≤ b.line.value) = true)
    (hbc : decide (b.line.value ≤ c.line.value) = true) :
    decide (a.line.value ≤ c.line.value) = true := by
  simp only [decide_eq_true_eq] at *
  omega

theorem lineLe_total (a b : Comment) :
    (decide (a.line.value ≤ b.line.value) || decide (b.line.value ≤ a.line.value)) = true := by
  simp only [Bool.or_eq_true, decide_eq_true_eq]
  omega

/-- Comments in the order of their lines. -/
def Ascending (cs : List Comment) : Prop :=
  cs.Pairwise fun c d => c.line.value ≤ d.line.value

/-- The comments of one line. -/
def onLine (n : Nat) (cs : List Comment) : List Comment :=
  cs.filter fun c => c.line.value = n

@[simp] theorem mem_onLine {n : Nat} {cs : List Comment} {c : Comment} :
    c ∈ onLine n cs ↔ c ∈ cs ∧ c.line.value = n := by
  simp [onLine]

@[simp] theorem mem_sortByLine {cs : List Comment} {c : Comment} : c ∈ sortByLine cs ↔ c ∈ cs :=
  List.mem_mergeSort

theorem ascending_sortByLine (cs : List Comment) : Ascending (sortByLine cs) := by
  apply (List.pairwise_mergeSort lineLe_trans lineLe_total cs).imp
  intro c d h
  exact of_decide_eq_true h

@[simp] theorem onLine_sortByLine (n : Nat) (cs : List Comment) :
    onLine n (sortByLine cs) = onLine n cs := by
  apply filter_mergeSort lineLe_trans lineLe_total
  intro a b ha hb
  simp only [decide_eq_true_eq] at *
  omega

theorem onLine_cons_self (c : Comment) (cs : List Comment) :
    onLine c.line.value (c :: cs) = c :: onLine c.line.value cs := by
  simp [onLine]

theorem onLine_cons_of_ne {c : Comment} {n : Nat} (h : c.line.value ≠ n) (cs : List Comment) :
    onLine n (c :: cs) = onLine n cs := by
  simp [onLine, h]

theorem onLine_append (n : Nat) (cs ds : List Comment) :
    onLine n (cs ++ ds) = onLine n cs ++ onLine n ds :=
  List.filter_append cs ds

/-- The first of two lists with the same comments on every line names no later line. -/
theorem head_line_le {c d : Comment} {cs ds : List Comment} (hds : Ascending (d :: ds))
    (heq : ∀ n, onLine n (c :: cs) = onLine n (d :: ds)) : d.line.value ≤ c.line.value := by
  have hc : c ∈ onLine c.line.value (d :: ds) := by
    rw [← heq, onLine_cons_self]
    exact List.mem_cons_self
  rcases List.mem_cons.mp (mem_onLine.mp hc).1 with rfl | hmem
  · exact Nat.le_refl _
  · exact List.rel_of_pairwise_cons hds hmem

/-- Lists in the order of their lines are equal if they have the same comments on every line. -/
theorem eq_of_onLine_eq {cs ds : List Comment} (hcs : Ascending cs) (hds : Ascending ds)
    (heq : ∀ n, onLine n cs = onLine n ds) : cs = ds := by
  induction cs generalizing ds with
  | nil =>
    cases ds with
    | nil => rfl
    | cons d ds =>
      have h := heq d.line.value
      -- The first comment would be missing on its line.
      rw [onLine_cons_self] at h
      exact absurd h.symm (List.cons_ne_nil _ _)
  | cons c cs ih =>
    cases ds with
    | nil =>
      have h := heq c.line.value
      rw [onLine_cons_self] at h
      exact absurd h (List.cons_ne_nil _ _)
    | cons d ds =>
      -- The heads stand on one line, so they are the first of the same list.
      have hline : c.line.value = d.line.value :=
        Nat.le_antisymm (head_line_le hcs fun n => (heq n).symm) (head_line_le hds heq)
      have hheads := heq c.line.value
      rw [onLine_cons_self, hline, onLine_cons_self] at hheads
      obtain ⟨rfl, htails⟩ := List.cons.inj hheads
      have htail : cs = ds := by
        apply ih hcs.of_cons hds.of_cons
        intro n
        by_cases hn : c.line.value = n
        · rw [← hn]
          exact htails
        · have h := heq n
          rw [onLine_cons_of_ne hn, onLine_cons_of_ne hn] at h
          exact h
      rw [htail]

/-! ## Section 3: First occurrences -/

section Distinct

variable {α : Type} {same : α → α → Bool}

/-- A kept item is the first that is the same as it. -/
theorem find?_of_mem_distinctBy (refl : ∀ x, same x x = true)
    (comm : ∀ x y, same x y = same y x) {xs : List α} {x : α} (h : x ∈ distinctBy same xs) :
    xs.find? (same x) = some x := by
  induction xs with
  | nil => simp [distinctBy] at h
  | cons y ys ih =>
    rcases List.mem_cons.mp h with rfl | h
    · rw [List.find?_cons_of_pos (refl x)]
    · -- A later item is kept because the first is not the same as it.
      obtain ⟨hmem, hnot⟩ := List.mem_filter.mp h
      have hxy : ¬ same x y = true := by
        rw [comm]
        simpa using hnot
      rw [List.find?_cons_of_neg hxy]
      exact ih hmem

/-- First occurrences stand in the order in which they occur first. -/
theorem pairwise_idxOf_distinctBy [DecidableEq α] (refl : ∀ x, same x x = true) (xs : List α) :
    (distinctBy same xs).Pairwise fun x y => xs.idxOf x < xs.idxOf y := by
  have hne : ∀ {x y : α}, same x y = false → x ≠ y := by
    rintro x y h rfl
    rw [refl] at h
    exact Bool.noConfusion h
  induction xs with
  | nil => exact .nil
  | cons x xs ih =>
    -- The items that are kept later are not equal to the first, so they move by one place.
    have hlater : ∀ y ∈ (distinctBy same xs).filter (fun y => !same x y),
        (x :: xs).idxOf y = xs.idxOf y + 1 := by
      intro y hy
      have hxy : same x y = false := by simpa using (List.mem_filter.mp hy).2
      exact List.idxOf_cons_ne xs (hne hxy)
    refine .cons (fun y hy => ?_) ?_
    · rw [List.idxOf_cons_self, hlater y hy]
      omega
    · apply (ih.filter _).imp_of_mem
      intro y z hy hz hyz
      rw [hlater y hy, hlater z hz]
      omega

/-- Taking first occurrences commutes with a choice that does not tell the same items apart. -/
theorem filter_distinctBy {p : α → Bool} (hp : ∀ x y, same x y = true → p x = p y) (xs : List α) :
    (distinctBy same xs).filter p = distinctBy same (xs.filter p) := by
  induction xs with
  | nil => rfl
  | cons x xs ih =>
    rw [distinctBy]
    by_cases hx : p x = true
    · rw [List.filter_cons_of_pos hx, List.filter_cons_of_pos hx, distinctBy, ← ih,
        List.filter_filter, List.filter_filter]
      simp only [Bool.and_comm]
    · rw [List.filter_cons_of_neg hx, List.filter_cons_of_neg hx, ← ih, List.filter_filter]
      -- What is the same as the first item is not chosen either.
      apply List.filter_congr
      intro y _
      cases hxy : same x y with
      | false => simp
      | true => simp [← hp x y hxy, hx]

end Distinct

end TaggedComments
