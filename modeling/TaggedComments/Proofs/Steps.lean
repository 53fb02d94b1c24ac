import Mathlib.Data.List.Forall2
import TaggedComments.Distinct
import TaggedComments.Failure

/-!
# Steps that may fail

A sequence of steps succeeds if each of them does, and the first that fails decides the failure.

- `bind_eq_ok_iff` and `bind_eq_error_iff` open two steps, `map_bind` changes what they give.
- `mapM_eq_ok_iff` and `mapM_eq_error_iff` open one step for each item of a list,
  `mapM_eq_error_iff_of_unique` those that fail in one way only, `mapM_congr` exchanges the steps.
- `mapM_distinct_cases` says that it does not matter whether the step for an item is taken once or
  again later.
- `FirstOf` is the first of several causes; `bind_eq_error_iff_firstOf` and
  `mapM_eq_error_iff_firstOf` say that steps that may fail have their causes in their own order.
-/

namespace TaggedComments

/-! ## Section 1: Two steps -/

section Two

variable {ε α β : Type} {x : Except ε α} {f : α → Except ε β}

theorem bind_eq_ok_iff {b : β} : (x >>= f) = .ok b ↔ ∃ a, x = .ok a ∧ f a = .ok b := by
  cases x with
  | error e =>
    constructor
    · intro h
      cases h
    · rintro ⟨a, h, -⟩
      cases h
  | ok a =>
    constructor
    · intro h
      exact ⟨a, rfl, h⟩
    · rintro ⟨a', h, hb⟩
      cases h
      exact hb

theorem bind_eq_error_iff {e : ε} :
    (x >>= f) = .error e ↔ x = .error e ∨ ∃ a, x = .ok a ∧ f a = .error e := by
  cases x with
  | error e' =>
    constructor
    · intro h
      cases h
      exact .inl rfl
    · rintro (h | ⟨a, h, -⟩)
      · cases h
        rfl
      · cases h
  | ok a =>
    constructor
    · intro h
      exact .inr ⟨a, rfl, h⟩
    · rintro (h | ⟨a', h, he⟩)
      · cases h
      · cases h
        exact he

theorem ok_bind (a : α) : ((.ok a : Except ε α) >>= f) = f a := rfl

theorem map_eq_ok_iff {g : α → β} {b : β} : x.map g = .ok b ↔ ∃ a, x = .ok a ∧ b = g a := by
  cases x with
  | error e => simp [Except.map]
  | ok a => simp [Except.map, eq_comm]

theorem map_eq_error_iff {g : α → β} {e : ε} : x.map g = .error e ↔ x = .error e := by
  cases x with
  | error e => simp [Except.map]
  | ok a => simp [Except.map]

theorem map_bind {γ : Type} (g : β → γ) : (x >>= f).map g = x >>= fun a => (f a).map g := by
  cases x <;> rfl

end Two

/-! ## Section 2: A step for each item -/

section Items

variable {ε α β : Type} {f : α → Except ε β} {xs : List α}

theorem mapM_eq_ok_iff {ys : List β} :
    xs.mapM f = .ok ys ↔ List.Forall₂ (fun x y => f x = .ok y) xs ys := by
  induction xs generalizing ys with
  | nil =>
    rw [List.mapM_nil, List.forall₂_nil_left_iff]
    constructor
    · intro h
      cases h
      rfl
    · rintro rfl
      rfl
  | cons x xs ih =>
    -- The first step and the others succeed one after the other.
    rw [List.mapM_cons, bind_eq_ok_iff]
    simp only [bind_eq_ok_iff, ih]
    constructor
    · rintro ⟨y, hy, ys, hys, h⟩
      cases h
      exact .cons hy hys
    · intro h
      cases h with
      | cons hy hys => exact ⟨_, hy, _, hys, rfl⟩

/-- What each item of a list is related to makes up a list. -/
theorem exists_forall₂_iff {R : α → β → Prop} :
    (∃ ys, List.Forall₂ R xs ys) ↔ ∀ x ∈ xs, ∃ y, R x y := by
  induction xs with
  | nil => simp
  | cons x xs ih =>
    rw [List.forall_mem_cons, ← ih]
    simp only [List.forall₂_cons_left_iff]
    constructor
    · rintro ⟨_, y, ys, hy, hys, rfl⟩
      exact ⟨⟨y, hy⟩, ys, hys⟩
    · rintro ⟨⟨y, hy⟩, ys, hys⟩
      exact ⟨_, y, ys, hy, hys, rfl⟩

/-- A sequence of steps gives what its steps give. -/
theorem mem_of_mapM_eq_ok {ys : List β} (h : xs.mapM f = .ok ys) {y : β} :
    y ∈ ys ↔ ∃ x ∈ xs, f x = .ok y := by
  induction mapM_eq_ok_iff.mp h with
  | nil => simp
  | cons hx hrest ih =>
    rw [List.mem_cons, List.exists_mem_cons_iff, ih (mapM_eq_ok_iff.mpr hrest), hx,
      Except.ok.injEq, eq_comm]

/-- A sequence of steps succeeds if each of them does. -/
theorem mapM_isOk_iff : (∃ ys, xs.mapM f = .ok ys) ↔ ∀ x ∈ xs, ∃ y, f x = .ok y := by
  simp only [mapM_eq_ok_iff]
  exact exists_forall₂_iff

/-- The first step that fails decides the failure. -/
theorem mapM_eq_error_iff {e : ε} :
    xs.mapM f = .error e ↔ ∃ before x later, xs = before ++ x :: later
      ∧ (∀ y ∈ before, ∃ b, f y = .ok b) ∧ f x = .error e := by
  induction xs with
  | nil =>
    constructor
    · intro h
      cases h
    · rintro ⟨before, x, later, h, -⟩
      cases before <;> cases h
  | cons x xs ih =>
    rw [List.mapM_cons, bind_eq_error_iff]
    constructor
    · rintro (hx | ⟨b, hb, h⟩)
      · exact ⟨[], x, xs, rfl, by simp, hx⟩
      · -- The first step succeeds, so the failure comes from a later one.
        rcases bind_eq_error_iff.mp h with h | ⟨ys, -, h⟩
        · obtain ⟨before, y, later, rfl, hbefore, hy⟩ := ih.mp h
          exact ⟨x :: before, y, later, rfl, List.forall_mem_cons.mpr ⟨⟨b, hb⟩, hbefore⟩, hy⟩
        · cases h
    · rintro ⟨before, y, later, hsplit, hbefore, hy⟩
      cases before with
      | nil =>
        obtain ⟨rfl, -⟩ := List.cons.inj hsplit
        exact .inl hy
      | cons z before =>
        obtain ⟨rfl, rfl⟩ := List.cons.inj hsplit
        obtain ⟨⟨b, hb⟩, hbefore⟩ := List.forall_mem_cons.mp hbefore
        have hlater := ih.mpr ⟨before, y, later, rfl, hbefore, hy⟩
        exact .inr ⟨b, hb, bind_eq_error_iff.mpr (.inl hlater)⟩

/-- If no step fails in another way than one, then the sequence fails in that way as soon as some step
does. -/
theorem mapM_eq_error_iff_of_unique {e₀ : ε} (hunique : ∀ x ∈ xs, ∀ e, f x = .error e → e = e₀)
    {e : ε} : xs.mapM f = .error e ↔ (∃ x ∈ xs, f x = .error e₀) ∧ e = e₀ := by
  cases h : xs.mapM f with
  | ok ys =>
    have hall := mapM_isOk_iff.mp ⟨ys, h⟩
    simp only [reduceCtorEq, false_iff, not_and]
    rintro ⟨x, hx, he⟩
    obtain ⟨y, hy⟩ := hall x hx
    cases hy.symm.trans he
  | error e' =>
    obtain ⟨before, x, later, rfl, -, he⟩ := mapM_eq_error_iff.mp h
    have hx : x ∈ before ++ x :: later := by simp
    obtain rfl := hunique x hx e' he
    have hexists : ∃ y ∈ before ++ x :: later, f y = .error e' := ⟨x, hx, he⟩
    simp only [hexists, true_and, Except.error.injEq]
    exact eq_comm

/-- Steps that come to the same for each item come to the same for all. -/
theorem mapM_congr {g : α → Except ε β} (h : ∀ x ∈ xs, f x = g x) : xs.mapM f = xs.mapM g := by
  induction xs with
  | nil => rfl
  | cons x xs ih =>
    obtain ⟨hx, hxs⟩ := List.forall_mem_cons.mp h
    rw [List.mapM_cons, List.mapM_cons, hx, ih hxs]

/-- Steps that all succeed give a function of the items. -/
theorem mapM_eq_ok_map {g : α → β} (h : ∀ x ∈ xs, f x = .ok (g x)) :
    xs.mapM f = .ok (xs.map g) := by
  rw [mapM_eq_ok_iff, List.forall₂_map_right_iff, List.forall₂_same]
  exact h

/-- Steps that take back what a function has made of the items give the items. -/
theorem mapM_map_eq_ok {g : β → α} {ys : List β} (h : ∀ y ∈ ys, f (g y) = .ok y) :
    (ys.map g).mapM f = .ok ys := by
  rw [mapM_eq_ok_iff, List.forall₂_map_left_iff, List.forall₂_same]
  exact h

/-- Two steps for each item succeed if the first ones all do, and then the second ones. -/
theorem mapM_bind_mapM_eq_ok_iff {γ : Type} {g : β → Except ε γ} {zs : List γ} :
    (xs.mapM f >>= fun ys => ys.mapM g) = .ok zs ↔ (xs.mapM fun x => f x >>= g) = .ok zs := by
  simp only [bind_eq_ok_iff, mapM_eq_ok_iff]
  induction xs generalizing zs with
  | nil => simp
  | cons x xs ih =>
    simp only [List.forall₂_cons_left_iff, ← ih]
    constructor
    · rintro ⟨_, ⟨y, ys, hy, hys, rfl⟩, hzs⟩
      cases hzs with
      | cons hz hzs => exact ⟨_, _, ⟨y, hy, hz⟩, ⟨ys, hys, hzs⟩, rfl⟩
    · rintro ⟨z, zs, ⟨y, hy, hz⟩, ⟨ys, hys, hzs⟩, rfl⟩
      exact ⟨y :: ys, ⟨y, ys, hy, hys, rfl⟩, .cons hz hzs⟩

/-- When the first of two steps is taken for all items, the second is left for what they gave. -/
theorem mapM_bind_of_ok {γ : Type} {g : β → Except ε γ} {ys : List β} (h : xs.mapM f = .ok ys) :
    (xs.mapM fun x => f x >>= g) = ys.mapM g := by
  have hall := mapM_eq_ok_iff.mp h
  clear h
  induction hall with
  | nil => rfl
  | cons hy _ ih => rw [List.mapM_cons, List.mapM_cons, hy, ok_bind, ih]

/-- The steps for the items of several lists are the steps for one list after the other. -/
theorem mapM_flatten (xss : List (List α)) :
    xss.flatten.mapM f = (xss.mapM fun xs : List α => xs.mapM f).map List.flatten := by
  induction xss with
  | nil => rfl
  | cons xs xss ih =>
    rw [List.flatten_cons, List.mapM_append, List.mapM_cons, ih]
    cases xs.mapM f with
    | error e => rfl
    | ok ys => cases xss.mapM fun xs : List α => xs.mapM f <;> rfl

end Items

/-! ## Section 3: Steps that are taken again -/

section Again

variable {ε α β : Type} [DecidableEq α]

/-- Taking a step again for an item changes nothing: both ways fail alike, or both give the results
of one function. -/
theorem mapM_distinct_cases [Inhabited β] (f : α → Except ε β) (xs : List α) :
    (∃ e, xs.mapM f = .error e ∧ (distinct xs).mapM f = .error e)
      ∨ ∃ g : α → β, xs.mapM f = .ok (xs.map g)
        ∧ (distinct xs).mapM f = .ok ((distinct xs).map g) := by
  cases h : xs.mapM f with
  | error e =>
    obtain ⟨before, x, later, rfl, hbefore, hx⟩ := mapM_eq_error_iff.mp h
    refine .inl ⟨e, rfl, mapM_eq_error_iff.mpr ?_⟩
    -- The step fails for no item before, so this one occurs here for the first time.
    have hnew : x ∉ before := by
      intro hmem
      obtain ⟨b, hb⟩ := hbefore x hmem
      rw [hb] at hx
      cases hx
    rw [distinct_append, distinct_cons, List.filter_cons_of_pos (by simpa using hnew)]
    exact ⟨_, x, _, rfl, fun y hy => hbefore y (mem_distinct.mp hy), hx⟩
  | ok ys =>
    let g : α → β := fun x => (f x).toOption.getD default
    have hg : ∀ x ∈ xs, f x = .ok (g x) := by
      intro x hx
      obtain ⟨y, hy⟩ := mapM_isOk_iff.mp ⟨ys, h⟩ x hx
      simp [g, hy, Except.toOption]
    refine .inr ⟨g, ?_, mapM_eq_ok_map fun x hx => hg x (mem_distinct.mp hx)⟩
    rw [← h, mapM_eq_ok_map hg]

/-- The same for steps that are taken for each item of a list. -/
theorem mapM_flatMap_distinct_cases {γ : Type} (f : γ → Except ε β) (k : α → List γ)
    (xs : List α) :
    (∃ e, (xs.flatMap k).mapM f = .error e ∧ ((distinct xs).flatMap k).mapM f = .error e)
      ∨ ∃ g : α → List β, (xs.flatMap k).mapM f = .ok (xs.flatMap g)
        ∧ ((distinct xs).flatMap k).mapM f = .ok ((distinct xs).flatMap g) := by
  have hlists : ∀ ys : List α, (ys.flatMap k).mapM f =
      (ys.mapM fun y => (k y).mapM f).map List.flatten := by
    intro ys
    rw [List.flatMap_def, mapM_flatten, List.mapM_map]
    rfl
  rw [hlists, hlists]
  rcases mapM_distinct_cases (fun x => (k x).mapM f) xs with ⟨e, h, h'⟩ | ⟨g, h, h'⟩
  · exact .inl ⟨e, by rw [h]; rfl, by rw [h']; rfl⟩
  · exact .inr ⟨g, by rw [h]; rfl, by rw [h']; rfl⟩

end Again

/-! ## Section 4: The first of several causes -/

/-- The failure is that of the first cause that holds. -/
def FirstOf : List (Failure → Prop) → Failure → Prop
  | [], _ => False
  | p :: ps, e => p e ∨ ((∀ f, ¬ p f) ∧ FirstOf ps e)

theorem firstOf_singleton {p : Failure → Prop} {e : Failure} : FirstOf [p] e ↔ p e := by
  simp [FirstOf]

theorem exists_firstOf_iff {ps : List (Failure → Prop)} :
    (∃ e, FirstOf ps e) ↔ ∃ p ∈ ps, ∃ e, p e := by
  induction ps with
  | nil => simp [FirstOf]
  | cons p ps ih =>
    simp only [List.exists_mem_cons_iff, ← ih]
    constructor
    · rintro ⟨e, h | ⟨-, h⟩⟩
      · exact .inl ⟨e, h⟩
      · exact .inr ⟨e, h⟩
    · intro h
      by_cases hp : ∃ e, p e
      · obtain ⟨e, he⟩ := hp
        exact ⟨e, .inl he⟩
      · obtain ⟨e, he⟩ := h.resolve_left hp
        exact ⟨e, .inr ⟨not_exists.mp hp, he⟩⟩

theorem firstOf_append {ps qs : List (Failure → Prop)} {e : Failure} :
    FirstOf (ps ++ qs) e ↔ FirstOf ps e ∨ ((∀ f, ¬ FirstOf ps f) ∧ FirstOf qs e) := by
  induction ps with
  | nil => simp [FirstOf]
  | cons p ps ih =>
    rw [List.cons_append, FirstOf, FirstOf, ih]
    simp only [FirstOf]
    by_cases hp : ∀ f, ¬ p f
    · simp [hp]
    · -- The first cause holds, so no other one counts.
      simp only [hp, false_and, or_false]

/-- Only causes that are left count. -/
theorem firstOf_map_filter {α : Type} (keep : α → Bool) (cause : α → Failure → Prop) (xs : List α)
    (e : Failure) : FirstOf ((xs.filter keep).map cause) e ↔
      FirstOf (xs.map fun x f => keep x = true ∧ cause x f) e := by
  induction xs with
  | nil => rfl
  | cons x xs ih =>
    cases hx : keep x <;> simp [FirstOf, hx, ih]

/-- The first of the causes of items is that of some item, and none before it has one. -/
theorem firstOf_map_iff {α : Type} {cause : α → Failure → Prop} {xs : List α} {e : Failure} :
    FirstOf (xs.map cause) e ↔ ∃ before x later, xs = before ++ x :: later
      ∧ (∀ y ∈ before, ∀ f, ¬ cause y f) ∧ cause x e := by
  induction xs with
  | nil => simp [FirstOf]
  | cons x xs ih =>
    rw [List.map_cons, FirstOf, ih]
    constructor
    · rintro (h | ⟨hx, before, y, later, rfl, hbefore, hy⟩)
      · exact ⟨[], x, xs, rfl, by simp, h⟩
      · exact ⟨x :: before, y, later, rfl, List.forall_mem_cons.mpr ⟨hx, hbefore⟩, hy⟩
    · rintro ⟨before, y, later, hsplit, hbefore, hy⟩
      cases before with
      | nil =>
        obtain ⟨rfl, -⟩ := List.cons.inj hsplit
        exact .inl hy
      | cons z before =>
        obtain ⟨rfl, rfl⟩ := List.cons.inj hsplit
        obtain ⟨hz, hbefore⟩ := List.forall_mem_cons.mp hbefore
        exact .inr ⟨hz, before, y, later, rfl, hbefore, hy⟩

/-- The causes of a step come before those of the steps behind it. -/
theorem bind_eq_error_iff_firstOf {α β : Type} {x : Except Failure α} {f : α → Except Failure β}
    (ps qs : List (Failure → Prop)) (hps : ∀ e, x = .error e ↔ FirstOf ps e)
    (hqs : ∀ a, x = .ok a → ∀ e, f a = .error e ↔ FirstOf qs e) (e : Failure) :
    (x >>= f) = .error e ↔ FirstOf (ps ++ qs) e := by
  rw [bind_eq_error_iff, firstOf_append, hps e]
  cases hx : x with
  | error f =>
    have hf : ¬ ∀ f, ¬ FirstOf ps f := fun hnone => hnone f ((hps f).mp hx)
    simp [hf]
  | ok a =>
    have hnone : ∀ f, ¬ FirstOf ps f := by
      intro f hf
      rw [← hps, hx] at hf
      cases hf
    simp [hnone, hqs a hx e]

/-- Steps for the items of a list have the causes of their items. -/
theorem mapM_eq_error_iff_firstOf {α β : Type} {f : α → Except Failure β}
    (cause : α → Failure → Prop) (h : ∀ x e, f x = .error e ↔ cause x e) (xs : List α)
    (e : Failure) : xs.mapM f = .error e ↔ FirstOf (xs.map cause) e := by
  have hnone : ∀ x, (∃ y, f x = .ok y) ↔ ∀ g, ¬ cause x g := by
    intro x
    simp only [← h]
    cases f x <;> simp
  simp only [mapM_eq_error_iff, firstOf_map_iff, h, hnone]

end TaggedComments
