import Mathlib.Data.List.Basic
import TaggedComments.Extract.Block

/-!
# Readings of patterns

What a pattern reads, said without the search for it: a relation between two positions of a text.
The places that `Pattern.ends` lists are exactly the ends of such readings.

- `Cursor.after` is the place in a text after a number of its characters.
- `Piece.ReadsAt` and `Pattern.ReadsAt` say that a part, or a whole pattern, reads a text from one
  position up to another.
- `Pattern.mem_ends_iff` says that the search finds these readings and no others.
- `Text.AtBoundary` says that a comment may open at a position of a text.
-/

namespace TaggedComments

/-! ## Section 1: Places in a text -/

namespace Cursor

/-- The place in a text after its first `p` characters. -/
def after (s : List Char) (p : Nat) : Cursor :=
  ⟨(s.take p).getLast?, s.drop p⟩

@[simp] theorem after_zero (s : List Char) : after s 0 = start s := by
  simp [after, start]

@[simp] theorem rest_after (s : List Char) (p : Nat) : (after s p).rest = s.drop p := rfl

@[simp] theorem before_after_zero (s : List Char) : (after s 0).before = none := by
  simp [start]

theorem after_eq_cons {s : List Char} {p : Nat} {c : Char} (h : s[p]? = some c) :
    after s p = ⟨(after s p).before, c :: s.drop (p + 1)⟩ := by
  obtain ⟨hp, rfl⟩ := List.getElem?_eq_some_iff.mp h
  rw [← List.drop_eq_getElem_cons hp]
  rfl

theorem after_succ {s : List Char} {p : Nat} {c : Char} (h : s[p]? = some c) :
    after s (p + 1) = ⟨some c, s.drop (p + 1)⟩ := by
  rw [after, List.take_add_one, h, Option.toList_some, List.getLast?_concat]

end Cursor

/-- A position at which a comment may open: the start of the text, or after white space. -/
def Text.AtBoundary (s : List Char) (p : Nat) : Prop :=
  p = 0 ∨ ∃ c, s[p - 1]? = some c ∧ isSpace c = true

theorem Text.AtBoundary.le_length {s : List Char} {p : Nat} (h : AtBoundary s p) :
    p ≤ s.length := by
  rcases h with rfl | ⟨c, hc, -⟩
  · exact Nat.zero_le _
  · have := (List.getElem?_eq_some_iff.mp hc).1
    omega

theorem Cursor.atBoundary_after {s : List Char} {p : Nat} (hp : p ≤ s.length) :
    (after s p).atBoundary = true ↔ Text.AtBoundary s p := by
  cases p with
  | zero => simp [atBoundary, Text.AtBoundary, start]
  | succ p =>
    have hd : s[p]? = some s[p] := List.getElem?_eq_getElem (by omega)
    simp [atBoundary, Text.AtBoundary, after_succ hd, hd]

/-! ## Section 2: What parts and patterns read -/

/-- A part of a pattern reads a text from one position up to another. -/
inductive Piece.ReadsAt (s : List Char) : Piece → Nat → Nat → Prop where
  /-- The fixed character stands there. -/
  | one {c : Char} {p : Nat} (h : s[p]? = some c) : ReadsAt s (.one c) p (p + 1)
  /-- Only characters of the list stand between the positions. -/
  | many {cs : List Char} {p q : Nat} (hle : p ≤ q)
      (h : ∀ i, p ≤ i → i < q → ∃ c ∈ cs, s[i]? = some c) : ReadsAt s (.many cs) p q
  /-- The character that may be missing stands there. -/
  | present {c : Char} {p : Nat} (h : s[p]? = some c) : ReadsAt s (.optional c) p (p + 1)
  /-- The character that may be missing is not read. -/
  | absent {c : Char} {p : Nat} : ReadsAt s (.optional c) p p
  /-- A line starts there. -/
  | lineStart {p : Nat} (h : p = 0 ∨ s[p - 1]? = some '\n') : ReadsAt s .lineStart p p
  /-- A line ends there. -/
  | lineEnd {p : Nat} (h : p = s.length ∨ s[p]? = some '\n') : ReadsAt s .lineEnd p p

/-- A pattern reads a text from one position up to another: its parts read one after the other. -/
inductive Pattern.ReadsAt (s : List Char) : Pattern → Nat → Nat → Prop where
  | nil {p : Nat} : ReadsAt s [] p p
  | cons {x : Piece} {xs : Pattern} {p q r : Nat} (hx : x.ReadsAt s p q)
      (hxs : ReadsAt s xs q r) : ReadsAt s (x :: xs) p r

namespace Piece

theorem ReadsAt.le {s : List Char} {x : Piece} {p q : Nat} (h : x.ReadsAt s p q) : p ≤ q := by
  cases h <;> omega

/-- A reading that starts in a text ends in it. -/
theorem ReadsAt.le_length {s : List Char} {x : Piece} {p q : Nat} (h : x.ReadsAt s p q)
    (hp : p ≤ s.length) : q ≤ s.length := by
  cases h with
  | one h | present h => exact (List.getElem?_eq_some_iff.mp h).1
  | many hle h =>
    by_contra hlong
    obtain ⟨c, -, hc⟩ := h (q - 1) (by omega) (by omega)
    have := (List.getElem?_eq_some_iff.mp hc).1
    omega
  | absent | lineStart | lineEnd => exact hp

/-- A repetition reads a run of characters of its list. -/
theorem readsAt_many_iff {s : List Char} {cs : List Char} {p q : Nat} (hp : p ≤ s.length) :
    (many cs).ReadsAt s p q ↔
      ∃ run, s.drop p = run ++ s.drop q ∧ (∀ c ∈ run, c ∈ cs) ∧ q = p + run.length := by
  constructor
  · intro h
    have hq := h.le_length hp
    cases h with
    | many hle h =>
      -- The run is what stands between the two positions.
      refine ⟨(s.drop p).take (q - p), ?_, fun c hc => ?_, ?_⟩
      · conv_lhs => rw [← List.take_append_drop (q - p) (s.drop p)]
        rw [List.drop_drop, Nat.add_sub_cancel' hle]
      · obtain ⟨i, hi, rfl⟩ := List.getElem_of_mem hc
        have hlt : i < q - p := by
          rw [List.length_take] at hi
          omega
        obtain ⟨d, hd, hget⟩ := h (p + i) (by omega) (by omega)
        simp only [List.getElem_take, List.getElem_drop]
        obtain ⟨_, rfl⟩ := List.getElem?_eq_some_iff.mp hget
        exact hd
      · rw [List.length_take, List.length_drop]
        omega
  · rintro ⟨run, hsplit, hrun, rfl⟩
    refine .many (Nat.le_add_right _ _) fun i hpi hi => ?_
    -- What stands at a position of the run is found in it at the distance from its start.
    have hlt : i - p < run.length := by omega
    have hget : s[i]? = some run[i - p] := by
      have hdrop : (s.drop p)[i - p]? = s[i]? := by
        rw [List.getElem?_drop, Nat.add_sub_cancel' hpi]
      rw [← hdrop, hsplit, List.getElem?_append_left hlt, List.getElem?_eq_getElem]
    exact ⟨_, hrun _ (List.getElem_mem _), hget⟩

end Piece

namespace Pattern

theorem ReadsAt.le {s : List Char} {xs : Pattern} {p q : Nat} (h : xs.ReadsAt s p q) : p ≤ q := by
  induction h with
  | nil => exact Nat.le_refl _
  | cons hx _ ih => exact Nat.le_trans hx.le ih

theorem ReadsAt.le_length {s : List Char} {xs : Pattern} {p q : Nat} (h : xs.ReadsAt s p q)
    (hp : p ≤ s.length) : q ≤ s.length := by
  induction h with
  | nil => exact hp
  | cons hx _ ih => exact ih (hx.le_length hp)

/-- A fixed character is among the parts. -/
def hasFixed (xs : Pattern) : Bool :=
  xs.any fun
    | .one _ => true
    | _ => false

/-- A pattern with a fixed character reads at least that one. -/
theorem ReadsAt.lt_of_hasFixed {s : List Char} {xs : Pattern} {p q : Nat} (h : xs.ReadsAt s p q)
    (hfixed : xs.hasFixed = true) : p < q := by
  induction h with
  | nil => simp [hasFixed] at hfixed
  | @cons x _ _ _ _ hx hxs ih =>
    have hle := hxs.le
    -- Only a fixed character is sure to move on; if this is none, there is one further on.
    cases x with
    | one c =>
      cases hx
      omega
    | _ => exact Nat.lt_of_le_of_lt hx.le (ih (by simpa [hasFixed] using hfixed))

/-- Two patterns are read one after the other. -/
theorem readsAt_append_iff {s : List Char} {xs ys : Pattern} {p r : Nat} :
    (xs ++ ys).ReadsAt s p r ↔ ∃ q, xs.ReadsAt s p q ∧ ys.ReadsAt s q r := by
  induction xs generalizing p with
  | nil =>
    constructor
    · intro h
      exact ⟨p, .nil, h⟩
    · rintro ⟨q, hxs, hys⟩
      cases hxs
      exact hys
  | cons x xs ih =>
    constructor
    · intro h
      cases h with
      | cons hx hrest =>
        obtain ⟨q, hxs, hys⟩ := ih.mp hrest
        exact ⟨q, .cons hx hxs, hys⟩
    · rintro ⟨q, hxs, hys⟩
      cases hxs with
      | cons hx hxs => exact .cons hx (ih.mpr ⟨q, hxs, hys⟩)

end Pattern

/-! ## Section 3: The search finds the readings -/

namespace Cursor

theorem mem_overOne_iff {s : List Char} {p : Nat} {c : Char} {q : Cursor} :
    q ∈ (after s p).overOne c ↔ s[p]? = some c ∧ q = after s (p + 1) := by
  cases hd : s[p]? with
  | none =>
    have hlen : s.length ≤ p := List.getElem?_eq_none_iff.mp hd
    simp [overOne, List.drop_eq_nil_of_le hlen]
  | some d =>
    rw [after_eq_cons hd, after_succ hd]
    by_cases hdc : d = c <;> simp [overOne, hdc]

/-- A repetition ends here, or it takes this character and goes on behind it. -/
theorem overMany_after {s : List Char} {cs : List Char} {p : Nat} {c : Char}
    (h : s[p]? = some c) :
    overMany cs (after s p).before (after s p).rest =
      if cs.contains c then overMany cs (after s (p + 1)).before (after s (p + 1)).rest ++ [after s p]
      else [after s p] := by
  conv_lhs => rw [after_eq_cons h]
  rw [after_succ h]
  simp only [overMany, ← after_eq_cons h]

/-- A repetition ends where only characters of its list were passed. -/
theorem mem_overMany_iff {s : List Char} {cs : List Char} {p : Nat} (hp : p ≤ s.length)
    {q : Cursor} :
    q ∈ overMany cs (after s p).before (after s p).rest ↔
      ∃ n, Piece.ReadsAt s (.many cs) p n ∧ q = after s n := by
  -- The repetition moves to the right, so the induction is on what is left of the text.
  induction hk : s.length - p generalizing p with
  | zero =>
    have hd : s[p]? = none := List.getElem?_eq_none_iff.mpr (by omega)
    have hrest : (after s p).rest = [] := List.drop_eq_nil_of_le (by omega)
    rw [hrest, overMany, List.mem_singleton]
    constructor
    · rintro rfl
      exact ⟨p, .many (Nat.le_refl p) (by omega), by rw [← hrest]⟩
    · rintro ⟨n, hn, rfl⟩
      have hpn := hn.le
      have hns := hn.le_length hp
      obtain rfl : n = p := by omega
      rw [← hrest]
  | succ k ih =>
    have hlt : p < s.length := by omega
    have hd : s[p]? = some s[p] := List.getElem?_eq_getElem hlt
    have ih' := ih (p := p + 1) (by omega) (by omega)
    rw [overMany_after hd, after_succ hd]
    rw [after_succ hd] at ih'
    constructor
    · intro h
      have hcases : (s[p] ∈ cs ∧ q ∈ overMany cs (some s[p]) (s.drop (p + 1))) ∨ q = after s p := by
        split at h <;> simp_all
      rcases hcases with ⟨hmem, hq⟩ | rfl
      · obtain ⟨n, hn, rfl⟩ := ih'.mp hq
        cases hn with
        | many hle hall =>
          -- Of the characters that are passed, this one is the first.
          refine ⟨n, .many (by omega) fun i hi hin => ?_, rfl⟩
          rcases Nat.lt_or_ge p i with hpi | hip
          · exact hall i hpi hin
          · obtain rfl : i = p := by omega
            exact ⟨s[i], hmem, hd⟩
      · exact ⟨p, .many (Nat.le_refl p) (by omega), rfl⟩
    · rintro ⟨n, hn, rfl⟩
      cases hn with
      | many hle hall =>
        rcases Nat.eq_or_lt_of_le hle with rfl | hpn
        · split <;> simp
        · obtain ⟨c, hc, hcs⟩ := hall p (Nat.le_refl p) hpn
          obtain rfl : s[p] = c := by simpa [hd] using hcs
          have hmem := ih'.mpr ⟨n, .many hpn fun i hi hin => hall i (by omega) hin, rfl⟩
          simp [hc, hmem]

theorem atLineStart_after {s : List Char} {p : Nat} (hp : p ≤ s.length) :
    (after s p).atLineStart = true ↔ p = 0 ∨ s[p - 1]? = some '\n' := by
  cases p with
  | zero => simp [atLineStart, start]
  | succ p =>
    have hd : s[p]? = some s[p] := List.getElem?_eq_getElem (by omega)
    simp [atLineStart, after_succ hd, hd]

theorem atLineEnd_after {s : List Char} {p : Nat} (hp : p ≤ s.length) :
    (after s p).atLineEnd = true ↔ p = s.length ∨ s[p]? = some '\n' := by
  rcases Nat.eq_or_lt_of_le hp with rfl | hlt
  · simp [atLineEnd]
  · have hd : s[p]? = some s[p] := List.getElem?_eq_getElem hlt
    rw [after_eq_cons hd, hd]
    simp [atLineEnd, Nat.ne_of_lt hlt]

end Cursor

/-- The ends of a part are the ends of its readings. -/
theorem Piece.mem_ends_iff {s : List Char} {x : Piece} {p : Nat} (hp : p ≤ s.length)
    {q : Cursor} :
    q ∈ x.ends (.after s p) ↔ ∃ n, x.ReadsAt s p n ∧ q = .after s n := by
  cases x with
  | one c =>
    rw [Piece.ends, Cursor.mem_overOne_iff]
    constructor
    · rintro ⟨h, rfl⟩
      exact ⟨p + 1, .one h, rfl⟩
    · rintro ⟨n, hn, rfl⟩
      cases hn with
      | one h => exact ⟨h, rfl⟩
  | many cs => exact Cursor.mem_overMany_iff hp
  | optional c =>
    rw [Piece.ends, List.mem_append, Cursor.mem_overOne_iff, List.mem_singleton]
    constructor
    · rintro (⟨h, rfl⟩ | rfl)
      · exact ⟨p + 1, .present h, rfl⟩
      · exact ⟨p, .absent, rfl⟩
    · rintro ⟨n, hn, rfl⟩
      cases hn with
      | present h => exact .inl ⟨h, rfl⟩
      | absent => exact .inr rfl
  | lineStart =>
    rw [Piece.ends]
    constructor
    · intro h
      split at h
      · next hstart =>
        exact ⟨p, .lineStart ((Cursor.atLineStart_after hp).mp hstart), by simpa using h⟩
      · simp at h
    · rintro ⟨n, hn, rfl⟩
      cases hn with
      | lineStart h => simp [(Cursor.atLineStart_after hp).mpr h]
  | lineEnd =>
    rw [Piece.ends]
    constructor
    · intro h
      split at h
      · next hend => exact ⟨p, .lineEnd ((Cursor.atLineEnd_after hp).mp hend), by simpa using h⟩
      · simp at h
    · rintro ⟨n, hn, rfl⟩
      cases hn with
      | lineEnd h => simp [(Cursor.atLineEnd_after hp).mpr h]

/-- The ends that the search lists are the ends of the readings. -/
theorem Pattern.mem_ends_iff {s : List Char} {xs : Pattern} {p : Nat} (hp : p ≤ s.length)
    {q : Cursor} :
    q ∈ xs.ends (.after s p) ↔ ∃ n, xs.ReadsAt s p n ∧ q = .after s n := by
  induction xs generalizing p with
  | nil =>
    rw [ends_nil, List.mem_singleton]
    constructor
    · rintro rfl
      exact ⟨p, .nil, rfl⟩
    · rintro ⟨n, hn, rfl⟩
      cases hn
      rfl
  | cons x xs ih =>
    -- The first part ends within the text, so the others are read from a position of it.
    rw [ends_cons, List.mem_flatMap]
    constructor
    · rintro ⟨c, hc, hq⟩
      obtain ⟨m, hm, rfl⟩ := (Piece.mem_ends_iff hp).mp hc
      obtain ⟨n, hn, rfl⟩ := (ih (hm.le_length hp)).mp hq
      exact ⟨n, .cons hm hn, rfl⟩
    · rintro ⟨n, hn, rfl⟩
      cases hn with
      | @cons _ _ _ m _ hm hn =>
        exact ⟨.after s m, (Piece.mem_ends_iff hp).mpr ⟨m, hm, rfl⟩,
          (ih (hm.le_length hp)).mpr ⟨n, hn, rfl⟩⟩

end TaggedComments
