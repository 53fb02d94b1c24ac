import TaggedComments.Text.Split

/-!
# Lines

Only the line feed ends a line. Two rules bring other line ends to it: `joinLineEnds` turns each
carriage return that a line feed follows into that line feed, once and from left to right;
`unifyLineEnds`, which reading a file applies, also turns every other carriage return into one.

- `lines` are the lines of a text, `lineOf` the number of the line that an offset lies in.
- `unifyLineEnds_eq_joinLineEnds` says when the two rules agree.
-/

namespace TaggedComments.Text

/-- Each carriage return before a line feed is dropped, reading once from left to right. -/
def joinLineEnds : List Char → List Char
  | [] => []
  | '\r' :: '\n' :: s => '\n' :: joinLineEnds s
  | c :: s => c :: joinLineEnds s

/-- Each carriage return, with the line feed after it if there is one, becomes a line feed. -/
def unifyLineEnds : List Char → List Char
  | [] => []
  | '\r' :: '\n' :: s => '\n' :: unifyLineEnds s
  | '\r' :: s => '\n' :: unifyLineEnds s
  | c :: s => c :: unifyLineEnds s

/-- The lines of a text. -/
def lines (s : List Char) : List (List Char) :=
  splitOn '\n' s

/-- The number of the line, from one, that an offset into the text lies in. -/
def lineOf (s : List Char) (offset : Nat) : Nat :=
  (s.take offset).count '\n' + 1

theorem lineOf_pos (s : List Char) (offset : Nat) : 0 < lineOf s offset := by
  simp [lineOf]

/-- Every carriage return stands before a line feed. -/
def PairedReturns : List Char → Prop
  | [] => True
  | '\r' :: '\n' :: s => PairedReturns s
  | '\r' :: _ => False
  | _ :: s => PairedReturns s

/-- The two rules agree on texts whose carriage returns all stand before a line feed. -/
theorem unifyLineEnds_eq_joinLineEnds {s : List Char} (h : PairedReturns s) :
    unifyLineEnds s = joinLineEnds s := by
  fun_induction unifyLineEnds s with
  | case1 => rfl
  | case2 s ih => simp only [joinLineEnds, PairedReturns] at *; rw [ih h]
  | case3 s hne ih => exact absurd h (by simp [PairedReturns])
  | case4 c s h₁ h₂ ih =>
    rw [joinLineEnds.eq_3 _ _ (by simpa using h₁), ih]
    rw [PairedReturns.eq_4 _ _ (by simpa using h₁) (by simpa using h₂)] at h
    exact h

end TaggedComments.Text
