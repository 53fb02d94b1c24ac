import Mathlib.Algebra.GroupWithZero.Nat
import Mathlib.Data.List.Basic
import TaggedComments.Text.Lines

/-!
# Lines of a text and of its parts

Comments are looked for in lines and in the lines of blocks. Here both are placed in the whole
text.

- `Text.lineStart` is the offset at which a line starts; `Text.drop_lineStart` says what follows
  there.
- `Text.exists_line_of_inner` says in which line of a text a line of a part of it stands.
- `Text.EndsLine` says that a text is empty or ends in a line feed; `Text.exists_wholeLines` and
  `Text.joinLineEnds_append` say what becomes of lines and line ends below such a text.
-/

namespace TaggedComments.Text

/-! ## Section 1: Lines, one character at a time -/

theorem lines_nil : lines [] = [[]] := rfl

theorem lines_cons (c : Char) (s : List Char) :
    lines (c :: s) = if c = '\n' then [] :: lines s else (lines s).modifyHead (c :: ·) := by
  rw [lines, splitOn, ← lines]
  split
  · rfl
  · cases h : lines s with
    | nil => exact absurd h (splitOn_ne_nil _ _)
    | cons piece pieces => rfl

theorem lines_ne_nil (s : List Char) : lines s ≠ [] :=
  splitOn_ne_nil _ _

theorem length_lines_pos (s : List Char) : 0 < (lines s).length :=
  List.length_pos_iff.mpr (lines_ne_nil s)

theorem not_mem_of_getElem?_lines {s line : List Char} {i : Nat} (h : (lines s)[i]? = some line) :
    '\n' ∉ line :=
  not_mem_of_mem_splitOn (List.mem_of_getElem? h)

theorem lines_append_feed (s t : List Char) : lines (s ++ '\n' :: t) = lines s ++ lines t := by
  induction s with
  | nil => simp [lines_cons, lines_nil]
  | cons c s ih =>
    rw [List.cons_append, lines_cons, lines_cons, ih]
    split
    · rfl
    · cases hs : lines s with
      | nil => exact absurd hs (lines_ne_nil s)
      | cons line rest => rfl

theorem length_lines (s : List Char) : (lines s).length = s.count '\n' + 1 := by
  induction s with
  | nil => rfl
  | cons c s ih =>
    rw [lines_cons]
    split
    · next hc => rw [hc, List.length_cons, ih, List.count_cons_self]
    · next hc => rw [List.length_modifyHead, ih, List.count_cons_of_ne hc]

/-! ## Section 2: Where a line starts -/

/-- The offset at which a line starts, counted from zero: the lines before it and the line feeds
that end them take up the text before. -/
def lineStart (s : List Char) (i : Nat) : Nat :=
  ((lines s).take i).foldl (fun offset line => offset + (line.length + 1)) 0

theorem lineStart_zero (s : List Char) : lineStart s 0 = 0 := by
  simp [lineStart]

theorem lineStart_succ {s line : List Char} {i : Nat} (h : (lines s)[i]? = some line) :
    lineStart s (i + 1) = lineStart s i + (line.length + 1) := by
  simp [lineStart, List.take_add_one, h]

/-- At the start of a line stand that line and the later ones. -/
theorem drop_lineStart {s : List Char} {i : Nat} (hi : i < (lines s).length) :
    s.drop (lineStart s i) = joinWith '\n' ((lines s).drop i) := by
  induction i with
  | zero => rw [lineStart_zero, List.drop_zero, List.drop_zero, lines, joinWith_splitOn]
  | succ i ih =>
    -- Behind a line and its line feed stand the lines after it.
    have hline : (lines s)[i]? = some (lines s)[i] := List.getElem?_eq_getElem (by omega)
    rw [lineStart_succ hline, ← List.drop_drop, ih (by omega),
      List.drop_eq_getElem_cons (i := i) (by omega), List.drop_eq_getElem_cons hi, joinWith,
      ← List.singleton_append, ← List.append_assoc, List.drop_append_of_le_length (by simp)]
    simp

/-- The room that lines take, each with its line feed. -/
def span (ls : List (List Char)) : Nat :=
  (ls.map fun line => line.length + 1).sum

theorem span_append (ls ls' : List (List Char)) : span (ls ++ ls') = span ls + span ls' := by
  simp [span]

theorem span_lines (s : List Char) : span (lines s) = s.length + 1 := by
  induction s with
  | nil => rfl
  | cons c s ih =>
    rw [lines_cons]
    split
    · rw [span, List.map_cons, List.sum_cons, ← span, ih]
      simp
      omega
    · cases hs : lines s with
      | nil => exact absurd hs (lines_ne_nil s)
      | cons line rest =>
        rw [hs] at ih
        simp [span] at ih ⊢
        omega

theorem lineStart_eq_span (s : List Char) (i : Nat) : lineStart s i = span ((lines s).take i) := by
  have hfold : ∀ (ls : List (List Char)) (start : Nat),
      ls.foldl (fun offset line => offset + (line.length + 1)) start = start + span ls := by
    intro ls
    induction ls with
    | nil => intro start; rfl
    | cons line ls ih =>
      intro start
      rw [List.foldl_cons, ih, span, span, List.map_cons, List.sum_cons]
      omega
  rw [lineStart, hfold, Nat.zero_add]

/-! ## Section 3: Lines of a part of a text -/

theorem isInfix_of_mem_lines {s line : List Char} (h : line ∈ lines s) : line <:+: s := by
  obtain ⟨i, hi, rfl⟩ := List.getElem_of_mem h
  have hstart := drop_lineStart hi
  rw [List.drop_eq_getElem_cons hi] at hstart
  have hprefix : (lines s)[i] <+: s.drop (lineStart s i) := by
    rw [hstart]
    cases (lines s).drop (i + 1) with
    | nil => exact List.prefix_rfl
    | cons next rest => exact List.prefix_append _ _
  exact hprefix.isInfix.trans (List.drop_suffix _ _).isInfix

/-- Text behind a line only continues it. -/
theorem exists_line_append {s piece : List Char} {k : Nat} (post : List Char)
    (h : (lines s)[k]? = some piece) :
    ∃ line, (lines (s ++ post))[k]? = some line ∧ piece <+: line := by
  induction s generalizing k piece with
  | nil =>
    cases k with
    | zero =>
      obtain rfl : [] = piece := by simpa [lines_nil] using h
      exact ⟨_, List.getElem?_eq_getElem (length_lines_pos _), List.nil_prefix⟩
    | succ k => simp [lines_nil] at h
  | cons c s ih =>
    rw [List.cons_append]
    rw [lines_cons] at h ⊢
    split at h
    · next hc =>
      -- A line feed ends a line of both texts.
      cases k with
      | zero => exact ⟨[], by simp [hc], by simp_all⟩
      | succ k =>
        obtain ⟨line, hline, hpre⟩ := ih h
        exact ⟨line, by simpa [hc] using hline, hpre⟩
    · next hc =>
      -- Any other character belongs to the first line of both texts.
      rw [List.getElem?_modifyHead] at h
      cases k with
      | zero =>
        obtain ⟨first, hfirst, rfl⟩ := Option.map_eq_some_iff.mp (by simpa using h)
        obtain ⟨line, hline, hpre⟩ := ih hfirst
        exact ⟨c :: line, by simp [hc, List.getElem?_modifyHead, hline],
          List.cons_prefix_cons.mpr ⟨rfl, hpre⟩⟩
      | succ k =>
        obtain ⟨line, hline, hpre⟩ := ih (by simpa using h)
        exact ⟨line, by simpa [hc, List.getElem?_modifyHead] using hline, hpre⟩

/-- Text before a line moves it down by the line feeds it holds, and can only add to its front. -/
theorem exists_append_line {s line : List Char} {k : Nat} (pre : List Char)
    (h : (lines s)[k]? = some line) :
    ∃ whole, (lines (pre ++ s))[pre.count '\n' + k]? = some whole ∧ line <:+ whole := by
  induction pre with
  | nil => exact ⟨line, by simpa using h, List.suffix_rfl⟩
  | cons c pre ih =>
    obtain ⟨whole, hwhole, hsuf⟩ := ih
    rw [List.cons_append, lines_cons]
    by_cases hc : c = '\n'
    · refine ⟨whole, ?_, hsuf⟩
      rw [if_pos hc, hc, List.count_cons_self, Nat.add_right_comm]
      exact hwhole
    · rw [if_neg hc, List.count_cons_of_ne hc, List.getElem?_modifyHead, hwhole]
      split
      · exact ⟨c :: whole, rfl, hsuf.trans (List.suffix_cons c whole)⟩
      · exact ⟨whole, rfl, hsuf⟩

/-- A line of a part of a text stands in the line of the text that is as many lines below the one
in which the part begins. -/
theorem exists_line_of_inner (pre post : List Char) {inner piece : List Char} {k : Nat}
    (h : (lines inner)[k]? = some piece) :
    ∃ line, (lines (pre ++ (inner ++ post)))[pre.count '\n' + k]? = some line
      ∧ piece <:+: line := by
  obtain ⟨mid, hmid, hpre⟩ := exists_line_append post h
  obtain ⟨line, hline, hsuf⟩ := exists_append_line pre hmid
  exact ⟨line, hline, hpre.isInfix.trans hsuf.isInfix⟩

/-! ## Section 4: Texts that end their last line -/

/-- A text is empty, or it ends in a line feed. -/
def EndsLine (s : List Char) : Prop :=
  s = [] ∨ ∃ s', s = s' ++ ['\n']

/-- A text that ends its last line is made up of whole lines, and so is the start of every text
that continues it. -/
theorem exists_wholeLines {front : List Char} (h : EndsLine front) :
    ∃ whole, whole.length = front.count '\n' ∧ span whole = front.length
      ∧ lines front = whole ++ [[]] ∧ ∀ back, lines (front ++ back) = whole ++ lines back := by
  rcases h with rfl | ⟨s, rfl⟩
  · exact ⟨[], rfl, rfl, rfl, fun _ => rfl⟩
  · refine ⟨lines s, ?_, ?_, lines_append_feed s [], ?_⟩
    · rw [length_lines, List.count_append]
      rfl
    · rw [span_lines, List.length_append]
      rfl
    · intro back
      rw [List.append_assoc]
      exact lines_append_feed s back

/-- The line of an offset into the second part of a text. -/
theorem lineOf_append (front back : List Char) (offset : Nat) :
    lineOf (front ++ back) (front.length + offset) = front.count '\n' + lineOf back offset := by
  rw [lineOf, lineOf, List.take_length_add_append, List.count_append, Nat.add_assoc]

section Below

variable {front : List Char} (h : EndsLine front) (back : List Char)
include h

theorem getElem?_lines_append_left {i : Nat} (hi : i < front.count '\n') :
    (lines (front ++ back))[i]? = (lines front)[i]? := by
  obtain ⟨whole, hlength, -, hfront, hlines⟩ := exists_wholeLines h
  rw [hlines, hfront, List.getElem?_append_left (by omega), List.getElem?_append_left (by omega)]

theorem getElem?_lines_append_right (i : Nat) :
    (lines (front ++ back))[front.count '\n' + i]? = (lines back)[i]? := by
  obtain ⟨whole, hlength, -, -, hlines⟩ := exists_wholeLines h
  rw [hlines, ← hlength, List.getElem?_append_right (Nat.le_add_right _ _), Nat.add_sub_cancel_left]

theorem lineStart_append_left {i : Nat} (hi : i ≤ front.count '\n') :
    lineStart (front ++ back) i = lineStart front i := by
  obtain ⟨whole, hlength, -, hfront, hlines⟩ := exists_wholeLines h
  rw [lineStart_eq_span, lineStart_eq_span, hlines, hfront,
    List.take_append_of_le_length (by omega), List.take_append_of_le_length (by omega)]

theorem lineStart_append_right (i : Nat) :
    lineStart (front ++ back) (front.count '\n' + i) = front.length + lineStart back i := by
  obtain ⟨whole, hlength, hspan, -, hlines⟩ := exists_wholeLines h
  rw [lineStart_eq_span, lineStart_eq_span, hlines, ← hlength, List.take_length_add_append,
    span_append, hspan]

/-- A whole line ends before the text does. -/
theorem lineStart_add_length_lt {i : Nat} (hi : i < front.count '\n') {line : List Char}
    (hline : (lines front)[i]? = some line) : lineStart front i + line.length < front.length := by
  obtain ⟨whole, hlength, hspan, hfront, -⟩ := exists_wholeLines h
  have hnext := lineStart_succ hline
  have hsplit : span (whole.take (i + 1)) + span (whole.drop (i + 1)) = front.length := by
    rw [← span_append, List.take_append_drop, hspan]
  rw [lineStart_eq_span front (i + 1), hfront, List.take_append_of_le_length (by omega)] at hnext
  omega

end Below

/-! ## Section 5: Joined line ends -/

/-- What is in front of a line feed has its line ends joined without regard to what follows. -/
theorem exists_joinLineEnds_append (s : List Char) :
    ∃ s', ∀ t, joinLineEnds (s ++ '\n' :: t) = s' ++ '\n' :: joinLineEnds t := by
  fun_induction joinLineEnds s with
  | case1 => exact ⟨[], fun t => rfl⟩
  | case2 s ih =>
    obtain ⟨s', hs'⟩ := ih
    exact ⟨'\n' :: s', fun t => by simp [joinLineEnds, hs']⟩
  | case3 c s hpair ih =>
    obtain ⟨s', hs'⟩ := ih
    cases s with
    | nil =>
      -- A carriage return at the end falls away before the line feed.
      by_cases hc : c = '\r'
      · exact ⟨[], fun t => by simp [hc, joinLineEnds]⟩
      · exact ⟨[c], fun t => by simp [joinLineEnds, hc]⟩
    | cons d s =>
      refine ⟨c :: s', fun t => ?_⟩
      rw [List.cons_append, joinLineEnds.eq_3, hs', List.cons_append]
      rintro r rfl heq
      exact hpair s rfl (by simp_all)

theorem endsLine_joinLineEnds {front : List Char} (h : EndsLine front) :
    EndsLine (joinLineEnds front) := by
  rcases h with rfl | ⟨s, rfl⟩
  · exact .inl rfl
  · obtain ⟨s', hs'⟩ := exists_joinLineEnds_append s
    exact .inr ⟨s', hs' []⟩

theorem joinLineEnds_append {front : List Char} (h : EndsLine front) (back : List Char) :
    joinLineEnds (front ++ back) = joinLineEnds front ++ joinLineEnds back := by
  rcases h with rfl | ⟨s, rfl⟩
  · rfl
  · obtain ⟨s', hs'⟩ := exists_joinLineEnds_append s
    rw [List.append_assoc, List.singleton_append, hs', hs' [], List.append_assoc]
    rfl

/-- Joining line ends keeps the line feeds, and drops nothing but carriage returns. -/
theorem count_joinLineEnds (s : List Char) : (joinLineEnds s).count '\n' = s.count '\n' := by
  fun_induction joinLineEnds s with
  | case1 => rfl
  | case2 s ih => simp [ih]
  | case3 c s _ ih => rw [List.count_cons, List.count_cons, ih]

theorem sublist_joinLineEnds (s : List Char) : (joinLineEnds s).Sublist s := by
  fun_induction joinLineEnds s with
  | case1 => exact .slnil
  | case2 s ih => exact (ih.cons_cons '\n').cons '\r'
  | case3 c s _ ih => exact ih.cons_cons c

end TaggedComments.Text
