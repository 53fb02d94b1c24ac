import Mathlib.Order.Bounds.Basic
import TaggedComments.Extract.Finding
import TaggedComments.Proofs.Extract.Body
import TaggedComments.Proofs.Extract.Lines
import TaggedComments.Proofs.Extract.Reading

/-!
# The comments of lines

In each line the search for a comment goes from column to column and passes over the columns that
lie in blocks. It finds the comment at the least column where one may be read.

- `Grammar.MarkedAt` says that a marker and a tag stand at a column, `Grammar.OpensLine` that no
  block covers that column.
- `Grammar.lineBody?_eq_some` and `Grammar.lineBody?_isSome_iff` describe the search.
- `Grammar.lineFindings_exact` describes the comments of all lines.
-/

namespace TaggedComments.Grammar

/-! ## Section 1: A comment at a column -/

/-- A comment stands at a column of a line: a boundary is there, a marker can be read, and after
blanks follows a tag. -/
structure MarkedAt (g : Grammar) (tags : List String) (line : List Char) (p : Nat)
    (tag rest : List Char) : Prop where
  /-- The column is the first one, or white space stands before it. -/
  boundary : Text.AtBoundary line p
  /-- A marker, blanks and a tag follow one another. -/
  reads : ∃ m ∈ g.lineMarkers, ∃ q gap body, m.ReadsAt line p q ∧ line.drop q = gap ++ body
    ∧ (∀ c ∈ gap, c = ' ' ∨ c = '\t') ∧ Body.Tagged tags body tag rest

/-- The ends of a marker with blanks behind it. -/
theorem mem_ends_marker_iff {line : List Char} {m : Pattern} {p : Nat} (hp : p ≤ line.length)
    {c : Cursor} :
    c ∈ Pattern.ends (m ++ [blanks]) (.after line p) ↔
      ∃ q gap, m.ReadsAt line p q ∧ line.drop q = gap ++ c.rest
        ∧ (∀ x ∈ gap, x = ' ' ∨ x = '\t') ∧ c = .after line (q + gap.length) := by
  rw [Pattern.mem_ends_iff hp]
  constructor
  · rintro ⟨n, hn, rfl⟩
    obtain ⟨q, hm, hblanks⟩ := Pattern.readsAt_append_iff.mp hn
    cases hblanks with
    | cons hmany hnil =>
      cases hnil
      obtain ⟨gap, hsplit, hgap, rfl⟩ := (Piece.readsAt_many_iff (hm.le_length hp)).mp hmany
      exact ⟨q, gap, hm, hsplit, by simpa using hgap, rfl⟩
  · rintro ⟨q, gap, hm, hsplit, hgap, rfl⟩
    refine ⟨q + gap.length, Pattern.readsAt_append_iff.mpr ⟨q, hm, .cons ?_ .nil⟩, rfl⟩
    exact (Piece.readsAt_many_iff (hm.le_length hp)).mpr ⟨gap, hsplit, by simpa using hgap, rfl⟩

theorem commentAt?_eq_some {g : Grammar} {tags : List String} {line : List Char} {p : Nat}
    {b : Body} (hp : p ≤ line.length)
    (h : g.commentAt? (Tags.byLength tags) (.after line p) = some b) :
    ∃ rest, g.MarkedAt tags line p b.tag rest ∧ b = Body.afterTag b.tag rest := by
  unfold commentAt? at h
  split at h
  · next hboundary =>
    obtain ⟨m, hm, hread⟩ := List.exists_of_findSome?_eq_some h
    obtain ⟨c, hc, hbody⟩ := List.exists_of_findSome?_eq_some hread
    obtain ⟨q, gap, hmarker, hsplit, hgap, -⟩ := (mem_ends_marker_iff hp).mp hc
    obtain ⟨rest, htagged, hb⟩ := Body.read?_eq_some hbody
    exact ⟨rest, ⟨(Cursor.atBoundary_after hp).mp hboundary,
      m, hm, q, gap, c.rest, hmarker, hsplit, hgap, htagged⟩, hb⟩
  · simp at h

/-- A comment is read at a column exactly if one stands there: of all readings of the markers, the
search leaves none out. -/
theorem commentAt?_isSome_iff {g : Grammar} {tags : List String} {line : List Char} {p : Nat}
    (hp : p ≤ line.length) :
    (g.commentAt? (Tags.byLength tags) (.after line p)).isSome = true ↔
      ∃ tag rest, g.MarkedAt tags line p tag rest := by
  constructor
  · intro h
    obtain ⟨b, hb⟩ := Option.isSome_iff_exists.mp h
    obtain ⟨rest, hmarked, -⟩ := commentAt?_eq_some hp hb
    exact ⟨b.tag, rest, hmarked⟩
  · rintro ⟨tag, rest, hboundary, m, hm, q, gap, body, hmarker, hsplit, hgap, htagged⟩
    -- The place behind the blanks is among those that are tried, and the body is read there.
    have hrest : (Cursor.after line (q + gap.length)).rest = body := by
      rw [Cursor.rest_after, ← List.drop_drop, hsplit, List.drop_left]
    have hc := (mem_ends_marker_iff (c := .after line (q + gap.length)) hp).mpr
      ⟨q, gap, hmarker, hrest.symm ▸ hsplit, hgap, rfl⟩
    rw [commentAt?, if_pos ((Cursor.atBoundary_after hp).mpr hboundary), List.findSome?_isSome_iff]
    refine ⟨m, hm, List.findSome?_isSome_iff.mpr ⟨_, hc, ?_⟩⟩
    rw [hrest]
    exact Body.read?_isSome_iff.mpr ⟨tag, rest, htagged⟩

/-! ## Section 2: The search through a line -/

/-- What the search sees at a column: nothing where it is covered. -/
def lookAt (g : Grammar) (names : List (List Char)) (covered : Nat → Bool) (start : Nat)
    (line : List Char) (p : Nat) : Option Body :=
  if covered (start + p) then none else g.commentAt? names (.after line p)

/-- The search looks at one column after the other, the one behind the last character included. -/
theorem searchLine_eq_findSome? (g : Grammar) (names : List (List Char)) (covered : Nat → Bool)
    (start : Nat) (s : List Char) {p n : Nat} (hn : p + n = s.length) :
    g.searchLine names covered (start + p) (Cursor.after s p).before (s.drop p) =
      (List.range' p (n + 1)).findSome? (g.lookAt names covered start s) := by
  induction n generalizing p with
  | zero =>
    -- At the end of the line one column is left.
    have hrest : s.drop p = [] := List.drop_eq_nil_of_le (by omega)
    have hcursor : Cursor.after s p = ⟨(Cursor.after s p).before, []⟩ := by
      rw [← hrest]
      rfl
    simp [hrest, searchLine, lookAt, ← hcursor]
  | succ n ih =>
    have hd : s[p]? = some s[p] := List.getElem?_eq_getElem (by omega)
    -- The search goes on from the next column with this character before it.
    have hrec := ih (p := p + 1) (by omega)
    rw [Cursor.after_succ hd, ← Nat.add_assoc] at hrec
    rw [List.range'_succ, List.findSome?_cons, ← hrec, List.drop_eq_getElem_cons (by omega),
      searchLine, ← Cursor.after_eq_cons hd, ← lookAt]
    cases g.lookAt names covered start s p <;> rfl

theorem findSome?_range'_eq_some_iff {α : Type} {f : Nat → Option α} {p n : Nat} {b : α} :
    (List.range' p n).findSome? f = some b ↔
      ∃ q, p ≤ q ∧ q < p + n ∧ f q = some b ∧ ∀ r, p ≤ r → r < q → f r = none := by
  induction n generalizing p with
  | zero => simp; omega
  | succ n ih =>
    rw [List.range'_succ, List.findSome?_cons]
    cases hf : f p with
    | some a =>
      -- The first value decides, and nothing stands before it.
      constructor
      · rintro ⟨⟩
        exact ⟨p, by omega, by omega, hf, by omega⟩
      · rintro ⟨q, hpq, -, hq, hbefore⟩
        rcases Nat.eq_or_lt_of_le hpq with rfl | hlt
        · rw [← hf, hq]
        · simp [hbefore p (Nat.le_refl p) hlt] at hf
    | none =>
      -- What decides stands further on, with this value among those before it.
      simp only [ih]
      constructor
      · rintro ⟨q, hpq, hqn, hq, hbefore⟩
        refine ⟨q, by omega, by omega, hq, fun r hpr hrq => ?_⟩
        rcases Nat.eq_or_lt_of_le hpr with rfl | hlt
        · exact hf
        · exact hbefore r hlt hrq
      · rintro ⟨q, hpq, hqn, hq, hbefore⟩
        rcases Nat.eq_or_lt_of_le hpq with rfl | hlt
        · simp [hf] at hq
        · exact ⟨q, by omega, by omega, hq, fun r hpr hrq => hbefore r (by omega) hrq⟩

/-- A comment of the line pass may be read at a column of a line of a text: it stands there, and no
block of the text covers the column. -/
structure OpensLine (g : Grammar) (tags : List String) (text : List Char) (i : Nat)
    (line : List Char) (p : Nat) : Prop where
  /-- A marker and a tag stand at the column. -/
  marked : ∃ tag rest, g.MarkedAt tags line p tag rest
  /-- The column lies in no block. -/
  outside : ∀ b ∈ g.blocksOf text,
    ¬ (b.start ≤ Text.lineStart text i + p ∧ Text.lineStart text i + p < b.stop)

theorem OpensLine.le_length {g : Grammar} {tags : List String} {text : List Char} {i : Nat}
    {line : List Char} {p : Nat} (h : g.OpensLine tags text i line p) : p ≤ line.length := by
  obtain ⟨_, _, hmarked⟩ := h.marked
  exact hmarked.boundary.le_length

/-- The offsets that the blocks of a text cover. -/
abbrev coveredBy (blocks : List Block) (offset : Nat) : Bool :=
  blocks.any (·.covers offset)

theorem coveredBy_eq_false_iff {blocks : List Block} {o : Nat} :
    coveredBy blocks o = false ↔ ∀ b ∈ blocks, ¬ (b.start ≤ o ∧ o < b.stop) := by
  simp [coveredBy, Block.covers]

/-- What the search through a line of a text finds. -/
def lineBody? (g : Grammar) (tags : List String) (text : List Char) (i : Nat)
    (line : List Char) : Option Body :=
  g.searchLine (Tags.byLength tags) (coveredBy (g.blocksOf text)) (Text.lineStart text i) none line

/-- What the search through a line of a text sees at a column. -/
def lookInto (g : Grammar) (tags : List String) (text : List Char) (i : Nat) (line : List Char) :
    Nat → Option Body :=
  g.lookAt (Tags.byLength tags) (coveredBy (g.blocksOf text)) (Text.lineStart text i) line

theorem lineBody?_eq_findSome? (g : Grammar) (tags : List String) (text : List Char) (i : Nat)
    (line : List Char) :
    g.lineBody? tags text i line =
      (List.range' 0 (line.length + 1)).findSome? (g.lookInto tags text i line) := by
  have h := g.searchLine_eq_findSome? (Tags.byLength tags) (coveredBy (g.blocksOf text))
    (Text.lineStart text i) line (Nat.zero_add line.length)
  simp only [Nat.add_zero, Cursor.before_after_zero, List.drop_zero] at h
  exact h

theorem isSome_lookInto_iff {g : Grammar} {tags : List String} {text : List Char} {i : Nat}
    {line : List Char} {p : Nat} (hp : p ≤ line.length) :
    (g.lookInto tags text i line p).isSome = true ↔ g.OpensLine tags text i line p := by
  unfold lookInto lookAt
  constructor
  · intro h
    split at h
    · simp at h
    · next hcovered =>
      exact ⟨(commentAt?_isSome_iff hp).mp h,
        coveredBy_eq_false_iff.mp (Bool.eq_false_iff.mpr hcovered)⟩
  · intro h
    rw [coveredBy_eq_false_iff.mpr h.outside]
    exact (commentAt?_isSome_iff hp).mpr h.marked

/-- The search through a line finds what stands at the least column where a comment may be read. -/
theorem lineBody?_eq_some {g : Grammar} {tags : List String} {text : List Char} {i : Nat}
    {line : List Char} {b : Body} (h : g.lineBody? tags text i line = some b) :
    ∃ p, IsLeast {p | g.OpensLine tags text i line p} p
      ∧ g.commentAt? (Tags.byLength tags) (.after line p) = some b := by
  rw [lineBody?_eq_findSome?, findSome?_range'_eq_some_iff] at h
  obtain ⟨p, -, hp, hlook, hbefore⟩ := h
  have hopen := (isSome_lookInto_iff (by omega)).mp (Option.isSome_iff_exists.mpr ⟨b, hlook⟩)
  refine ⟨p, ⟨hopen, fun q hq => ?_⟩, ?_⟩
  · -- An earlier column with a comment would have ended the search.
    by_contra hlt
    have hsome := (isSome_lookInto_iff hq.le_length).mpr hq
    rw [hbefore q (Nat.zero_le q) (by omega)] at hsome
    simp at hsome
  · rw [lookInto, lookAt, coveredBy_eq_false_iff.mpr hopen.outside] at hlook
    exact hlook

/-- The search through a line finds something exactly if a comment may be read at some column. -/
theorem lineBody?_isSome_iff {g : Grammar} {tags : List String} {text : List Char} {i : Nat}
    {line : List Char} :
    (g.lineBody? tags text i line).isSome = true ↔ ∃ p, g.OpensLine tags text i line p := by
  constructor
  · intro h
    obtain ⟨b, hb⟩ := Option.isSome_iff_exists.mp h
    obtain ⟨p, hleast, -⟩ := lineBody?_eq_some hb
    exact ⟨p, hleast.1⟩
  · rintro ⟨p, hopen⟩
    have hp := hopen.le_length
    rw [lineBody?_eq_findSome?, List.findSome?_isSome_iff]
    exact ⟨p, List.mem_range'_1.mpr (by omega), (isSome_lookInto_iff hp).mpr hopen⟩

/-! ## Section 3: The comments of all lines -/

/-- The comment of the line of a number, counted from zero. -/
def lineFinding? (g : Grammar) (tags : List String) (text : List Char) (i : Nat) :
    Option Finding :=
  (Text.lines text)[i]?.bind fun line =>
    (g.lineBody? tags text i line).map (Finding.ofBody (i + 1))

theorem lineFinding?_eq_some {g : Grammar} {tags : List String} {text : List Char} {i : Nat}
    {f : Finding} (h : g.lineFinding? tags text i = some f) :
    ∃ line b, (Text.lines text)[i]? = some line ∧ g.lineBody? tags text i line = some b
      ∧ f = Finding.ofBody (i + 1) b := by
  obtain ⟨line, hline, hsearch⟩ := Option.bind_eq_some_iff.mp h
  obtain ⟨b, hb, rfl⟩ := Option.map_eq_some_iff.mp hsearch
  exact ⟨line, b, hline, hb, rfl⟩

theorem line_of_lineFinding? {g : Grammar} {tags : List String} {text : List Char} {i : Nat}
    {f : Finding} (h : g.lineFinding? tags text i = some f) : f.line = i + 1 := by
  obtain ⟨_, _, _, _, rfl⟩ := lineFinding?_eq_some h
  rfl

theorem lineFindingsFrom_eq (g : Grammar) (tags : List String) (text : List Char)
    {i n : Nat} (hn : i + n = (Text.lines text).length) :
    g.lineFindingsFrom (Tags.byLength tags) (coveredBy (g.blocksOf text)) (i + 1)
        (Text.lineStart text i) ((Text.lines text).drop i) =
      (List.range' i n).filterMap (g.lineFinding? tags text) := by
  induction n generalizing i with
  | zero =>
    rw [List.drop_eq_nil_of_le (by omega)]
    rfl
  | succ n ih =>
    have hline : (Text.lines text)[i]? = some (Text.lines text)[i] :=
      List.getElem?_eq_getElem (by omega)
    -- The next line starts behind this one and the line feed that ends it.
    have hrec := ih (i := i + 1) (by omega)
    rw [Text.lineStart_succ hline, ← Nat.add_assoc] at hrec
    rw [List.drop_eq_getElem_cons (by omega), lineFindingsFrom, hrec, List.range'_succ,
      List.filterMap_cons]
    have hfinding : g.lineFinding? tags text i =
        (g.lineBody? tags text i (Text.lines text)[i]).map (Finding.ofBody (i + 1)) := by
      rw [lineFinding?, hline, Option.bind_some]
    rw [← lineBody?, ← hfinding]
    cases g.lineFinding? tags text i <;> rfl

/-- The comments of the line pass are those of the lines in their order, at most one a line. -/
theorem lineFindings_eq (g : Grammar) (tags : List String) (text : List Char) :
    g.lineFindings (Tags.byLength tags) text (g.blocksOf text) =
      (List.range (Text.lines text).length).filterMap (g.lineFinding? tags text) := by
  have h := g.lineFindingsFrom_eq tags text (Nat.zero_add (Text.lines text).length)
  rw [Text.lineStart_zero, List.drop_zero] at h
  rw [lineFindings, List.range_eq_range']
  exact h

/-- Of the comments of the line pass, those of one line are the one that its search finds. -/
theorem filter_lineFindings (g : Grammar) (tags : List String) (text : List Char) (i : Nat) :
    ((g.lineFindings (Tags.byLength tags) text (g.blocksOf text)).filter fun f => f.line = i + 1) =
      (g.lineFinding? tags text i).toList := by
  have hfilter : ∀ n, (((List.range n).filterMap (g.lineFinding? tags text)).filter
      fun f => f.line = i + 1) = if i < n then (g.lineFinding? tags text i).toList else [] := by
    intro n
    induction n with
    | zero => rfl
    | succ n ih =>
      -- A further line adds nothing, or one comment with its own number.
      rw [List.range_succ, List.filterMap_append, List.filter_append, ih]
      cases hfound : g.lineFinding? tags text n with
      | none =>
        rcases Nat.lt_trichotomy i n with hlt | rfl | hgt
        · simp [hfound, hlt, Nat.lt_succ_of_lt hlt]
        · simp [hfound]
        · simp [hfound, Nat.not_lt_of_lt hgt, show ¬ i < n + 1 by omega]
      | some f =>
        have hline := line_of_lineFinding? hfound
        rcases Nat.lt_trichotomy i n with hlt | rfl | hgt
        · simp [hfound, hline, hlt, Nat.lt_succ_of_lt hlt, Nat.ne_of_gt hlt]
        · simp [hfound, hline]
        · simp [hfound, hline, Nat.not_lt_of_lt hgt, show ¬ i < n + 1 by omega, Nat.ne_of_lt hgt]
  rw [lineFindings_eq, hfilter]
  split
  · rfl
  · next hi =>
    -- Behind the last line there is nothing to search.
    rw [lineFinding?, List.getElem?_eq_none (by omega)]
    rfl

/-- **The comments of the line pass.** Each is on a line of the text, and a line has at most one. It
has one exactly if a comment may be read at one of its columns, and then it is the comment that is
read at the least of them. -/
theorem lineFindings_exact (g : Grammar) (custom : List String) (text : List Char) :
    let tags := Tags.all custom
    let found := g.lineFindings (Tags.byLength tags) text (g.blocksOf text)
    (∀ f ∈ found, ∃ i < (Text.lines text).length, f.line = i + 1)
      ∧ ∀ i, let here := found.filter fun f => f.line = i + 1
        here.length ≤ 1
        ∧ (here ≠ [] ↔ ∃ line p, (Text.lines text)[i]? = some line ∧ g.OpensLine tags text i line p)
        ∧ ∀ f ∈ here, ∃ line p b rest, (Text.lines text)[i]? = some line
            ∧ IsLeast {p | g.OpensLine tags text i line p} p
            ∧ g.commentAt? (Tags.byLength tags) (.after line p) = some b
            ∧ g.MarkedAt tags line p b.tag rest ∧ b = Body.afterTag b.tag rest
            ∧ f = Finding.ofBody (i + 1) b := by
  intro tags found
  refine ⟨fun f hf => ?_, fun i => ?_⟩
  · rw [show found = _ from g.lineFindings_eq tags text] at hf
    obtain ⟨i, hi, hfinding⟩ := List.mem_filterMap.mp hf
    exact ⟨i, List.mem_range.mp hi, line_of_lineFinding? hfinding⟩
  · intro here
    have hhere : here = (g.lineFinding? tags text i).toList := g.filter_lineFindings tags text i
    rw [hhere]
    refine ⟨?_, ⟨fun hne => ?_, ?_⟩, fun f hf => ?_⟩
    · cases g.lineFinding? tags text i <;> simp
    · obtain ⟨f, hf⟩ := List.exists_mem_of_ne_nil _ hne
      obtain ⟨line, b, hline, hb, -⟩ := lineFinding?_eq_some (Option.mem_toList.mp hf)
      obtain ⟨p, hleast, -⟩ := lineBody?_eq_some hb
      exact ⟨line, p, hline, hleast.1⟩
    · -- The search passes over no column, so it cannot miss this one.
      rintro ⟨line, p, hline, hopen⟩
      obtain ⟨b, hb⟩ := Option.isSome_iff_exists.mp (lineBody?_isSome_iff.mpr ⟨p, hopen⟩)
      simp [lineFinding?, hline, hb]
    · obtain ⟨line, b, hline, hb, rfl⟩ := lineFinding?_eq_some (Option.mem_toList.mp hf)
      obtain ⟨p, hleast, hcomment⟩ := lineBody?_eq_some hb
      obtain ⟨rest, hmarked, hrest⟩ := commentAt?_eq_some hleast.1.le_length hcomment
      exact ⟨line, p, b, rest, hline, hleast, hcomment, hmarked, hrest, rfl⟩

end TaggedComments.Grammar
