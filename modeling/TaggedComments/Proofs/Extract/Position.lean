import TaggedComments.Proofs.Aggregate.LineOrder
import TaggedComments.Proofs.Extract.LineStart
import TaggedComments.Proofs.Extract.Soundness

/-!
# Where a text stands

A text has the same comments below other lines as at the top of a file, only further down, and the
other lines keep theirs, as long as no block reaches from them into the text.

- `Comment.below` moves a comment down.
- `Grammar.Above.blockFindings_append` and the two lemmas about `Grammar.lineFinding?` place the
  comments of blocks and of lines.
- `Grammar.findingsOn` is what is found on one line; with it `Grammar.comments_append` puts the parts
  together line by line.
-/

namespace TaggedComments

/-! ## Section 1: Comments further down -/

/-- A comment of a text as it is found that many lines below. -/
def Finding.below (n : Nat) (f : Finding) : Finding :=
  { f with line := n + f.line }

/-- A comment as it is reported that many lines below. -/
def Comment.below (n : Nat) (c : Comment) : Comment :=
  { c with line := .number (n + c.line.value) (Nat.add_pos_right n c.line.value_pos) }

@[simp] theorem Comment.value_line_below (n : Nat) (c : Comment) :
    (c.below n).line.value = n + c.line.value := rfl

theorem Comment.ofFinding_below (file : Data) (n : Nat) {f : Finding} (hf : 0 < f.line) :
    ofFinding file (f.below n) = (ofFinding file f).below n := by
  simp [ofFinding, Finding.below, below, hf, Nat.add_pos_right n hf, LineNumber.value]

namespace Grammar

theorem innerFindings_add (g : Grammar) (names : List (List Char)) (n line : Nat)
    (inner : List Char) :
    g.innerFindings names (n + line) inner =
      (g.innerFindings names line inner).map (Finding.below n) := by
  rw [innerFindings, innerFindings, List.map_filterMap]
  congr 1
  funext piece
  rw [Option.map_map, Nat.add_assoc]
  rfl

section Above

variable {g : Grammar} {front back : List Char}

/-- The comments of blocks move down with them. -/
theorem Above.blockFindings_append (h : g.Above front back) (names : List (List Char)) :
    g.blockFindings names (front ++ back) (g.blocksOf (front ++ back)) =
      (g.blockFindings names back (g.blocksOf back)).map (Finding.below (front.count '\n')) := by
  rw [h.blocksOf_append, blockFindings, blockFindings, List.flatMap_map, List.map_flatMap]
  congr 1
  funext b
  rw [Block.shift, Text.lineOf_append, innerFindings_add]

theorem searchLine_congr {names : List (List Char)} {covered covered' : Nat → Bool}
    {offset offset' : Nat} (before : Option Char) {s : List Char}
    (h : ∀ k ≤ s.length, covered (offset + k) = covered' (offset' + k)) :
    g.searchLine names covered offset before s = g.searchLine names covered' offset' before s := by
  have hhere : covered offset = covered' offset' := h 0 (Nat.zero_le _)
  induction s generalizing offset offset' before with
  | nil => rw [searchLine, searchLine, hhere]
  | cons c s ih =>
    have hlater : ∀ k ≤ s.length, covered (offset + 1 + k) = covered' (offset' + 1 + k) := by
      intro k hk
      rw [Nat.add_assoc, Nat.add_assoc]
      exact h (1 + k) (by rw [List.length_cons]; omega)
    rw [searchLine, searchLine, hhere, ih (some c) hlater (hlater 0 (Nat.zero_le _))]

/-- A line of the first part is searched as if nothing followed. -/
theorem Above.lineFinding?_append_left (h : g.Above front back) (hg : g ∈ builtin)
    (tags : List String) {i : Nat} (hi : i < front.count '\n') :
    g.lineFinding? tags (front ++ back) i = g.lineFinding? tags front i := by
  rw [lineFinding?, lineFinding?, Text.getElem?_lines_append_left h.endsLine back hi]
  cases hline : (Text.lines front)[i]? with
  | none => rfl
  | some line =>
    have hend := Text.lineStart_add_length_lt h.endsLine hi hline
    have hsearch : g.lineBody? tags (front ++ back) i line = g.lineBody? tags front i line := by
      rw [lineBody?, lineBody?, Text.lineStart_append_left h.endsLine back (Nat.le_of_lt hi),
        h.blocksOf_front hg]
      apply searchLine_congr
      intro k hk
      -- The blocks of the whole start behind this line, and the first part has none.
      apply coveredBy_eq_false_iff.mpr
      intro b hb
      have hle := h.le_start b hb
      omega
    rw [Option.bind_some, Option.bind_some, hsearch]

/-- A line of the second part is searched as if nothing stood above it. -/
theorem Above.lineFinding?_append_right (h : g.Above front back) (tags : List String) (i : Nat) :
    g.lineFinding? tags (front ++ back) (front.count '\n' + i) =
      (g.lineFinding? tags back i).map (Finding.below (front.count '\n')) := by
  rw [lineFinding?, lineFinding?, Text.getElem?_lines_append_right h.endsLine back]
  cases (Text.lines back)[i]? with
  | none => rfl
  | some line =>
    -- Blocks and places move by the same length.
    have hcovered : ∀ o, coveredBy (g.blocksOf (front ++ back)) (front.length + o) =
        coveredBy (g.blocksOf back) o := by
      intro o
      rw [h.blocksOf_append]
      simp [coveredBy, List.any_map, Function.comp_def, Block.covers, Block.shift]
    have hsearch : g.lineBody? tags (front ++ back) (front.count '\n' + i) line =
        g.lineBody? tags back i line := by
      rw [lineBody?, lineBody?, Text.lineStart_append_right h.endsLine back]
      apply searchLine_congr
      intro k _
      rw [Nat.add_assoc, hcovered]
    rw [Option.bind_some, Option.bind_some, hsearch, Option.map_map]
    rfl

/-- Each line marker has a visible character. -/
theorem hasVisible_of_mem_lineMarkers :
    ∀ g ∈ builtin, ∀ m ∈ g.lineMarkers, m.hasVisible = true := by
  decide

/-- A blank line has no comment. -/
theorem lineBody?_blank {g : Grammar} (hg : g ∈ builtin) (tags : List String) (text : List Char)
    (i : Nat) {line : List Char} (hline : ∀ c ∈ line, Text.isSpace c = true) :
    g.lineBody? tags text i line = none := by
  rw [← Option.not_isSome_iff_eq_none, lineBody?_isSome_iff]
  rintro ⟨p, hopen⟩
  obtain ⟨tag, rest, hmarked⟩ := hopen.marked
  obtain ⟨m, hm, q, -, -, hreads, -⟩ := hmarked.reads
  obtain ⟨k, c, -, -, hc, hspace⟩ :=
    hreads.exists_visible (hasVisible_of_mem_lineMarkers g hg m hm)
  rw [hline c (List.mem_of_getElem? hc)] at hspace
  cases hspace

/-- Behind its last line feed a text has no comment of a line. -/
theorem lineFinding?_of_count_le {g : Grammar} (hg : g ∈ builtin) (tags : List String)
    {front : List Char} (hfront : Text.EndsLine front) {i : Nat} (hi : front.count '\n' ≤ i) :
    g.lineFinding? tags front i = none := by
  obtain ⟨whole, hlength, -, hlines, -⟩ := Text.exists_wholeLines hfront
  rw [lineFinding?, hlines, List.getElem?_append_right (by omega)]
  -- Only the empty line behind the line feed is left.
  cases i - whole.length with
  | zero =>
    have hblank : g.lineBody? tags front i [] = none := lineBody?_blank hg tags front i (by simp)
    simp [hblank]
  | succ k => rfl

/-! ## Section 2: Line by line -/

/-- What is found on the line of a number, counted from zero: first in blocks, then in the line. -/
def findingsOn (g : Grammar) (tags : List String) (text : List Char) (i : Nat) : List Finding :=
  (g.blockFindings (Tags.byLength tags) text (g.blocksOf text)).filter (·.line = i + 1) ++
    (g.lineFinding? tags text i).toList

theorem line_of_mem_findingsOn {g : Grammar} {tags : List String} {text : List Char} {i : Nat}
    {f : Finding} (h : f ∈ g.findingsOn tags text i) : f.line = i + 1 := by
  rcases List.mem_append.mp h with h | h
  · exact of_decide_eq_true (List.mem_filter.mp h).2
  · exact line_of_lineFinding? (Option.mem_toList.mp h)

theorem Above.findingsOn_append_left (h : g.Above front back) (hg : g ∈ builtin)
    (tags : List String) {i : Nat} (hi : i < front.count '\n') :
    g.findingsOn tags (front ++ back) i = g.findingsOn tags front i := by
  have hblocks : (g.blockFindings (Tags.byLength tags) (front ++ back)
      (g.blocksOf (front ++ back))).filter (·.line = i + 1) = [] := by
    rw [h.blockFindings_append, List.filter_map, List.map_eq_nil_iff, List.filter_eq_nil_iff]
    intro f hf
    -- Comments of blocks are below the first part.
    obtain ⟨k, -, -, hk, -⟩ := takenFrom_of_mem_blockFindings (hasOpeners_of_mem_builtin g hg) hf
    show ¬ decide (front.count '\n' + f.line = i + 1) = true
    rw [decide_eq_true_eq]
    omega
  rw [findingsOn, findingsOn, hblocks, h.blocksOf_front hg,
    h.lineFinding?_append_left hg tags hi]
  rfl

theorem Above.findingsOn_append_right (h : g.Above front back) (tags : List String) (i : Nat) :
    g.findingsOn tags (front ++ back) (front.count '\n' + i) =
      (g.findingsOn tags back i).map (Finding.below (front.count '\n')) := by
  rw [findingsOn, findingsOn, h.blockFindings_append,
    h.lineFinding?_append_right, List.map_append, List.filter_map, Option.toList_map]
  congr 3
  funext f
  simp [Finding.below, Nat.add_assoc]

theorem Above.findingsOn_of_count_le (h : g.Above front back) (hg : g ∈ builtin)
    (tags : List String) {i : Nat} (hi : front.count '\n' ≤ i) :
    g.findingsOn tags front i = [] := by
  rw [findingsOn, h.blocksOf_front hg, lineFinding?_of_count_le hg tags h.endsLine hi]
  rfl

end Above

/-! ## Section 3: All comments -/

/-- The comments of one line. -/
theorem onLine_comments {g : Grammar} (hg : g ∈ builtin) (custom : List String) (content : String)
    (file : Data) (i : Nat) :
    onLine (i + 1) (g.comments custom content file) =
      (g.findingsOn (Tags.all custom) (Text.joinLineEnds content.toList) i).map
        (Comment.ofFinding file) := by
  have hsort : (g.extract custom content).filter (·.line = i + 1) =
      g.findingsOn (Tags.all custom) (Text.joinLineEnds content.toList) i := by
    rw [findingsOn, ← filter_lineFindings, ← List.filter_append]
    apply filter_mergeSort findingLe_trans findingLe_total
    intro a b ha hb
    simp only [decide_eq_true_eq] at *
    omega
  -- Findings and their comments are on the same lines, since no finding is on line zero.
  rw [← hsort, onLine, comments, List.filter_map]
  congr 1
  apply List.filter_congr
  intro f hf
  obtain ⟨k, -, -, hk, -⟩ := takenFrom_of_mem_extract (hasOpeners_of_mem_builtin g hg) hf
  simp [line_ofFinding hk, hk]

end Grammar

theorem onLine_zero (cs : List Comment) : onLine 0 cs = [] := by
  apply List.filter_eq_nil_iff.mpr
  intro c _
  simp [Nat.ne_of_gt c.line.value_pos]

theorem onLine_map_below (m n : Nat) (cs : List Comment) :
    onLine (m + n) (cs.map (Comment.below m)) = (onLine n cs).map (Comment.below m) := by
  simp [onLine, List.filter_map, Function.comp_def]

theorem onLine_map_below_of_le {m n : Nat} (h : n ≤ m) (cs : List Comment) :
    onLine n (cs.map (Comment.below m)) = [] := by
  simp only [onLine, List.filter_eq_nil_iff, List.mem_map, decide_eq_true_eq]
  rintro _ ⟨c, -, rfl⟩
  have hpos := c.line.value_pos
  rw [Comment.value_line_below]
  omega

theorem Ascending.below {cs : List Comment} (h : Ascending cs) (n : Nat) :
    Ascending (cs.map (Comment.below n)) :=
  List.pairwise_map.mpr (h.imp fun hle => Nat.add_le_add_left hle n)

namespace Grammar

section Below

variable {g : Grammar} (hg : g ∈ builtin) (custom : List String) (file : Data)
  {front back : String}
include hg

theorem ascending_comments (content : String) : Ascending (g.comments custom content file) :=
  pairwise_comments (hasOpeners_of_mem_builtin g hg) custom content file

/-- The comments of a text end before the text below it begins. -/
theorem Above.onLine_comments_front
    (h : g.Above (Text.joinLineEnds front.toList) (Text.joinLineEnds back.toList)) {n : Nat}
    (hn : (Text.joinLineEnds front.toList).count '\n' < n) :
    onLine n (g.comments custom front file) = [] := by
  obtain ⟨i, rfl⟩ := Nat.exists_eq_add_one_of_ne_zero (Nat.ne_zero_of_lt hn)
  rw [onLine_comments hg, h.findingsOn_of_count_le hg _ (Nat.le_of_lt_succ hn), List.map_nil]

/-- Two texts together have on each line the comments of the first or those of the second. -/
theorem Above.onLine_comments_append
    (h : g.Above (Text.joinLineEnds front.toList) (Text.joinLineEnds back.toList))
    (htext : Text.joinLineEnds (front ++ back).toList =
      Text.joinLineEnds front.toList ++ Text.joinLineEnds back.toList) (n : Nat) :
    onLine n (g.comments custom (front ++ back) file) =
      onLine n (g.comments custom front file ++ (g.comments custom back file).map
        (Comment.below ((Text.joinLineEnds front.toList).count '\n'))) := by
  rw [onLine_append]
  rcases Nat.lt_or_ge ((Text.joinLineEnds front.toList).count '\n') n with hlt | hge
  · rw [h.onLine_comments_front hg custom file hlt, List.nil_append]
    obtain ⟨i, rfl⟩ := Nat.exists_eq_add_of_lt hlt
    rw [onLine_comments hg, htext, h.findingsOn_append_right, Nat.add_assoc _ i 1,
      onLine_map_below, onLine_comments hg, List.map_map, List.map_map]
    apply List.map_congr_left
    intro f hf
    have hline := line_of_mem_findingsOn hf
    exact Comment.ofFinding_below file _ (by omega)
  · rw [onLine_map_below_of_le hge, List.append_nil]
    cases n with
    | zero => rw [onLine_zero, onLine_zero]
    | succ i =>
      rw [onLine_comments hg, onLine_comments hg, htext, h.findingsOn_append_left hg _ hge]

/-- Below another text a text has the same comments further down. -/
theorem Above.comments_below
    (h : g.Above (Text.joinLineEnds front.toList) (Text.joinLineEnds back.toList))
    (htext : Text.joinLineEnds (front ++ back).toList =
      Text.joinLineEnds front.toList ++ Text.joinLineEnds back.toList) :
    g.comments custom (front ++ back) file = g.comments custom front file ++
      (g.comments custom back file).map (Comment.below (front.toList.count '\n')) := by
  rw [← Text.count_joinLineEnds]
  apply eq_of_onLine_eq (ascending_comments hg custom file _)
  · refine List.pairwise_append.mpr ⟨ascending_comments hg custom file _,
      (ascending_comments hg custom file _).below _, ?_⟩
    intro c hc d hd
    obtain ⟨e, -, rfl⟩ := List.mem_map.mp hd
    rw [Comment.value_line_below]
    apply Nat.le_of_not_lt
    intro hlt
    -- The first text would have a comment on a line of the second.
    have hmem := mem_onLine.mpr ⟨hc, rfl⟩
    rw [h.onLine_comments_front hg custom file (by omega)] at hmem
    cases hmem
  · exact h.onLine_comments_append hg custom file htext

/-- Blank lines have no comments. -/
theorem comments_blank (hfront : Text.EndsLine front.toList)
    (hblank : ∀ c ∈ front.toList, Text.isSpace c = true) : g.comments custom front file = [] := by
  have hspaces : ∀ c ∈ Text.joinLineEnds front.toList, Text.isSpace c = true := fun c hc =>
    hblank c ((Text.sublist_joinLineEnds _).subset hc)
  have hblocks : g.blocksOf (Text.joinLineEnds front.toList) = [] :=
    (above_of_blank hg (Text.endsLine_joinLineEnds hfront) hspaces []).blocksOf_front hg
  have hlines : g.lineFindings (Tags.byLength (Tags.all custom)) (Text.joinLineEnds front.toList)
      [] = [] := by
    rw [← hblocks, lineFindings_eq]
    apply List.filterMap_eq_nil_iff.mpr
    intro i _
    rw [lineFinding?]
    cases hline : (Text.lines (Text.joinLineEnds front.toList))[i]? with
    | none => rfl
    | some line =>
      have hpart := Text.isInfix_of_mem_lines (List.mem_of_getElem? hline)
      rw [Option.bind_some, lineBody?_blank hg _ _ _ fun c hc => hspaces c (hpart.subset hc)]
      rfl
  rw [comments, extract, findings]
  simp [hlines, hblocks, blockFindings]

end Below

/-- **Position.** The comments of a text that stands below another, from which no block reaches into
it, are those of the other text and then those of this one, each as many lines further down as the
other text has line feeds. Below blank lines these are all. -/
theorem comments_append (g : Grammar) (hg : g ∈ builtin) (custom : List String) (file : Data) :
    (∀ front back : String, Text.EndsLine front.toList →
      (∀ b ∈ g.blocksOf (Text.joinLineEnds (front ++ back).toList),
        (Text.joinLineEnds front.toList).length ≤ b.start) →
      g.comments custom (front ++ back) file = g.comments custom front file ++
        (g.comments custom back file).map (Comment.below (front.toList.count '\n')))
    ∧ ∀ front back : String, Text.EndsLine front.toList →
      (∀ c ∈ front.toList, Text.isSpace c = true) →
      g.comments custom (front ++ back) file =
        (g.comments custom back file).map (Comment.below (front.toList.count '\n')) := by
  have htext : ∀ front back : String, Text.EndsLine front.toList →
      Text.joinLineEnds (front ++ back).toList =
        Text.joinLineEnds front.toList ++ Text.joinLineEnds back.toList := by
    intro front back hfront
    rw [String.toList_append, Text.joinLineEnds_append hfront]
  constructor
  · intro front back hfront hstart
    rw [htext front back hfront] at hstart
    have habove : g.Above _ _ := ⟨Text.endsLine_joinLineEnds hfront, hstart⟩
    exact habove.comments_below hg custom file (htext front back hfront)
  · intro front back hfront hblank
    have habove : g.Above (Text.joinLineEnds front.toList) (Text.joinLineEnds back.toList) := by
      apply above_of_blank hg (Text.endsLine_joinLineEnds hfront)
      intro c hc
      exact hblank c ((Text.sublist_joinLineEnds _).subset hc)
    rw [habove.comments_below hg custom file (htext front back hfront),
      comments_blank hg custom file hfront hblank, List.nil_append]

/-- A comment with two slashes and a block below it, and the block below blank lines. -/
theorem comments_append_slashes :
    let front := "// TODO a\r\n"
    let back := "/* b\n * fixme c */"
    slashes ∈ builtin ∧ Text.EndsLine front.toList
      ∧ (∀ b ∈ slashes.blocksOf (Text.joinLineEnds (front ++ back).toList),
        (Text.joinLineEnds front.toList).length ≤ b.start)
      ∧ slashes.comments [] (front ++ back) .null = slashes.comments [] front .null ++
        (slashes.comments [] back .null).map (Comment.below 1)
      ∧ slashes.comments [] ("\n \n" ++ back) .null =
        (slashes.comments [] back .null).map (Comment.below 2) := by
  intro front back
  have hmem : slashes ∈ builtin := by decide
  have hfront : Text.EndsLine front.toList := .inr ⟨"// TODO a\r".toList, by decide⟩
  have hblocks : ∀ b ∈ slashes.blocksOf (Text.joinLineEnds (front ++ back).toList),
      (Text.joinLineEnds front.toList).length ≤ b.start := by
    decide
  have hcount : front.toList.count '\n' = 1 := by decide
  obtain ⟨hbelow, hblank⟩ := comments_append slashes hmem [] .null
  refine ⟨hmem, hfront, hblocks, hcount ▸ hbelow front back hfront hblocks, ?_⟩
  exact hblank "\n \n" back (.inr ⟨['\n', ' '], rfl⟩) (List.all_eq_true.mp (by decide))

end Grammar

end TaggedComments
