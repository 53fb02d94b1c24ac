import TaggedComments.Proofs.Report.Regrouping
import TaggedComments.Proofs.Text.LetterCase

/-!
# Cells of the Markdown report

The bars of a row in Markdown end its cells, unless a backslash stands right before them. A row is
written with four bars. Of the parts that come from a comment, the message is escaped and adds no
further one, but the reference is written as it is and adds all of its own.

- `openBars` counts the bars that no backslash stands right before.
- `openBars_escapeBars` says that an escaped message has none, `openBars_markdownRow` how many a row
  has.
- `Comment.FromGrammar` says that a comment was taken out of a text,
  `Comment.fromGrammar_of_result_answer` that requests come to such comments.
- `markdown_cells` says what the lines of the report are and how many bars end cells in its rows.
-/

namespace TaggedComments

namespace Report

variable {b : Bool} {c : Char} {s t : List Char}

/-! ## Section 1: Bars that end a cell -/

/-- The number of bars in a text that no backslash stands right before, where it is given whether one
stands before the text. -/
def openBarsAfter (backslash : Bool) : List Char → Nat
  | [] => 0
  | c :: s => (if c = '|' ∧ backslash = false then 1 else 0) + openBarsAfter (c == '\\') s

/-- The number of bars in a text that no backslash stands right before. -/
def openBars (s : String) : Nat :=
  openBarsAfter false s.toList

theorem openBarsAfter_cons_of_ne (hc : c ≠ '|') :
    openBarsAfter b (c :: s) = openBarsAfter (c == '\\') s := by
  simp [openBarsAfter, hc]

/-- Another character than a bar cuts a text into parts that are counted apart. -/
theorem openBarsAfter_append_cons (hc : c ≠ '|') :
    openBarsAfter b (s ++ c :: t) = openBarsAfter b s + openBarsAfter (c == '\\') t := by
  induction s generalizing b with
  | nil => rw [List.nil_append, openBarsAfter_cons_of_ne hc, openBarsAfter, Nat.zero_add]
  | cons d s ih => rw [List.cons_append, openBarsAfter, openBarsAfter, ih, Nat.add_assoc]

theorem openBarsAfter_of_not_mem (h : '|' ∉ s) : openBarsAfter b s = 0 := by
  induction s generalizing b with
  | nil => rfl
  | cons d s ih =>
    obtain ⟨hd, hs⟩ := not_or.mp (mt List.mem_cons.mpr h)
    rw [openBarsAfter_cons_of_ne (Ne.symm hd)]
    exact ih hs

/-- An escaped text has none, whatever stands before it. -/
theorem openBarsAfter_escapeBars (s : String) : openBarsAfter b (escapeBars s).toList = 0 := by
  rw [escapeBars, String.toList_ofList]
  induction s.toList generalizing b with
  | nil => rfl
  | cons d s ih =>
    rw [List.flatMap_cons]
    split
    · -- The backslash is no bar, and the bar stands right behind it.
      rw [List.cons_append, openBarsAfter_cons_of_ne (by decide), List.cons_append, List.nil_append,
        openBarsAfter, ih]
      rfl
    · next hd =>
      rw [List.cons_append, openBarsAfter_cons_of_ne hd]
      exact ih

/-! ## Section 2: The row of a comment -/

/-- The number of a line is written with digits, or as a word. -/
theorem isAlphanum_of_mem_line {l : LineNumber} (h : c ∈ l.toData.display.toList) :
    c.isAlphanum = true := by
  cases l with
  | number n pos =>
    have hdigits : (LineNumber.number n pos).toData.display.toList = Nat.toDigits 10 n := by
      rw [LineNumber.toData, Data.display, Scalar.display]
      · exact Nat.toList_repr
      all_goals simp
    rw [hdigits] at h
    simp [Char.isAlphanum, Nat.isDigit_of_mem_toDigits (by decide) (by decide) h]
  | truth =>
    have hword : (LineNumber.truth.toData.display).toList = ['T', 'r', 'u', 'e'] := rfl
    rw [hword] at h
    simp only [List.mem_cons, List.not_mem_nil, or_false] at h
    rcases h with rfl | rfl | rfl | rfl <;> rfl

/-- The message cell has the bars of the reference. -/
theorem openBars_messageCell {x : Comment} {ref m : String} (href : x.ref = .text ref)
    (h : messageCell x = .ok m) : openBars m = openBars ref := by
  rw [messageCell, href] at h
  split at h
  · next text htext =>
    obtain rfl := Except.ok.inj h
    rw [openBars, String.toList_append]
    split
    · -- The reference is set off by characters that are no bars.
      have hcell : (" (" ++ (Data.text ref).display ++ ")").toList =
          ' ' :: '(' :: (ref.toList ++ [')']) := by simp
      rw [hcell, openBarsAfter_append_cons (by decide), openBarsAfter_escapeBars, Nat.zero_add,
        openBarsAfter_cons_of_ne (by decide), openBarsAfter_append_cons (by decide)]
      rfl
    · next hfalse =>
      have hempty : ref = "" := by simpa [Data.truthy, Scalar.truthy] using hfalse
      rw [hempty, String.toList_empty, List.append_nil, openBarsAfter_escapeBars]
      rfl
  · cases h

/-- A row has four bars and those of the reference, if the name of the file has none. -/
theorem openBars_markdownRow {x : Comment} {ref r : String} (href : x.ref = .text ref)
    (hfile : '|' ∉ x.file.display.toList) (h : markdownRow x = .ok r) :
    openBars r = 4 + openBars ref := by
  obtain ⟨message, hmessage, rfl⟩ := map_eq_ok_iff.mp h
  have hline : '|' ∉ x.line.toData.display.toList := fun hmem =>
    absurd (isAlphanum_of_mem_line hmem) (by decide)
  have hcell : openBarsAfter false message.toList = openBars ref :=
    openBars_messageCell href hmessage
  -- The four bars are the first character and those between blanks.
  have hrow : ("| [" ++ x.file.display ++ "](" ++ x.file.display ++ "#L" ++ x.line.toData.display
      ++ ") | " ++ x.line.toData.display ++ " | " ++ message ++ " |").toList =
      '|' :: ' ' :: '[' :: (x.file.display.toList ++ ']' :: '(' :: (x.file.display.toList
        ++ '#' :: 'L' :: (x.line.toData.display.toList ++ ')' :: ' ' :: '|' :: ' '
          :: (x.line.toData.display.toList ++ ' ' :: '|' :: ' ' :: (message.toList
            ++ ' ' :: ['|']))))) := by
    simp
  rw [openBars, hrow]
  simp [openBarsAfter, openBarsAfter_append_cons, openBarsAfter_of_not_mem hfile,
    openBarsAfter_of_not_mem hline, hcell]
  omega

end Report

/-! ## Section 3: Comments of grammars -/

namespace Comment

/-- A builtin grammar takes the comment out of a text. -/
def FromGrammar (c : Comment) : Prop :=
  ∃ g ∈ Grammar.builtin, ∃ custom content, c ∈ g.comments custom content c.file

/-- The file of the comment is missing, or its name has no bar and no line feed. -/
def PlainFile (c : Comment) : Prop :=
  c.file = .null ∨ ∃ name, c.file = .text name ∧ '|' ∉ name.toList ∧ '\n' ∉ name.toList

variable {c : Comment}

theorem PlainFile.not_mem (h : c.PlainFile) :
    '|' ∉ c.file.display.toList ∧ '\n' ∉ c.file.display.toList := by
  rcases h with hfile | ⟨name, hfile, hbar, hfeed⟩
  · rw [hfile]
    decide
  · rw [hfile]
    exact ⟨hbar, hfeed⟩

/-- Parts of such a comment are texts on one line. -/
theorem FromGrammar.parts (h : c.FromGrammar) : ∃ tag n pos text ref,
    c = ⟨.text tag, .number n pos, .text text, .text ref, c.file⟩
      ∧ '\n' ∉ tag.toList ∧ '\n' ∉ text.toList ∧ '\n' ∉ ref.toList := by
  obtain ⟨g, hg, custom, content, hc⟩ := h
  obtain ⟨f, hf, hfc⟩ := List.mem_map.mp hc
  obtain ⟨i, line, hline, hnumber, htaken⟩ :=
    Grammar.takenFrom_of_mem_extract (Grammar.hasOpeners_of_mem_builtin g hg) hf
  have hfeed := Text.not_mem_of_getElem?_lines hline
  obtain ⟨htext, href⟩ := htaken.not_mem hfeed
  obtain ⟨left, tag, right, rfl, -, htag, -⟩ := htaken.parts
  refine ⟨f.tag, f.line, by omega, f.text, f.ref, ?_, fun hmem => ?_, htext, href⟩
  · rw [← hfc, ofFinding, dif_pos (by omega)]
  · -- A line feed stays itself in upper case and comes from no other character.
    rw [htag, String.toList_ofList] at hmem
    obtain ⟨d, hd, hupper⟩ := List.mem_flatMap.mp hmem
    obtain rfl := Text.eq_of_mem_upperChar hupper (by decide)
    exact hfeed (List.mem_append_left _ (List.mem_append_right _ hd))

theorem FromGrammar.wellTyped (h : c.FromGrammar) (hfile : c.PlainFile) : c.WellTyped := by
  obtain ⟨tag, n, pos, text, ref, hc, -⟩ := h.parts
  have hname : c.file = .null ∨ ∃ s, c.file = .text s :=
    hfile.imp_right fun ⟨name, hname, _⟩ => ⟨name, hname⟩
  rw [hc]
  exact ⟨⟨tag, rfl⟩, ⟨n, pos, rfl⟩, ⟨text, rfl⟩, ⟨ref, rfl⟩, hname⟩

/-- Requests without parsers of their own come to comments of grammars in their file. -/
theorem fromGrammar_of_result_answer {r : Registry} {q : Request} (hq : q.overrides = [])
    {cs : List Comment} (h : (r.answer q).2.result = .ok cs) :
    ∀ c ∈ cs, c.FromGrammar ∧ c.file = q.file := by
  obtain ⟨content, tags, r', x, es, gs, -, -, -, -, hgs, rfl⟩ :=
    Registry.exists_grammars_of_result_answer hq h
  have hbuiltin : ∀ g ∈ gs, g ∈ Grammar.builtin := ((List.forall₂_and_left _ _).mp hgs.flip).1
  intro c hc
  have hfound := (distinctBy_sublist _ _).subset (mem_normalForm.mp hc)
  obtain ⟨g, hg, hcg⟩ := List.mem_flatMap.mp hfound
  have hfile : c.file = q.file := by
    obtain ⟨f, -, rfl⟩ := List.mem_map.mp hcg
    rfl
  exact ⟨⟨g, hbuiltin g hg, tags, content, hfile ▸ hcg⟩, hfile⟩

end Comment

/-! ## Section 4: The lines of the report -/

namespace Report

variable {cs : List Comment}

/-- The row of such a comment is one line. -/
theorem not_mem_markdownRow {x : Comment} {r : String} (hfound : x.FromGrammar)
    (hfile : x.PlainFile) (h : markdownRow x = .ok r) : '\n' ∉ r.toList := by
  obtain ⟨tag, n, pos, text, ref, hx, -, htext, href⟩ := hfound.parts
  obtain ⟨message, hmessage, rfl⟩ := map_eq_ok_iff.mp h
  have hline : '\n' ∉ x.line.toData.display.toList := fun hmem =>
    absurd (isAlphanum_of_mem_line hmem) (by decide)
  have hescaped : '\n' ∉ (escapeBars text).toList := by
    rw [escapeBars, String.toList_ofList]
    intro hmem
    obtain ⟨d, hd, hmem⟩ := List.mem_flatMap.mp hmem
    split at hmem
    · simp at hmem
    · exact htext (List.mem_singleton.mp hmem ▸ hd)
  have hcell : '\n' ∉ message.toList := by
    rw [hx, messageCell] at hmessage
    obtain rfl := Except.ok.inj hmessage
    split <;> simp [hescaped, href]
  simp [hfile.not_mem.2, hline, hcell]

/-- The head of a section is three lines. -/
theorem not_mem_markdownHead {tag l : String} (htag : '\n' ∉ tag.toList)
    (hl : l ∈ markdownHead (.text tag)) : '\n' ∉ l.toList := by
  simp only [markdownHead, Data.display_text, List.mem_cons, List.not_mem_nil, or_false] at hl
  rcases hl with rfl | rfl | rfl
  · simp [htag]
  · simp [htag]
  · decide

/-- The lines of a section are lines. -/
theorem not_mem_sectionLines (hfound : ∀ c ∈ cs, c.FromGrammar) (hfile : ∀ c ∈ cs, c.PlainFile)
    {line : Comment → String} (hline : ∀ c ∈ cs, markdownRow c = .ok (line c))
    {g : String × List Comment} (hg : g ∈ regroup Comment.tagName cs) {l : String}
    (hl : l ∈ sectionLines line g) : '\n' ∉ l.toList := by
  have hgroups := regroups_regroup Comment.tagName cs
  have hmembers : ∀ c ∈ g.2, c ∈ cs ∧ c.tagName = g.1 := by
    intro c hc
    rw [hgroups.members g hg] at hc
    simpa using List.mem_filter.mp hc
  obtain hl | hl := List.mem_append.mp hl
  obtain hl | hl := List.mem_append.mp hl
  · -- The tag of a section is the tag of one of its comments.
    obtain ⟨c, hc⟩ := List.exists_mem_of_ne_nil _ (hgroups.ne_nil hg)
    obtain ⟨hmem, hname⟩ := hmembers c hc
    obtain ⟨tag, n, pos, text, ref, hparts, htag, -⟩ := (hfound c hmem).parts
    rw [hparts] at hname
    have hname : tag = g.1 := hname
    exact not_mem_markdownHead (hname ▸ htag) hl
  · obtain ⟨c, hc, rfl⟩ := List.mem_map.mp hl
    have hmem := (hmembers c hc).1
    exact not_mem_markdownRow (hfound c hmem) (hfile c hmem) (hline c hmem)
  · rw [List.mem_singleton.mp hl]
    decide

/-- The lines of the report are those of its sections. -/
theorem markdown_lines (hne : cs ≠ []) (hfound : ∀ c ∈ cs, c.FromGrammar)
    (hfile : ∀ c ∈ cs, c.PlainFile) {line : Comment → String}
    (hline : ∀ c ∈ cs, markdownRow c = .ok (line c)) :
    ∃ text, render (cs.map .comment) (.text "markdown") = .ok text
      ∧ Text.splitString '\n' (text ++ "\n") =
        (regroup Comment.tagName cs).flatMap (sectionLines line) := by
  have htyped : ∀ c ∈ cs, c.WellTyped := fun c hc => (hfound c hc).wellTyped (hfile c hc)
  obtain ⟨text, hmarkdown, htext⟩ := markdown_layout htyped hne hline
  refine ⟨text, ?_, ?_⟩
  · rw [render_comments (show named? "markdown" = some markdown from rfl), hmarkdown]
  · rw [htext]
    apply Text.splitString_intercalate rfl
    · -- A comment is in a section, and no section is without lines.
      obtain ⟨c, cs', rfl⟩ := List.exists_cons_of_ne_nil hne
      obtain ⟨g, hg, -⟩ := List.mem_flatMap.mp
        ((regroups_regroup Comment.tagName _).perm.mem_iff.mpr List.mem_cons_self)
      intro hnil
      have hlines := List.flatMap_eq_nil_iff.mp hnil g hg
      simp [sectionLines] at hlines
    · intro l hl
      obtain ⟨g, hg, hl⟩ := List.mem_flatMap.mp hl
      exact not_mem_sectionLines hfound hfile hline hg hl

/-- **Cells of the Markdown report.** The report of comments that grammars take out of texts, in files
whose names have no bar and no line feed, has the lines of a heading and a table for each tag: three
lines for the head, a row for each comment and an empty line. A row has four bars that no backslash
stands right before, and one more for each such bar in the reference of its comment; those in the
message do not count. So it has three cells exactly if the reference has no such bar. -/
theorem markdown_cells (cs : List Comment) (hfound : ∀ c ∈ cs, c.FromGrammar)
    (hfile : ∀ c ∈ cs, c.PlainFile) :
    ∃ line : Comment → String,
      (cs ≠ [] → ∃ text, render (cs.map .comment) (.text "markdown") = .ok text
        ∧ Text.splitString '\n' (text ++ "\n") =
          (regroup Comment.tagName cs).flatMap (sectionLines line))
      ∧ ∀ c ∈ cs, markdownRow c = .ok (line c)
        ∧ openBars (line c) = 4 + openBars c.ref.display
        ∧ (openBars (line c) = 4 ↔ openBars c.ref.display = 0) := by
  have htyped : ∀ c ∈ cs, c.WellTyped := fun c hc => (hfound c hc).wellTyped (hfile c hc)
  obtain ⟨line, hline⟩ := exists_line fun c hc => exists_markdownRow (htyped c hc)
  refine ⟨line, fun hne => markdown_lines hne hfound hfile hline, fun c hc => ?_⟩
  obtain ⟨-, -, -, ⟨ref, href⟩, -⟩ := htyped c hc
  have hbars := openBars_markdownRow href (hfile c hc).not_mem.1 (hline c hc)
  rw [href, Data.display_text]
  exact ⟨hline c hc, hbars, by omega⟩

/-- A bar in a message, one behind a backslash in the reference at its end, and one alone in a
reference in parentheses: only the last one counts. -/
theorem markdown_cells_request :
    let q : Request := {
      file := .text "a.js", extension := .text ".js",
      content := .text "// todo a|b /c\\|d\n/* FIXME(e|f): g */" }
    let a : Comment := ⟨.text "TODO", .first, .text "a|b", .text "c\\|d", .text "a.js"⟩
    let b : Comment :=
      ⟨.text "FIXME", .number 2 (by decide), .text "g", .text "e|f", .text "a.js"⟩
    (Registry.builtin.answer q).2.result = .ok [a, b]
      ∧ (∀ c ∈ [a, b], c.FromGrammar) ∧ (∀ c ∈ [a, b], c.PlainFile)
      ∧ ∃ r s, markdownRow a = .ok r ∧ markdownRow b = .ok s ∧ openBars r = 4 ∧ openBars s = 5 := by
  intro q a b
  have hresult : (Registry.builtin.answer q).2.result = .ok [a, b] := by cbv
  have hanswer := Comment.fromGrammar_of_result_answer rfl hresult
  have hfound : ∀ c ∈ [a, b], c.FromGrammar := fun c hc => (hanswer c hc).1
  have hfile : ∀ c ∈ [a, b], c.PlainFile := fun c hc =>
    .inr ⟨"a.js", (hanswer c hc).2, by decide, by decide⟩
  obtain ⟨line, -, hline⟩ := markdown_cells [a, b] hfound hfile
  obtain ⟨hr, -, hbars⟩ := hline a (by simp)
  obtain ⟨hs, hbars', -⟩ := hline b (by simp)
  exact ⟨hresult, hfound, hfile, _, _, hr, hs, hbars.mpr (by decide), hbars'.trans (by decide)⟩

/-- A bar in a reference adds a cell to the row. -/
theorem markdown_cells_reference :
    let c : Comment := ⟨.text "TODO", .first, .text "x", .text "a|b", .text "a.js"⟩
    Grammar.slashes ∈ Grammar.builtin
      ∧ Grammar.slashes.comments [] "// TODO(a|b): x" (.text "a.js") = [c] ∧ c.PlainFile
      ∧ ∃ text row, render [.comment c] (.text "markdown") = .ok text
        ∧ markdownRow c = .ok row ∧ row ∈ Text.splitString '\n' text ∧ openBars row = 5 := by
  intro c
  refine ⟨by decide, by cbv, .inr ⟨"a.js", rfl, by decide, by decide⟩, _, _, rfl, rfl, ?_, ?_⟩
  · decide +kernel
  · decide +kernel

end Report

end TaggedComments
