import TaggedComments.Parser.Basic
import TaggedComments.Proofs.Extract.BlockPass
import TaggedComments.Proofs.Extract.LinePass

/-!
# What is extracted stands in the text

Every comment that a grammar takes out of a text can be found again in the line that it names,
whether it comes from a line or from a block.

- `Finding.TakenFrom` says so of a comment and a line.
- `Grammar.takenFrom_of_mem_lineFindings` and `Grammar.takenFrom_of_mem_blockFindings` prove it for
  the two kinds of comments.
- `Grammar.comments_sound` puts them together and adds the order of the lines.
-/

namespace TaggedComments

/-! ## Section 1: A comment and its line -/

/-- A comment is taken from a line: its tag stands there in some letter case, and behind the tag
stand its message and its reference, trimmed. -/
structure Finding.TakenFrom (f : Finding) (tags : List String) (line : List Char) : Prop where
  /-- The line holds the tag, and behind it what else is reported. -/
  parts : ∃ left tag right, line = left ++ tag ++ right
    ∧ (∃ t ∈ tags, Text.Agree t.toList tag) ∧ f.tag = String.ofList (Text.upper tag)
    ∧ f.text.toList <:+: right ∧ f.ref.toList <:+: right
  /-- No white space is left around the message. -/
  trimmed_text : Text.Trimmed f.text.toList
  /-- No white space is left around the reference. -/
  trimmed_ref : Text.Trimmed f.ref.toList

namespace Finding

/-- What is taken from a part of a line is taken from the line. -/
theorem TakenFrom.mono {f : Finding} {tags : List String} {part line : List Char}
    (h : f.TakenFrom tags part) (hpart : part <:+: line) : f.TakenFrom tags line := by
  obtain ⟨left, tag, right, rfl, hagree, htag, htext, href⟩ := h.parts
  obtain ⟨before, after, rfl⟩ := hpart
  have hright : right <:+: right ++ after := (List.prefix_append right after).isInfix
  exact ⟨⟨before ++ left, tag, right ++ after, by simp, hagree, htag, htext.trans hright,
    href.trans hright⟩, h.trimmed_text, h.trimmed_ref⟩

/-- The comment of a body is taken from the text that starts with its tag. -/
theorem takenFrom_ofBody {tags : List String} {s rest : List Char} {b : Body} (line : Nat)
    (htagged : Body.Tagged tags s b.tag rest) (hb : b = Body.afterTag b.tag rest) :
    (ofBody line b).TakenFrom tags s := by
  obtain ⟨htext, htrimmed⟩ := ofBody_text line b
  obtain ⟨href, htrimmed'⟩ := ofBody_ref line b
  -- Both parts of the body lie behind the tag.
  obtain ⟨hbodyRef, hbodyText⟩ := Body.isInfix_afterTag b.tag rest
  rw [← hb] at hbodyRef hbodyText
  have href' : (ofBody line b).ref.toList <:+: rest := by
    rcases href with h | h
    · exact h.trans hbodyRef
    · exact h.trans hbodyText
  refine ⟨?_, htrimmed, htrimmed'⟩
  rcases htagged.split with rfl | rfl
  · exact ⟨[], b.tag, rest, rfl, htagged.agrees, rfl, htext.trans hbodyText, href'⟩
  · exact ⟨['@'], b.tag, rest, rfl, htagged.agrees, rfl, htext.trans hbodyText, href'⟩

/-- A comment that is taken from a line holds no line feed. -/
theorem TakenFrom.not_mem {f : Finding} {tags : List String} {line : List Char}
    (h : f.TakenFrom tags line) (hline : '\n' ∉ line) :
    '\n' ∉ f.text.toList ∧ '\n' ∉ f.ref.toList := by
  obtain ⟨left, tag, right, rfl, -, -, htext, href⟩ := h.parts
  have hright : '\n' ∉ right := fun hmem => hline (List.mem_append_right _ hmem)
  exact ⟨fun hmem => hright (htext.subset hmem), fun hmem => hright (href.subset hmem)⟩

end Finding

/-! ## Section 2: Comments of lines and of blocks -/

namespace Grammar

theorem takenFrom_of_mem_lineFindings {g : Grammar} {tags : List String} {text : List Char}
    {f : Finding} (h : f ∈ g.lineFindings (Tags.byLength tags) text (g.blocksOf text)) :
    ∃ i line, (Text.lines text)[i]? = some line ∧ f.line = i + 1 ∧ f.TakenFrom tags line := by
  rw [lineFindings_eq] at h
  obtain ⟨i, -, hfinding⟩ := List.mem_filterMap.mp h
  obtain ⟨line, b, hline, hb, rfl⟩ := lineFinding?_eq_some hfinding
  obtain ⟨p, hleast, hcomment⟩ := lineBody?_eq_some hb
  obtain ⟨rest, hmarked, hrest⟩ := commentAt?_eq_some hleast.1.le_length hcomment
  obtain ⟨m, -, q, gap, body, -, hsplit, -, htagged⟩ := hmarked.reads
  refine ⟨i, line, hline, rfl, (Finding.takenFrom_ofBody (i + 1) htagged hrest).mono ?_⟩
  -- The body is the end of the line, behind the marker and the blanks.
  have hbody : body <:+ line.drop q := ⟨gap, hsplit.symm⟩
  exact (hbody.trans (List.drop_suffix q line)).isInfix

theorem takenFrom_of_mem_blockFindings {g : Grammar} (hg : g.HasOpeners) {tags : List String}
    {text : List Char} {f : Finding}
    (h : f ∈ g.blockFindings (Tags.byLength tags) text (g.blocksOf text)) :
    ∃ i line, (Text.lines text)[i]? = some line ∧ f.line = i + 1 ∧ f.TakenFrom tags line := by
  obtain ⟨b, hb, hinner⟩ := List.mem_flatMap.mp h
  obtain ⟨⟨piece, k⟩, hpiece, hbody⟩ := List.mem_filterMap.mp hinner
  obtain ⟨body, hread, rfl⟩ := Option.map_eq_some_iff.mp hbody
  obtain ⟨rest, ⟨q, -, htagged⟩, hrest⟩ := pieceBody?_eq_some hread
  have hofBody := Finding.takenFrom_ofBody (Text.lineOf text b.innerStart + k) htagged hrest
  have htaken := hofBody.mono (List.drop_suffix q piece).isInfix
  -- The block cuts the text in three, and the line feeds before its inside number its lines.
  obtain ⟨-, d, e, hblock⟩ := (blocksOf_scan hg text).blockAt b hb
  have hsplit : text = text.take b.innerStart ++ (b.inner ++ text.drop e) := by
    rw [← hblock.closer.inner_eq, List.take_append_drop]
  obtain ⟨line, hline, hinfix⟩ := Text.exists_line_of_inner (text.take b.innerStart)
    (text.drop e) (List.mem_zipIdx_iff_getElem?.mp hpiece)
  rw [← hsplit] at hline
  refine ⟨_, line, hline, ?_, htaken.mono hinfix⟩
  rw [Finding.line_ofBody, Text.lineOf]
  omega

/-! ## Section 3: All comments of a text -/

theorem takenFrom_of_mem_extract {g : Grammar} (hg : g.HasOpeners) {custom : List String}
    {content : String} {f : Finding} (h : f ∈ g.extract custom content) :
    ∃ i line, (Text.lines (Text.joinLineEnds content.toList))[i]? = some line ∧ f.line = i + 1
      ∧ f.TakenFrom (Tags.all custom) line := by
  -- Sorting only moves the comments of the two passes.
  rw [extract, findings, List.mem_mergeSort, List.mem_append] at h
  rcases h with h | h
  · exact takenFrom_of_mem_blockFindings hg h
  · exact takenFrom_of_mem_lineFindings h

theorem findingLe_trans (a b c : Finding) (hab : decide (a.line ≤ b.line) = true)
    (hbc : decide (b.line ≤ c.line) = true) : decide (a.line ≤ c.line) = true := by
  simp only [decide_eq_true_eq] at *
  omega

theorem findingLe_total (a b : Finding) :
    (decide (a.line ≤ b.line) || decide (b.line ≤ a.line)) = true := by
  simp only [Bool.or_eq_true, decide_eq_true_eq]
  omega

/-- The comments of a text stand in the order of their lines. -/
theorem pairwise_extract (g : Grammar) (custom : List String) (content : String) :
    (g.extract custom content).Pairwise fun a b => a.line ≤ b.line := by
  have hsorted : (g.extract custom content).Pairwise fun a b =>
      decide (a.line ≤ b.line) = true :=
    List.pairwise_mergeSort findingLe_trans findingLe_total _
  apply hsorted.imp
  intro a b h
  exact of_decide_eq_true h

/-- The line of a comment is that of its finding. -/
theorem line_ofFinding {file : Data} {f : Finding} {i : Nat} (h : f.line = i + 1) :
    (Comment.ofFinding file f).line.value = i + 1 := by
  simp [Comment.ofFinding, h, LineNumber.value]

theorem pairwise_comments {g : Grammar} (hg : g.HasOpeners) (custom : List String)
    (content : String) (file : Data) :
    (g.comments custom content file).Pairwise fun a b => a.line.value ≤ b.line.value := by
  -- Numbers of lines are positive, so the comments keep the order of the findings.
  refine List.pairwise_map.mpr ((g.pairwise_extract custom content).imp_of_mem ?_)
  intro a b ha hb hab
  obtain ⟨i, -, -, hi, -⟩ := takenFrom_of_mem_extract hg ha
  obtain ⟨j, -, -, hj, -⟩ := takenFrom_of_mem_extract hg hb
  rw [line_ofFinding hi, line_ofFinding hj, ← hi, ← hj]
  exact hab

/-- **Soundness of extraction.** Every comment of a text names one of its lines. In that line stands
a text that agrees with a tag, and behind it message and reference of the comment, without white
space around them. The comments are in the order of their lines. -/
theorem comments_sound (g : Grammar) (hg : g ∈ builtin) (custom : List String) (content : String)
    (file : Data) :
    let lines := Text.lines (Text.joinLineEnds content.toList)
    (∀ c ∈ g.comments custom content file,
      c.file = file ∧ 1 ≤ c.line.value ∧ c.line.value ≤ lines.length
      ∧ ∃ line left tag right text ref, lines[c.line.value - 1]? = some line
        ∧ line = left ++ tag ++ right ∧ (∃ t ∈ Tags.all custom, Text.Agree t.toList tag)
        ∧ c.tag = .text (String.ofList (Text.upper tag))
        ∧ c.text = .text (String.ofList text) ∧ c.ref = .text (String.ofList ref)
        ∧ text <:+: right ∧ ref <:+: right ∧ Text.Trimmed text ∧ Text.Trimmed ref
        ∧ '\n' ∉ text ∧ '\n' ∉ ref)
      ∧ (g.comments custom content file).Pairwise fun a b => a.line.value ≤ b.line.value := by
  intro lines
  have hopeners := hasOpeners_of_mem_builtin g hg
  refine ⟨fun c hc => ?_, pairwise_comments hopeners custom content file⟩
  obtain ⟨f, hf, rfl⟩ := List.mem_map.mp hc
  obtain ⟨i, line, hline, hnumber, htaken⟩ := takenFrom_of_mem_extract hopeners hf
  obtain ⟨left, tag, right, hsplit, hagree, htag, htext, href⟩ := htaken.parts
  obtain ⟨hfeed, hfeed'⟩ := htaken.not_mem (Text.not_mem_of_getElem?_lines hline)
  have hi : i < lines.length := (List.getElem?_eq_some_iff.mp hline).1
  rw [line_ofFinding hnumber]
  refine ⟨rfl, by omega, by omega, line, left, tag, right, f.text.toList, f.ref.toList, hline,
    hsplit, hagree, congrArg Data.text htag, ?_, ?_, htext, href, htaken.trimmed_text,
    htaken.trimmed_ref, hfeed, hfeed'⟩
  · rw [String.ofList_toList]
    rfl
  · rw [String.ofList_toList]
    rfl

/-- A text of three lines with one comment in a block and one in a line. -/
theorem comments_sound_slashes :
    let found := slashes.comments [] "/* a\r\n * TODO b */\n// fixme(c): d" .null
    slashes ∈ builtin ∧ (∀ c ∈ found, c.line.value ≤ 3)
      ∧ found.Pairwise fun a b => a.line.value ≤ b.line.value := by
  have hmem : slashes ∈ builtin := by decide
  obtain ⟨hsound, hordered⟩ :=
    comments_sound slashes hmem [] "/* a\r\n * TODO b */\n// fixme(c): d" .null
  exact ⟨hmem, fun c hc => (hsound c hc).2.2.1, hordered⟩

end Grammar

end TaggedComments
