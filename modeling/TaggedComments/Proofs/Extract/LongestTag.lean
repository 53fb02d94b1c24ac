import TaggedComments.Parser.Basic
import TaggedComments.Proofs.Extract.BlockPass
import TaggedComments.Proofs.Extract.LinePass
import TaggedComments.Proofs.Text.LetterCase

/-!
# The longest tag is read

Several tags may stand at one place: a tag may begin with another one, and tags may hold hyphens and
blanks, so that the shorter of the two ends there as well. Tags are tried one after the other, the
longer before the shorter, and so the longest of those that apply is read.

- `Body.Applies` says that a tag stands at the front of a text and ends there, `Body.Longest` that
  none that applies is longer than the one that is written.
- `Body.readTag?_eq_some_iff` says that exactly this tag is read.
- `Grammar.TagFound` says where in a text the tag of a comment was read; `Grammar.mem_comments_iff`
  says that the comments of the text are those of the tags that are found.
- `Grammar.comments_longest_tag` says that each of these tags is the longest at its place.
-/

namespace TaggedComments

/-! ## Section 1: Tags at the front of a text -/

/-- Tags are tried in the order of their lengths. -/
theorem Tags.pairwise_byLength (tags : List String) :
    (byLength tags).Pairwise fun a b => b.length ≤ a.length := by
  have hsorted : (byLength tags).Pairwise fun a b => decide (b.length ≤ a.length) = true := by
    apply List.pairwise_mergeSort
    · intro a b c hab hbc
      simp only [decide_eq_true_eq] at *
      omega
    · intro a b
      simp only [Bool.or_eq_true, decide_eq_true_eq]
      omega
  exact hsorted.imp of_decide_eq_true

/-- Tags that are listed in the order of their lengths are tried as they are listed. -/
theorem Tags.byLength_of_pairwise {tags : List String}
    (h : tags.Pairwise fun a b => b.length ≤ a.length) :
    byLength tags = tags.map String.toList := by
  apply List.mergeSort_of_pairwise
  simpa [List.pairwise_map, String.length_toList] using h

namespace Body

variable {tags : List String} {s tag rest : List Char}

/-- A tag applies at the front of a text: it stands there up to letter case, and behind it the line
ends or goes on with no word character and no hyphen. -/
def Applies (t : String) (s : List Char) : Prop :=
  ∃ written behind, s = written ++ behind ∧ Text.Agree t.toList written ∧ tagEnds behind = true

/-- A text starts with a tag, and no tag that applies there is longer. -/
structure Longest (tags : List String) (s tag rest : List Char) : Prop where
  /-- The tag and the rest make up the text. -/
  split : s = tag ++ rest
  /-- What is written is one of the tags up to letter case. -/
  agrees : ∃ t ∈ tags, Text.Agree t.toList tag
  /-- The tag ends there. -/
  ends : tagEnds rest = true
  /-- A tag that applies has at most as many characters. -/
  longest : ∀ t ∈ tags, Applies t s → t.length ≤ tag.length

theorem length_eq_of_agree {t : String} (h : Text.Agree t.toList tag) : t.length = tag.length := by
  rw [← String.length_toList]
  exact h.length_eq

/-- What agrees with a tag and ends at the front of a text is not longer than the longest tag. -/
theorem Longest.length_le (h : Longest tags s tag rest) {written behind : List Char}
    (hsplit : s = written ++ behind) (hagree : ∃ t ∈ tags, Text.Agree t.toList written)
    (hends : tagEnds behind = true) : written.length ≤ tag.length := by
  obtain ⟨t, ht, hagree⟩ := hagree
  rw [← length_eq_of_agree hagree]
  exact h.longest t ht ⟨written, behind, hsplit, hagree, hends⟩

/-- At the front of a text there is only one longest tag. -/
theorem Longest.unique {tag' rest' : List Char} (h : Longest tags s tag rest)
    (h' : Longest tags s tag' rest') : tag = tag' ∧ rest = rest' := by
  -- None of the two is longer than the other, and both begin the same text.
  have hle := h'.length_le h.split h.agrees h.ends
  have hge := h.length_le h'.split h'.agrees h'.ends
  exact List.append_inj (h.split.symm.trans h'.split) (Nat.le_antisymm hle hge)

/-- The tag is longer than each text that a tag which applies goes on from. -/
theorem Longest.length_lt_of_longer (h : Longest tags s tag rest) {t longer : String}
    (hlonger : longer ∈ tags) (hbegins : t.toList <+: longer.toList) (hne : t ≠ longer)
    (happlies : Applies longer s) : t.length < tag.length := by
  have hle := h.longest longer hlonger happlies
  have hlt : t.toList.length < longer.toList.length := by
    apply Nat.lt_of_le_of_ne hbegins.length_le
    intro heq
    exact hne (String.toList_inj.mp (hbegins.eq_of_length heq))
  rw [String.length_toList, String.length_toList] at hlt
  omega

/-- No character is lost when the tag is put into upper case. -/
theorem upper_ne_of_length_lt {t : String} (h : t.length < tag.length) :
    String.ofList (Text.upper tag) ≠ t := by
  rintro rfl
  have hle := Text.length_le_length_upper tag
  rw [← String.length_toList, String.toList_ofList] at h
  omega

/-- What is read is the longest tag: a longer one that applies would have been tried before. -/
theorem longest_of_readTag? (h : readTag? (Tags.byLength tags) s = some (tag, rest)) :
    Longest tags s tag rest := by
  obtain ⟨hagree, hsplit, hends⟩ := readTag?_eq_some h
  refine ⟨hsplit, exists_agree_byLength.mp hagree, hends, ?_⟩
  rintro t ht ⟨written, behind, hwritten, happlies, hbehind⟩
  obtain ⟨before, name, after, hnames, hread, hbefore⟩ := List.findSome?_eq_some_iff.mp h
  obtain ⟨hstrip, -⟩ := Option.filter_eq_some_iff.mp hread
  have htaken := (Text.stripFolded?_eq_some_iff.mp hstrip).1
  have hmem : t.toList ∈ Tags.byLength tags := by simpa [Tags.byLength] using ⟨t, ht, rfl⟩
  rw [← String.length_toList, ← htaken.length_eq]
  -- The names before the one that is taken do not apply, and those behind it are not longer.
  have hsorted := Tags.pairwise_byLength tags
  rw [hnames] at hmem hsorted
  rcases List.mem_append.mp hmem with hmem | hmem
  · have hnone := hbefore _ hmem
    rw [Text.stripFolded?_eq_some_iff.mpr ⟨happlies, hwritten⟩, Option.filter_some,
      if_pos hbehind] at hnone
    cases hnone
  · rcases List.mem_cons.mp hmem with heq | hmem
    · rw [heq]
    · have hlater := (List.pairwise_append.mp hsorted).2.1
      exact (List.pairwise_cons.mp hlater).1 _ hmem

/-- **The tag that is read.** It is the longest one at the front of the text, in whatever order the
tags were listed. -/
theorem readTag?_eq_some_iff :
    readTag? (Tags.byLength tags) s = some (tag, rest) ↔ Longest tags s tag rest := by
  constructor
  · exact longest_of_readTag?
  · intro h
    have hsome := isSome_readTag? (exists_agree_byLength.mpr h.agrees) h.ends
    rw [← h.split] at hsome
    obtain ⟨⟨tag', rest'⟩, hread⟩ := Option.isSome_iff_exists.mp hsome
    obtain ⟨rfl, rfl⟩ := h.unique (longest_of_readTag? hread)
    exact hread

/-- With or without an at sign in front, the longest tag is read. -/
theorem longest_of_readMarkedTag?
    (h : readMarkedTag? (Tags.byLength tags) s = some (tag, rest)) :
    tag ++ rest <:+ s ∧ Longest tags (tag ++ rest) tag rest := by
  have hat : ∀ {input : List Char}, readTag? (Tags.byLength tags) input = some (tag, rest) →
      input = tag ++ rest ∧ Longest tags (tag ++ rest) tag rest := by
    intro input hread
    have hlongest := longest_of_readTag? hread
    exact ⟨hlongest.split, hlongest.split ▸ hlongest⟩
  unfold readMarkedTag? at h
  split at h
  · next input =>
    rcases Option.or_eq_some_iff.mp h with h | ⟨-, h⟩
    · -- The tag stands behind the at sign.
      obtain ⟨rfl, hlongest⟩ := hat h
      exact ⟨List.suffix_cons _ _, hlongest⟩
    · obtain ⟨hsplit, hlongest⟩ := hat h
      exact ⟨hsplit ▸ List.suffix_rfl, hlongest⟩
  · obtain ⟨rfl, hlongest⟩ := hat h
    exact ⟨List.suffix_rfl, hlongest⟩

end Body

/-! ## Section 2: Where the tag of a comment is read -/

namespace Grammar

/-- The tag of a comment at a cursor in a line, as it is written, and what stands behind it. -/
def tagAt? (g : Grammar) (names : List (List Char)) (p : Cursor) :
    Option (List Char × List Char) :=
  if p.atBoundary then
    g.lineMarkers.findSome? fun m =>
      (Pattern.ends (m ++ [blanks]) p).findSome? fun q => Body.readMarkedTag? names q.rest
  else none

/-- The tag of a comment at the start of a line of a block, and what stands behind it. -/
def pieceTag? (g : Grammar) (names : List (List Char)) (piece : List Char) :
    Option (List Char × List Char) :=
  (Pattern.ends g.decoration (.start piece)).findSome? fun q => Body.readMarkedTag? names q.rest

theorem commentAt?_eq_map (g : Grammar) (names : List (List Char)) (p : Cursor) :
    g.commentAt? names p = (g.tagAt? names p).map fun r => Body.afterTag r.1 r.2 := by
  unfold commentAt? tagAt?
  split
  · simp only [List.map_findSome?, Function.comp_def, Body.read?]
  · rfl

theorem pieceBody?_eq_map (g : Grammar) (names : List (List Char)) (piece : List Char) :
    g.pieceBody? names piece = (g.pieceTag? names piece).map fun r => Body.afterTag r.1 r.2 := by
  simp only [pieceBody?, pieceTag?, List.map_findSome?, Function.comp_def, Body.read?]

variable {g : Grammar} {tags : List String} {text : List Char}

/-- The tag of a comment of a line is the longest at its place. -/
theorem longest_of_tagAt? {line tag rest : List Char} {p : Nat}
    (h : g.tagAt? (Tags.byLength tags) (.after line p) = some (tag, rest)) :
    tag ++ rest <:+ line ∧ Body.Longest tags (tag ++ rest) tag rest := by
  unfold tagAt? at h
  split at h
  · obtain ⟨m, -, hread⟩ := List.exists_of_findSome?_eq_some h
    obtain ⟨q, hq, hread⟩ := List.exists_of_findSome?_eq_some hread
    obtain ⟨hsuffix, hlongest⟩ := Body.longest_of_readMarkedTag? hread
    have hrest : q.rest <:+ line.drop p := Pattern.suffix_of_mem_ends hq
    exact ⟨(hsuffix.trans hrest).trans (List.drop_suffix p line), hlongest⟩
  · cases h

/-- The tag of a comment of a line of a block is the longest at its place. -/
theorem longest_of_pieceTag? {piece tag rest : List Char}
    (h : g.pieceTag? (Tags.byLength tags) piece = some (tag, rest)) :
    tag ++ rest <:+ piece ∧ Body.Longest tags (tag ++ rest) tag rest := by
  obtain ⟨q, hq, hread⟩ := List.exists_of_findSome?_eq_some h
  obtain ⟨hsuffix, hlongest⟩ := Body.longest_of_readMarkedTag? hread
  exact ⟨hsuffix.trans (Pattern.suffix_of_mem_ends hq), hlongest⟩

/-- The tag of a comment is found in a text: the number of its line, the line of the text or of a
block in which it is read, the tag as it is written, and what stands behind it. -/
inductive TagFound (g : Grammar) (tags : List String) (text : List Char) :
    Nat → List Char → List Char → List Char → Prop where
  /-- In a line of the text, at the least column where a comment may be read. -/
  | line {i p : Nat} {line tag rest : List Char} (hline : (Text.lines text)[i]? = some line)
      (hleast : IsLeast {p | g.OpensLine tags text i line p} p)
      (htag : g.tagAt? (Tags.byLength tags) (.after line p) = some (tag, rest)) :
      TagFound g tags text (i + 1) line tag rest
  /-- In a line of a block, at its start. -/
  | piece {b : Block} {k : Nat} {piece tag rest : List Char} (hb : b ∈ g.blocksOf text)
      (hpiece : (Text.lines b.inner)[k]? = some piece)
      (htag : g.pieceTag? (Tags.byLength tags) piece = some (tag, rest)) :
      TagFound g tags text (Text.lineOf text b.innerStart + k) piece tag rest

/-- The tag of a comment at the start of a text of one line without blocks. -/
theorem TagFound.of_start {line tag rest : List Char} (hline : Text.lines line = [line])
    (hblocks : g.blocksOf line = [])
    (htag : g.tagAt? (Tags.byLength tags) (.after line 0) = some (tag, rest)) :
    g.TagFound tags line 1 line tag rest := by
  have hopens : g.OpensLine tags line 0 line 0 := by
    refine ⟨(commentAt?_isSome_iff (Nat.zero_le _)).mp ?_, by simp [hblocks]⟩
    rw [commentAt?_eq_map, htag]
    rfl
  have hleast : IsLeast {p | g.OpensLine tags line 0 line p} 0 := ⟨hopens, fun q _ => Nat.zero_le q⟩
  exact .line (by rw [hline]; rfl) hleast htag

/-- The line pass finds what stands at the least column where a comment may be read, and only
that. -/
theorem lineBody?_eq_some_iff {i : Nat} {line : List Char} {b : Body} :
    g.lineBody? tags text i line = some b ↔
      ∃ p, IsLeast {p | g.OpensLine tags text i line p} p
        ∧ g.commentAt? (Tags.byLength tags) (.after line p) = some b := by
  constructor
  · exact lineBody?_eq_some
  · rintro ⟨p, hleast, hcomment⟩
    obtain ⟨b', hb'⟩ := Option.isSome_iff_exists.mp (lineBody?_isSome_iff.mpr ⟨p, hleast.1⟩)
    obtain ⟨p', hleast', hcomment'⟩ := lineBody?_eq_some hb'
    obtain rfl := hleast.unique hleast'
    rw [hb', ← hcomment, hcomment']

theorem mem_lineFindings_iff {f : Finding} :
    f ∈ g.lineFindings (Tags.byLength tags) text (g.blocksOf text) ↔
      ∃ i line p tag rest, (Text.lines text)[i]? = some line
        ∧ IsLeast {p | g.OpensLine tags text i line p} p
        ∧ g.tagAt? (Tags.byLength tags) (.after line p) = some (tag, rest)
        ∧ f = Finding.ofBody (i + 1) (Body.afterTag tag rest) := by
  rw [lineFindings_eq, List.mem_filterMap]
  constructor
  · rintro ⟨i, -, hf⟩
    obtain ⟨line, b, hline, hb, rfl⟩ := lineFinding?_eq_some hf
    obtain ⟨p, hleast, hcomment⟩ := lineBody?_eq_some_iff.mp hb
    rw [commentAt?_eq_map, Option.map_eq_some_iff] at hcomment
    obtain ⟨⟨tag, rest⟩, htag, rfl⟩ := hcomment
    exact ⟨i, line, p, tag, rest, hline, hleast, htag, rfl⟩
  · rintro ⟨i, line, p, tag, rest, hline, hleast, htag, rfl⟩
    have hb : g.lineBody? tags text i line = some (Body.afterTag tag rest) := by
      apply lineBody?_eq_some_iff.mpr
      exact ⟨p, hleast, by rw [commentAt?_eq_map, htag]; rfl⟩
    refine ⟨i, List.mem_range.mpr (List.getElem?_eq_some_iff.mp hline).1, ?_⟩
    simp [lineFinding?, hline, hb]

theorem mem_blockFindings_iff {names : List (List Char)} {blocks : List Block} {f : Finding} :
    f ∈ g.blockFindings names text blocks ↔
      ∃ b ∈ blocks, ∃ k piece tag rest, (Text.lines b.inner)[k]? = some piece
        ∧ g.pieceTag? names piece = some (tag, rest)
        ∧ f = Finding.ofBody (Text.lineOf text b.innerStart + k) (Body.afterTag tag rest) := by
  simp only [blockFindings, innerFindings, List.mem_flatMap, List.mem_filterMap,
    pieceBody?_eq_map, Option.map_map, Option.map_eq_some_iff, List.mem_zipIdx_iff_getElem?]
  constructor
  · rintro ⟨b, hb, ⟨piece, k⟩, hpiece, ⟨tag, rest⟩, htag, rfl⟩
    exact ⟨b, hb, k, piece, tag, rest, hpiece, htag, rfl⟩
  · rintro ⟨b, hb, k, piece, tag, rest, hpiece, htag, rfl⟩
    exact ⟨b, hb, (piece, k), hpiece, (tag, rest), htag, rfl⟩

/-- The comments of a text are those of the tags that are found in it. -/
theorem mem_comments_iff {custom : List String} {content : String} {file : Data} {c : Comment} :
    c ∈ g.comments custom content file ↔
      ∃ n s tag rest,
        g.TagFound (Tags.all custom) (Text.joinLineEnds content.toList) n s tag rest
          ∧ c = .ofFinding file (.ofBody n (.afterTag tag rest)) := by
  simp only [comments, extract, findings, List.mem_map, List.mem_mergeSort, List.mem_append,
    mem_lineFindings_iff, mem_blockFindings_iff]
  constructor
  · rintro ⟨f, ⟨b, hb, k, piece, tag, rest, hpiece, htag, rfl⟩ |
      ⟨i, line, p, tag, rest, hline, hleast, htag, rfl⟩, rfl⟩
    · exact ⟨_, piece, tag, rest, .piece hb hpiece htag, rfl⟩
    · exact ⟨_, line, tag, rest, .line hline hleast htag, rfl⟩
  · rintro ⟨n, s, tag, rest, hfound, rfl⟩
    refine ⟨_, ?_, rfl⟩
    cases hfound with
    | line hline hleast htag => exact .inr ⟨_, s, _, tag, rest, hline, hleast, htag, rfl⟩
    | piece hb hpiece htag => exact .inl ⟨_, hb, _, s, tag, rest, hpiece, htag, rfl⟩

/-! ## Section 3: The longest tag is reported -/

/-- A tag that is found ends its line with what stands behind it, and it is the longest there. -/
theorem TagFound.longest {n : Nat} {s tag rest : List Char}
    (h : g.TagFound tags text n s tag rest) :
    tag ++ rest <:+ s ∧ Body.Longest tags (tag ++ rest) tag rest := by
  cases h with
  | line _ _ htag => exact longest_of_tagAt? htag
  | piece _ _ htag => exact longest_of_pieceTag? htag

/-- **The longest tag wins.** The comments of a text are those of the tags that are found in it, and
each of these is the longest of the tags in force that apply at its place. In particular no tag is
found or reported where a tag that goes on from it applies. -/
theorem comments_longest_tag (g : Grammar) (custom : List String) (content : String)
    (file : Data) :
    let tags := Tags.all custom
    let text := Text.joinLineEnds content.toList
    (∀ c, c ∈ g.comments custom content file ↔ ∃ n s tag rest,
        g.TagFound tags text n s tag rest ∧ c = .ofFinding file (.ofBody n (.afterTag tag rest)))
      ∧ ∀ n s tag rest, g.TagFound tags text n s tag rest →
        (∃ front, s = front ++ (tag ++ rest))
        ∧ (∃ t ∈ tags, Text.Agree t.toList tag) ∧ Body.tagEnds rest = true
        ∧ (∀ t ∈ tags, Body.Applies t (tag ++ rest) → t.length ≤ tag.length)
        ∧ ∀ t longer, longer ∈ tags → t.toList <+: longer.toList → t ≠ longer →
          Body.Applies longer (tag ++ rest) →
            ¬ Text.Agree t.toList tag ∧ (Finding.ofBody n (.afterTag tag rest)).tag ≠ t := by
  intro tags text
  refine ⟨fun c => mem_comments_iff, fun n s tag rest hfound => ?_⟩
  obtain ⟨⟨front, hfront⟩, hlongest⟩ := hfound.longest
  refine ⟨⟨front, hfront.symm⟩, hlongest.agrees, hlongest.ends, hlongest.longest, ?_⟩
  intro t longer hlonger hbegins hne happlies
  have hlt := hlongest.length_lt_of_longer hlonger hbegins hne happlies
  refine ⟨fun hagree => ?_, Body.upper_ne_of_length_lt hlt⟩
  -- What is written would be as long as the tag that it agrees with.
  have hlength := Body.length_eq_of_agree hagree
  omega

/-- A tag of two words of which the first is a tag as well: the comment has both words. -/
theorem comments_longest_tag_words :
    let tags := Tags.all ["todo later", "fixme"]
    let line := "// @todo later: x".toList
    slashes.TagFound tags line 1 line "todo later".toList ": x".toList
      ∧ (∀ t ∈ tags, Body.Applies t "todo later: x".toList → t.length ≤ 10)
      ∧ Body.Applies "TODO" "todo later: x".toList
      ∧ (Finding.ofBody 1 (.afterTag "todo later".toList ": x".toList)).tag ≠ "TODO" := by
  intro tags line
  have htags : tags = ["TODO LATER", "FIXME", "TODO"] := by decide
  have htag : slashes.tagAt? (Tags.byLength tags) (.after line 0) =
      some ("todo later".toList, ": x".toList) := by
    rw [htags, Tags.byLength_of_pairwise (by decide)]
    decide
  have hfound : slashes.TagFound tags line 1 line "todo later".toList ": x".toList :=
    .of_start (by decide) (by decide) htag
  have happlies : ∀ t ∈ ["TODO", "TODO LATER"], Body.Applies t "todo later: x".toList := by
    intro t ht
    refine ⟨"todo later: x".toList.take t.length, "todo later: x".toList.drop t.length, ?_⟩
    revert t
    unfold Text.Agree
    decide
  obtain ⟨-, hall⟩ := comments_longest_tag slashes ["todo later", "fixme"] "// @todo later: x" .null
  obtain ⟨-, -, -, hlongest, hshorter⟩ := hall 1 line _ _ hfound
  have hnot := hshorter "TODO" "TODO LATER" (by decide) (by decide) (by decide)
    (happlies _ (by decide))
  exact ⟨hfound, hlongest, happlies _ (by decide), hnot.2⟩

end Grammar

end TaggedComments
