import TaggedComments.Proofs.Extract.LongestTag
import TaggedComments.Proofs.Request.Check
import TaggedComments.Proofs.Steps

/-!
# What the list of tags decides

A request lists its tags in some order and in some letter case, perhaps with white space around them
and perhaps more than once. What is found depends only on which tags are in force, because the
longest one is read wherever it stands in the list. With more tags another tag may be read, and it
may be read at an earlier column, but no line loses its comments.

- `Tags.mem_all_of_validate` says which tags a request puts in force.
- `Body.readTag?_congr` and `Grammar.findings_congr_names` carry equality from the tag that is read
  to the comments of a text; `Grammar.comments_tag_set` puts them together.
- `Grammar.TagFound.mono` says that with more tags a tag is found in the same line;
  `Grammar.comments_more_tags` says so for comments.
-/

namespace TaggedComments

/-! ## Section 1: The tags in force -/

namespace Tags

theorem mem_all_iff {custom : List String} {t : String} :
    t ∈ all custom ↔ ∃ s, (s ∈ custom ∨ s ∈ builtin) ∧ t = upperString s := by
  simp only [all, mem_distinct, List.mem_map, List.mem_append, eq_comm]

/-- The builtin tags are in upper case. -/
theorem upperString_of_mem_builtin : ∀ s ∈ builtin, upperString s = s := by
  decide

/-- The tags of a request are the texts that it lists, without the white space around them. -/
theorem mem_of_validate {given : Data} {custom : List String} (h : validate given = .ok custom)
    {t : String} :
    t ∈ custom ↔ ∃ items s, given = .list items ∧ .text s ∈ items ∧ t = Text.trimString s := by
  unfold validate at h
  split at h
  · cases h
    simp
  · next items =>
    simp only [mem_of_mapM_eq_ok h, readTag_eq_ok_iff]
    constructor
    · rintro ⟨_, hd, s, rfl, rfl, -⟩
      exact ⟨items, s, rfl, hd, rfl⟩
    · -- All items of the list are tags, so none of them is left out.
      rintro ⟨items', s, hitems, hs, rfl⟩
      cases hitems
      obtain ⟨t, ht⟩ := mapM_isOk_iff.mp ⟨custom, h⟩ _ hs
      obtain ⟨s', heq, rfl, hne⟩ := readTag_eq_ok_iff.mp ht
      exact ⟨_, hs, s, rfl, by cases heq; exact ⟨rfl, hne⟩⟩
  · cases h

/-- A request puts the builtin tags in force, and in upper case the texts that it lists, without the
white space around them. -/
theorem mem_all_of_validate {given : Data} {custom : List String}
    (h : validate given = .ok custom) {t : String} :
    t ∈ all custom ↔ t ∈ builtin ∨ ∃ items s, given = .list items ∧ .text s ∈ items
      ∧ t = upperString (Text.trimString s) := by
  rw [mem_all_iff]
  constructor
  · rintro ⟨s, hs | hs, rfl⟩
    · obtain ⟨items, d, rfl, hd, rfl⟩ := (mem_of_validate h).mp hs
      exact .inr ⟨items, d, rfl, hd, rfl⟩
    · rw [upperString_of_mem_builtin s hs]
      exact .inl hs
  · rintro (ht | ⟨items, s, rfl, hs, rfl⟩)
    · exact ⟨t, .inr ht, (upperString_of_mem_builtin t ht).symm⟩
    · exact ⟨_, .inl ((mem_of_validate h).mpr ⟨items, s, rfl, hs, rfl⟩), rfl⟩

end Tags

/-! ## Section 2: One set of tags, one reading -/

namespace Body

variable {tags tags' : List String} {s tag rest : List Char}

theorem Longest.congr (h : ∀ t, t ∈ tags ↔ t ∈ tags') (hlongest : Longest tags s tag rest) :
    Longest tags' s tag rest := by
  obtain ⟨t, ht, hagree⟩ := hlongest.agrees
  refine ⟨hlongest.split, ⟨t, (h t).mp ht, hagree⟩, hlongest.ends, ?_⟩
  intro t ht happlies
  exact hlongest.longest t ((h t).mpr ht) happlies

/-- Which tag is read does not depend on the order in which the tags are listed. -/
theorem readTag?_congr (h : ∀ t, t ∈ tags ↔ t ∈ tags') (s : List Char) :
    readTag? (Tags.byLength tags) s = readTag? (Tags.byLength tags') s := by
  -- What is read is the longest tag, and which one that is says nothing about the order.
  apply Option.ext
  rintro ⟨tag, rest⟩
  rw [readTag?_eq_some_iff, readTag?_eq_some_iff]
  exact ⟨.congr h, .congr fun t => (h t).symm⟩

/-- Neither does the body that is read. -/
theorem read?_congr (h : ∀ t, t ∈ tags ↔ t ∈ tags') (s : List Char) :
    read? (Tags.byLength tags) s = read? (Tags.byLength tags') s := by
  unfold read? readMarkedTag?
  split <;> simp only [readTag?_congr h]

end Body

namespace Grammar

variable {g : Grammar} {names names' : List (List Char)}

/-- The search through a line depends on the tags only through the bodies that are read. -/
theorem searchLine_congr_names (h : ∀ s, Body.read? names s = Body.read? names' s)
    (covered : Nat → Bool) (offset : Nat) (before : Option Char) (s : List Char) :
    g.searchLine names covered offset before s = g.searchLine names' covered offset before s := by
  have hcomment : ∀ p, g.commentAt? names p = g.commentAt? names' p := by
    intro p
    simp only [commentAt?, h]
  -- Column by column the two searches see the same, so they end at the same one.
  induction s generalizing offset before with
  | nil => simp only [searchLine, hcomment]
  | cons c s ih => simp only [searchLine, hcomment, ih]

theorem lineFindingsFrom_congr_names (h : ∀ s, Body.read? names s = Body.read? names' s)
    (covered : Nat → Bool) (line offset : Nat) (lines : List (List Char)) :
    g.lineFindingsFrom names covered line offset lines =
      g.lineFindingsFrom names' covered line offset lines := by
  induction lines generalizing line offset with
  | nil => rfl
  | cons s lines ih => simp only [lineFindingsFrom, searchLine_congr_names h, ih]

/-- Neither pass uses the tags for anything but reading bodies. -/
theorem findings_congr_names (h : ∀ s, Body.read? names s = Body.read? names' s)
    (text : List Char) : g.findings names text = g.findings names' text := by
  have hpiece : ∀ piece, g.pieceBody? names piece = g.pieceBody? names' piece := by
    intro piece
    simp only [pieceBody?, h]
  simp only [findings, blockFindings, innerFindings, lineFindings, hpiece,
    lineFindingsFrom_congr_names h]

/-- **The tags as a set.** The comments of a text depend only on which tags are in force, and a
request puts those in force that are builtin or that it lists, in upper case and without the white
space around them: order, repetitions, letter case and white space of the list do not matter. -/
theorem comments_tag_set (g : Grammar) (content : String) (file : Data) :
    (∀ custom custom' : List String, (∀ t, t ∈ Tags.all custom ↔ t ∈ Tags.all custom') →
        g.comments custom content file = g.comments custom' content file)
      ∧ ∀ given custom, Tags.validate given = .ok custom → ∀ t, t ∈ Tags.all custom ↔
        t ∈ Tags.builtin ∨ ∃ items s, given = .list items ∧ .text s ∈ items
          ∧ t = Tags.upperString (Text.trimString s) := by
  refine ⟨fun custom custom' h => ?_, fun given custom h t => Tags.mem_all_of_validate h⟩
  rw [comments, comments, extract, extract, findings_congr_names (Body.read?_congr h)]

/-- Two lists of the same tags: in another order, in other letter cases, with white space around
them, with repetitions, and with a builtin one. -/
theorem comments_tag_set_listed :
    Tags.validate (.list [.text " hack ", .text "Review"]) = .ok ["hack", "Review"]
      ∧ Tags.validate (.list [.text "review\n", .text "todo", .text "HACK", .text "hack"]) =
        .ok ["review", "todo", "HACK", "hack"]
      ∧ slashes.comments ["hack", "Review"] "// hack: x" .null =
        slashes.comments ["review", "todo", "HACK", "hack"] "// hack: x" .null
      ∧ "HACK" ∈ Tags.all ["hack", "Review"] := by
  have hvalid : Tags.validate (.list [.text " hack ", .text "Review"]) =
      .ok ["hack", "Review"] := by decide
  obtain ⟨hsame, hforce⟩ := comments_tag_set slashes "// hack: x" .null
  refine ⟨hvalid, by decide, ?_, ?_⟩
  · apply hsame
    intro t
    exact List.Perm.mem_iff (by decide)
  · exact (hforce _ _ hvalid "HACK").mpr (.inr ⟨_, " hack ", rfl, by decide, by decide⟩)

end Grammar

/-! ## Section 3: More tags -/

theorem Body.Tagged.mono {tags more : List String} (hmore : ∀ t ∈ tags, t ∈ more)
    {s tag rest : List Char} (h : Tagged tags s tag rest) : Tagged more s tag rest := by
  obtain ⟨t, ht, hagree⟩ := h.agrees
  exact ⟨h.split, ⟨t, hmore t ht, hagree⟩, h.ends⟩

namespace Grammar

variable {g : Grammar} {tags more : List String} {text : List Char}

theorem MarkedAt.mono (hmore : ∀ t ∈ tags, t ∈ more) {line tag rest : List Char} {p : Nat}
    (h : g.MarkedAt tags line p tag rest) : g.MarkedAt more line p tag rest := by
  obtain ⟨m, hm, q, gap, body, hmarker, hsplit, hgap, htagged⟩ := h.reads
  exact ⟨h.boundary, m, hm, q, gap, body, hmarker, hsplit, hgap, htagged.mono hmore⟩

theorem OpensLine.mono (hmore : ∀ t ∈ tags, t ∈ more) {i p : Nat} {line : List Char}
    (h : g.OpensLine tags text i line p) : g.OpensLine more text i line p := by
  obtain ⟨tag, rest, hmarked⟩ := h.marked
  exact ⟨⟨tag, rest, hmarked.mono hmore⟩, h.outside⟩

theorem OpensPiece.mono (hmore : ∀ t ∈ tags, t ∈ more) {piece tag rest : List Char}
    (h : g.OpensPiece tags piece tag rest) : g.OpensPiece more piece tag rest := by
  obtain ⟨q, hdecoration, htagged⟩ := h
  exact ⟨q, hdecoration, htagged.mono hmore⟩

/-- With more tags a tag is found in each line where one was found: it may stand at an earlier
column, and it may be longer. -/
theorem TagFound.mono (hmore : ∀ t ∈ tags, t ∈ more) {n : Nat} {s tag rest : List Char}
    (h : g.TagFound tags text n s tag rest) :
    ∃ tag' rest', g.TagFound more text n s tag' rest' := by
  cases h with
  | line hline hleast htag =>
    -- Where a comment may be read it still may, so the search finds a column again.
    obtain ⟨b, hb⟩ := Option.isSome_iff_exists.mp
      (lineBody?_isSome_iff.mpr ⟨_, hleast.1.mono hmore⟩)
    obtain ⟨p, hleast', hcomment⟩ := lineBody?_eq_some hb
    rw [commentAt?_eq_map, Option.map_eq_some_iff] at hcomment
    obtain ⟨⟨tag', rest'⟩, htag', -⟩ := hcomment
    exact ⟨tag', rest', .line hline hleast' htag'⟩
  | piece hb hpiece htag =>
    -- The pass over a block looks at the start of each line alone.
    have hbody := (g.pieceBody?_eq_map _ s).trans (congrArg _ htag)
    obtain ⟨rest, hopens, -⟩ := pieceBody?_eq_some hbody
    have hsome := pieceBody?_isSome_iff.mpr ⟨_, rest, hopens.mono hmore⟩
    rw [pieceBody?_eq_map, Option.isSome_map] at hsome
    obtain ⟨⟨tag', rest'⟩, htag'⟩ := Option.isSome_iff_exists.mp hsome
    exact ⟨tag', rest', .piece hb hpiece htag'⟩

/-- **More tags.** If more tags are in force, then each line that has a comment has one still,
though not always the same. -/
theorem comments_more_tags (g : Grammar) (custom more : List String)
    (hmore : ∀ t ∈ Tags.all custom, t ∈ Tags.all more) (content : String) (file : Data) :
    ∀ c ∈ g.comments custom content file, ∃ d ∈ g.comments more content file, d.line = c.line := by
  intro c hc
  obtain ⟨n, s, tag, rest, hfound, rfl⟩ := mem_comments_iff.mp hc
  obtain ⟨tag', rest', hfound'⟩ := hfound.mono hmore
  exact ⟨_, mem_comments_iff.mpr ⟨n, s, tag', rest', hfound', rfl⟩, rfl⟩

/-- A tag that goes on from a builtin one takes its place, and the line keeps a comment. -/
theorem comments_more_tags_words :
    let c : Comment := ⟨.text "TODO", .first, .text "later: x", .text "", .null⟩
    c ∈ slashes.comments ["fixme"] "// todo later: x" .null
      ∧ ∃ d ∈ slashes.comments ["todo later"] "// todo later: x" .null, d.line = .first := by
  intro c
  have htags : Tags.all ["fixme"] = ["FIXME", "TODO"] := by decide
  have htag : slashes.tagAt? (Tags.byLength (Tags.all ["fixme"]))
      (.after "// todo later: x".toList 0) = some ("todo".toList, " later: x".toList) := by
    rw [htags, Tags.byLength_of_pairwise (by decide)]
    decide
  have hc : c ∈ slashes.comments ["fixme"] "// todo later: x" .null := by
    apply mem_comments_iff.mpr
    exact ⟨1, _, _, _, .of_start (by decide) (by decide) htag, by decide⟩
  exact ⟨hc, comments_more_tags slashes ["fixme"] ["todo later"] (by decide) _ .null c hc⟩

end Grammar

end TaggedComments
