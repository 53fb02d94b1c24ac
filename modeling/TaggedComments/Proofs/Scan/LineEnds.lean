import TaggedComments.Proofs.Scan.Files
import TaggedComments.Proofs.Text.Utf8

/-!
# Files and their texts

Reading a file unifies its line ends before its text is parsed, and parsing joins the line ends of
any text. Where every carriage return stands before a line feed the two come to the same: a file is
scanned as its text is parsed, with whatever mixture of line ends it was written.

- `Text.pairedReturns_iff` says which texts these are, and `Text.joinLineEnds_eq_filter` what
  becomes of them.
- `Request.SameText` relates requests for one text; `Registry.answer_congr` says that they have one
  answer.
- `Scanner.textRequest` is the request for a text in the place of a file; `Scanner.scanFiles_text`
  says that it is answered as the file is scanned.
-/

namespace TaggedComments

/-! ## Section 1: Line ends -/

namespace Text

/-- Wherever a carriage return stands, a line feed follows. -/
def ReturnsBeforeFeeds (s : List Char) : Prop :=
  ∀ before after, s = before ++ '\r' :: after → ∃ rest, after = '\n' :: rest

theorem returnsBeforeFeeds_cons_iff {c : Char} {s : List Char} : ReturnsBeforeFeeds (c :: s) ↔
    (c = '\r' → ∃ rest, s = '\n' :: rest) ∧ ReturnsBeforeFeeds s := by
  constructor
  · intro h
    exact ⟨fun hc => h [] s (by rw [hc]; rfl), fun before after hs =>
      h (c :: before) after (by rw [hs]; rfl)⟩
  · rintro ⟨hfirst, hrest⟩ before after hsplit
    cases before with
    | nil =>
      obtain ⟨rfl, rfl⟩ := List.cons.inj hsplit
      exact hfirst rfl
    | cons b before =>
      obtain ⟨-, hs⟩ := List.cons.inj hsplit
      exact hrest before after hs

theorem returnsBeforeFeeds_of_not_mem {s : List Char} (h : '\r' ∉ s) : ReturnsBeforeFeeds s := by
  rintro before after rfl
  exact absurd (List.mem_append_right before List.mem_cons_self) h

theorem pairedReturns_iff {s : List Char} : PairedReturns s ↔ ReturnsBeforeFeeds s := by
  fun_induction PairedReturns s with
  | case1 => simp [returnsBeforeFeeds_of_not_mem]
  | case2 s ih => simp [returnsBeforeFeeds_cons_iff, ih]
  | case3 s hfeed => simpa [returnsBeforeFeeds_cons_iff] using fun rest hs => absurd hs (hfeed rest)
  | case4 c s _ hc ih => simp [returnsBeforeFeeds_cons_iff, ih, show c ≠ '\r' from hc]

/-- Only carriage returns are dropped from such a text, and all of them are. -/
theorem joinLineEnds_eq_filter {s : List Char} (h : ReturnsBeforeFeeds s) :
    joinLineEnds s = s.filter (· != '\r') := by
  fun_induction joinLineEnds s with
  | case1 => rfl
  | case2 s ih =>
    have hs := (returnsBeforeFeeds_cons_iff.mp (returnsBeforeFeeds_cons_iff.mp h).2).2
    simp [ih hs]
  | case3 c s hpair ih =>
    obtain ⟨hfirst, hs⟩ := returnsBeforeFeeds_cons_iff.mp h
    -- A carriage return here would make a pair, which is the case above.
    have hc : c ≠ '\r' := by
      intro hc
      obtain ⟨rest, hrest⟩ := hfirst hc
      exact hpair rest hc hrest
    simp [ih hs, hc]

/-- Without carriage returns nothing is dropped, so joining line ends again changes nothing. -/
theorem joinLineEnds_joinLineEnds {s : List Char} (h : ReturnsBeforeFeeds s) :
    joinLineEnds (joinLineEnds s) = joinLineEnds s := by
  have hnone : '\r' ∉ joinLineEnds s := by simp [joinLineEnds_eq_filter h]
  rw [joinLineEnds_eq_filter (returnsBeforeFeeds_of_not_mem hnone), List.filter_eq_self]
  intro c hc
  simpa using ne_of_mem_of_not_mem hc hnone

end Text

/-! ## Section 2: Requests for one text -/

/-- The comments of a text under a grammar do not depend on how its lines end. -/
theorem Grammar.comments_congr (g : Grammar) (tags : List String) {a b : String}
    (h : Text.joinLineEnds a.toList = Text.joinLineEnds b.toList) (file : Data) :
    g.comments tags a file = g.comments tags b file := by
  rw [comments, comments, extract, extract, h]

/-- Parsers that find the same in two texts come to the same in them. -/
theorem Aggregate.runParsers_congr {overrides catalogue : Catalogue} {custom : List Data}
    {names : List String} {a b : String} {file : Data}
    (h : ∀ xs, setUp overrides catalogue custom names = .ok xs → ∀ x ∈ xs, x a file = x b file) :
    runParsers overrides catalogue custom names a file =
      runParsers overrides catalogue custom names b file := by
  have hcollect : collect overrides catalogue custom names a file =
      collect overrides catalogue custom names b file := by
    rw [collect, collect]
    cases hxs : setUp overrides catalogue custom names with
    | error e => rfl
    | ok xs => simp only [ok_bind, mapM_congr (h xs hxs)]
  rw [runParsers, runParsers, hcollect]

/-- Builtin parsers do so if the texts differ in their line ends only. -/
theorem Aggregate.runParsers_builtin_congr (tags names : List String) {a b : String}
    (h : Text.joinLineEnds a.toList = Text.joinLineEnds b.toList) (file : Data) :
    runParsers [] Catalogue.builtin (tags.map .text) names a file =
      runParsers [] Catalogue.builtin (tags.map .text) names b file := by
  refine runParsers_congr fun xs hxs x hx => ?_
  obtain ⟨n, -, hn⟩ := (mem_of_mapM_eq_ok hxs).mp hx
  rw [Catalogue.resolve_builtin] at hn
  cases hg : Grammar.find? n with
  | none =>
    rw [hg] at hn
    cases hn
  | some g =>
    -- The parser is that of a grammar, which joins line ends before anything else.
    simp only [hg, ok_bind, Grammar.factory_text, Except.ok.injEq] at hn
    subst hn
    dsimp only
    rw [g.comments_congr tags h]

/-- Two requests for one text: only how its lines end may differ, and how the tags are given. -/
structure Request.SameText (q q' : Request) : Prop where
  /-- The texts are the same up to line ends. -/
  content : ∃ a b, q.content = .text a ∧ q'.content = .text b
    ∧ Text.joinLineEnds a.toList = Text.joinLineEnds b.toList
  /-- The tags are the same. -/
  tags : Tags.validate q.customTags = Tags.validate q'.customTags
  extension : q.extension = q'.extension
  file : q.file = q'.file
  associations : q.associations = q'.associations
  embedded : q.embedded = q'.embedded
  /-- No parsers but the builtin ones are used. -/
  builtin : q.overrides = [] ∧ q'.overrides = []

/-- Requests for one text have one answer. -/
theorem Registry.answer_congr (r : Registry) {q q' : Request} (h : q.SameText q') :
    r.answer q = r.answer q' := by
  obtain ⟨⟨a, b, ha, hb, hends⟩, htags, hextension, hfile, hassociations, hembedded, hq, hq'⟩ := h
  -- The checks differ in the text alone, and so do the runs.
  have hrun : ∀ (x : String) (tags : List String) (r' : Registry),
      q.run ⟨a, x, tags⟩ r' = q'.run ⟨b, x, tags⟩ r' := by
    intro x tags r'
    rw [Request.run, Request.run, hembedded, hfile, hq, hq']
    simp only [Aggregate.runParsers_builtin_congr tags _ hends]
  rw [answer, answer, Request.check, Request.check, hextension, ha, hb, htags, hassociations]
  cases Request.readExtension q'.extension with
  | error e => rfl
  | ok x =>
    cases Tags.validate q'.customTags with
    | error e => rfl
    | ok tags =>
      simp only [Request.readContent, ok_bind, pure, Except.pure, hrun]

/-! ## Section 3: Files -/

namespace Scanner

/-- The request for a text in the place of a file. -/
def textRequest (config : Config) (p : Path) (content : String) : Request where
  content := .text content
  extension := .text p.suffix
  file := .text p.display
  customTags := .list (config.tags.map .text)
  embedded := .bool config.inlineFiles

/-- No tags and an empty list of tags are the same. -/
theorem validate_customTags (config : Config) (content extension file : Data) :
    Tags.validate (request config content extension file).customTags =
      Tags.validate (.list (config.tags.map .text)) := by
  rw [request]
  cases config.tags with
  | nil => rfl
  | cons t tags => rfl

/-- A file makes a request for the text that its bytes stand for. -/
theorem fileRequest_sameText (config : Config) (p : Path) {text : String}
    (h : Text.ReturnsBeforeFeeds text.toList) :
    (fileRequest config (p, Text.Utf8.encode text.toList)).SameText
      (textRequest config p text) where
  content := by
    refine ⟨_, _, rfl, rfl, ?_⟩
    rw [textOf, Text.Utf8.decodeLossy_encode, String.toList_ofList,
      Text.unifyLineEnds_eq_joinLineEnds (Text.pairedReturns_iff.mpr h),
      Text.joinLineEnds_joinLineEnds h]
  tags := validate_customTags config _ _ _
  extension := rfl
  file := rfl
  associations := rfl
  embedded := rfl
  builtin := ⟨rfl, rfl⟩

/-- How the lines of a text end makes no difference to the request for it. -/
theorem textRequest_sameText (config : Config) (p : Path) {text : String}
    (h : Text.ReturnsBeforeFeeds text.toList) :
    (textRequest config p (String.ofList (Text.joinLineEnds text.toList))).SameText
      (textRequest config p text) where
  content := ⟨_, _, rfl, rfl, by rw [String.toList_ofList, Text.joinLineEnds_joinLineEnds h]⟩
  tags := rfl
  extension := rfl
  file := rfl
  associations := rfl
  embedded := rfl
  builtin := ⟨rfl, rfl⟩

/-- A scan of one file comes to nothing if the file is left out, and else to what the file does. -/
theorem result_scanFiles_singleton {s : Scanner} {p : Path} {bytes : List Nat}
    (hread : s.discovery.system.read p = .ok bytes) :
    (s.scanFiles [p]).result = if s.leavesOut p then .ok [] else s.reply (p, bytes) := by
  rw [result_scanFiles]
  cases hp : s.leavesOut p with
  | true =>
    rw [List.filter_cons_of_neg (by simp [hp])]
    rfl
  | false =>
    have hfile : s.readFile p = .ok (p, bytes) := by
      rw [readFile, hread]
      rfl
    have hlist : ∀ block : List Comment, [block].flatten = block := List.append_nil
    rw [List.filter_cons_of_pos (by simp [hp]), List.filter_nil, List.mapM_cons, hfile]
    simp only [List.mapM_nil, ok_bind, pure_bind, List.mapM_cons]
    cases s.reply (p, bytes) with
    | error e => rfl
    | ok block => exact congrArg Except.ok (hlist block)

/-- **A file is scanned as its text is parsed.** If the bytes of a file stand for a text in which
every carriage return is followed by a line feed, then a scan of the file, under any settings and
with any registry, comes to the answer to the request for the text with the tags of the settings,
the suffix and the name of the file, unless the scan is to leave the file out. The request has the
same answer after line feeds have taken the place of the pairs, and leaves the registry alone. -/
theorem scanFiles_text (s : Scanner) (p : Path) (text : String)
    (hread : s.discovery.system.read p = .ok (Text.Utf8.encode text.toList))
    (hreturns : ∀ before after, text.toList = before ++ '\r' :: after →
      ∃ rest, after = '\n' :: rest) :
    let answer := s.registry.answer (textRequest s.config p text)
    let joined := String.ofList (Text.joinLineEnds text.toList)
    (s.scanFiles [p]).result = (if s.leavesOut p then .ok [] else answer.2.result)
      ∧ s.registry.answer (textRequest s.config p joined) = answer
      ∧ joined.toList = text.toList.filter (· != '\r')
      ∧ answer.1 = s.registry := by
  intro answer joined
  refine ⟨?_, ?_, ?_, s.registry.answer_fst_of_null rfl⟩
  · rw [result_scanFiles_singleton hread, reply,
      s.registry.answer_congr (fileRequest_sameText s.config p hreturns)]
  · exact s.registry.answer_congr (textRequest_sameText s.config p hreturns)
  · rw [String.toList_ofList, Text.joinLineEnds_eq_filter hreturns]

/-- A file with a comment in a block over lines that end in two ways, with a tag of the settings and
with embedded sections. -/
theorem scanFiles_text_mixed :
    let text := "/* hack: a\r\n b\n TODO: c */\r\n// d"
    let p : Path := ⟨.here, ["a.js"]⟩
    let s : Scanner := ⟨{ tags := ["hack"], inlineFiles := true },
      ⟨[(".js", ⟨["defaultParser"], []⟩)]⟩,
      ⟨⟨.directory [("a.js", .file (Text.Utf8.encode text.toList))], []⟩, [], []⟩⟩
    s.discovery.system.read p = .ok (Text.Utf8.encode text.toList)
      ∧ Text.ReturnsBeforeFeeds text.toList
      ∧ (s.scanFiles [p]).result = (s.registry.answer (textRequest s.config p text)).2.result
      ∧ s.registry.answer (textRequest s.config p "/* hack: a\n b\n TODO: c */\n// d") =
        s.registry.answer (textRequest s.config p text) := by
  intro text p s
  have hread : s.discovery.system.read p = .ok (Text.Utf8.encode text.toList) := rfl
  have hreturns : Text.ReturnsBeforeFeeds text.toList := by
    simp [text, Text.returnsBeforeFeeds_cons_iff, Text.returnsBeforeFeeds_of_not_mem]
  have hfeeds : String.ofList (Text.joinLineEnds text.toList) =
      "/* hack: a\n b\n TODO: c */\n// d" := by decide
  obtain ⟨hscan, hjoined, -, -⟩ := scanFiles_text s p text hread hreturns
  rw [hfeeds] at hjoined
  exact ⟨hread, hreturns, hscan, hjoined⟩

end Scanner

end TaggedComments
