import TaggedComments.Parser.Basic
import TaggedComments.Proofs.Extract.BlockPass
import TaggedComments.Proofs.Extract.Marker
import TaggedComments.Proofs.Extract.Plain

/-!
# Comments that are written out are found again

A comment on a line of its own is written as a marker, a blank, a tag with or without an at sign, a
reference in parentheses if there is one, a colon, a blank and a message. Extraction gives back
exactly these parts.

- `Written` is such a comment, `Written.line` its line, `Written.Readable` the conditions on it.
- `Body.readTag?_eq` says that a plain tag is read up to its end.
- `Written.read?_body` and `Written.messageAndRef` read the parts back.
- `Grammar.comments_written` puts them together.
-/

namespace TaggedComments

/-! ## Section 1: A comment as it is written -/

/-- A text ends in a reference: white space, a slash, and characters that are neither. -/
def EndsInReference (text : List Char) : Prop :=
  ∃ front gap token, text = front ++ gap :: '/' :: token ∧ Text.isSpace gap = true ∧ token ≠ []
    ∧ ∀ c ∈ token, Text.isSpace c = false ∧ c ≠ '/'

theorem splitTrailing_eq_none {text : List Char} (h : ¬ EndsInReference text) :
    splitTrailing text = none := by
  rw [Option.eq_none_iff_forall_ne_some]
  rintro ⟨front, token⟩ hsplit
  obtain ⟨gap, htext, hgap, hspace, htoken, hword⟩ := splitTrailing_eq_some hsplit
  -- The white space that counts is the last character before the slash.
  refine h ⟨front ++ gap.dropLast, gap.getLast hgap, token, ?_, hspace _ (List.getLast_mem hgap),
    htoken, hword⟩
  conv_lhs => rw [htext, ← List.dropLast_append_getLast hgap]
  simp

/-- The parts of a comment on a line of its own. -/
structure Written where
  /-- The marker. -/
  mark : List Char
  /-- Whether an at sign stands before the tag. -/
  atSign : Bool
  /-- The tag, in any letter case. -/
  tag : List Char
  /-- The reference, empty if there is none. -/
  ref : List Char
  /-- The message. -/
  text : List Char

namespace Written

/-- What is written behind the tag: the reference in parentheses, a colon and the message. -/
def behindTag (w : Written) : List Char :=
  (if w.ref = [] then [] else '(' :: (w.ref ++ [')'])) ++ ':' :: ' ' :: w.text

/-- What is written behind the marker and a blank. -/
def body (w : Written) : List Char :=
  (if w.atSign then ['@'] else []) ++ (w.tag ++ w.behindTag)

/-- The line of the comment. -/
def line (w : Written) : List Char :=
  w.mark ++ ' ' :: w.body

/-- The parts cannot be confused with one another: the marker is one of the grammar, the tag one of
the tags in any letter case, reference and message are trimmed texts of one line, no parenthesis
closes the reference before its end, the message does not end in a reference unless there is one
before it, and the line holds no block. -/
structure Readable (w : Written) (g : Grammar) (tags : List String) : Prop where
  mark : ∃ m ∈ g.lineMarkers, m.ReadsAt w.mark 0 w.mark.length
  tag : ∃ t ∈ tags, Text.Agree t.toList w.tag
  ref : Text.Trimmed w.ref ∧ ')' ∉ w.ref ∧ '\n' ∉ w.ref
  text : Text.Trimmed w.text ∧ '\n' ∉ w.text
  oneRef : w.ref ≠ [] ∨ ¬ EndsInReference w.text
  noBlock : ∀ p, ¬ g.OpensBlock w.line p

theorem tagEnds_behindTag (w : Written) : Body.tagEnds w.behindTag = true := by
  unfold behindTag
  split
  · rfl
  · rfl

end Written

/-! ## Section 2: Its parts are read back -/

namespace Body

theorem takeWhile_isWord {tag rest : List Char} (htag : ∀ c ∈ tag, Text.isWord c = true)
    (hends : tagEnds rest = true) : (tag ++ rest).takeWhile Text.isWord = tag := by
  rw [List.takeWhile_append_of_pos htag]
  cases rest with
  | nil => simp
  | cons c rest =>
    have hc : Text.isWord c = false := by
      rw [tagEnds, Bool.not_eq_true', Bool.or_eq_false_iff] at hends
      exact hends.1
    simp [hc]

/-- If all names are plain, a tag is read up to the first character that is no word character,
whichever name comes first. -/
theorem readTag?_eq {names : List (List Char)} (hnames : ∀ name ∈ names, ∀ c ∈ name, Text.IsPlain c)
    {tag rest : List Char} (hagree : ∃ name ∈ names, Text.Agree name tag)
    (hends : tagEnds rest = true) : readTag? names (tag ++ rest) = some (tag, rest) := by
  have hword : ∀ {tag : List Char}, (∃ name ∈ names, Text.Agree name tag) →
      ∀ c ∈ tag, Text.isWord c = true := by
    rintro tag ⟨name, hname, h⟩ c hc
    exact (h.isWord (hnames name hname) c hc).1
  obtain ⟨⟨tag', rest'⟩, hread⟩ := Option.isSome_iff_exists.mp (isSome_readTag? hagree hends)
  obtain ⟨hagree', hsplit, hends'⟩ := readTag?_eq_some hread
  have htag : tag = tag' := by
    rw [← takeWhile_isWord (hword hagree) hends, hsplit, takeWhile_isWord (hword hagree') hends']
  subst htag
  rw [hread, List.append_cancel_left hsplit]

end Body

namespace Written

variable {w : Written} {g : Grammar} {tags : List String} (hw : w.Readable g tags)
include hw

/-- What is behind the tag is taken apart again. -/
theorem afterTag_behindTag : Body.afterTag w.tag w.behindTag = ⟨w.tag, w.ref, w.text⟩ := by
  have hmessage : Text.trimRightBlanks ((Body.skipColon
      ((':' :: ' ' :: w.text).dropWhile Text.isBlank)).dropWhile Text.isBlank) = w.text := by
    show Text.trimRightBlanks (w.text.dropWhile Text.isBlank) = w.text
    rw [hw.text.1.dropWhile_isBlank, hw.text.1.trimRightBlanks_eq]
  have hreference : Body.readReference (w.behindTag.dropWhile Text.isBlank) =
      (w.ref, ':' :: ' ' :: w.text) := by
    unfold behindTag
    split
    · next hnone =>
      rw [hnone]
      rfl
    · -- The reference ends at the first closing parenthesis, which is the one that was written.
      have hinside : ∀ c ∈ w.ref, (c != ')') = true := by
        intro c hc
        have hne : c ≠ ')' := fun h => hw.ref.2.1 (h ▸ hc)
        simpa using hne
      show Body.readReference ('(' :: (w.ref ++ [')'] ++ ':' :: ' ' :: w.text)) = _
      rw [List.append_assoc, Body.readReference, if_pos (by simp),
        List.takeWhile_append_of_pos hinside, List.dropWhile_append_of_pos hinside]
      simp
  simp only [Body.afterTag, hreference, hmessage]

/-- Reference and message are reported as they were written. -/
theorem messageAndRef : Body.messageAndRef ⟨w.tag, w.ref, w.text⟩ = (w.text, w.ref) := by
  simp only [Body.messageAndRef, hw.text.1.trim_eq, hw.ref.1.trim_eq]
  split
  · next hnone =>
    -- Without a reference of its own the message may not end in one.
    have hends : ¬ EndsInReference w.text := by
      rcases hw.oneRef with h | h
      · exact absurd (List.isEmpty_iff.mp hnone) h
      · exact h
    rw [splitTrailing_eq_none hends]
  · rfl

variable (htags : ∀ t ∈ tags, ∀ c ∈ t.toList, Text.IsPlain c)
include htags

theorem isWord_of_mem_tag : ∀ c ∈ w.tag, Text.isWord c = true ∧ Text.isSpace c = false := by
  obtain ⟨t, ht, hagree⟩ := hw.tag
  exact hagree.isWord (htags t ht)

/-- The body starts with its at sign or its tag, or with what is behind an empty tag. -/
theorem head?_body {c : Char} (hc : w.body.head? = some c) :
    Text.isSpace c = false ∧ (w.atSign = false → c ≠ '@') := by
  unfold body at hc
  cases hat : w.atSign with
  | true =>
    obtain rfl : '@' = c := by simpa [hat] using hc
    exact ⟨rfl, by simp⟩
  | false =>
    rw [hat, if_neg Bool.false_ne_true, List.nil_append, List.head?_append,
      Option.or_eq_some_iff] at hc
    rcases hc with hc | ⟨-, hc⟩
    · obtain ⟨hword, hspace⟩ := isWord_of_mem_tag hw htags c (List.mem_of_mem_head? hc)
      refine ⟨hspace, ?_⟩
      rintro - rfl
      cases hword
    · unfold behindTag at hc
      split at hc
      · obtain rfl : ':' = c := by simpa using hc
        exact ⟨rfl, by simp⟩
      · obtain rfl : '(' = c := by simpa using hc
        exact ⟨rfl, by simp⟩

/-- The body of a comment that is written is read. -/
theorem read?_body :
    Body.read? (Tags.byLength tags) w.body = some ⟨w.tag, w.ref, w.text⟩ := by
  have hnames : ∀ name ∈ Tags.byLength tags, ∀ c ∈ name, Text.IsPlain c := by
    intro name hname
    obtain ⟨t, ht, rfl⟩ : ∃ t ∈ tags, t.toList = name := by simpa [Tags.byLength] using hname
    exact htags t ht
  have hread := Body.readTag?_eq hnames (Body.exists_agree_byLength.mpr hw.tag) w.tagEnds_behindTag
  have hmarked : Body.readMarkedTag? (Tags.byLength tags) w.body = some (w.tag, w.behindTag) := by
    cases hat : w.atSign with
    | true =>
      rw [body, hat, if_pos rfl, List.singleton_append, Body.readMarkedTag?, hread, Option.some_or]
    | false =>
      unfold Body.readMarkedTag?
      split
      · -- No at sign can stand there, for a tag holds none.
        next input hbody => exact absurd rfl ((head?_body hw htags (by rw [hbody]; rfl)).2 hat)
      · rw [body, hat, if_neg Bool.false_ne_true, List.nil_append, hread]
  rw [Body.read?, hmarked, Option.map_some, afterTag_behindTag hw]

/-- The line is a single one. -/
theorem not_mem_line (hg : g.PlainMarkers) : '\n' ∉ w.line := by
  obtain ⟨m, hm, hmark⟩ := hw.mark
  have hnoMark : '\n' ∉ w.mark := by
    intro hmem
    obtain ⟨i, hi, hc⟩ := List.getElem_of_mem hmem
    obtain ⟨c, hget, hspace⟩ := hmark.not_isSpace (hg.isMarker m hm) (Nat.zero_le i) hi
    rw [List.getElem?_eq_getElem hi, hc] at hget
    cases hget
    cases hspace
  have hnoTag : '\n' ∉ w.tag := by
    intro hmem
    cases (isWord_of_mem_tag hw htags '\n' hmem).2
  have hnoBehind : '\n' ∉ w.behindTag := by
    unfold behindTag
    split
    · simp [hw.text.2]
    · simp [hw.ref.2.2, hw.text.2]
  unfold line body
  split
  · simp [hnoMark, hnoTag, hnoBehind]
  · simp [hnoMark, hnoTag, hnoBehind]

end Written

/-! ## Section 3: The only comment of its line -/

namespace Grammar

/-- A text holds no blocks exactly if none can open at any of its positions. -/
theorem blocksOf_eq_nil_iff {g : Grammar} (hg : g.HasOpeners) {text : List Char} :
    g.blocksOf text = [] ↔ ∀ p, ¬ g.OpensBlock text p := by
  have hscan := blocksOf_scan hg text
  constructor
  · intro hnil p
    exact hscan.not_opensBlock (Nat.zero_le p) (by simp [hnil])
  · intro h
    rw [List.eq_nil_iff_forall_not_mem]
    intro b hb
    -- A block that is found opens where it starts.
    obtain ⟨-, d, e, hblock⟩ := hscan.blockAt b hb
    obtain ⟨before, after, hblocks, -⟩ := hblock.first
    have hd : d ∈ g.blocks := hblocks ▸ List.mem_append_right _ List.mem_cons_self
    have hstart := hblock.closer.start_eq
    exact h b.start ⟨hblock.start_le_length, hblock.boundary, d, hd, b.innerStart, e, b.stop,
      hblock.opener, by omega, hblock.closer.le_length hblock.innerStart_le_length,
      hblock.closer.reads⟩

theorem searchLine_start {g : Grammar} {names : List (List Char)} {line : List Char} {b : Body}
    (h : g.commentAt? names (.start line) = some b) :
    g.searchLine names (fun _ => false) 0 none line = some b := by
  rw [Cursor.start] at h
  cases line with
  | nil => rw [searchLine, if_neg Bool.false_ne_true, h]
  | cons c line => rw [searchLine, if_neg Bool.false_ne_true, h]

/-- A text of one line without blocks holds the comment at its start, and no other. -/
theorem findings_oneLine {g : Grammar} {names : List (List Char)} {line : List Char} {b : Body}
    (hline : '\n' ∉ line) (hblocks : g.blocksOf line = [])
    (h : g.commentAt? names (.start line) = some b) :
    g.findings names line = [Finding.ofBody 1 b] := by
  simp [findings, hblocks, blockFindings, lineFindings, Text.lines_of_not_mem hline,
    lineFindingsFrom, searchLine_start h]

/-- **Round trip.** With plain tags, a comment that is written on a line of its own is extracted as
it was written, and nothing else is: its tag in upper case, its message, its reference. If the tag is
written in ASCII, its upper case is that of the tag it agrees with. -/
theorem comments_written (g : Grammar) (hg : g ∈ builtin) (custom : List String) (file : Data)
    (htags : ∀ t ∈ Tags.all custom, ∀ c ∈ t.toList, Text.IsPlain c) (w : Written)
    (hw : w.Readable g (Tags.all custom)) :
    g.comments custom (String.ofList w.line) file =
        [{ tag := .text (Tags.upperString (String.ofList w.tag)), line := .number 1 Nat.one_pos,
           text := .text (String.ofList w.text), ref := .text (String.ofList w.ref), file := file }]
      ∧ ∀ t ∈ Tags.all custom, Text.Agree t.toList w.tag → (∀ c ∈ w.tag, c.toNat < 128) →
          Tags.upperString (String.ofList w.tag) = Tags.upperString t := by
  have hplain := plainMarkers_of_mem_builtin g hg
  refine ⟨?_, fun t ht hagree hascii => ?_⟩
  · obtain ⟨m, hm, hmark⟩ := hw.mark
    have hcomment : g.commentAt? (Tags.byLength (Tags.all custom)) (.start w.line) =
        some ⟨w.tag, w.ref, w.text⟩ :=
      commentAt?_written hplain hm hmark (fun c hc => (Written.head?_body hw htags hc).1)
        (Written.read?_body hw htags)
    have hline := Written.not_mem_line hw htags hplain
    have hblocks := (blocksOf_eq_nil_iff (hasOpeners_of_mem_builtin g hg)).mpr hw.noBlock
    rw [comments, extract, String.toList_ofList, Text.joinLineEnds_of_not_mem hline,
      findings_oneLine hline hblocks hcomment, List.map_singleton, Finding.ofBody,
      Written.messageAndRef hw, Tags.upperString, String.toList_ofList]
    rfl
  · rw [Tags.upperString, Tags.upperString, String.toList_ofList,
      hagree.upper_eq (fun c hc => (htags t ht c hc).toNat_lt) hascii]

/-- A comment with an at sign, a tag in lower case, a reference with a colon, and a message that
starts like a colon and ends like a reference. -/
theorem comments_written_slashes :
    let w : Written := ⟨"///".toList, true, "todo".toList, "a:b".toList, ": (x) /y".toList⟩
    w.Readable slashes (Tags.all []) ∧ String.ofList w.line = "/// @todo(a:b): : (x) /y"
      ∧ slashes.comments [] (String.ofList w.line) .null =
        [⟨.text "TODO", .number 1 Nat.one_pos, .text ": (x) /y", .text "a:b", .null⟩] := by
  intro w
  have hmem : slashes ∈ builtin := by decide
  have hmark : (repeated "//" '/').ReadsAt w.mark 0 w.mark.length :=
    (Pattern.readsAt_iff_mem_ends (Nat.zero_le _) (Nat.le_refl _)).mpr (by decide)
  have hagree : Text.Agree "TODO".toList w.tag := by
    unfold Text.Agree
    decide
  have hw : w.Readable slashes (Tags.all []) := {
    mark := ⟨_, by decide, hmark⟩
    tag := ⟨"TODO", by decide, hagree⟩
    ref := by decide
    text := by decide
    oneRef := .inl (by decide)
    noBlock := (blocksOf_eq_nil_iff (hasOpeners_of_mem_builtin slashes hmem)).mp (by decide) }
  have htags : ∀ t ∈ Tags.all [], ∀ c ∈ t.toList, Text.IsPlain c := by
    have hall : Tags.all [] = ["TODO", "FIXME"] := by decide
    simp [hall, Text.IsPlain]
  obtain ⟨hfound, -⟩ := comments_written slashes hmem [] .null htags w hw
  have hupper : Tags.upperString (String.ofList w.tag) = "TODO" := by
    rw [Tags.upperString, String.toList_ofList]
    rfl
  rw [hupper] at hfound
  exact ⟨hw, by decide, hfound⟩

end Grammar

end TaggedComments
