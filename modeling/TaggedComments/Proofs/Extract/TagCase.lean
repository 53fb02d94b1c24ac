import TaggedComments.Proofs.Extract.LongestTag
import TaggedComments.Proofs.Extract.RoundTrip
import TaggedComments.Proofs.Extract.Soundness
import TaggedComments.Proofs.Steps
import TaggedComments.Proofs.Text.LetterCase

/-!
# Tags in any letter case

Tags are put into upper case, and comments are reported with what is written in upper case. In
between, a tag is recognised character by character up to letter case, so it matters whether upper
case keeps the number of characters, and whether all cases of a letter have one capital.

- `Grammar.comments_oneLine` is what a line with a tag and a message comes to.
- `Grammar.comments_tag` says when the tag of a comment is one of those that are in force.
- `Grammar.comments_own_tag` says which tags are found where they are written as they were given.
-/

namespace TaggedComments

namespace Grammar

/-! ## Section 1: A line with a tag and a message -/

/-- A line with a marker, a tag that is read as a whole, and a message comes to one comment. -/
theorem comments_oneLine {g : Grammar} (hg : g ∈ builtin) {custom : List String} {m : Pattern}
    (hm : m ∈ g.lineMarkers) {mark w : List Char} (hmark : m.ReadsAt mark 0 mark.length)
    (hfirst : ∃ c, w.head? = some c ∧ Text.isSpace c = false ∧ c ≠ '@')
    (hline : '\n' ∉ mark ++ ' ' :: (w ++ ": x".toList))
    (hblocks : g.blocksOf (mark ++ ' ' :: (w ++ ": x".toList)) = [])
    (hread : Body.readTag? (Tags.byLength (Tags.all custom)) (w ++ ": x".toList) =
      some (w, ": x".toList)) (file : Data) :
    g.comments custom (String.ofList (mark ++ ' ' :: (w ++ ": x".toList))) file =
      [⟨.text (String.ofList (Text.upper w)), .first, .text "x", .text "", file⟩] := by
  obtain ⟨c, hc, hspace, hat⟩ := hfirst
  obtain ⟨w', rfl⟩ : ∃ w', w = c :: w' := List.head?_eq_some_iff.mp hc
  -- Without an at sign the body starts with its tag.
  have hbody : Body.read? (Tags.byLength (Tags.all custom)) (c :: w' ++ ": x".toList) =
      some ⟨c :: w', [], ['x']⟩ := by
    have hmarked : Body.readMarkedTag? (Tags.byLength (Tags.all custom)) (c :: w' ++ ": x".toList) =
        some (c :: w', ": x".toList) := by
      unfold Body.readMarkedTag?
      split
      · next input heq => exact absurd (List.cons.inj heq).1 hat
      · exact hread
    rw [Body.read?, hmarked]
    rfl
  have hcomment := commentAt?_written (plainMarkers_of_mem_builtin g hg) hm hmark
    (fun d hd => by cases hd; exact hspace) hbody
  rw [comments, extract, String.toList_ofList, Text.joinLineEnds_of_not_mem hline,
    findings_oneLine hline hblocks hcomment]
  rfl

/-! ## Section 2: Which comments have a tag in force -/

/-- Tags in force are in upper case. -/
theorem upperChar_of_mem_all {custom : List String} {t : String} (ht : t ∈ Tags.all custom)
    {c : Char} (hc : c ∈ t.toList) : Text.upperChar c = [c] := by
  obtain ⟨s, -, rfl⟩ := List.mem_map.mp (mem_distinct.mp ht)
  rw [Tags.upperString, String.toList_ofList] at hc
  exact Text.upperChar_of_mem_upper hc

/-- **Tags of comments.** In the line of every comment a text stands that agrees with a tag, and the
comment has this text in upper case as its tag. This is the tag that it agrees with unless at some
place the two have different characters, one of which is a lone capital. -/
theorem comments_tag (g : Grammar) (hg : g ∈ builtin) (custom : List String) (content : String)
    (file : Data) :
    ∀ c ∈ g.comments custom content file,
      ∃ line s t, (Text.lines (Text.joinLineEnds content.toList))[c.line.value - 1]? = some line
        ∧ s <:+: line ∧ t ∈ Tags.all custom ∧ Text.Agree t.toList s
        ∧ c.tag = .text (String.ofList (Text.upper s))
        ∧ (c.tag = .text t ↔ List.Forall₂ (fun n d => n = d
          ∨ (n ∉ Text.loneCapitals ∧ d ∉ Text.loneCapitals)) t.toList s) := by
  intro c hc
  obtain ⟨f, hf, rfl⟩ := List.mem_map.mp hc
  obtain ⟨i, line, hline, hnumber, htaken⟩ :=
    takenFrom_of_mem_extract (hasOpeners_of_mem_builtin g hg) hf
  obtain ⟨left, s, right, rfl, ⟨t, ht, hagree⟩, htag, -⟩ := htaken.parts
  have hupper := hagree.upper_eq_iff fun c hc => upperChar_of_mem_all ht hc
  refine ⟨_, s, t, ?_, ⟨left, right, rfl⟩, ht, hagree, congrArg Data.text htag, ?_⟩
  · rw [line_ofFinding hnumber]
    exact hline
  · rw [← hupper, Comment.ofFinding, htag, Data.scalar.injEq, Scalar.text.injEq,
      ← String.toList_inj, String.toList_ofList]

/-- A comment with two slashes and a case of a builtin tag. -/
theorem comments_slashes {w : List Char} (hagree : ∃ t ∈ Tags.all [], Text.Agree t.toList w)
    (hfirst : ∃ c, w.head? = some c ∧ Text.isSpace c = false ∧ c ≠ '@')
    (hline : '\n' ∉ '/' :: '/' :: ' ' :: (w ++ ": x".toList))
    (hblocks : slashes.blocksOf ('/' :: '/' :: ' ' :: (w ++ ": x".toList)) = []) :
    slashes.comments [] (String.ofList ('/' :: '/' :: ' ' :: (w ++ ": x".toList))) .null =
      [⟨.text (String.ofList (Text.upper w)), .first, .text "x", .text "", .null⟩] := by
  have hmark : (repeated "//" '/').ReadsAt ['/', '/'] 0 ['/', '/'].length :=
    (Pattern.readsAt_iff_mem_ends (Nat.zero_le _) (Nat.le_refl _)).mpr (by decide)
  have hplain : ∀ name ∈ Tags.byLength (Tags.all []), ∀ c ∈ name, Text.IsPlain c := by
    have hall : Tags.all [] = ["TODO", "FIXME"] := by decide
    simp [Tags.byLength, hall, Text.IsPlain]
  have hread := Body.readTag?_eq hplain (Body.exists_agree_byLength.mpr hagree)
    (rfl : Body.tagEnds ": x".toList = true)
  exact comments_oneLine (by decide) (by decide) hmark hfirst hline hblocks hread .null

/-- Two slashes, and a tag in mixed case. -/
theorem comments_tag_mixed :
    let c : Comment := ⟨.text "FIXME", .first, .text "x", .text "", .null⟩
    slashes ∈ builtin ∧ c ∈ slashes.comments [] "// FixMe: x" .null
      ∧ ∃ s t, t ∈ Tags.all [] ∧ Text.Agree t.toList s
        ∧ c.tag = .text (String.ofList (Text.upper s)) := by
  intro c
  have hmem : slashes ∈ builtin := by decide
  have hagree : ∃ t ∈ Tags.all [], Text.Agree t.toList "FixMe".toList := by
    unfold Text.Agree
    decide
  have hc : c ∈ slashes.comments [] "// FixMe: x" .null := by
    rw [show "// FixMe: x" =
        String.ofList ('/' :: '/' :: ' ' :: ("FixMe".toList ++ ": x".toList)) from rfl,
      comments_slashes hagree ⟨'F', by decide⟩ (by decide) (by decide)]
    exact List.mem_singleton.mpr rfl
  obtain ⟨line, s, t, -, -, ht, hst, htag, -⟩ :=
    comments_tag slashes hmem [] "// FixMe: x" .null c hc
  exact ⟨hmem, hc, s, t, ht, hst, htag⟩

/-- The dotted capital counts as a case of a letter of a tag, but it stays itself in upper case, so
that the comment has a tag that is not in force. -/
theorem comments_tag_dotted :
    slashes.comments [] "// F\u0130XME: x" .null =
        [⟨.text "F\u0130XME", .first, .text "x", .text "", .null⟩]
      ∧ "F\u0130XME" ∉ Tags.all [] := by
  refine ⟨?_, by decide⟩
  have hagree : ∃ t ∈ Tags.all [], Text.Agree t.toList "F\u0130XME".toList := by
    unfold Text.Agree
    decide
  have hupper : String.ofList (Text.upper "F\u0130XME".toList) = "F\u0130XME" := by decide +kernel
  rw [show "// F\u0130XME: x" =
      String.ofList ('/' :: '/' :: ' ' :: ("F\u0130XME".toList ++ ": x".toList)) from rfl,
    comments_slashes hagree ⟨'F', by decide⟩ (by decide) (by decide), hupper]

/-! ## Section 3: Tags that find themselves -/

/-- Semicolons find no blocks. -/
theorem blocksOf_semicolons (text : List Char) : semicolons.blocksOf text = [] := by
  rw [blocksOf_eq_nil_iff (hasOpeners_of_mem_builtin _ (by decide))]
  intro p h
  obtain ⟨-, -, d, hd, -⟩ := h
  cases hd

/-- With one custom tag a tag is that one or a plain one. -/
theorem agree_cases {w s : List Char}
    (h : ∃ t ∈ Tags.all [String.ofList w], Text.Agree t.toList s) :
    Text.Agree (Text.upper w) s ∨ ∃ name, (∀ c ∈ name, Text.IsPlain c) ∧ Text.Agree name s := by
  obtain ⟨t, ht, hagree⟩ := h
  obtain ⟨u, hu, rfl⟩ := List.mem_map.mp (mem_distinct.mp ht)
  rw [Tags.upperString, String.toList_ofList] at hagree
  have hbuiltin : ∀ u ∈ Tags.builtin,
      (Text.upper u.toList).all (fun c => decide (Text.IsPlain c)) = true := by
    decide
  rcases List.mem_cons.mp hu with rfl | hu
  · rw [String.toList_ofList] at hagree
    exact .inl hagree
  · exact .inr ⟨_, Text.forall_mem_of_all (hbuiltin u hu), hagree⟩

/-- In front of a colon a tag is read as a whole if its upper case is as long as it is. -/
theorem readTag?_own {w : List Char} (h : ∀ c ∈ w, (Text.upperChar c).length = 1) :
    Body.readTag? (Tags.byLength (Tags.all [String.ofList w])) (w ++ ": x".toList) =
      some (w, ": x".toList) := by
  have hown : ∃ t ∈ Tags.all [String.ofList w], Text.Agree t.toList w := by
    refine ⟨Tags.upperString (String.ofList w), by simp [Tags.all], ?_⟩
    rw [Tags.upperString, String.toList_ofList, String.toList_ofList]
    exact Text.agree_upper_iff.mpr h
  have hends : Body.tagEnds ": x".toList = true := rfl
  obtain ⟨⟨tag, rest⟩, hread⟩ := Option.isSome_iff_exists.mp
    (Body.isSome_readTag? (Body.exists_agree_byLength.mpr hown) hends)
  have hle := (Body.longest_of_readTag? hread).length_le rfl hown hends
  obtain ⟨hagree, hsplit, -⟩ := Body.readTag?_eq_some hread
  -- What is read begins with the tag, and it does not go on behind it.
  obtain ⟨more, rfl⟩ : ∃ more, tag = w ++ more := by
    obtain ⟨more, hmore⟩ := List.prefix_of_prefix_length_le
      (List.prefix_append w _) (hsplit ▸ List.prefix_append tag rest) hle
    exact ⟨more, hmore.symm⟩
  rw [List.append_assoc, List.append_cancel_left_eq] at hsplit
  have hmore : more = [] := by
    rcases agree_cases (Body.exists_agree_byLength.mp hagree) with hagree | ⟨name, hplain, hagree⟩
    · have hlength := hagree.length_eq
      rw [Text.length_upper_eq_iff.mpr h, List.length_append] at hlength
      exact List.length_eq_zero_iff.mp (by omega)
    · -- A plain tag holds no colon.
      cases more with
      | nil => rfl
      | cons c more =>
        obtain rfl : ':' = c := (List.cons.inj hsplit).1
        have hword := (hagree.isWord hplain ':' (by simp)).1
        cases hword
  subst hmore
  rw [hread, List.append_nil, hsplit, List.nil_append]

/-- The comment of a tag that is written as it was given, behind a semicolon. -/
theorem comments_semicolons {w : List Char} (hw : Text.Trimmed w) (hne : w ≠ [])
    (hat : w.head? ≠ some '@') (hline : '\n' ∉ w)
    (h : ∀ c ∈ w, (Text.upperChar c).length = 1) (file : Data) :
    semicolons.comments [String.ofList w] (String.ofList (';' :: ' ' :: (w ++ ": x".toList))) file =
      [⟨.text (String.ofList (Text.upper w)), .first, .text "x", .text "", file⟩] := by
  have hmark : (repeated ";" ';').ReadsAt [';'] 0 [';'].length :=
    (Pattern.readsAt_iff_mem_ends (Nat.zero_le _) (Nat.le_refl _)).mpr (by decide)
  obtain ⟨c, hc⟩ : ∃ c, w.head? = some c := by
    cases w with
    | nil => exact absurd rfl hne
    | cons c w => exact ⟨c, rfl⟩
  apply comments_oneLine (by decide) (by decide) hmark ⟨c, hc, hw.first c hc, ?_⟩ ?_
    (blocksOf_semicolons _) (readTag?_own h)
  · rintro rfl
    exact hat hc
  · simp [hline]

/-- A text that stands before itself, behind another text, holds only characters of that. -/
theorem mem_of_prefix_append {a u : List Char} (ha : a ≠ []) (h : u <+: a ++ u) :
    ∀ c ∈ u, c ∈ a := by
  have hget : ∀ i (hi : i < u.length), u[i] ∈ a := by
    intro i
    induction i using Nat.strongRecOn with
    | ind i ih =>
      intro hi
      rw [h.getElem hi, List.getElem_append]
      split
      · exact List.getElem_mem _
      · -- A place further on repeats one before it.
        have hpos := List.length_pos_iff.mpr ha
        exact ih (i - a.length) (by omega) (by omega)
  intro c hc
  obtain ⟨i, hi, rfl⟩ := List.getElem_of_mem hc
  exact hget i hi

/-- A text that stands at two places between the same ends is made of characters of the ends. -/
theorem mem_of_shifted {a b u left right : List Char}
    (h : a ++ (u ++ b) = left ++ (u ++ right)) :
    left = a ∨ (∀ c ∈ u, c ∈ a) ∨ ∃ b', b = b' ++ right ∧ ∀ c ∈ u, c ∈ b' := by
  rcases List.append_eq_append_iff.mp h with ⟨more, rfl, hrest⟩ | ⟨more, rfl, hrest⟩
  · -- The second place is further right.
    cases more with
    | nil => exact .inl (List.append_nil a)
    | cons d more =>
      rw [← List.append_assoc] at hrest
      have hlength := congrArg List.length hrest
      simp only [List.length_append, List.length_cons] at hlength
      obtain ⟨b', rfl⟩ : right <:+ b := by
        have hright : right <:+ u ++ b := hrest ▸ List.suffix_append _ right
        exact List.suffix_of_suffix_length_le hright (List.suffix_append u b) (by omega)
      rw [← List.append_assoc, List.append_left_inj] at hrest
      refine .inr (.inr ⟨b', rfl, ?_⟩)
      -- Read from their ends the texts are as in the other case.
      have hprefix : u.reverse <+: b'.reverse ++ u.reverse := by
        rw [← List.reverse_append, List.reverse_prefix, hrest]
        exact List.suffix_append _ u
      have hne : b'.reverse ≠ [] := by
        intro hnil
        have hlength := congrArg List.length hrest
        simp [List.reverse_eq_nil_iff.mp hnil] at hlength
        omega
      simpa using mem_of_prefix_append hne hprefix
  · cases more with
    | nil => exact .inl (List.append_nil left).symm
    | cons d more =>
      refine .inr (.inl ?_)
      have hprefix : u <+: d :: more ++ u := by
        have hleft : d :: more ++ u <+: u ++ right := by
          rw [hrest, ← List.append_assoc]
          exact List.prefix_append _ b
        exact List.prefix_of_prefix_length_le (List.prefix_append u right) hleft (by simp; omega)
      intro c hc
      exact List.mem_append_right _ (mem_of_prefix_append (by simp) hprefix c hc)

/-- Of two texts at the same place that are the same in upper case none is longer. -/
theorem eq_of_upper_eq {s t more rest : List Char} (h : s ++ more = t ++ rest)
    (hupper : Text.upper s = Text.upper t) : s = t := by
  have hnil : ∀ {s r : List Char}, Text.upper s = Text.upper (s ++ r) → r = [] := by
    intro s r hr
    have hlength := congrArg List.length hr
    have hle := Text.length_le_length_upper r
    rw [Text.upper_append, List.length_append] at hlength
    exact List.length_eq_zero_iff.mp (by omega)
  rcases List.append_eq_append_iff.mp h with ⟨r, rfl, -⟩ | ⟨r, rfl, -⟩
  · rw [hnil hupper, List.append_nil]
  · rw [hnil hupper.symm, List.append_nil]

/-- A tag can only be found where it was written if its upper case is as long as it is: if it is the
front of the body it is read as a tag, and else it is made of signs. -/
theorem length_upperChar_of_found {w : List Char} {file : Data} {c : Comment}
    (hc : c ∈ semicolons.comments [String.ofList w]
      (String.ofList (';' :: ' ' :: (w ++ ": x".toList))) file)
    (hline : '\n' ∉ w) (htag : c.tag = .text (String.ofList (Text.upper w)))
    (htext : c.text = .text "x") : ∀ d ∈ w, (Text.upperChar d).length = 1 := by
  obtain ⟨f, hf, rfl⟩ := List.mem_map.mp hc
  obtain ⟨i, line, hi, -, htaken⟩ :=
    takenFrom_of_mem_extract (hasOpeners_of_mem_builtin semicolons (by decide)) hf
  obtain ⟨left, tag, right, rfl, hagree, hftag, hftext, -⟩ := htaken.parts
  rw [Comment.ofFinding, Data.scalar.injEq, Scalar.text.injEq] at htag htext
  have hsingle : '\n' ∉ ';' :: ' ' :: (w ++ ": x".toList) := by simp [hline]
  rw [String.toList_ofList, Text.joinLineEnds_of_not_mem hsingle, Text.lines_of_not_mem hsingle,
    List.getElem?_singleton] at hi
  obtain ⟨-, hsplit⟩ := Option.ite_none_right_eq_some.mp hi
  rw [Option.some.injEq, List.append_assoc] at hsplit
  have hupper : Text.upper tag = Text.upper w := by
    rw [← String.ofList_inj, ← hftag, htag]
  have hright : right ≠ [] := by
    rintro rfl
    rw [htext] at hftext
    simp at hftext
  -- In upper case the line holds the tag at two places, which may be the same.
  have hshift : [';', ' '] ++ (Text.upper w ++ [':', ' ', 'X']) =
      Text.upper left ++ (Text.upper w ++ Text.upper right) := by
    have hline := congrArg Text.upper hsplit
    rw [Text.upper_append, Text.upper_append, hupper, Text.upper_cons, Text.upper_cons,
      Text.upper_append] at hline
    exact hline
  have hsign : (∀ u ∈ Text.upper w, u.toNat < 65) → ∀ d ∈ w, (Text.upperChar d).length = 1 := by
    intro hsmall d hd
    obtain ⟨u, hu⟩ := List.exists_mem_of_ne_nil _ (Text.upperChar_ne_nil d)
    obtain rfl := Text.eq_of_mem_upperChar hu (hsmall u (List.mem_flatMap.mpr ⟨d, hd, hu⟩))
    rw [Text.upperChar_of_mem_upperChar hu]
    rfl
  rcases mem_of_shifted hshift with hleft | hfront | ⟨front, hfront, hback⟩
  · obtain rfl : left = [';', ' '] := eq_of_upper_eq hsplit.symm hleft
    have hbehind : w ++ ": x".toList = tag ++ right :=
      List.append_cancel_left (show [';', ' '] ++ (w ++ ": x".toList) = _ from hsplit)
    obtain rfl : tag = w := eq_of_upper_eq hbehind.symm hupper
    rcases agree_cases hagree with hagree | ⟨name, hplain, hagree⟩
    · exact Text.agree_upper_iff.mp hagree
    · exact hagree.length_upperChar fun n hn => (hplain n hn).toNat_lt
  · apply hsign
    intro u hu
    have hsigns : ∀ u ∈ [';', ' '], u.toNat < 65 := Text.forall_mem_of_all (by decide)
    exact hsigns u (hfront u hu)
  · apply hsign
    intro u hu
    -- The message is left for what is behind the tag.
    have hne : Text.upper right ≠ [] := by
      intro hnil
      have hle := Text.length_le_length_upper right
      rw [hnil] at hle
      exact hright (List.length_eq_zero_iff.mp (Nat.le_zero.mp hle))
    have hmem : u ∈ [':', ' '] := by
      have hlast := congrArg List.dropLast hfront
      rw [List.dropLast_append_of_ne_nil hne] at hlast
      rw [show [':', ' '] = [':', ' ', 'X'].dropLast from rfl, hlast]
      exact List.mem_append_left _ (hback u hu)
    have hsigns : ∀ u ∈ [':', ' '], u.toNat < 65 := Text.forall_mem_of_all (by decide)
    exact hsigns u hmem

theorem validate_text {given : String} {tags : List String}
    (h : Tags.validate (.list [.text given]) = .ok tags) :
    tags = [Text.trimString given] ∧ Text.trim given.toList ≠ [] := by
  obtain ⟨t, ht, rfl⟩ : ∃ t, Tags.readTag (.text given) = .ok t ∧ tags = [t] := by
    have hall := mapM_eq_ok_iff.mp h
    cases hall with
    | cons ht hrest =>
      cases hrest
      exact ⟨_, ht, rfl⟩
  simp only [Tags.readTag] at ht
  split at ht
  · cases ht
  · next hne =>
    cases ht
    refine ⟨rfl, ?_⟩
    intro hnil
    exact hne (by rw [Text.trimString, hnil]; rfl)

/-- **Tags that find themselves.** A custom tag of one line without an at sign in front is written
behind a semicolon as it was given, then a colon and a message. A comment with this tag in upper
case and this message is found exactly if none of its characters has a longer capital form, and then
it is all that is found. -/
theorem comments_own_tag (given : String) (tags : List String) (file : Data)
    (hvalid : Tags.validate (.list [.text given]) = .ok tags) (hline : '\n' ∉ given.toList)
    (hat : (Text.trim given.toList).head? ≠ some '@') :
    let tag := Text.trimString given
    let found := semicolons.comments tags ("; " ++ tag ++ ": x") file
    ((∃ c ∈ found, c.line.value = 1 ∧ c.tag = .text (Tags.upperString tag) ∧ c.text = .text "x") ↔
        ∀ d ∈ tag.toList, (Text.upperChar d).length = 1)
      ∧ ((∀ d ∈ tag.toList, (Text.upperChar d).length = 1) →
        found = [⟨.text (Tags.upperString tag), .first, .text "x", .text "", file⟩]) := by
  intro tag found
  obtain ⟨rfl, hne⟩ := validate_text hvalid
  have htag : tag.toList = Text.trim given.toList := String.toList_ofList
  have hnoFeed : '\n' ∉ Text.trim given.toList := fun hmem =>
    hline ((Text.isInfix_trim given.toList).subset hmem)
  have hfound : found = semicolons.comments [String.ofList (Text.trim given.toList)]
      (String.ofList (';' :: ' ' :: (Text.trim given.toList ++ ": x".toList))) file := by
    have hcontent : "; " ++ tag ++ ": x" =
        String.ofList (';' :: ' ' :: (Text.trim given.toList ++ ": x".toList)) := by
      rw [← String.toList_inj, String.toList_ofList, String.toList_append, String.toList_append,
        htag]
      rfl
    rw [← hcontent]
    rfl
  have hfinds : (∀ d ∈ tag.toList, (Text.upperChar d).length = 1) →
      found = [⟨.text (Tags.upperString tag), .first, .text "x", .text "", file⟩] := by
    intro hsingle
    rw [htag] at hsingle
    rw [hfound, comments_semicolons (Text.trimmed_trim _) hne hat hnoFeed hsingle, Tags.upperString,
      htag]
  refine ⟨⟨?_, ?_⟩, hfinds⟩
  · rintro ⟨c, hc, -, hctag, hctext⟩
    rw [hfound] at hc
    rw [Tags.upperString, htag] at hctag
    rw [htag]
    exact length_upperChar_of_found hc hnoFeed hctag hctext
  · intro hsingle
    rw [hfinds hsingle]
    exact ⟨_, List.mem_singleton_self _, rfl, rfl, rfl⟩

/-- A tag with white space around it, two words and a parenthesis in it. -/
theorem comments_own_tag_words :
    Tags.validate (.list [.text " to do(9 "]) = .ok ["to do(9"] ∧ '\n' ∉ " to do(9 ".toList
      ∧ (Text.trim " to do(9 ".toList).head? ≠ some '@'
      ∧ (∀ d ∈ "to do(9".toList, (Text.upperChar d).length = 1)
      ∧ semicolons.comments ["to do(9"] "; to do(9: x" .null =
        [⟨.text "TO DO(9", .first, .text "x", .text "", .null⟩] := by
  have hvalid : Tags.validate (.list [.text " to do(9 "]) = .ok ["to do(9"] := rfl
  have hline : '\n' ∉ " to do(9 ".toList := by decide
  have hat : (Text.trim " to do(9 ".toList).head? ≠ some '@' := by decide
  have htag : Text.trimString " to do(9 " = "to do(9" := by decide
  have hsingle : ∀ d ∈ "to do(9".toList, (Text.upperChar d).length = 1 :=
    Text.forall_mem_of_all (by decide)
  have hupper : Tags.upperString "to do(9" = "TO DO(9" := by decide
  have hown := comments_own_tag " to do(9 " ["to do(9"] .null hvalid hline hat
  simp only [htag, hupper] at hown
  exact ⟨hvalid, hline, hat, hsingle, hown.2 hsingle⟩

/-- The sharp s has two capitals: a tag that holds it is put into upper case with both, and is not
recognised where it is written as it was given. -/
theorem comments_own_tag_sharp :
    Tags.validate (.list [.text "stra\u00dfe"]) = .ok ["stra\u00dfe"] ∧ '\n' ∉ "stra\u00dfe".toList
      ∧ (Text.trim "stra\u00dfe".toList).head? ≠ some '@'
      ∧ ¬ ∃ c ∈ semicolons.comments ["stra\u00dfe"] "; stra\u00dfe: x" .null, c.line.value = 1
        ∧ c.tag = .text (Tags.upperString "stra\u00dfe") ∧ c.text = .text "x" := by
  refine ⟨rfl, by decide, by decide, ?_⟩
  rintro ⟨c, hc, -, htag, htext⟩
  have hsingle := length_upperChar_of_found (w := "stra\u00dfe".toList) hc (by decide) htag htext
  have hlength := hsingle '\u00df' (by decide)
  revert hlength
  decide

end Grammar

end TaggedComments
