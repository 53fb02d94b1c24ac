import Mathlib.Data.List.Forall2
import Mathlib.Data.List.TakeWhile
import TaggedComments.Extract.Body
import TaggedComments.Tag

/-!
# What the body of a comment holds

The parts of a body described without the way they are read.

- `Body.Tagged` says that a text starts with a tag; `Body.read?_isSome_iff` that a body is read
  exactly there, whatever follows the tag.
- `splitTrailing_eq_some` describes a reference at the end of a message.
- `Finding.ofBody_text` and `Finding.ofBody_ref` say where message and reference of a comment stand,
  and that no white space is left around them.
-/

namespace TaggedComments

/-! ## Section 1: Texts that agree up to letter case -/

namespace Text

/-- Two texts agree character by character up to letter case. -/
def Agree (a b : List Char) : Prop :=
  List.Forall₂ (fun x y => sameLetter x y = true) a b

theorem stripFolded?_eq_some_iff {name input taken rest : List Char} :
    stripFolded? name input = some (taken, rest) ↔ Agree name taken ∧ input = taken ++ rest := by
  induction name generalizing input taken with
  | nil =>
    constructor
    · intro h
      simp only [stripFolded?, Option.some.injEq, Prod.mk.injEq] at h
      obtain ⟨rfl, rfl⟩ := h
      exact ⟨.nil, rfl⟩
    · rintro ⟨h, rfl⟩
      cases h
      rfl
  | cons n name ih =>
    constructor
    · intro h
      cases input with
      | nil => simp [stripFolded?] at h
      | cons c input =>
        simp only [stripFolded?] at h
        split at h
        · next hc =>
          obtain ⟨⟨t, r⟩, hr, heq⟩ := Option.map_eq_some_iff.mp h
          cases heq
          obtain ⟨hagree, rfl⟩ := ih.mp hr
          exact ⟨.cons hc hagree, rfl⟩
        · simp at h
    · rintro ⟨h, rfl⟩
      cases h with
      | @cons _ c _ t hc hagree =>
        have hrec := ih.mpr ⟨hagree, (rfl : t ++ rest = t ++ rest)⟩
        simp [stripFolded?, hc, hrec]

/-! ## Section 2: Trimmed texts -/

/-- No white space stands at an end of a text. -/
structure Trimmed (s : List Char) : Prop where
  /-- The first character, if there is one, is no white space. -/
  first : ∀ c, s.head? = some c → isSpace c = false
  /-- The last character, if there is one, is no white space. -/
  last : ∀ c, s.getLast? = some c → isSpace c = false

theorem isPrefix_dropRightWhile (p : Char → Bool) (s : List Char) : dropRightWhile p s <+: s :=
  ⟨_, dropRightWhile_append p s⟩

theorem isInfix_trim (s : List Char) : trim s <:+: s :=
  (isPrefix_dropRightWhile _ _).isInfix.trans (List.dropWhile_suffix _).isInfix

theorem head?_trimLeft {s : List Char} {c : Char} (h : (trimLeft s).head? = some c) :
    isSpace c = false := by
  have hfirst := List.head?_dropWhile_not isSpace s
  rw [← trimLeft, h] at hfirst
  simpa using hfirst

theorem getLast?_trimRight {s : List Char} {c : Char} (h : (trimRight s).getLast? = some c) :
    isSpace c = false := by
  rw [trimRight, dropRightWhile, List.getLast?_reverse] at h
  have hlast := List.head?_dropWhile_not isSpace s.reverse
  rw [h] at hlast
  simpa using hlast

theorem trimmed_trim (s : List Char) : Trimmed (trim s) := by
  refine ⟨fun c hc => ?_, fun c hc => getLast?_trimRight hc⟩
  -- Trimming at the right leaves a front part, so the first character stays.
  obtain ⟨t, ht⟩ := isPrefix_dropRightWhile isSpace (trimLeft s)
  apply head?_trimLeft (s := s)
  rw [← ht, List.head?_append]
  exact Option.or_eq_some_iff.mpr (.inl hc)

theorem trimmed_of_forall {s : List Char} (h : ∀ c ∈ s, isSpace c = false) : Trimmed s :=
  ⟨fun c hc => h c (List.mem_of_mem_head? hc), fun c hc => h c (List.mem_of_getLast? hc)⟩

end Text

/-! ## Section 3: Tags -/

namespace Body

theorem readTag?_eq_some {names : List (List Char)} {input tag rest : List Char}
    (h : readTag? names input = some (tag, rest)) :
    (∃ name ∈ names, Text.Agree name tag) ∧ input = tag ++ rest ∧ tagEnds rest = true := by
  obtain ⟨name, hname, hread⟩ := List.exists_of_findSome?_eq_some h
  obtain ⟨hstrip, hends⟩ := Option.filter_eq_some_iff.mp hread
  obtain ⟨hagree, hsplit⟩ := Text.stripFolded?_eq_some_iff.mp hstrip
  exact ⟨⟨name, hname, hagree⟩, hsplit, hends⟩

theorem isSome_readTag? {names : List (List Char)} {tag rest : List Char}
    (hagree : ∃ name ∈ names, Text.Agree name tag) (hends : tagEnds rest = true) :
    (readTag? names (tag ++ rest)).isSome = true := by
  obtain ⟨name, hname, h⟩ := hagree
  have hstrip := Text.stripFolded?_eq_some_iff.mpr ⟨h, (rfl : tag ++ rest = tag ++ rest)⟩
  rw [readTag?, List.findSome?_isSome_iff]
  exact ⟨name, hname, by simp [hstrip, hends]⟩

/-- A text starts with a tag: after an at sign or none stands a text that agrees with one of the
tags, and behind it the line ends or goes on with no word character and no hyphen. -/
structure Tagged (tags : List String) (s tag rest : List Char) : Prop where
  /-- The at sign, if there is one, the tag and the rest make up the text. -/
  split : s = tag ++ rest ∨ s = '@' :: (tag ++ rest)
  /-- What is written is one of the tags up to letter case. -/
  agrees : ∃ t ∈ tags, Text.Agree t.toList tag
  /-- The tag ends there. -/
  ends : tagEnds rest = true

theorem exists_agree_byLength {tags : List String} {tag : List Char} :
    (∃ name ∈ Tags.byLength tags, Text.Agree name tag) ↔ ∃ t ∈ tags, Text.Agree t.toList tag := by
  simp [Tags.byLength]

theorem readMarkedTag?_eq_some {tags : List String} {input tag rest : List Char}
    (h : readMarkedTag? (Tags.byLength tags) input = some (tag, rest)) :
    Tagged tags input tag rest := by
  unfold readMarkedTag? at h
  split at h
  · rcases Option.or_eq_some_iff.mp h with h | ⟨-, h⟩
    · obtain ⟨hagree, rfl, hends⟩ := readTag?_eq_some h
      exact ⟨.inr rfl, exists_agree_byLength.mp hagree, hends⟩
    · obtain ⟨hagree, hsplit, hends⟩ := readTag?_eq_some h
      exact ⟨.inl hsplit, exists_agree_byLength.mp hagree, hends⟩
  · obtain ⟨hagree, hsplit, hends⟩ := readTag?_eq_some h
    exact ⟨.inl hsplit, exists_agree_byLength.mp hagree, hends⟩

theorem isSome_readMarkedTag? {tags : List String} {input tag rest : List Char}
    (h : Tagged tags input tag rest) :
    (readMarkedTag? (Tags.byLength tags) input).isSome = true := by
  have hread := isSome_readTag? (exists_agree_byLength.mpr h.agrees) h.ends
  unfold readMarkedTag?
  split
  · next input =>
    -- After an at sign the tag may start behind it or with it.
    rw [Option.isSome_or, Bool.or_eq_true]
    rcases h.split with hsplit | hsplit
    · exact .inr (hsplit ▸ hread)
    · exact .inl ((List.cons.inj hsplit).2 ▸ hread)
  · next hnot =>
    rcases h.split with hsplit | hsplit
    · exact hsplit ▸ hread
    · exact absurd hsplit (hnot _)

/-- A body that is read starts with its tag, and the rest of it is read off what follows. -/
theorem read?_eq_some {tags : List String} {input : List Char} {b : Body}
    (h : read? (Tags.byLength tags) input = some b) :
    ∃ rest, Tagged tags input b.tag rest ∧ b = afterTag b.tag rest := by
  obtain ⟨⟨tag, rest⟩, hread, rfl⟩ := Option.map_eq_some_iff.mp h
  exact ⟨rest, readMarkedTag?_eq_some hread, rfl⟩

/-- A body is read exactly where a tag stands: nothing behind the tag can prevent it. -/
theorem read?_isSome_iff {tags : List String} {input : List Char} :
    (read? (Tags.byLength tags) input).isSome = true ↔ ∃ tag rest, Tagged tags input tag rest := by
  constructor
  · intro h
    obtain ⟨b, hb⟩ := Option.isSome_iff_exists.mp h
    obtain ⟨rest, htagged, -⟩ := read?_eq_some hb
    exact ⟨b.tag, rest, htagged⟩
  · rintro ⟨tag, rest, htagged⟩
    rw [read?, Option.isSome_map]
    exact isSome_readMarkedTag? htagged

/-! ## Section 4: Reference and message -/

theorem isInfix_readReference (s : List Char) :
    (readReference s).1 <:+: s ∧ (readReference s).2 <:+ s := by
  unfold readReference
  split
  · next s =>
    split
    · have hskip : (s.dropWhile (· != ')')).drop 1 <:+ s :=
        (List.drop_suffix _ _).trans (List.dropWhile_suffix _)
      exact ⟨((List.takeWhile_prefix _).isInfix).trans (List.suffix_cons _ _).isInfix,
        hskip.trans (List.suffix_cons _ _)⟩
    · exact ⟨List.nil_infix, List.suffix_rfl⟩
  · exact ⟨List.nil_infix, List.suffix_rfl⟩

theorem isSuffix_skipColon (s : List Char) : skipColon s <:+ s := by
  unfold skipColon
  split
  · exact List.suffix_cons _ _
  · exact List.suffix_rfl

/-- Reference and message of a body stand behind its tag. -/
theorem isInfix_afterTag (tag rest : List Char) :
    (afterTag tag rest).ref <:+: rest ∧ (afterTag tag rest).text <:+: rest := by
  obtain ⟨href, htail⟩ := isInfix_readReference (rest.dropWhile Text.isBlank)
  have hblanks : rest.dropWhile Text.isBlank <:+ rest := List.dropWhile_suffix _
  refine ⟨href.trans hblanks.isInfix, ?_⟩
  -- What is left after the reference loses blanks, a colon, blanks, and blanks at its end.
  have hmessage : ∀ t : List Char,
      Text.trimRightBlanks ((skipColon (t.dropWhile Text.isBlank)).dropWhile Text.isBlank)
        <:+: t := by
    intro t
    have hfront : skipColon (t.dropWhile Text.isBlank) <:+ t :=
      (isSuffix_skipColon _).trans (List.dropWhile_suffix _)
    have hend := Text.isPrefix_dropRightWhile Text.isBlank
      ((skipColon (t.dropWhile Text.isBlank)).dropWhile Text.isBlank)
    exact hend.isInfix.trans ((List.dropWhile_suffix _).trans hfront).isInfix
  exact (hmessage _).trans (htail.trans hblanks).isInfix

end Body

/-- A reference at the end of a message: white space, a slash, and a word without slashes. -/
theorem splitTrailing_eq_some {message text ref : List Char}
    (h : splitTrailing message = some (text, ref)) :
    ∃ gap, message = text ++ gap ++ '/' :: ref ∧ gap ≠ [] ∧ (∀ c ∈ gap, Text.isSpace c = true)
      ∧ ref ≠ [] ∧ ∀ c ∈ ref, Text.isSpace c = false ∧ c ≠ '/' := by
  simp only [splitTrailing] at h
  split at h
  · next front hfront =>
    split at h
    · simp at h
    · next hcond =>
      simp only [Option.some.injEq, Prod.mk.injEq] at h
      obtain ⟨rfl, rfl⟩ := h
      simp only [Bool.or_eq_true, List.isEmpty_iff, beq_iff_eq, not_or] at hcond
      -- The message is read from its end: the word, the slash, white space, the rest.
      have hgap : front.takeWhile Text.isSpace ++ front.dropWhile Text.isSpace = front :=
        List.takeWhile_append_dropWhile
      have hmessage : message.reverse =
          message.reverse.takeWhile (fun c => !(Text.isSpace c || c == '/')) ++
            '/' :: (front.takeWhile Text.isSpace ++ front.dropWhile Text.isSpace) := by
        rw [hgap, ← hfront, List.takeWhile_append_dropWhile]
      refine ⟨(front.takeWhile Text.isSpace).reverse, ?_, ?_, ?_, ?_, ?_⟩
      · have hrev := congrArg List.reverse hmessage
        simpa only [List.reverse_reverse, List.reverse_append, List.reverse_cons,
          List.append_assoc, List.singleton_append] using hrev
      · intro hnil
        rw [List.reverse_eq_nil_iff.mp hnil, List.nil_append] at hgap
        exact hcond.2 (congrArg List.length hgap)
      · intro c hc
        exact List.mem_takeWhile_imp (List.mem_reverse.mp hc)
      · intro hnil
        exact hcond.1 (List.reverse_eq_nil_iff.mp hnil)
      · intro c hc
        simpa using List.mem_takeWhile_imp (List.mem_reverse.mp hc)
  · simp at h

/-! ## Section 5: The comment of a body -/

/-- What is reported of a body: its message and reference, trimmed, or a message cut before a
reference at its end. -/
theorem Body.messageAndRef_cases (b : Body) :
    b.messageAndRef = (Text.trim b.text, Text.trim b.ref) ∨
      ∃ t r, splitTrailing (Text.trim b.text) = some (t, r)
        ∧ b.messageAndRef = (Text.trim t, r) := by
  simp only [messageAndRef]
  split
  · split
    · next t r h => exact .inr ⟨t, r, h, rfl⟩
    · exact .inl rfl
  · exact .inl rfl

namespace Finding

/-- The message of a comment is a trimmed part of the message of its body. -/
theorem ofBody_text (line : Nat) (b : Body) :
    (ofBody line b).text.toList <:+: b.text ∧ Text.Trimmed (ofBody line b).text.toList := by
  rw [ofBody, String.toList_ofList]
  rcases b.messageAndRef_cases with h | ⟨t, r, hsplit, h⟩
  · rw [h]
    exact ⟨Text.isInfix_trim b.text, Text.trimmed_trim b.text⟩
  · rw [h]
    obtain ⟨gap, hmessage, -⟩ := splitTrailing_eq_some hsplit
    -- The message lost a reference at its end.
    have ht : t <:+: Text.trim b.text := ⟨[], gap ++ '/' :: r, by simp [hmessage]⟩
    exact ⟨(Text.isInfix_trim t).trans (ht.trans (Text.isInfix_trim b.text)), Text.trimmed_trim t⟩

/-- The reference of a comment is a trimmed part of the reference or of the message of its
body. -/
theorem ofBody_ref (line : Nat) (b : Body) :
    ((ofBody line b).ref.toList <:+: b.ref ∨ (ofBody line b).ref.toList <:+: b.text)
      ∧ Text.Trimmed (ofBody line b).ref.toList := by
  rw [ofBody, String.toList_ofList]
  rcases b.messageAndRef_cases with h | ⟨t, r, hsplit, h⟩
  · rw [h]
    exact ⟨.inl (Text.isInfix_trim b.ref), Text.trimmed_trim b.ref⟩
  · rw [h]
    obtain ⟨gap, hmessage, -, -, -, hword⟩ := splitTrailing_eq_some hsplit
    -- The reference is the end of the message.
    have hr : r <:+: Text.trim b.text := ⟨t ++ gap ++ ['/'], [], by simp [hmessage]⟩
    exact ⟨.inr (hr.trans (Text.isInfix_trim b.text)),
      Text.trimmed_of_forall fun c hc => (hword c hc).1⟩

end Finding

end TaggedComments
