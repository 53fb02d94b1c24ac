import TaggedComments.Proofs.Extract.RoundTrip

/-!
# References at the end of a message

A message may end in a reference: white space, a slash, and characters that are neither. What is
reported as the message is then the text before the white space. There is one way at most to take a
message apart like that, so nothing but the white space and the slash is lost.

- `splitTrailing_append` says that a reference at the end is found, however much white space stands
  before its slash; `endsInReference_iff` says that nothing else is.
- `TrailingReference` is a message taken apart, `TrailingReference.unique` says that there is one way
  to do so, and `splitTrailing_eq_some_iff` that it is found.
- `Body.messageAndRef_of_ref`, `Body.messageAndRef_of_not_endsInReference` and
  `Body.messageAndRef_of_trailing` are the cases of what is reported of a body.
- `Finding.ofBody_message` puts them together.
-/

namespace TaggedComments

variable {message front text gap token ref : List Char}

/-! ## Section 1: What is found -/

/-- A reference at the end of a message is found, and what stands before it loses the white space at
its right end. -/
theorem splitTrailing_append {space : Char} (hspace : Text.isSpace space = true) (htoken : token ≠ [])
    (hword : ∀ c ∈ token, Text.isSpace c = false ∧ c ≠ '/') :
    splitTrailing (front ++ space :: '/' :: token) = some (Text.trimRight front, token) := by
  -- The message is read from its end, where the word stops at the slash.
  have hreverse : (front ++ space :: '/' :: token).reverse =
      token.reverse ++ '/' :: space :: front.reverse := by simp
  have hinside : ∀ c ∈ token.reverse, (!(Text.isSpace c || c == '/')) = true := by
    intro c hc
    simpa using hword c (List.mem_reverse.mp hc)
  have htake : ('/' :: space :: front.reverse).takeWhile (fun c => !(Text.isSpace c || c == '/')) =
      [] := rfl
  have hdrop : ('/' :: space :: front.reverse).dropWhile (fun c => !(Text.isSpace c || c == '/')) =
      '/' :: space :: front.reverse := rfl
  -- At least one character of white space is dropped before the slash.
  have hdropped : (space :: front.reverse).dropWhile Text.isSpace =
      front.reverse.dropWhile Text.isSpace := List.dropWhile_cons_of_pos hspace
  have hshorter :
      (front.reverse.dropWhile Text.isSpace).length ≠ (space :: front.reverse).length := by
    have hle := (List.dropWhile_suffix Text.isSpace (l := front.reverse)).length_le
    rw [List.length_cons]
    omega
  have hcond : ((token.reverse ++ []).isEmpty || (front.reverse.dropWhile Text.isSpace).length ==
      (space :: front.reverse).length) = false := by
    simpa [htoken] using hshorter
  simp only [splitTrailing, hreverse, List.takeWhile_append_of_pos hinside,
    List.dropWhile_append_of_pos hinside, htake, hdrop, hdropped, hcond]
  rw [if_neg Bool.false_ne_true, List.append_nil, List.reverse_reverse]
  rfl

/-- A message ends in a reference exactly if one is found. -/
theorem endsInReference_iff : EndsInReference message ↔ (splitTrailing message).isSome = true := by
  constructor
  · rintro ⟨front, space, token, rfl, hspace, htoken, hword⟩
    rw [splitTrailing_append hspace htoken hword]
    rfl
  · intro hsome
    by_contra hends
    rw [splitTrailing_eq_none hends] at hsome
    cases hsome

/-- Of the white space before a slash only the last character is needed. -/
theorem append_gap_append (hgap : gap ≠ []) :
    text ++ gap ++ '/' :: ref = (text ++ gap.dropLast) ++ gap.getLast hgap :: '/' :: ref := by
  conv_lhs => rw [← List.dropLast_append_getLast hgap]
  simp

/-! ## Section 2: A message taken apart -/

/-- A message taken apart at a reference: a trimmed text, white space, a slash, and a word without
slashes. -/
@[ext] structure TrailingReference (message : List Char) where
  /-- What is left of the message. -/
  text : List Char
  /-- The white space before the slash. -/
  gap : List Char
  /-- The reference. -/
  ref : List Char
  split : message = text ++ gap ++ '/' :: ref
  text_ne_nil : text ≠ []
  trimmed_text : Text.Trimmed text
  gap_ne_nil : gap ≠ []
  isSpace_gap : ∀ c ∈ gap, Text.isSpace c = true
  ref_ne_nil : ref ≠ []
  word_ref : ∀ c ∈ ref, Text.isSpace c = false ∧ c ≠ '/'

namespace TrailingReference

/-- The parts of a message that was taken apart are found. -/
theorem splitTrailing_eq (d : TrailingReference message) :
    splitTrailing message = some (d.text, d.ref) := by
  have hspace : ∀ c ∈ d.gap.dropLast, Text.isSpace c = true := fun c hc =>
    d.isSpace_gap c ((List.dropLast_sublist _).subset hc)
  have htext : Text.trimRight (d.text ++ d.gap.dropLast) = d.text := by
    rw [Text.trimRight, Text.dropRightWhile_append_of_pos hspace,
      Text.dropRightWhile_eq_self d.trimmed_text.last]
  conv_lhs => rw [d.split, append_gap_append d.gap_ne_nil]
  rw [splitTrailing_append (d.isSpace_gap _ (List.getLast_mem d.gap_ne_nil)) d.ref_ne_nil d.word_ref,
    htext]

/-- There is one way at most to take a message apart. -/
theorem unique (d d' : TrailingReference message) : d = d' := by
  have hfound : some (d.text, d.ref) = some (d'.text, d'.ref) :=
    d.splitTrailing_eq.symm.trans d'.splitTrailing_eq
  obtain ⟨htext, href⟩ := Prod.mk.inj (Option.some.inj hfound)
  -- Text and reference are found, so they leave the same white space between them.
  have hgap : d.gap = d'.gap := by
    have hsplit := d.split.symm.trans d'.split
    rw [htext, href, List.append_assoc, List.append_assoc] at hsplit
    exact List.append_cancel_right (List.append_cancel_left hsplit)
  exact TrailingReference.ext htext hgap href

end TrailingReference

/-- What is found at the end of a trimmed message is the one way to take it apart. -/
theorem splitTrailing_eq_some_iff (hmessage : Text.Trimmed message) :
    splitTrailing message = some (text, ref) ↔
      ∃ d : TrailingReference message, d.text = text ∧ d.ref = ref := by
  constructor
  · intro h
    obtain ⟨gap, hsplit, hgap, hspace, href, hword⟩ := splitTrailing_eq_some h
    -- The text is what trimming at the right has left.
    have hlast : ∀ c, text.getLast? = some c → Text.isSpace c = false := by
      rw [hsplit, append_gap_append hgap,
        splitTrailing_append (hspace _ (List.getLast_mem hgap)) href hword] at h
      obtain ⟨htext, -⟩ := Prod.mk.inj (Option.some.inj h)
      exact fun c hc => Text.getLast?_trimRight (htext ▸ hc)
    -- The message starts with the text, for it does not start with white space.
    have hne : text ≠ [] := by
      rintro rfl
      obtain ⟨c, rest, rfl⟩ := List.exists_cons_of_ne_nil hgap
      have hfirst := hmessage.first c (by rw [hsplit]; rfl)
      rw [hspace c List.mem_cons_self] at hfirst
      cases hfirst
    have hfirst : ∀ c, text.head? = some c → Text.isSpace c = false := by
      intro c hc
      apply hmessage.first
      rw [hsplit, List.append_assoc, List.head?_append, hc]
      rfl
    exact ⟨⟨text, gap, ref, hsplit, hne, ⟨hfirst, hlast⟩, hgap, hspace, href, hword⟩, rfl, rfl⟩
  · rintro ⟨d, rfl, rfl⟩
    exact d.splitTrailing_eq

/-- A trimmed message ends in a reference exactly if it can be taken apart. -/
theorem endsInReference_iff_nonempty (hmessage : Text.Trimmed message) :
    EndsInReference message ↔ Nonempty (TrailingReference message) := by
  rw [endsInReference_iff, Option.isSome_iff_exists]
  constructor
  · rintro ⟨⟨text, ref⟩, hfound⟩
    obtain ⟨d, -, -⟩ := (splitTrailing_eq_some_iff hmessage).mp hfound
    exact ⟨d⟩
  · rintro ⟨d⟩
    exact ⟨_, d.splitTrailing_eq⟩

/-! ## Section 3: What is reported -/

namespace Body

variable {b : Body}

/-- A reference of its own leaves the message of a body as it is. -/
theorem messageAndRef_of_ref (href : Text.trim b.ref ≠ []) :
    b.messageAndRef = (Text.trim b.text, Text.trim b.ref) := by
  simp only [messageAndRef, List.isEmpty_iff, href, if_false]

/-- Without any reference the message is reported as it is. -/
theorem messageAndRef_of_not_endsInReference (href : Text.trim b.ref = [])
    (hends : ¬ EndsInReference (Text.trim b.text)) : b.messageAndRef = (Text.trim b.text, []) := by
  simp only [messageAndRef, href, splitTrailing_eq_none hends, List.isEmpty_nil, if_true]

/-- A message that can be taken apart is, and its text is trimmed already. -/
theorem messageAndRef_of_trailing (href : Text.trim b.ref = [])
    (d : TrailingReference (Text.trim b.text)) : b.messageAndRef = (d.text, d.ref) := by
  simp only [messageAndRef, href, d.splitTrailing_eq, List.isEmpty_nil, if_true,
    d.trimmed_text.trim_eq]

end Body

/-- **Trailing references.** What is reported of a body depends on its message, trimmed, and on its
own reference. If that one is blank, then either the message does not end in a reference and is
reported as it is, or it is taken apart, in the one way there is, and its parts are reported. If the
body has a reference of its own, the message is reported as it is. -/
theorem Finding.ofBody_message (line : Nat) (b : Body) :
    let message := Text.trim b.text
    let f := Finding.ofBody line b
    (Text.trim b.ref = [] →
        (f.ref = "" ∧ f.text.toList = message ∧ ¬ EndsInReference message)
          ∨ ∃ d : TrailingReference message, f.text.toList = d.text ∧ f.ref.toList = d.ref)
      ∧ (∀ d d' : TrailingReference message, d = d')
      ∧ (Text.trim b.ref ≠ [] → f.text.toList = message ∧ f.ref.toList = Text.trim b.ref) := by
  intro message f
  have htext : f.text.toList = b.messageAndRef.1 := String.toList_ofList
  have href : f.ref.toList = b.messageAndRef.2 := String.toList_ofList
  rw [htext, href, ← String.toList_inj, href]
  refine ⟨fun hblank => ?_, fun d d' => d.unique d', fun hown => ?_⟩
  · by_cases hends : EndsInReference message
    · obtain ⟨d⟩ := (endsInReference_iff_nonempty (Text.trimmed_trim b.text)).mp hends
      rw [Body.messageAndRef_of_trailing hblank d]
      exact .inr ⟨d, rfl, rfl⟩
    · rw [Body.messageAndRef_of_not_endsInReference hblank hends]
      exact .inl ⟨rfl, rfl, hends⟩
  · rw [Body.messageAndRef_of_ref hown]
    exact ⟨rfl, rfl⟩

/-- Of several words behind slashes only the last counts, and a slash without white space before it
does not count. -/
example :
    let read (s : String) := (Body.messageAndRef ⟨[], [], s.toList⟩).map String.ofList String.ofList
    read "see /a/b /c \t /d" = ("see /a/b /c", "d") ∧ read "/d" = ("/d", "")
      ∧ read "see /a/b" = ("see /a/b", "") := by
  decide

end TaggedComments
