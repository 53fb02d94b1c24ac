import Mathlib.Data.List.Forall2
import TaggedComments.Proofs.Json.Leaves

/-!
# Values in JSON

What is written for a value is read as that value, however its parts are set apart by white space.

- `Json.Says` relates a text and the value that is read from it; there is one lemma for each kind of
  value.
- `Json.Plain` are the values that JSON can say, and `Json.says_writeAt` that they are written so
  that they can be read.
-/

namespace TaggedComments.Json

/-! ## Section 1: Texts and their values -/

/-- A text says a value: it starts with no white space, and whatever follows it that does not go on
with a number, the value is read from it and what follows is left. -/
structure Says (text : List Char) (d : Data) : Prop where
  starts : ∃ c r, text = c :: r ∧ isSpace c = false ∧ c ≠ ']'
  read : ∀ fuel rest, 2 * text.length ≤ fuel → EndsNumber rest →
    readValue fuel (text ++ rest) = .ok (d, rest)

theorem skipSpace_append {blanks s : List Char} (hblanks : ∀ c ∈ blanks, isSpace c = true)
    (hs : ∀ c ∈ s.head?, isSpace c = false) : skipSpace (blanks ++ s) = s := by
  have hstop : s.dropWhile isSpace = s := by
    cases s with
    | nil => rfl
    | cons c s => rw [List.dropWhile_cons_of_neg (by simp [hs c rfl])]
  rw [skipSpace, List.dropWhile_append_of_pos hblanks, hstop]

/-- A comma, a bracket or white space ends a number. -/
theorem endsNumber_of_head {rest : List Char}
    (h : ∀ c ∈ rest.head?, isSpace c = true ∨ c = ',' ∨ c = ']' ∨ c = '\x7d') :
    EndsNumber rest := by
  intro c hc
  rcases h c hc with hspace | rfl | rfl | rfl
  · simp only [isSpace, Bool.or_eq_true, beq_iff_eq] at hspace
    rcases hspace with ((rfl | rfl) | rfl) | rfl <;> decide
  · decide
  · decide
  · decide

/-- Fuel for a text with characters is not used up. -/
theorem exists_fuel {text : List Char} {fuel : Nat} (hne : text ≠ [])
    (hfuel : 2 * text.length ≤ fuel) : ∃ k, fuel = k + 1 := by
  have hpos := List.length_pos_iff.mpr hne
  exact ⟨fuel - 1, by omega⟩

theorem says_null : Says "null".toList .null where
  starts := ⟨'n', _, rfl, by decide, by decide⟩
  read := by
    intro fuel rest hfuel _
    obtain ⟨fuel, rfl⟩ := exists_fuel (by decide) hfuel
    rfl

theorem says_bool (b : Bool) : Says (if b then "true" else "false").toList (.bool b) where
  starts := by
    cases b with
    | true => exact ⟨'t', _, rfl, by decide, by decide⟩
    | false => exact ⟨'f', _, rfl, by decide, by decide⟩
  read := by
    intro fuel rest hfuel _
    obtain ⟨fuel, rfl⟩ := exists_fuel (by cases b <;> decide) hfuel
    cases b <;> rfl

/-- An integer starts with a digit or with a hyphen before a digit. -/
theorem head_toString (n : Int) : ∃ c r, (toString n).toList = c :: r
    ∧ (c.isDigit = true ∨ (c = '-' ∧ ∃ d s, r = d :: s ∧ d.isDigit = true)) := by
  obtain ⟨d, s, hds, hd⟩ := exists_toDigits_eq_cons n.natAbs
  rw [toList_toString, hds]
  by_cases h : n < 0
  · rw [decide_eq_true h]
    exact ⟨'-', d :: s, rfl, .inr ⟨rfl, d, s, rfl, hd⟩⟩
  · rw [decide_eq_false h]
    exact ⟨d, s, rfl, .inl hd⟩

/-- An integer is none of the named values. -/
theorem readName?_toString (n : Int) (rest : List Char) :
    readName? ((toString n).toList ++ rest) = none := by
  have hletter : ∀ {c d : Char}, c.isDigit = false → d.isDigit = true → c ≠ d := by
    rintro c d hc hd rfl
    rw [hc] at hd
    cases hd
  obtain ⟨c, r, hcr, hc | ⟨rfl, d, s, rfl, hd⟩⟩ := head_toString n
  · -- No name starts with a digit, and none with a hyphen before a digit.
    have hn : 'n' ≠ c := hletter (by decide) hc
    have ht : 't' ≠ c := hletter (by decide) hc
    have hf : 'f' ≠ c := hletter (by decide) hc
    have hN : 'N' ≠ c := hletter (by decide) hc
    have hI : 'I' ≠ c := hletter (by decide) hc
    have hminus : '-' ≠ c := hletter (by decide) hc
    rw [hcr]
    simp [readName?, names, hn, ht, hf, hN, hI, hminus]
  · have hI : 'I' ≠ d := hletter (by decide) hd
    rw [hcr]
    simp [readName?, names, hI]

theorem says_int {n : Int} (hn : (Data.int n).isWritable = true) :
    Says (toString n).toList (.int n) where
  starts := by
    have hdigit : ∀ c : Char, c.isDigit = true → isSpace c = false ∧ c ≠ ']' := by
      intro c hc
      refine ⟨?_, ?_⟩
      · by_contra hspace
        simp only [isSpace, Bool.not_eq_false, Bool.or_eq_true, beq_iff_eq] at hspace
        rcases hspace with ((rfl | rfl) | rfl) | rfl <;> cases hc
      · rintro rfl
        cases hc
    obtain ⟨c, r, hcr, hc | ⟨rfl, -⟩⟩ := head_toString n
    · exact ⟨c, r, hcr, hdigit c hc⟩
    · exact ⟨'-', r, hcr, by decide, by decide⟩
  read := by
    intro fuel rest hfuel hrest
    have hname := readName?_toString n rest
    have hnumber := readNumber_toString hn hrest
    obtain ⟨c, r, hcr, h⟩ := head_toString n
    obtain ⟨fuel, rfl⟩ := exists_fuel (by rw [hcr]; exact List.cons_ne_nil c r) hfuel
    rw [hcr, List.cons_append] at hname hnumber ⊢
    -- The first character is none of those that open a text, a list or a mapping.
    have hopens : c ≠ '"' ∧ c ≠ '[' ∧ c ≠ '\x7b' := by
      rcases h with h | ⟨rfl, -⟩
      · refine ⟨?_, ?_, ?_⟩ <;> rintro rfl <;> cases h
      · decide
    rw [readValue.eq_def]
    simp only
    split
    · next heq => exact absurd (List.cons.inj heq).1 hopens.1
    · next heq => exact absurd (List.cons.inj heq).1 hopens.2.1
    · next heq => exact absurd (List.cons.inj heq).1 hopens.2.2
    · rw [hname]
      exact hnumber

theorem toList_quote (s : String) :
    (quote s).toList = '"' :: (s.toList.flatMap quoteChar ++ ['"']) := by
  rw [quote, String.toList_ofList]
  rfl

theorem says_text (s : String) : Says (quote s).toList (.text s) := by
  rw [toList_quote]
  refine ⟨⟨'"', _, rfl, by decide, by decide⟩, ?_⟩
  intro fuel rest hfuel _
  obtain ⟨fuel, rfl⟩ := exists_fuel (by simp) hfuel
  rw [List.cons_append, List.append_assoc, readValue]
  show (readText (s.toList.flatMap quoteChar ++ '"' :: rest)).map _ = _
  rw [readText_quote]
  rfl

/-! ## Section 2: Lists and mappings -/

theorem Says.isSpace_head {text s : List Char} {d : Data} (h : Says text d) :
    ∀ c ∈ (text ++ s).head?, isSpace c = false := by
  obtain ⟨c, r, rfl, hc, -⟩ := h.starts
  intro e he
  cases he
  exact hc

theorem intercalate_cons (sep t : List Char) (ts : List (List Char)) :
    sep.intercalate (t :: ts) = t ++ ts.flatMap fun u => sep ++ u := by
  induction ts generalizing t with
  | nil => simp
  | cons u us ih => simp [List.intercalate_cons_cons, ih]

section Parts

variable {blanks after : List Char}

/-- What comes behind the last part is passed over up to the closing bracket. -/
theorem skipSpace_closing (hafter : ∀ c ∈ after, isSpace c = true) {closing : Char}
    (hclosing : isSpace closing = false) (rest : List Char) :
    skipSpace (after ++ closing :: rest) = closing :: rest := by
  apply skipSpace_append hafter
  intro c hc
  cases hc
  exact hclosing

theorem endsNumber_closing (hafter : ∀ c ∈ after, isSpace c = true) {closing : Char}
    (hclosing : closing = ']' ∨ closing = '\x7d') (rest : List Char) :
    EndsNumber (after ++ closing :: rest) := by
  apply endsNumber_of_head
  intro c hc
  cases after with
  | nil =>
    cases hc
    exact .inr (.inr hclosing)
  | cons e after =>
    cases hc
    exact .inl (hafter c List.mem_cons_self)

variable (hblanks : ∀ c ∈ blanks, isSpace c = true) (hafter : ∀ c ∈ after, isSpace c = true)

include hblanks hafter

theorem readItems_says {t : List Char} {d : Data} {ts : List (List Char)} {ds : List Data}
    (ht : Says t d) (hts : List.Forall₂ Says ts ds) (rest : List Char) (fuel : Nat)
    (hfuel : 2 * (t ++ ts.flatMap fun u => ',' :: blanks ++ u).length + 1 ≤ fuel) :
    readItems fuel (t ++ ((ts.flatMap fun u => ',' :: blanks ++ u) ++ (after ++ ']' :: rest))) =
      .ok (d :: ds, rest) := by
  obtain ⟨fuel, rfl⟩ : ∃ k, fuel = k + 1 := ⟨fuel - 1, by omega⟩
  rw [List.length_append] at hfuel
  -- The induction is on the items behind the first one; each call takes one from the fuel, and the
  -- comma in front of the next item pays for it.
  induction hts generalizing t d fuel with
  | nil =>
    have hread := ht.read fuel (after ++ ']' :: rest) (by omega)
      (endsNumber_closing hafter (.inl rfl) rest)
    have hclosing := skipSpace_closing hafter (by decide : isSpace ']' = false) rest
    simp only [readItems, List.flatMap_nil, List.nil_append, bind, Except.bind, hread, hclosing]
    rfl
  | @cons u e us es hu hus ih =>
    -- The first item is read, and the others behind a comma.
    let others := u ++ ((us.flatMap fun u => ',' :: blanks ++ u) ++ (after ++ ']' :: rest))
    have htext : ((u :: us).flatMap fun u => ',' :: blanks ++ u) ++ (after ++ ']' :: rest) =
        ',' :: (blanks ++ others) := by
      simp [others]
    rw [List.flatMap_cons, List.length_append, List.length_append, List.length_cons] at hfuel
    have hread := ht.read fuel (',' :: (blanks ++ others)) (by omega)
      (endsNumber_of_head (by simp))
    have hskip : skipSpace (',' :: (blanks ++ others)) = ',' :: (blanks ++ others) := rfl
    have hothers : skipSpace (blanks ++ others) = others := skipSpace_append hblanks hu.isSpace_head
    obtain ⟨fuel, rfl⟩ : ∃ k, fuel = k + 1 := ⟨fuel - 1, by omega⟩
    have hlater : readItems (fuel + 1) others = .ok (e :: es, rest) := ih hu fuel (by omega)
    rw [htext, readItems]
    simp only [bind, Except.bind, hread, hskip, hothers, hlater]
    rfl

/-- A bracket, items set apart by commas, and a bracket say a list. -/
theorem says_items {before t : List Char} {d : Data} {ts : List (List Char)} {ds : List Data}
    (hbefore : ∀ c ∈ before, isSpace c = true) (ht : Says t d) (hts : List.Forall₂ Says ts ds) :
    Says ('[' :: (before ++ (t ++ ((ts.flatMap fun u => ',' :: blanks ++ u) ++ (after ++ [']'])))))
      (.list (d :: ds)) where
  starts := ⟨'[', _, rfl, by decide, by decide⟩
  read := by
    intro fuel rest hfuel _
    obtain ⟨fuel, rfl⟩ := exists_fuel (by simp) hfuel
    have hitems := readItems_says hblanks hafter ht hts rest fuel (by
      simp only [List.length_append, List.length_cons] at hfuel ⊢
      omega)
    have hskip := skipSpace_append hbefore
      (ht.isSpace_head (s := (ts.flatMap fun u => ',' :: blanks ++ u) ++ (after ++ ']' :: rest)))
    -- The list is not empty: its first item does not start with the closing bracket.
    obtain ⟨c, r, rfl, -, hc⟩ := ht.starts
    simp only [List.cons_append, List.append_assoc, List.nil_append] at hskip hitems ⊢
    rw [readValue, hskip]
    split
    · next heq => exact absurd (List.cons.inj heq).1 hc
    · rw [hitems]
      rfl

/-- A text says a field: a quoted key, and a value behind a colon. -/
def SaysField (text : List Char) (f : String × Data) : Prop :=
  ∃ t, text = '"' :: (f.1.toList.flatMap quoteChar ++ '"' :: ':' :: ' ' :: t) ∧ Says t f.2

omit hblanks hafter in
theorem readFields_field {t rest : List Char} {key : String} {d : Data} (ht : Says t d)
    (hrest : EndsNumber rest) (entries : List (Data × Data)) (fuel : Nat)
    (hfuel : 2 * t.length ≤ fuel) :
    readFields (fuel + 1) entries
        ('"' :: (key.toList.flatMap quoteChar ++ '"' :: ':' :: ' ' :: t) ++ rest) =
      match skipSpace rest with
      | '\x7d' :: r => .ok (Data.put (.text key) d entries, r)
      | ',' :: r => readFields fuel (Data.put (.text key) d entries) (skipSpace r)
      | r => .error (.fault .comma r) := by
  have htext : '"' :: (key.toList.flatMap quoteChar ++ '"' :: ':' :: ' ' :: t) ++ rest =
      '"' :: (key.toList.flatMap quoteChar ++ '"' :: ':' :: ' ' :: (t ++ rest)) := by
    simp
  have hcolon : skipSpace (':' :: ' ' :: (t ++ rest)) = ':' :: ' ' :: (t ++ rest) := rfl
  have hvalue : skipSpace (' ' :: (t ++ rest)) = t ++ rest :=
    @skipSpace_append [' '] (t ++ rest) (by simp [isSpace]) ht.isSpace_head
  rw [htext, readFields]
  simp only [bind, Except.bind, readText_quote, hcolon, hvalue, ht.read fuel rest hfuel hrest]
  rfl

theorem readFields_says {t : List Char} {f : String × Data} {ts : List (List Char)}
    {fs : List (String × Data)} (ht : SaysField t f) (hts : List.Forall₂ SaysField ts fs)
    (entries : List (Data × Data)) (rest : List Char) (fuel : Nat)
    (hfuel : 2 * (t ++ ts.flatMap fun u => ',' :: blanks ++ u).length + 1 ≤ fuel) :
    readFields fuel entries
        (t ++ ((ts.flatMap fun u => ',' :: blanks ++ u) ++ (after ++ '\x7d' :: rest))) =
      .ok (Data.putAll entries ((f :: fs).map fun f => (.text f.1, f.2)), rest) := by
  obtain ⟨fuel, rfl⟩ : ∃ k, fuel = k + 1 := ⟨fuel - 1, by omega⟩
  rw [List.length_append] at hfuel
  -- As for the items, but the entries that are put first are carried along.
  induction hts generalizing t f entries fuel with
  | nil =>
    obtain ⟨v, rfl, hv⟩ := ht
    have hclosing := skipSpace_closing hafter (by decide : isSpace '\x7d' = false) rest
    rw [List.flatMap_nil, List.nil_append,
      readFields_field hv (endsNumber_closing hafter (.inr rfl) rest) entries fuel
        (by simp at hfuel; omega), hclosing]
    rfl
  | @cons u g us gs hu hus ih =>
    let others := u ++ ((us.flatMap fun u => ',' :: blanks ++ u) ++ (after ++ '\x7d' :: rest))
    have htext : ((u :: us).flatMap fun u => ',' :: blanks ++ u) ++ (after ++ '\x7d' :: rest) =
        ',' :: (blanks ++ others) := by
      simp [others]
    rw [List.flatMap_cons, List.length_append, List.length_append, List.length_cons] at hfuel
    have hskip : skipSpace (',' :: (blanks ++ others)) = ',' :: (blanks ++ others) := rfl
    have hothers : skipSpace (blanks ++ others) = others := by
      apply skipSpace_append hblanks
      obtain ⟨v, rfl, -⟩ := hu
      simp [others, isSpace]
    obtain ⟨fuel, rfl⟩ : ∃ k, fuel = k + 1 := ⟨fuel - 1, by omega⟩
    have hlater := ih hu (Data.put (.text f.1) f.2 entries) fuel (by omega)
    obtain ⟨v, rfl, hv⟩ := ht
    rw [htext, readFields_field hv (endsNumber_of_head (by simp)) entries (fuel + 1)
      (by simp at hfuel; omega), hskip]
    simp only [hothers]
    exact hlater

/-- A brace, fields set apart by commas, and a brace say a mapping. -/
theorem says_fields {before t : List Char} {f : String × Data} {ts : List (List Char)}
    {fs : List (String × Data)} (hbefore : ∀ c ∈ before, isSpace c = true) (ht : SaysField t f)
    (hts : List.Forall₂ SaysField ts fs) :
    Says ('\x7b' :: (before ++ (t ++ ((ts.flatMap fun u => ',' :: blanks ++ u)
        ++ (after ++ ['\x7d'])))))
      (.mapping (Data.putAll [] ((f :: fs).map fun f => (.text f.1, f.2)))) where
  starts := ⟨'\x7b', _, rfl, by decide, by decide⟩
  read := by
    intro fuel rest hfuel _
    obtain ⟨fuel, rfl⟩ := exists_fuel (by simp) hfuel
    have hfields := readFields_says hblanks hafter ht hts [] rest fuel (by
      simp only [List.length_append, List.length_cons] at hfuel ⊢
      omega)
    have hskip : skipSpace (before ++ (t ++ ((ts.flatMap fun u => ',' :: blanks ++ u)
        ++ (after ++ '\x7d' :: rest)))) = t ++ ((ts.flatMap fun u => ',' :: blanks ++ u)
        ++ (after ++ '\x7d' :: rest)) := by
      apply skipSpace_append hbefore
      obtain ⟨v, rfl, -⟩ := ht
      simp [isSpace]
    obtain ⟨v, rfl, -⟩ := ht
    simp only [List.cons_append, List.append_assoc, List.nil_append] at hskip hfields ⊢
    -- The mapping is not empty: its first field starts with a quote.
    rw [readValue, hskip]
    show Except.map _ (readFields fuel [] ('"' :: _)) = _
    rw [hfields]
    rfl

end Parts

/-! ## Section 3: Written values -/

/-- A blank or the end of a line. -/
def IsBlank (c : Char) : Prop := c = ' ' ∨ c = '\n'

theorem IsBlank.isSpace {c : Char} (h : IsBlank c) : isSpace c = true := by
  rcases h with rfl | rfl <;> rfl

/-- Nothing but blanks, ends of lines and commas sets parts apart. -/
structure Layout.Blank (l : Layout) : Prop where
  lead : ∀ depth, ∀ c ∈ (l.lead depth).toList, IsBlank c
  comma : ∃ blanks, l.comma.toList = ',' :: blanks ∧ ∀ c ∈ blanks, IsBlank c

theorem Layout.blank_block : Layout.block.Blank where
  lead := by
    intro depth c hc
    have hlist : (Layout.block.lead depth).toList = '\n' :: List.replicate (2 * depth) ' ' := by
      simp [Layout.block]
    rw [hlist, List.mem_cons] at hc
    rcases hc with rfl | hc
    · exact .inr rfl
    · exact .inl (List.eq_of_mem_replicate hc)
  comma := ⟨[], rfl, by simp⟩

theorem Layout.blank_line : Layout.line.Blank where
  lead := by
    intro depth c hc
    cases hc
  comma := ⟨[' '], rfl, by simp [IsBlank]⟩

theorem writeItems_eq_map (l : Layout) (depth : Nat) (xs : List Data) :
    writeItems l depth xs = xs.map (writeAt l depth) := by
  induction xs with
  | nil => rfl
  | cons x xs ih => rw [writeItems, ih, List.map_cons]

theorem writeFields_eq_map (l : Layout) (depth : Nat) (fs : List (String × Data)) :
    writeFields l depth (fs.map fun f => (.text f.1, f.2)) =
      fs.map fun f => quote f.1 ++ ": " ++ writeAt l depth f.2 := by
  induction fs with
  | nil => rfl
  | cons f fs ih =>
    rw [List.map_cons, writeFields, ih, List.map_cons]
    rfl

/-- Items between brackets: the first item behind blanks, the others behind commas. -/
theorem Layout.Blank.toList_enclose {l : Layout} (hl : l.Blank) (depth : Nat)
    (opening closing item : String) (items : List String) : ∃ before blanks after,
    (∀ c ∈ before, IsBlank c) ∧ (∀ c ∈ blanks, IsBlank c) ∧ (∀ c ∈ after, IsBlank c)
      ∧ (l.enclose depth opening closing (item :: items)).toList =
        opening.toList ++ (before ++ (item.toList
          ++ (((items.map String.toList).flatMap fun u => ',' :: blanks ++ u)
            ++ (after ++ closing.toList)))) := by
  obtain ⟨blanks, hcomma, hblanks⟩ := hl.comma
  refine ⟨(l.lead (depth + 1)).toList, blanks ++ (l.lead (depth + 1)).toList,
    (l.lead depth).toList, hl.lead _, ?_, hl.lead _, ?_⟩
  · intro c hc
    rcases List.mem_append.mp hc with hc | hc
    · exact hblanks c hc
    · exact hl.lead (depth + 1) c hc
  · simp [Layout.enclose, String.toList_intercalate, intercalate_cons, hcomma]

/-- Putting new text keys puts the entries at the end. -/
theorem putAll_of_nodup {fs gs : List (String × Data)} (h : ((fs ++ gs).map (·.1)).Nodup) :
    Data.putAll (fs.map fun f => (.text f.1, f.2)) (gs.map fun f => (.text f.1, f.2)) =
      (fs ++ gs).map fun f => (.text f.1, f.2) := by
  induction gs generalizing fs with
  | nil => simp [Data.putAll]
  | cons g gs ih =>
    -- The first key is none of those that are there, so it goes to the end.
    have hput : Data.put (.text g.1) g.2 (fs.map fun f => (.text f.1, f.2)) =
        (fs ++ [g]).map fun f => (.text f.1, f.2) := by
      have hnew : ∀ f ∈ fs, f.1 ≠ g.1 := by
        intro f hf heq
        rw [List.map_append, List.nodup_append] at h
        exact h.2.2 f.1 (List.mem_map_of_mem hf) g.1 (by simp) heq
      clear h ih
      induction fs with
      | nil => rfl
      | cons f fs ihf =>
        have hf : f.1 ≠ g.1 := hnew f List.mem_cons_self
        rw [List.map_cons, Data.put, ihf fun e he => hnew e (List.mem_cons_of_mem f he)]
        simp [hf]
    have hlater := @ih (fs ++ [g]) (by simpa using h)
    rw [List.append_assoc, List.singleton_append] at hlater
    rw [← hlater, ← hput]
    rfl

/-- The values that JSON can say: no integer is too long, and the keys are different texts. -/
inductive Plain : Data → Prop
  | null : Plain .null
  | bool (b : Bool) : Plain (.bool b)
  | int {n : Int} (h : (Data.int n).isWritable = true) : Plain (.int n)
  | text (s : String) : Plain (.text s)
  | list {xs : List Data} (h : ∀ x ∈ xs, Plain x) : Plain (.list xs)
  | mapping {fs : List (String × Data)} (hkeys : (fs.map (·.1)).Nodup)
    (h : ∀ f ∈ fs, Plain f.2) : Plain (.mapping (fs.map fun f => (.text f.1, f.2)))

theorem says_list {l : Layout} (hl : l.Blank) {xs : List Data} (depth : Nat)
    (h : ∀ x ∈ xs, Says (writeAt l (depth + 1) x).toList x) :
    Says (writeAt l depth (.list xs)).toList (.list xs) := by
  rw [writeAt, writeItems_eq_map]
  cases xs with
  | nil =>
    show Says "[]".toList (.list [])
    refine ⟨⟨'[', _, rfl, by decide, by decide⟩, ?_⟩
    intro fuel rest hfuel _
    obtain ⟨fuel, rfl⟩ := exists_fuel (by decide) hfuel
    rfl
  | cons x xs =>
    have hx := h x List.mem_cons_self
    have hxs : List.Forall₂ Says ((xs.map (writeAt l (depth + 1))).map String.toList) xs := by
      rw [List.map_map, List.forall₂_map_left_iff, List.forall₂_same]
      intro y hy
      exact h y (List.mem_cons_of_mem x hy)
    obtain ⟨before, blanks, after, hbefore, hblanks, hafter, htext⟩ := hl.toList_enclose depth
      "[" "]" (writeAt l (depth + 1) x) (xs.map (writeAt l (depth + 1)))
    rw [List.map_cons, htext]
    exact says_items (fun c hc => (hblanks c hc).isSpace) (fun c hc => (hafter c hc).isSpace)
      (fun c hc => (hbefore c hc).isSpace) hx hxs

theorem says_mapping {l : Layout} (hl : l.Blank) {fs : List (String × Data)} (depth : Nat)
    (hkeys : (fs.map (·.1)).Nodup) (h : ∀ f ∈ fs, Says (writeAt l (depth + 1) f.2).toList f.2) :
    Says (writeAt l depth (.mapping (fs.map fun f => (.text f.1, f.2)))).toList
      (.mapping (fs.map fun f => (.text f.1, f.2))) := by
  rw [writeAt, writeFields_eq_map]
  cases fs with
  | nil =>
    show Says "\x7b\x7d".toList (.mapping [])
    refine ⟨⟨'\x7b', _, rfl, by decide, by decide⟩, ?_⟩
    intro fuel rest hfuel _
    obtain ⟨fuel, rfl⟩ := exists_fuel (by decide) hfuel
    rfl
  | cons f fs =>
    let fieldText (f : String × Data) := quote f.1 ++ ": " ++ writeAt l (depth + 1) f.2
    have hfield : ∀ g ∈ f :: fs, SaysField (fieldText g).toList g := by
      intro g hg
      exact ⟨(writeAt l (depth + 1) g.2).toList, by simp [fieldText, toList_quote], h g hg⟩
    have hfs : List.Forall₂ SaysField ((fs.map fieldText).map String.toList) fs := by
      rw [List.map_map, List.forall₂_map_left_iff, List.forall₂_same]
      intro g hg
      exact hfield g (List.mem_cons_of_mem f hg)
    obtain ⟨before, blanks, after, hbefore, hblanks, hafter, htext⟩ := hl.toList_enclose depth
      "\x7b" "\x7d" (fieldText f) (fs.map fieldText)
    have hsays := says_fields (fun c hc => (hblanks c hc).isSpace)
      (fun c hc => (hafter c hc).isSpace) (fun c hc => (hbefore c hc).isSpace)
      (hfield f List.mem_cons_self) hfs
    -- No key is repeated, so the fields that are read are those that were written.
    have hput : Data.putAll [] ((f :: fs).map fun f => (.text f.1, f.2)) = _ :=
      @putAll_of_nodup [] (f :: fs) hkeys
    rw [hput] at hsays
    rw [List.map_cons, htext]
    exact hsays

/-- What is written for a plain value says that value. -/
theorem says_writeAt {l : Layout} (hl : l.Blank) {d : Data} (hd : Plain d) (depth : Nat) :
    Says (writeAt l depth d).toList d := by
  induction hd generalizing depth with
  | null => exact says_null
  | bool b => exact says_bool b
  | int h => exact says_int h
  | text s => exact says_text s
  | list _ ih => exact says_list hl depth fun x hx => ih x hx (depth + 1)
  | mapping hkeys _ ih => exact says_mapping hl depth hkeys fun f hf => ih f hf (depth + 1)

end TaggedComments.Json
