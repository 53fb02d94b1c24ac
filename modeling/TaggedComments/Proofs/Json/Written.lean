import TaggedComments.Proofs.Json.RoundTrip

/-!
# The text of a written value

A written value is a text of printable ASCII characters and ends of lines, so it stays the same when
it is stored and read as a file, and the value is read from it.

- `Json.isWritten_writeAt` says which characters occur.
- `Json.read_writeAt` reads the value in any layout, `Json.read_write` in those that are used.
-/

namespace TaggedComments.Json

/-- A printable ASCII character or the end of a line. -/
def IsWritten (c : Char) : Prop := IsBlank c ∨ (33 ≤ c.toNat ∧ c.toNat < 127)

theorem isWritten_names : ∀ name ∈ ["null", "true", "false", "[", "]", "\x7b", "\x7d", ": "],
    ∀ c ∈ name.toList, IsWritten c := by
  simp [IsWritten, IsBlank]

/-- A byte order mark is not written. -/
theorem not_isWritten_mark : ¬ IsWritten '\ufeff' := by
  simp [IsWritten, IsBlank]

theorem not_isWritten_return : ¬ IsWritten '\r' := by
  simp [IsWritten, IsBlank]

theorem isWritten_of_isDigit {c : Char} (h : c.isDigit = true) : IsWritten c := by
  rw [Char.isDigit_iff_toNat] at h
  have hzero : '0'.toNat = 48 := rfl
  have hnine : '9'.toNat = 57 := rfl
  exact .inr (by omega)

theorem isWritten_digitChar {k : Nat} (hk : k < 16) : IsWritten k.digitChar := by
  have hdigit : ∀ k < 16, 33 ≤ k.digitChar.toNat ∧ k.digitChar.toNat < 127 := by decide
  exact .inr (hdigit k hk)

theorem isWritten_unitEscape {n : Nat} (hn : n < 0x10000) : ∀ c ∈ unitEscape n, IsWritten c := by
  rw [unitEscape, Text.hexDigits_four hn]
  simp only [List.forall_mem_cons]
  refine ⟨.inr (by decide), .inr (by decide), isWritten_digitChar (by omega),
    isWritten_digitChar (by omega), isWritten_digitChar (by omega),
    isWritten_digitChar (by omega), by simp⟩

theorem isWritten_quoteChar {c : Char} : ∀ e ∈ quoteChar c, IsWritten e := by
  have hvalid := Text.Utf8.toNat_valid c
  rcases quoteChar_cases c with ⟨e, hlow, hhigh, -, h⟩ | ⟨hlow, hhigh, -, -, h⟩ | ⟨hplane, h⟩ |
    ⟨-, h⟩
  · rw [h]
    simp only [List.forall_mem_cons]
    exact ⟨.inr (by decide), .inr ⟨hlow, hhigh⟩, by simp⟩
  · -- A blank stands for itself, as the printable characters do.
    rw [h]
    simp only [List.forall_mem_cons]
    refine ⟨?_, by simp⟩
    rcases Nat.lt_or_eq_of_le hlow with hlow | hlow
    · exact .inr ⟨hlow, hhigh⟩
    · exact .inl (.inl (Char.toNat_inj.mp hlow.symm))
  · rw [h]
    exact isWritten_unitEscape hplane
  · have hbound := halves_lt (n := c.toNat) (by omega)
    rw [h]
    intro e he
    rcases List.mem_append.mp he with he | he
    · exact isWritten_unitEscape hbound.1 e he
    · exact isWritten_unitEscape hbound.2 e he

theorem isWritten_quote {s : String} : ∀ c ∈ (quote s).toList, IsWritten c := by
  intro c hc
  simp only [toList_quote, List.mem_cons, List.mem_append, List.mem_flatMap, List.not_mem_nil,
    or_false] at hc
  rcases hc with rfl | ⟨d, -, hd⟩ | rfl
  · exact .inr (by decide)
  · exact isWritten_quoteChar c hd
  · exact .inr (by decide)

theorem isWritten_toString (n : Int) : ∀ c ∈ (toString n).toList, IsWritten c := by
  intro c hc
  rw [toList_toString, List.mem_append] at hc
  rcases hc with hc | hc
  · split at hc
    · rw [List.mem_singleton.mp hc]
      exact .inr (by decide)
    · cases hc
  · exact isWritten_of_isDigit (Nat.isDigit_of_mem_toDigits (by decide) (by decide) hc)

variable {l : Layout} {d : Data}

/-- Brackets and what sets items apart are written characters. -/
theorem isWritten_enclose (hl : l.Blank) (depth : Nat) {opening closing : String}
    {items : List String} (hopening : ∀ c ∈ opening.toList, IsWritten c)
    (hclosing : ∀ c ∈ closing.toList, IsWritten c)
    (hitems : ∀ t ∈ items, ∀ c ∈ t.toList, IsWritten c) :
    ∀ c ∈ (l.enclose depth opening closing items).toList, IsWritten c := by
  intro c hc
  cases items with
  | nil =>
    rw [Layout.enclose, List.isEmpty_nil, if_pos rfl, String.toList_append, List.mem_append] at hc
    exact hc.elim (hopening c) (hclosing c)
  | cons t ts =>
    obtain ⟨before, blanks, after, hbefore, hblanks, hafter, htext⟩ :=
      hl.toList_enclose depth opening closing t ts
    simp only [htext, List.mem_append, List.mem_flatMap, List.mem_map] at hc
    rcases hc with hc | hc | hc | ⟨u, ⟨t', ht', rfl⟩, hc⟩ | hc | hc
    · exact hopening c hc
    · exact .inl (hbefore c hc)
    · exact hitems t List.mem_cons_self c hc
    · rcases hc with hc | hc
      · rcases List.mem_cons.mp hc with rfl | hc
        · exact .inr (by decide)
        · exact .inl (hblanks c hc)
      · exact hitems t' (List.mem_cons_of_mem t ht') c hc
    · exact .inl (hafter c hc)
    · exact hclosing c hc

/-- Every character of a written value is a printable ASCII character or the end of a line. -/
theorem isWritten_writeAt (hl : l.Blank) (hd : Plain d) (depth : Nat) :
    ∀ c ∈ (writeAt l depth d).toList, IsWritten c := by
  induction hd generalizing depth with
  | null => exact isWritten_names "null" (by simp)
  | bool b =>
    cases b with
    | true => exact isWritten_names "true" (by simp)
    | false => exact isWritten_names "false" (by simp)
  | @int n _ => exact isWritten_toString n
  | text s => exact isWritten_quote
  | list _ ih =>
    rw [writeAt, writeItems_eq_map]
    apply isWritten_enclose hl depth (isWritten_names "[" (by simp)) (isWritten_names "]" (by simp))
    rw [List.forall_mem_map]
    intro x hx
    exact ih x hx (depth + 1)
  | mapping _ _ ih =>
    rw [writeAt, writeFields_eq_map]
    apply isWritten_enclose hl depth (isWritten_names "\x7b" (by simp))
      (isWritten_names "\x7d" (by simp))
    rw [List.forall_mem_map]
    intro f hf c hc
    simp only [String.toList_append, List.mem_append] at hc
    rcases hc with (hc | hc) | hc
    · exact isWritten_quote c hc
    · exact isWritten_names ": " (by simp) c hc
    · exact ih f hf (depth + 1) c hc

/-- A plain value is read from what is written for it, also with white space behind it. -/
theorem read_writeAt (hl : l.Blank) (hd : Plain d) (depth : Nat) {blanks : String}
    (hblanks : ∀ c ∈ blanks.toList, isSpace c = true) :
    read (writeAt l depth d ++ blanks) = .ok d := by
  have hsays := says_writeAt hl hd depth
  have hwritten := isWritten_writeAt hl hd depth
  rw [read, String.toList_append]
  -- Only the characters of the text matter from here on.
  generalize (writeAt l depth d).toList = text at hsays hwritten
  obtain ⟨c, r, rfl, hspace, -⟩ := hsays.starts
  have hmark : (((c :: r) ++ blanks.toList).head? == some '\ufeff') = false := by
    have hc : c ≠ '\ufeff' := by
      rintro rfl
      exact not_isWritten_mark (hwritten '\ufeff' List.mem_cons_self)
    simpa using hc
  have hskip : skipSpace ((c :: r) ++ blanks.toList) = (c :: r) ++ blanks.toList :=
    @skipSpace_append [] _ (by simp) hsays.isSpace_head
  have hend : EndsNumber blanks.toList := by
    apply endsNumber_of_head
    intro e he
    exact .inl (hblanks e (List.mem_of_mem_head? he))
  have hread := hsays.read (2 * ((c :: r) ++ blanks.toList).length + 2) blanks.toList
    (by rw [List.length_append]; omega) hend
  have hafter : skipSpace blanks.toList = [] := by
    simpa using skipSpace_append hblanks (s := []) (by simp)
  rw [readChars?, hmark, hskip, hread]
  simp [hafter]

/-- A plain value is read from its text, on lines of its own and on one line. -/
theorem read_write (hd : Plain d) : read (write d) = .ok d ∧ read (writeLine d) = .ok d := by
  have hnone : ∀ c ∈ "".toList, isSpace c = true := by simp
  have hblock := read_writeAt Layout.blank_block hd 0 hnone
  have hline := read_writeAt Layout.blank_line hd 0 hnone
  rw [String.append_empty] at hblock hline
  exact ⟨hblock, hline⟩

end TaggedComments.Json
