import TaggedComments.Proofs.Text.Utf8
import TaggedComments.Yaml.Value

/-!
# Files that are no text

A file that is to be read as YAML has to be text. Where its first piece is none, this is found out
before the first token, and the failure is not one of YAML.

- `Utf8.decodePartFrom_of_decodeFrom_eq_error` says when it depends on what follows them that bytes
  are no text.
- `Stream.NoText` says so of files, `Stream.read_eq_error` and `Stream.read_short_eq_error` that they
  cannot be read.
- `Yaml.read_of_noText` says what comes of it.
-/

namespace TaggedComments

namespace Text

/-! ## Section 1: Bytes that are no text -/

namespace Utf8

theorem length_of_continuation {value count n : Nat} {range : Nat × Nat} {bytes rest : List Nat}
    (h : continuation value range count bytes = .ok (n, rest)) : rest.length ≤ bytes.length := by
  induction count generalizing value range bytes with
  | zero =>
    cases h
    exact Nat.le_refl _
  | succ count ih =>
    cases bytes with
    | nil => cases h
    | cons b bytes =>
      rw [continuation] at h
      split at h
      · split at h
        · next x hx =>
          cases h
          exact Nat.le_succ_of_le (ih hx)
        · cases h
      · cases h

theorem length_of_readChar {b : Nat} {c : Char} {bytes rest : List Nat}
    (h : readChar b bytes = .ok (c, rest)) : rest.length ≤ bytes.length := by
  unfold readChar at h
  split at h
  · cases h
    exact Nat.le_refl _
  · split at h
    · cases h
    · split at h
      · next n rest hcontinuation =>
        cases h
        exact length_of_continuation hcontinuation
      · cases h

/-- Bytes that are no text are no text when others follow, or they end inside of a character, and
then they are more than the characters before it. -/
theorem decodePartFrom_of_decodeFrom_eq_error {fuel position : Nat} {bytes : List Nat} {e : Failure}
    (hfuel : bytes.length ≤ fuel) (h : decodeFrom fuel position bytes = .error e) :
    (∃ f, decodePartFrom fuel position bytes = .error f)
      ∨ ∃ cs begun f, decodePartFrom fuel position bytes = .ok (cs, begun)
        ∧ decode begun = .error f ∧ cs.length < bytes.length := by
  induction fuel generalizing position bytes with
  | zero => cases h
  | succ fuel ih =>
    cases bytes with
    | nil => cases h
    | cons b bytes =>
      rw [decodeFrom] at h
      rw [decodePartFrom]
      -- The two ways to decode differ only in a character whose bytes come to an end.
      cases hread : readChar b bytes with
      | ok x =>
        obtain ⟨c, rest⟩ := x
        simp only [hread] at h
        have hlength := length_of_readChar hread
        rw [List.length_cons] at hfuel
        rcases ih (by omega) (map_eq_error_iff.mp h) with ⟨f, hf⟩ | ⟨cs, begun, f, hpart, hbegun, hlt⟩
        · exact .inl ⟨f, by simp [hf, Except.map]⟩
        · refine .inr ⟨c :: cs, begun, f, by simp [hpart, Except.map], hbegun, ?_⟩
          simp only [List.length_cons]
          omega
      | error x =>
        obtain ⟨fault, n⟩ := x
        cases fault with
        | truncated =>
          refine .inr ⟨[], b :: bytes, .undecodable b 0 (0 + n - 1) .truncated, rfl, ?_, by simp⟩
          rw [decode, List.length_cons, decodeFrom]
          simp only [hread]
        | start | continuation => exact .inl ⟨_, rfl⟩

end Utf8

/-! ## Section 2: Files that are read in pieces -/

/-- A file is no text, as its first piece shows: either no bytes behind the piece could make it text,
or the piece is the whole file. -/
def Stream.NoText (bytes : List Nat) : Prop :=
  (∃ e, Utf8.decodePart (bytes.take pieceSize) = .error e)
    ∨ (bytes.length ≤ pieceSize ∧ ∃ e, Utf8.decode bytes = .error e)

theorem length_unifyLineEnds_le (s : List Char) : (unifyLineEnds s).length ≤ s.length := by
  fun_induction unifyLineEnds s with
  | case1 => exact Nat.le_refl _
  | case2 s ih => simp only [List.length_cons]; omega
  | case3 s hne ih => simp only [List.length_cons]; omega
  | case4 c s h₁ h₂ ih => simp only [List.length_cons]; omega

namespace Stream

variable {bytes : List Nat} {wanted : Nat} {e : Failure}

theorem length_lineEnds_le (cs : List Char) : (lineEnds false false cs).1.length ≤ cs.length := by
  unfold lineEnds
  split
  · exact Nat.zero_le _
  · simp only [Bool.false_eq_true, if_false]
    split
    · exact Nat.le_trans (length_unifyLineEnds_le _) (by simp)
    · exact length_unifyLineEnds_le _

/-- The first piece of a file is of the least size as long as no more characters are wanted. -/
theorem sizeFor_start (hwanted : wanted ≤ pieceSize) :
    ({ bytes } : Stream).sizeFor wanted = pieceSize := by
  simp [sizeFor, hwanted]

/-- The first piece is decoded on its own, and something was left. -/
theorem readPiece_start (hwanted : wanted ≤ pieceSize) (hbytes : bytes ≠ []) :
    ({ bytes } : Stream).readPiece wanted =
      (Utf8.decodePart (bytes.take pieceSize)).map fun x =>
        (true, {
          bytes := bytes.drop pieceSize
          begun := x.2
          held := (lineEnds false false x.1).2
          waiting := (lineEnds false false x.1).1
          lastBytes := (bytes.take pieceSize).length
          lastChars := (lineEnds false false x.1).1.length }) := by
  have hpiece : (bytes.take pieceSize).isEmpty = false := by
    cases bytes with
    | nil => exact absurd rfl hbytes
    | cons b bytes => rfl
  simp only [readPiece, sizeFor_start hwanted, hpiece, decodePiece, List.nil_append]
  cases Utf8.decodePart (bytes.take pieceSize) <;> rfl

/-- A file cannot be read if its first piece is no text. -/
theorem read_eq_error (hpositive : 0 < wanted) (hwanted : wanted ≤ pieceSize)
    (h : Utf8.decodePart (bytes.take pieceSize) = .error e) :
    ({ bytes } : Stream).read wanted = .error e := by
  have hbytes : bytes ≠ [] := by
    rintro rfl
    cases h
  have hne : 0 ≠ wanted := Nat.ne_of_lt hpositive
  simp only [read, readFrom, List.take_nil, List.length_nil, if_neg hne, List.drop_nil, Nat.sub_zero,
    readPiece_start hwanted hbytes, h, Except.map]

/-- Behind the last byte a character that was begun is no text any more. -/
theorem readFrom_end {fuel : Nat} {s : Stream} (hbytes : s.bytes = [])
    (hbegun : Utf8.decode s.begun = .error e) :
    readFrom (fuel + 1) wanted s =
      if wanted ≤ s.waiting.length then
        .ok (s.waiting.take wanted, { s with waiting := s.waiting.drop wanted })
      else .error e := by
  have hpiece : ∀ n, ({ s with waiting := s.waiting.drop wanted } : Stream).readPiece n =
      .error e := by
    intro n
    simp [readPiece, hbytes, decodePiece, hbegun, Except.map, bind, Except.bind]
  have hall : min wanted s.waiting.length = wanted ↔ wanted ≤ s.waiting.length := by omega
  simp only [readFrom, List.length_take, hpiece, hall]

/-- Characters that are taken after the first piece come from what it left. -/
theorem read_start {s : Stream} (hpositive : 0 < wanted)
    (hpiece : ({ bytes } : Stream).readPiece wanted = .ok (true, s)) :
    ({ bytes } : Stream).read wanted = readFrom (bytes.length + 2) wanted s := by
  have hne : 0 ≠ wanted := Nat.ne_of_lt hpositive
  rw [read, readFrom]
  simp only [List.take_nil, List.length_nil, if_neg hne, List.drop_nil, Nat.sub_zero, hpiece]
  cases readFrom (bytes.length + 2) wanted s <;> rfl

/-- A file of one piece that is no text cannot be read, at the latest when characters are taken for
the second time. -/
theorem read_short_eq_error (hlength : bytes.length ≤ pieceSize) {cs : List Char}
    {begun : List Nat} (hpart : Utf8.decodePart bytes = .ok (cs, begun))
    (hbegun : Utf8.decode begun = .error e) (hcs : cs.length < bytes.length)
    (hpositive : 0 < wanted) (hwanted : wanted ≤ pieceSize) (hhalf : pieceSize ≤ 2 * wanted) :
    ({ bytes } : Stream).read wanted = .error e
      ∨ ∃ taken s, ({ bytes } : Stream).read wanted = .ok (taken, s)
        ∧ s.read wanted = .error e := by
  have hbytes : bytes ≠ [] := by
    rintro rfl
    simp at hcs
  -- The first piece is the whole file, and the next one is behind its end.
  obtain ⟨s, hpiece, hs, rfl, hwaiting⟩ : ∃ s : Stream,
      ({ bytes } : Stream).readPiece wanted = .ok (true, s) ∧ s.bytes = [] ∧ s.begun = begun
        ∧ s.waiting.length ≤ cs.length := by
    have hpiece := readPiece_start hwanted hbytes
    rw [List.take_of_length_le hlength, hpart] at hpiece
    exact ⟨_, hpiece, List.drop_eq_nil_of_le hlength, rfl, length_lineEnds_le cs⟩
  rw [read_start hpositive hpiece, readFrom_end hs hbegun]
  split
  · next hle =>
    refine .inr ⟨_, _, rfl, ?_⟩
    refine (readFrom_end ?_ ?_).trans (if_neg ?_)
    · exact hs
    · exact hbegun
    · rw [List.length_drop]
      omega
  · exact .inl rfl

end Stream

end Text

namespace Yaml

/-- The first portion of a file takes in the whole of its first piece. -/
theorem readPortion_of_noText {bytes : List Nat} (h : Text.Stream.NoText bytes) :
    ∃ e, Text.Utf8.IsNoText e ∧ readPortion true { bytes } = .error (.failure e) := by
  have hfirst : ∀ e, Text.Utf8.decodePart (bytes.take Text.Stream.pieceSize) = .error e →
      ∃ e, Text.Utf8.IsNoText e ∧ readPortion true { bytes } = .error (.failure e) := by
    intro e he
    refine ⟨e, Text.Utf8.decodePartFrom_eq_error he, ?_⟩
    rw [readPortion, Text.Stream.read_eq_error (by decide) (by decide) he]
    rfl
  rcases h with ⟨e, he⟩ | ⟨hlength, e, he⟩
  · exact hfirst e he
  · rcases Text.Utf8.decodePartFrom_of_decodeFrom_eq_error (Nat.le_refl _) he with
      ⟨f, hf⟩ | ⟨cs, begun, f, hpart, hbegun, hcs⟩
    · apply hfirst f
      rw [List.take_of_length_le hlength]
      exact hf
    · refine ⟨f, Text.Utf8.decodeFrom_eq_error hbegun, ?_⟩
      have hpositive : 0 < portion := by decide
      rcases Text.Stream.read_short_eq_error hlength hpart hbegun hcs hpositive (by decide)
        (by decide) with hread | ⟨taken, s, hread, hagain⟩
      · rw [readPortion, hread]
        rfl
      · rw [readPortion, hread]
        simp [Except.mapError, hagain, bind, Except.bind]

/-- Such a file has no value, and the failure is not one of YAML. -/
theorem read_of_noText {bytes : List Nat} (h : Text.Stream.NoText bytes) :
    ∃ e, Text.Utf8.IsNoText e ∧ read bytes = .error (.failure e) := by
  obtain ⟨e, he, hportion⟩ := readPortion_of_noText h
  refine ⟨e, he, ?_⟩
  have hreadable : readable bytes = ([], some (.failure e)) := by
    simp only [readable, readableFrom, hportion]
  -- Nothing of the text is readable, so there is no token before the failure.
  rw [read, hreadable]
  rfl

end Yaml

end TaggedComments
