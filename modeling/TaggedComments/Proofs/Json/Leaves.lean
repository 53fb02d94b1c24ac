import Mathlib.Tactic.Common
import TaggedComments.Json.Printer
import TaggedComments.Json.Reader
import TaggedComments.Proofs.Data.Writable
import TaggedComments.Proofs.Text.Utf8

/-!
# Texts and numbers in JSON

What is written for a text or an integer is read as that text or integer, up to the place where it
ends.

- `Json.readChars_quoteChar` reads back one character, `Json.readText_quote` a text.
- `Json.readNumber_toString` reads back an integer that is short enough to be written.
-/

namespace TaggedComments

/-! ## Section 1: Hexadecimal digits -/

/-- The last digit stands behind those of the number without it. -/
theorem Text.hexDigits_succ {width n : Nat} (hwidth : 0 < width) :
    hexDigits (width + 1) n = hexDigits width (n / 16) ++ [(n % 16).digitChar] := by
  unfold hexDigits
  rw [Nat.toDigits_eq_if (by decide : 1 < 16)]
  split
  · next h =>
    -- The number has one digit, and the number without it is zero.
    have hquotient : n / 16 = 0 := Nat.div_eq_of_lt h
    have hremainder : n % 16 = n := Nat.mod_eq_of_lt h
    obtain ⟨k, rfl⟩ : ∃ k, width = k + 1 := ⟨width - 1, by omega⟩
    rw [hquotient, hremainder, Nat.toDigits_zero]
    simp [List.replicate_succ']
  · simp

theorem Text.hexDigits_four {n : Nat} (h : n < 0x10000) :
    hexDigits 4 n = [(n / 4096).digitChar, (n / 256 % 16).digitChar, (n / 16 % 16).digitChar,
      (n % 16).digitChar] := by
  have hlast : n / 16 / 16 / 16 < 16 := by omega
  have hfirst : hexDigits 1 (n / 16 / 16 / 16) = [(n / 16 / 16 / 16).digitChar] := by
    rw [hexDigits, Nat.toDigits_of_lt_base hlast]
    rfl
  rw [hexDigits_succ (by decide), hexDigits_succ (by decide), hexDigits_succ (by decide), hfirst]
  simp only [Nat.div_div_eq_div_mul]
  rfl

namespace Json

theorem hexValue?_digitChar : ∀ k < 16, hexValue? k.digitChar = some k := by decide

/-- Four digits with something behind them are read as their number. -/
theorem hexQuad?_hexDigits {n : Nat} (h : n < 0x10000) {tail : List Char} (htail : tail ≠ []) :
    hexQuad? (Text.hexDigits 4 n ++ tail) = some (n, tail) := by
  obtain ⟨e, r, rfl⟩ := List.exists_cons_of_ne_nil htail
  have hnumber : ((n / 4096 * 16 + n / 256 % 16) * 16 + n / 16 % 16) * 16 + n % 16 = n := by omega
  rw [Text.hexDigits_four h]
  simp only [List.cons_append, List.nil_append, hexQuad?]
  rw [hexValue?_digitChar _ (by omega), hexValue?_digitChar _ (by omega),
    hexValue?_digitChar _ (by omega), hexValue?_digitChar _ (by omega)]
  simp [hnumber]

/-! ## Section 2: Quoted texts -/

/-- The two halves of a character beyond the first plane make up that character. -/
theorem halves_spec {n : Nat} (hlow : 0x10000 ≤ n) (hhigh : n < 0x110000) :
    isHighHalf (halves n).1 = true ∧ isLowHalf (halves n).2 = true
      ∧ joinHalves (halves n).1 (halves n).2 = Char.ofNat n := by
  have hfirst : (halves n).1 = 0xD800 + (n - 0x10000) / 0x400 := rfl
  have hsecond : (halves n).2 = 0xDC00 + (n - 0x10000) % 0x400 := rfl
  have hnumber : 0x10000 + (0xD800 + (n - 0x10000) / 0x400 - 0xD800) * 0x400
      + (0xDC00 + (n - 0x10000) % 0x400 - 0xDC00) = n := by omega
  rw [hfirst, hsecond]
  refine ⟨?_, ?_, ?_⟩
  · simp only [isHighHalf, Bool.and_eq_true, decide_eq_true_eq]
    omega
  · simp only [isLowHalf, Bool.and_eq_true, decide_eq_true_eq]
    omega
  · rw [joinHalves, hnumber]

theorem halves_lt {n : Nat} (h : n < 0x110000) :
    (halves n).1 < 0x10000 ∧ (halves n).2 < 0x10000 := by
  have hfirst : (halves n).1 = 0xD800 + (n - 0x10000) / 0x400 := rfl
  have hsecond : (halves n).2 = 0xDC00 + (n - 0x10000) % 0x400 := rfl
  omega

/-- A unit after a backslash is read, and where it is no first half nothing else is looked at. -/
theorem readChars_unitEscape {opening tail : List Char} {fuel n : Nat} (hn : n < 0x10000)
    (hhigh : isHighHalf n = false) (htail : tail ≠ []) :
    readChars opening (fuel + 1) (unitEscape n ++ tail) =
      (readChars opening fuel tail).map fun x => (ofUnit n :: x.1, x.2) := by
  rw [unitEscape, List.cons_append, List.cons_append, readChars]
  simp only [hexQuad?_hexDigits hn htail, hhigh]
  simp

theorem lowHalf?_unitEscape {tail : List Char} {n : Nat} (hn : n < 0x10000)
    (hlow : isLowHalf n = true) (htail : tail ≠ []) :
    lowHalf? (unitEscape n ++ tail) = .inl (some (n, tail)) := by
  have hquad := hexQuad?_hexDigits hn htail
  obtain ⟨e, r, rfl⟩ := List.exists_cons_of_ne_nil htail
  rw [unitEscape, List.cons_append, List.cons_append]
  rw [Text.hexDigits_four hn] at hquad ⊢
  simp only [List.cons_append, List.nil_append] at hquad ⊢
  simp [lowHalf?, hquad, hlow]

theorem readChars_halves {opening tail : List Char} {fuel high low : Nat} (hhigh : high < 0x10000)
    (hlow : low < 0x10000) (hfirst : isHighHalf high = true) (hsecond : isLowHalf low = true)
    (htail : tail ≠ []) :
    readChars opening (fuel + 1) (unitEscape high ++ (unitEscape low ++ tail)) =
      (readChars opening fuel tail).map fun x => (joinHalves high low :: x.1, x.2) := by
  have hne : unitEscape low ++ tail ≠ [] := by simp [unitEscape]
  rw [unitEscape, List.cons_append, List.cons_append, readChars]
  simp only [hexQuad?_hexDigits hhigh hne, hfirst, lowHalf?_unitEscape hlow hsecond htail]
  simp

/-- The letter behind a backslash is read as the character that it stands for. -/
theorem readChars_simpleEscape {opening tail : List Char} {fuel : Nat} {e c : Char}
    (hc : simpleEscape? e = some c) :
    readChars opening (fuel + 1) ('\\' :: e :: tail) =
      (readChars opening fuel tail).map fun x => (c :: x.1, x.2) := by
  have he : e ≠ 'u' := by
    rintro rfl
    cases hc
  rw [readChars]
  · simp [hc]
  · exact he

/-- The characters that are written by a letter behind a backslash, with that letter. -/
def shortEscapes : List (Char × Char) :=
  [('"', '"'), ('\\', '\\'), ('\n', 'n'), ('\r', 'r'), ('\t', 't'), ('\x0c', 'f'), ('\x08', 'b')]

theorem quoteChar_shortEscapes : ∀ p ∈ shortEscapes, 33 ≤ p.2.toNat ∧ p.2.toNat < 127
    ∧ simpleEscape? p.2 = some p.1 ∧ quoteChar p.1 = ['\\', p.2] := by decide

/-- A character is written by a letter behind a backslash, as itself, by one unit or by two. -/
theorem quoteChar_cases (c : Char) :
    (∃ e, 33 ≤ e.toNat ∧ e.toNat < 127 ∧ simpleEscape? e = some c ∧ quoteChar c = ['\\', e])
      ∨ (32 ≤ c.toNat ∧ c.toNat < 127 ∧ c ≠ '"' ∧ c ≠ '\\' ∧ quoteChar c = [c])
      ∨ (c.toNat < 0x10000 ∧ quoteChar c = unitEscape c.toNat)
      ∨ (0x10000 ≤ c.toNat
        ∧ quoteChar c = unitEscape (halves c.toNat).1 ++ unitEscape (halves c.toNat).2) := by
  -- Escapes with a letter of their own come before everything else.
  by_cases hshort : ∃ p ∈ shortEscapes, p.1 = c
  · obtain ⟨p, hp, rfl⟩ := hshort
    exact .inl ⟨p.2, quoteChar_shortEscapes p hp⟩
  right
  simp only [shortEscapes, List.mem_cons, List.not_mem_nil, or_false, exists_eq_or_imp,
    exists_eq_left, not_or] at hshort
  obtain ⟨hquote, hbackslash, hline, hreturn, htab, hfeed, hback⟩ := hshort
  unfold quoteChar
  rw [if_neg (Ne.symm hquote), if_neg (Ne.symm hbackslash), if_neg (Ne.symm hline),
    if_neg (Ne.symm hreturn), if_neg (Ne.symm htab), if_neg (Ne.symm hfeed),
    if_neg (Ne.symm hback)]
  split
  · next hprintable =>
    simp only [Bool.and_eq_true, decide_eq_true_eq] at hprintable
    exact .inl ⟨hprintable.1, hprintable.2, Ne.symm hquote, Ne.symm hbackslash, rfl⟩
  right
  split
  · next hplane => exact .inl ⟨hplane, rfl⟩
  · next hplane => exact .inr ⟨by omega, rfl⟩

/-- What is written for a character is read as that character. -/
theorem readChars_quoteChar {opening tail : List Char} (fuel : Nat) (c : Char)
    (htail : tail ≠ []) :
    readChars opening (fuel + 1) (quoteChar c ++ tail) =
      (readChars opening fuel tail).map fun x => (c :: x.1, x.2) := by
  have hc : Char.ofNat c.toNat = c := Char.ofNat_toNat c
  have hvalid := Text.Utf8.toNat_valid c
  rcases quoteChar_cases c with ⟨e, -, -, he, hwritten⟩ | ⟨hlow, -, hquote, hbackslash, hwritten⟩ |
    ⟨hplane, hwritten⟩ | ⟨hplane, hwritten⟩
  · rw [hwritten]
    exact readChars_simpleEscape he
  · rw [hwritten, List.singleton_append, readChars.eq_def]
    simp only [hquote, hbackslash, if_false]
    rw [if_neg (by omega)]
  · -- No character has the number of half of a pair.
    have hhigh : isHighHalf c.toNat = false := by
      simp only [isHighHalf, Bool.and_eq_false_iff, decide_eq_false_iff_not]
      omega
    have hlow : isLowHalf c.toNat = false := by
      simp only [isLowHalf, Bool.and_eq_false_iff, decide_eq_false_iff_not]
      omega
    have hunit : ofUnit c.toNat = c := by
      rw [ofUnit, hhigh, hlow]
      exact hc
    rw [hwritten, readChars_unitEscape hplane hhigh htail, hunit]
  · obtain ⟨hfirst, hsecond, hjoin⟩ := halves_spec (n := c.toNat) hplane (by omega)
    have hbound := halves_lt (n := c.toNat) (by omega)
    rw [hwritten, List.append_assoc, readChars_halves hbound.1 hbound.2 hfirst hsecond htail, hjoin,
      hc]

theorem quoteChar_ne_nil (c : Char) : quoteChar c ≠ [] := by
  rcases quoteChar_cases c with ⟨e, -, -, -, h⟩ | ⟨-, -, -, -, h⟩ | ⟨-, h⟩ | ⟨-, h⟩ <;>
  · rw [h]
    exact List.cons_ne_nil _ _

theorem readChars_quote {opening rest : List Char} (s : List Char) (fuel : Nat)
    (hfuel : s.length < fuel) :
    readChars opening fuel (s.flatMap quoteChar ++ '"' :: rest) = .ok (s, rest) := by
  induction s generalizing fuel with
  | nil =>
    obtain ⟨fuel, rfl⟩ : ∃ k, fuel = k + 1 := ⟨fuel - 1, by omega⟩
    rfl
  | cons c s ih =>
    obtain ⟨fuel, rfl⟩ : ∃ k, fuel = k + 1 := ⟨fuel - 1, by simp at hfuel; omega⟩
    have hlater : s.length < fuel := by simpa using hfuel
    have htail : s.flatMap quoteChar ++ '"' :: rest ≠ [] := by simp
    rw [List.flatMap_cons, List.append_assoc, readChars_quoteChar fuel c htail, ih fuel hlater]
    rfl

/-- What is written for a text is read as that text. -/
theorem readText_quote (s : String) (rest : List Char) :
    readText (s.toList.flatMap quoteChar ++ '"' :: rest) = .ok (s, rest) := by
  have hlength : s.toList.length ≤ (s.toList.flatMap quoteChar).length := by
    induction s.toList with
    | nil => simp
    | cons c s ih =>
      have hpos := List.length_pos_iff.mpr (quoteChar_ne_nil c)
      rw [List.flatMap_cons, List.length_append, List.length_cons]
      omega
  rw [readText, readChars_quote]
  · simp [Except.map]
  · simp only [List.length_append, List.length_cons]
    omega

/-! ## Section 3: Integers -/

/-- No number goes on in this text. -/
def EndsNumber (rest : List Char) : Prop :=
  ∀ c ∈ rest.head?, c.isDigit = false ∧ c ≠ '.' ∧ c ≠ 'e' ∧ c ≠ 'E'

theorem head?_toDigits_ne_zero {n : Nat} (h : 0 < n) : (Nat.toDigits 10 n).head? ≠ some '0' := by
  induction n using Nat.strongRecOn with
  | _ n ih =>
    rw [Nat.toDigits_eq_if (by decide : 1 < 10)]
    split
    · next hlt =>
      intro hzero
      have hnumber := Nat.toNat_digitChar_of_lt_ten hlt
      rw [Option.some.inj hzero] at hnumber
      have hcode : '0'.toNat = 48 := rfl
      omega
    · -- The first digit is that of the number without its last digit.
      have hquotient := ih (n / 10) (by omega) (by omega)
      obtain ⟨c, ds, hds⟩ := List.exists_cons_of_ne_nil
        (Nat.toDigits_ne_nil : Nat.toDigits 10 (n / 10) ≠ [])
      rw [hds] at hquotient ⊢
      exact hquotient

/-- The digits of a number begin with a digit. -/
theorem exists_toDigits_eq_cons (n : Nat) :
    ∃ c ds, Nat.toDigits 10 n = c :: ds ∧ c.isDigit = true := by
  obtain ⟨c, ds, hds⟩ := List.exists_cons_of_ne_nil (Nat.toDigits_ne_nil : Nat.toDigits 10 n ≠ [])
  refine ⟨c, ds, hds, ?_⟩
  apply Nat.isDigit_of_mem_toDigits (by decide : 0 < 10) (by decide : 10 ≤ 10)
  rw [hds]
  exact List.mem_cons_self

theorem digitsValue_toDigits (n : Nat) : digitsValue (Nat.toDigits 10 n) = n := by
  rw [digitsValue, Integer.ofDigits, List.foldl_map, ← Nat.ofDigitChars_eq_foldl]
  exact Nat.ofDigitChars_ten_toDigits

theorem takeDigits_toDigits (n : Nat) {rest : List Char} (hrest : EndsNumber rest) :
    takeDigits (Nat.toDigits 10 n ++ rest) = (Nat.toDigits 10 n, rest) := by
  have hdigits : ∀ c ∈ Nat.toDigits 10 n, c.isDigit = true := by
    intro c hc
    exact Nat.isDigit_of_mem_toDigits (by decide) (by decide) hc
  have hstop : rest.takeWhile Char.isDigit = [] ∧ rest.dropWhile Char.isDigit = rest := by
    cases rest with
    | nil => exact ⟨rfl, rfl⟩
    | cons c rest =>
      have hc := (hrest c rfl).1
      simp [hc]
  rw [takeDigits, List.takeWhile_append_of_pos hdigits, List.dropWhile_append_of_pos hdigits,
    hstop.1, hstop.2, List.append_nil]

theorem wholePart?_toDigits (n : Nat) {rest : List Char} (hrest : EndsNumber rest) :
    wholePart? (Nat.toDigits 10 n ++ rest) = some (Nat.toDigits 10 n, rest) := by
  have htake := takeDigits_toDigits n hrest
  -- Zero is read by the first case; no other number starts with a zero.
  rcases Nat.eq_zero_or_pos n with rfl | hpos
  · rfl
  · have hhead := head?_toDigits_ne_zero hpos
    obtain ⟨c, ds, hds, hdigit⟩ := exists_toDigits_eq_cons n
    rw [hds] at hhead htake ⊢
    have hc : c ≠ '0' := by simpa using hhead
    rw [List.cons_append] at htake ⊢
    unfold wholePart?
    split
    · next heq => exact absurd (List.cons.inj heq).1 hc
    · next heq =>
      obtain ⟨rfl, rfl⟩ := List.cons.inj heq
      rw [if_pos hdigit, htake]
    · next heq => cases heq

theorem fraction_of_endsNumber {rest : List Char} (hrest : EndsNumber rest) :
    fraction rest = ([], rest) := by
  unfold fraction
  split
  · next r => exact absurd rfl (hrest '.' rfl).2.1
  · rfl

theorem exponent?_of_endsNumber {rest : List Char} (hrest : EndsNumber rest) :
    exponent? rest = none := by
  cases rest with
  | nil => rfl
  | cons c rest =>
    obtain ⟨-, -, he, hE⟩ := hrest c rfl
    simp [exponent?, he, hE]

theorem length_toDigits_le {m k : Nat} (hk : 0 < k) (hm : m < Nat.pow 10 k) :
    (Nat.toDigits 10 m).length ≤ k := by
  rw [Nat.length_toDigits_le_iff (by decide) hk]
  exact hm

/-- Digits behind a sign or none are read as a number. -/
theorem readNumber_toDigits {m : Nat} {rest : List Char} (negative : Bool)
    (hm : m < Nat.pow 10 Integer.maxDigits) (hrest : EndsNumber rest) :
    readNumber ((if negative then ['-'] else []) ++ (Nat.toDigits 10 m ++ rest)) =
      .ok (.int (if negative then -Int.ofNat m else Int.ofNat m), rest) := by
  have hlength : ¬ Integer.maxDigits < (Nat.toDigits 10 m).length :=
    Nat.not_lt.mpr (length_toDigits_le (by decide) hm)
  have hwhole := wholePart?_toDigits m hrest
  have hvalue := digitsValue_toDigits m
  obtain ⟨c, ds, hds, hdigit⟩ := exists_toDigits_eq_cons m
  have hc : c ≠ '-' := by
    rintro rfl
    cases hdigit
  rw [hds] at hlength hwhole hvalue ⊢
  cases negative with
  | true =>
    simp only [readNumber, if_true, List.cons_append, List.nil_append] at hwhole ⊢
    simp only [hwhole, fraction_of_endsNumber hrest, exponent?_of_endsNumber hrest, hlength, hvalue,
      if_false]
  | false =>
    show readNumber (c :: (ds ++ rest)) = .ok (.int (Int.ofNat m), rest)
    rw [List.cons_append] at hwhole
    unfold readNumber
    split
    next sign r hsign =>
    split at hsign
    · next heq => exact absurd (List.cons.inj heq).1 hc
    · cases hsign
      simp only [hwhole, fraction_of_endsNumber hrest, exponent?_of_endsNumber hrest, hlength,
        hvalue, Bool.false_eq_true, if_false]

theorem toList_toString (n : Int) : (toString n).toList =
    (if decide (n < 0) then ['-'] else []) ++ Nat.toDigits 10 n.natAbs := by
  cases n with
  | ofNat m =>
    show (Nat.repr m).toList = _
    rw [Nat.repr_eq_ofList_toDigits, String.toList_ofList]
    simp
  | negSucc m =>
    show ("-" ++ Nat.repr (m + 1)).toList = _
    rw [Nat.repr_eq_ofList_toDigits, String.toList_append, String.toList_ofList]
    simp [Int.negSucc_lt_zero]

/-- What is written for an integer is read as that integer. -/
theorem readNumber_toString {n : Int} {rest : List Char} (hn : (Data.int n).isWritable = true)
    (hrest : EndsNumber rest) : readNumber ((toString n).toList ++ rest) = .ok (.int n, rest) := by
  have hsign : (if decide (n < 0) then -Int.ofNat n.natAbs else Int.ofNat n.natAbs) = n := by
    by_cases h : n < 0
    · rw [decide_eq_true h, if_pos rfl]
      exact (Int.eq_neg_natAbs_of_nonpos (by omega)).symm
    · rw [decide_eq_false h]
      exact Int.natAbs_of_nonneg (by omega)
  rw [toList_toString, List.append_assoc,
    readNumber_toDigits _ (Data.isWritable_int_iff.mp hn) hrest, hsign]

end Json

end TaggedComments
