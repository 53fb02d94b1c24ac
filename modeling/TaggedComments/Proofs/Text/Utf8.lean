import Mathlib.Tactic.Common
import TaggedComments.Proofs.Steps
import TaggedComments.Text.Lines
import TaggedComments.Text.Utf8

/-!
# Text that is stored and read again

A text that is stored as bytes is read back as it was, whatever its characters are. The only failure of
other bytes is that they are no text.

- `Text.Utf8.readChar_encodeChar` reads back one character, `Text.Utf8.decode_encode` a text, and
  `Text.Utf8.decodeLossy_encode` a text where replacement characters are allowed.
- `Text.Utf8.IsNoText` is the failure of bytes that are no text.
- `Text.unifyLineEnds_of_not_mem` leaves texts without carriage returns alone.
-/

namespace TaggedComments.Text

namespace Utf8

/-- The number of a character is not that of half of a pair. -/
theorem toNat_valid (c : Char) : c.toNat < 0xd800 ∨ (0xdfff < c.toNat ∧ c.toNat < 0x110000) :=
  c.valid

/-- A byte that continues a character gives six bits. -/
theorem continuation_succ {value low high count n : Nat} {bytes : List Nat} {x : Nat × List Nat}
    (hlow : low ≤ 0x80 + n) (hhigh : 0x80 + n ≤ high)
    (h : continuation (value * 64 + n) (0x80, 0xbf) count bytes = .ok x) :
    continuation value (low, high) (count + 1) ((0x80 + n) :: bytes) = .ok x := by
  have hrange : ((decide (low ≤ 0x80 + n) && decide (0x80 + n ≤ high)) = true) := by
    simp [hlow, hhigh]
  have hbits : 0x80 + n - 0x80 = n := by omega
  rw [continuation, if_pos hrange, hbits, h]

theorem readChar_of_continuation {b bits count n : Nat} {range : Nat × Nat}
    {bytes rest : List Nat} (hb : ¬ b < 0x80) (hlead : lead? b = some (bits, range, count))
    (h : continuation bits range count bytes = .ok (n, rest)) :
    readChar b bytes = .ok (Char.ofNat n, rest) := by
  rw [readChar, if_neg hb, hlead]
  dsimp only
  rw [h]

/-- The bytes of a character are read as that character, whatever comes after them. -/
theorem readChar_encodeChar (c : Char) (rest : List Nat) :
    ∃ b bytes, encodeChar c = b :: bytes ∧ readChar b (bytes ++ rest) = .ok (c, rest) := by
  have hc : Char.ofNat c.toNat = c := Char.ofNat_toNat c
  have hvalid := toNat_valid c
  unfold encodeChar
  -- The number of the character decides how many bytes there are.
  generalize c.toNat = n at *
  dsimp only
  split
  · next h1 => exact ⟨_, _, rfl, by simp [readChar, h1, hc]⟩
  split
  · next h1 h2 =>
    let b := 0xc0 + n / 64
    have hlead : lead? b = some (b - 0xc0, (0x80, 0xbf), 1) := by
      rw [lead?, if_neg (by omega), if_pos (by omega)]
    have hbits : (b - 0xc0) * 64 + n % 64 = n := by omega
    have hread : readChar b ((0x80 + n % 64) :: rest) =
        .ok (Char.ofNat ((b - 0xc0) * 64 + n % 64), rest) := by
      apply readChar_of_continuation (by omega) hlead
      exact continuation_succ (by omega) (by omega) rfl
    rw [hbits, hc] at hread
    exact ⟨_, _, rfl, hread⟩
  split
  · next h1 h2 h3 =>
    let b := 0xe0 + n / 4096
    have hlead : lead? b = some (b - 0xe0,
        (if b = 0xe0 then 0xa0 else 0x80, if b = 0xed then 0x9f else 0xbf), 2) := by
      rw [lead?, if_neg (by omega), if_neg (by omega), if_pos (by omega)]
    have hbits : ((b - 0xe0) * 64 + n / 64 % 64) * 64 + n % 64 = n := by omega
    -- The range of the second byte leaves out shorter forms and halves of pairs.
    have hlow : (if b = 0xe0 then 0xa0 else 0x80) ≤ 0x80 + n / 64 % 64 := by split <;> omega
    have hhigh : 0x80 + n / 64 % 64 ≤ (if b = 0xed then 0x9f else 0xbf) := by split <;> omega
    have hread : readChar b ((0x80 + n / 64 % 64) :: (0x80 + n % 64) :: rest) =
        .ok (Char.ofNat (((b - 0xe0) * 64 + n / 64 % 64) * 64 + n % 64), rest) := by
      apply readChar_of_continuation (by omega) hlead
      apply continuation_succ hlow hhigh
      exact continuation_succ (by omega) (by omega) rfl
    rw [hbits, hc] at hread
    exact ⟨_, _, rfl, hread⟩
  · next h1 h2 h3 =>
    let b := 0xf0 + n / 262144
    have hlead : lead? b = some (b - 0xf0,
        (if b = 0xf0 then 0x90 else 0x80, if b = 0xf4 then 0x8f else 0xbf), 3) := by
      rw [lead?, if_neg (by omega), if_neg (by omega), if_neg (by omega), if_pos (by omega)]
    have hbits : (((b - 0xf0) * 64 + n / 4096 % 64) * 64 + n / 64 % 64) * 64 + n % 64 = n := by
      omega
    have hlow : (if b = 0xf0 then 0x90 else 0x80) ≤ 0x80 + n / 4096 % 64 := by split <;> omega
    have hhigh : 0x80 + n / 4096 % 64 ≤ (if b = 0xf4 then 0x8f else 0xbf) := by split <;> omega
    have hread : readChar b ((0x80 + n / 4096 % 64) :: (0x80 + n / 64 % 64) :: (0x80 + n % 64)
        :: rest) = .ok (Char.ofNat ((((b - 0xf0) * 64 + n / 4096 % 64) * 64 + n / 64 % 64) * 64
          + n % 64), rest) := by
      apply readChar_of_continuation (by omega) hlead
      apply continuation_succ hlow hhigh
      apply continuation_succ (by omega) (by omega)
      exact continuation_succ (by omega) (by omega) rfl
    rw [hbits, hc] at hread
    exact ⟨_, _, rfl, hread⟩

/-- A text that is stored starts with the bytes of its first character. -/
theorem exists_encode_cons (c : Char) (s : List Char) : ∃ b bytes,
    encode (c :: s) = b :: bytes ∧ (encode s).length ≤ bytes.length
      ∧ readChar b bytes = .ok (c, encode s) := by
  obtain ⟨b, bytes, hbytes, hread⟩ := readChar_encodeChar c (encode s)
  refine ⟨b, bytes ++ encode s, ?_, by simp, hread⟩
  rw [encode, List.flatMap_cons, hbytes]
  rfl

theorem decodeFrom_encode (s : List Char) (fuel position : Nat)
    (hfuel : (encode s).length ≤ fuel) : decodeFrom fuel position (encode s) = .ok s := by
  induction s generalizing fuel position with
  | nil => cases fuel <;> rfl
  | cons c s ih =>
    obtain ⟨b, bytes, hencode, hlength, hread⟩ := exists_encode_cons c s
    rw [hencode] at hfuel ⊢
    rw [List.length_cons] at hfuel
    -- Each character takes a byte at least, so the fuel is enough for those that are left.
    obtain ⟨fuel, rfl⟩ : ∃ k, fuel = k + 1 := ⟨fuel - 1, by omega⟩
    rw [decodeFrom, hread]
    dsimp only
    rw [ih _ _ (by omega)]
    rfl

/-- A text that is stored is read back. -/
@[simp] theorem decode_encode (s : List Char) : decode (encode s) = .ok s :=
  decodeFrom_encode s _ 0 (Nat.le_refl _)

theorem decodeLossyFrom_encode (s : List Char) (fuel : Nat) (hfuel : (encode s).length ≤ fuel) :
    decodeLossyFrom fuel (encode s) = s := by
  induction s generalizing fuel with
  | nil => cases fuel <;> rfl
  | cons c s ih =>
    obtain ⟨b, bytes, hencode, hlength, hread⟩ := exists_encode_cons c s
    rw [hencode] at hfuel ⊢
    rw [List.length_cons] at hfuel
    obtain ⟨fuel, rfl⟩ : ∃ k, fuel = k + 1 := ⟨fuel - 1, by omega⟩
    rw [decodeLossyFrom, hread]
    dsimp only
    rw [ih _ (by omega)]

/-- Nothing of a text that is stored is replaced when it is read. -/
@[simp] theorem decodeLossy_encode (s : List Char) : decodeLossy (encode s) = s :=
  decodeLossyFrom_encode s _ (Nat.le_refl _)

/-- A failure names the bytes that are no text. -/
def IsNoText (e : Failure) : Prop :=
  ∃ byte start last fault, e = .undecodable byte start last fault

theorem decodeFrom_eq_error {fuel position : Nat} {bytes : List Nat} {e : Failure}
    (h : decodeFrom fuel position bytes = .error e) : IsNoText e := by
  induction fuel generalizing position bytes with
  | zero => cases h
  | succ fuel ih =>
    cases bytes with
    | nil => cases h
    | cons b bytes =>
      rw [decodeFrom] at h
      split at h
      · exact ih (map_eq_error_iff.mp h)
      · cases h
        exact ⟨_, _, _, _, rfl⟩

theorem decodePartFrom_eq_error {fuel position : Nat} {bytes : List Nat} {e : Failure}
    (h : decodePartFrom fuel position bytes = .error e) : IsNoText e := by
  induction fuel generalizing position bytes with
  | zero => cases h
  | succ fuel ih =>
    cases bytes with
    | nil => cases h
    | cons b bytes =>
      rw [decodePartFrom] at h
      split at h
      · exact ih (map_eq_error_iff.mp h)
      · cases h
      · cases h
        exact ⟨_, _, _, _, rfl⟩

end Utf8

theorem unifyLineEnds_of_not_mem {s : List Char} (h : '\r' ∉ s) : unifyLineEnds s = s := by
  fun_induction unifyLineEnds s with
  | case1 => rfl
  | case2 s ih => simp at h
  | case3 s hne ih => simp at h
  | case4 c s h₁ h₂ ih => rw [ih fun hs => h (List.mem_cons_of_mem c hs)]

end TaggedComments.Text
