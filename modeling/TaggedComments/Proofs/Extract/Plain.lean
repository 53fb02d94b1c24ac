import TaggedComments.Proofs.Extract.Body
import TaggedComments.Proofs.Extract.Lines

/-!
# Plain tags and trimmed texts

Tags are read in any letter case, and a few characters outside ASCII count as cases of ASCII letters.
They are letters too, so that a plain tag is a word however it is written.

- `Text.IsPlain` are the characters of plain tags; `Text.isWord_of_sameLetter` says that what agrees
  with one of them is a word character.
- `Text.Agree.isWord` and `Text.Agree.upper_eq` say so for texts, and what becomes of letter case.
- `Text.Trimmed.trim_eq` and `Text.lines_of_not_mem` say that trimming and splitting into lines leave
  a trimmed text and a single line alone.
- `Text.Trimmed.trim_append` and `Text.exists_append_trim` say that what is trimmed away is white
  space.
-/

namespace TaggedComments

/-! ## Section 1: Letter case -/

namespace Text

/-- The characters of plain tags: letters and digits of ASCII, and the underscore. -/
def IsPlain (c : Char) : Prop :=
  c.isAlphanum = true ∨ c = '_'

instance (c : Char) : Decidable (IsPlain c) :=
  inferInstanceAs (Decidable (c.isAlphanum = true ∨ c = '_'))

theorem IsPlain.toNat_lt {c : Char} (h : IsPlain c) : c.toNat < 128 := by
  rcases h with h | rfl
  · exact toNat_lt_of_isAlphanum h
  · decide

/-- A property of ASCII characters holds of all of them if it holds up to 127. -/
theorem forall_ascii {P : Char → Prop} (h : ∀ n < 128, P (Char.ofNat n)) {c : Char}
    (hc : c.toNat < 128) : P c := by
  have hn := h c.toNat hc
  rwa [Char.ofNat_toNat] at hn

/-- What holds of the characters of a fixed text can be checked one by one. -/
theorem forall_mem_of_all {P : Char → Prop} [DecidablePred P] {s : List Char}
    (h : s.all (fun c => decide (P c)) = true) : ∀ c ∈ s, P c := by
  intro c hc
  exact of_decide_eq_true (List.all_eq_true.mp h c hc)

/-- Only single characters outside ASCII have a key in ASCII; they are letters. -/
theorem foldRuns_ascii : ∀ r ∈ foldRuns, (r.first : Int) + r.offset < 128 →
    r.last = r.first ∧ isWord (Char.ofNat r.first) = true ∧ isSpace (Char.ofNat r.first) = false := by
  decide +kernel

theorem toNat_ofNat_of_valid {n : Nat} (h : n.isValidChar) : (Char.ofNat n).toNat = n := by
  have hchar : Char.ofNat n = Char.ofNatAux n h := dif_pos h
  rw [hchar]
  rfl

theorem toNat_ofNat_of_ne_zero {n : Nat} (h : (Char.ofNat n).toNat ≠ 0) :
    (Char.ofNat n).toNat = n := by
  by_cases hvalid : n.isValidChar
  · exact toNat_ofNat_of_valid hvalid
  · -- Any other number stands for the null character.
    have hchar : Char.ofNat n = Char.ofNat 0 := dif_neg hvalid
    exact absurd (congrArg Char.toNat hchar) h

/-- A character outside ASCII whose key is in ASCII is a letter. -/
theorem isWord_of_foldChar_lt {d : Char} (hd : ¬ d.toNat < 128) (hpos : (foldChar d).toNat ≠ 0)
    (hlt : (foldChar d).toNat < 128) : isWord d = true ∧ isSpace d = false := by
  rw [foldChar, if_neg hd] at hpos hlt
  rw [toNat_ofNat_of_ne_zero hpos, CaseRun.map] at hlt
  split at hlt
  · next r hr =>
    -- The run of the table that moves the character into ASCII holds no other one.
    have hcovers := List.find?_some hr
    simp only [CaseRun.covers, Bool.and_eq_true, decide_eq_true_eq] at hcovers
    rw [Int.ofNat_eq_natCast] at hlt
    obtain ⟨hlast, hword, hspace⟩ := foldRuns_ascii r (List.mem_of_find?_eq_some hr) (by omega)
    have hfirst : r.first = d.toNat := by omega
    rw [hfirst, Char.ofNat_toNat] at hword hspace
    exact ⟨hword, hspace⟩
  · exact absurd hlt hd

/-- What agrees with a plain character up to letter case is a word character and no white space. -/
theorem isWord_of_sameLetter {c d : Char} (hc : IsPlain c) (h : sameLetter c d = true) :
    isWord d = true ∧ isSpace d = false := by
  have hkey : foldChar d = c.toLower := by
    rw [sameLetter, beq_iff_eq, foldChar, if_pos hc.toNat_lt] at h
    exact h.symm
  have hlower : IsPlain c.toLower :=
    forall_ascii (P := fun c => IsPlain c → IsPlain c.toLower) (by decide) hc.toNat_lt hc
  by_cases hd : d.toNat < 128
  · -- In ASCII a character is plain if its lower case is.
    have hplain : IsPlain d.toLower → isWord d = true ∧ isSpace d = false :=
      forall_ascii (P := fun d => IsPlain d.toLower → isWord d = true ∧ isSpace d = false)
        (by decide) hd
    rw [foldChar, if_pos hd] at hkey
    exact hplain (hkey ▸ hlower)
  · have hpos : c.toLower.toNat ≠ 0 :=
      forall_ascii (P := fun c => IsPlain c → c.toNat ≠ 0) (by decide) hlower.toNat_lt hlower
    rw [← hkey] at hpos hlower
    exact isWord_of_foldChar_lt hd hpos hlower.toNat_lt

/-- In every letter case a plain text consists of word characters, of which none is white space. -/
theorem Agree.isWord {name s : List Char} (h : Agree name s) (hname : ∀ c ∈ name, IsPlain c) :
    ∀ d ∈ s, isWord d = true ∧ isSpace d = false := by
  induction h with
  | nil => simp
  | cons hletter _ ih =>
    obtain ⟨hc, hrest⟩ := List.forall_mem_cons.mp hname
    exact List.forall_mem_cons.mpr ⟨isWord_of_sameLetter hc hletter, ih hrest⟩

/-- Texts of ASCII that agree up to letter case are the same in upper case. -/
theorem Agree.upper_eq {a b : List Char} (h : Agree a b) (ha : ∀ c ∈ a, c.toNat < 128)
    (hb : ∀ c ∈ b, c.toNat < 128) : upper a = upper b := by
  induction h with
  | nil => rfl
  | @cons c d _ _ hletter _ ih =>
    obtain ⟨hc, ha⟩ := List.forall_mem_cons.mp ha
    obtain ⟨hd, hb⟩ := List.forall_mem_cons.mp hb
    have hupper : ∀ {c : Char}, c.toNat < 128 → c.toUpper = c.toLower.toUpper :=
      forall_ascii (P := fun c => c.toUpper = c.toLower.toUpper) (by decide)
    rw [sameLetter, beq_iff_eq, foldChar, foldChar, if_pos hc, if_pos hd] at hletter
    rw [upper_cons, upper_cons, ih ha hb, upperChar, upperChar, if_pos hc, if_pos hd, hupper hc,
      hupper hd, hletter]

/-! ## Section 2: Trimmed texts and texts of one line -/

theorem dropWhile_eq_self {p : Char → Bool} {s : List Char}
    (h : ∀ c, s.head? = some c → p c = false) : s.dropWhile p = s := by
  cases s with
  | nil => rfl
  | cons c s => rw [List.dropWhile_cons, if_neg (by simp [h c rfl])]

theorem dropRightWhile_eq_self {p : Char → Bool} {s : List Char}
    (h : ∀ c, s.getLast? = some c → p c = false) : dropRightWhile p s = s := by
  rw [dropRightWhile, dropWhile_eq_self (by simpa using h), List.reverse_reverse]

theorem isBlank_of_isSpace_eq_false {c : Char} (h : isSpace c = false) : isBlank c = false := by
  rw [← Bool.not_eq_true] at h ⊢
  exact fun hblank => h (isSpace_of_isBlank hblank)

theorem Trimmed.trim_eq {s : List Char} (h : Trimmed s) : trim s = s := by
  rw [trim, trimLeft, dropWhile_eq_self h.first, trimRight, dropRightWhile_eq_self h.last]

/-- Characters of a class behind a text are dropped first. -/
theorem dropRightWhile_append_of_pos {p : Char → Bool} {s right : List Char}
    (h : ∀ c ∈ right, p c = true) : dropRightWhile p (s ++ right) = dropRightWhile p s := by
  rw [dropRightWhile, List.reverse_append, List.dropWhile_append_of_pos (by simpa using h),
    dropRightWhile]

/-- White space around a trimmed text is trimmed away, and nothing else. -/
theorem Trimmed.trim_append {left s right : List Char} (h : Trimmed s)
    (hleft : ∀ c ∈ left, isSpace c = true) (hright : ∀ c ∈ right, isSpace c = true) :
    trim (left ++ (s ++ right)) = s := by
  rw [trim, trimLeft, List.dropWhile_append_of_pos hleft]
  cases s with
  | nil =>
    rw [List.nil_append, List.dropWhile_eq_nil_iff.mpr hright]
    rfl
  | cons c s =>
    rw [List.cons_append, dropWhile_eq_self fun d hd => h.first d (by simpa using hd), trimRight,
      ← List.cons_append, dropRightWhile_append_of_pos hright, dropRightWhile_eq_self h.last]

/-- A text is its trimmed text with white space around it. -/
theorem exists_append_trim (s : List Char) : ∃ left right, s = left ++ (trim s ++ right)
    ∧ (∀ c ∈ left, isSpace c = true) ∧ ∀ c ∈ right, isSpace c = true := by
  refine ⟨s.takeWhile isSpace, ((trimLeft s).reverse.takeWhile isSpace).reverse, ?_, ?_, ?_⟩
  · rw [trim, trimRight, dropRightWhile_append, trimLeft, List.takeWhile_append_dropWhile]
  · exact fun c hc => List.mem_takeWhile_imp hc
  · exact fun c hc => List.mem_takeWhile_imp (List.mem_reverse.mp hc)

instance (s : List Char) : Decidable (Trimmed s) :=
  decidable_of_iff (trim s = s) ⟨fun h => h ▸ trimmed_trim s, Trimmed.trim_eq⟩

theorem Trimmed.dropWhile_isBlank {s : List Char} (h : Trimmed s) : s.dropWhile isBlank = s :=
  dropWhile_eq_self fun c hc => isBlank_of_isSpace_eq_false (h.first c hc)

theorem Trimmed.trimRightBlanks_eq {s : List Char} (h : Trimmed s) : trimRightBlanks s = s :=
  dropRightWhile_eq_self fun c hc => isBlank_of_isSpace_eq_false (h.last c hc)

theorem joinLineEnds_of_not_mem {s : List Char} (h : '\n' ∉ s) : joinLineEnds s = s := by
  fun_induction joinLineEnds s with
  | case1 => rfl
  | case2 s => simp at h
  | case3 c s _ ih => rw [ih fun hmem => h (List.mem_cons_of_mem c hmem)]

theorem lines_of_not_mem {s : List Char} (h : '\n' ∉ s) : lines s = [s] := by
  induction s with
  | nil => rfl
  | cons c s ih =>
    rw [List.mem_cons, not_or] at h
    rw [lines_cons, if_neg (Ne.symm h.1), ih h.2]
    rfl

end Text

end TaggedComments
