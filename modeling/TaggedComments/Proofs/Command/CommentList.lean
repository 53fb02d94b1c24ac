import TaggedComments.Command.Basic
import TaggedComments.Proofs.Aggregate.NormalForm
import TaggedComments.Proofs.Config.Refusal

/-!
# Lists of comments

A text describes comments if it is a list of objects each of which describes one. The only part of an
object that can be refused is its line. It is refused with a message unless it is neither a number nor
a text, or an infinity: that stops the program.

- `Data.IntegerRefused` and `Data.IntegerStops` say why no integer can be made of a value,
  `Data.toInt_eq_error_iff` that there is no other reason.
- `Comment.LineRefused` and `Comment.LineStops` say what is wrong with the line of an object,
  `Comment.ofData_eq_error_iff` that nothing else can be.
- `Command.Lists` says which comments a text describes, `Command.commentsOf_eq_ok_iff` that these are
  read.
- `Command.ListRefused` and `Command.ListStops` say why none are read,
  `Command.commentsOf_eq_error_iff` that there is no other reason.
-/

namespace TaggedComments

/-! ## Section 1: Integers -/

namespace Data

/-- Whether the value is of a kind that an integer can be made of: a number or a text. -/
def isNumeral : Data → Bool
  | .int _ | .bool _ | .real _ | .text _ => true
  | _ => false

/-- Why no integer can be made of a value, which is said to the user. -/
inductive IntegerRefused : Data → Failure → Prop where
  | nan : IntegerRefused (.real .nan) .integerOfNan
  | malformed {s : String} (h : Integer.readInt s.toList = .error .malformed) :
      IntegerRefused (.text s) (.badInteger 10 s)
  | tooManyDigits {s : String} {n : Nat}
      (h : Integer.readInt s.toList = .error (.tooManyDigits n)) :
      IntegerRefused (.text s) (.tooManyDigits n)

/-- Why no integer can be made of a value, which stops the program: it is neither a number nor a text,
or an infinity. -/
inductive IntegerStops : Data → Failure → Prop where
  | noNumeral {v : Data} (h : v.isNumeral = false) : IntegerStops v .wrongKind
  | infinite {negative : Bool} : IntegerStops (.real (.infinite negative)) .tooLarge

theorem toInt_eq_error_iff {v : Data} {e : Failure} :
    v.toInt = .error e ↔ v.IntegerRefused e ∨ v.IntegerStops e := by
  constructor
  · intro h
    unfold toInt at h
    split at h
    · cases h
    · cases h
    · next x =>
      cases x with
      | nan =>
        cases h
        exact .inl .nan
      | infinite negative =>
        cases h
        exact .inr .infinite
      | finite negative m e => cases h
    · split at h
      · cases h
      · next hs =>
        cases h
        exact .inl (.malformed hs)
      · next hs =>
        cases h
        exact .inl (.tooManyDigits hs)
    · cases h
      refine .inr (.noNumeral ?_)
      unfold isNumeral
      split <;> simp_all
  · rintro (h | h)
    · cases h with
      | nan => rfl
      | malformed h | tooManyDigits h => simp only [toInt, h]
    · cases h with
      | noNumeral h =>
        unfold isNumeral at h
        unfold toInt
        split at h <;> simp_all
      | infinite => rfl

end Data

theorem LineNumber.ofData_int_eq_error_iff {n : Int} {e : Failure} :
    ofData (.int n) = .error e ↔ n ≤ 0 ∧ e = .badLine (.int n) := by
  simp only [ofData]
  split
  · next hpos =>
    simp only [reduceCtorEq, false_iff, not_and]
    omega
  · next hpos =>
    have hle : n ≤ 0 := by omega
    simp only [hle, true_and, Except.error.injEq]
    exact eq_comm

/-! ## Section 2: Objects -/

namespace Comment

/-- Why the line of an object is refused: it is missing, no integer can be made of it, or this is not
positive. -/
inductive LineRefused (d : Data) : Failure → Prop where
  | missing (hline : d.get? "line" = none) : LineRefused d (.badLine (.int 0))
  | noInteger {v : Data} {e : Failure} (hline : d.get? "line" = some v) (h : v.IntegerRefused e) :
      LineRefused d e
  | notPositive {v : Data} {n : Int} (hline : d.get? "line" = some v) (hn : v.toInt = .ok n)
      (h : n ≤ 0) : LineRefused d (.badLine (.int n))

/-- The line of an object stops the program. -/
def LineStops (d : Data) (e : Failure) : Prop :=
  ∃ v, d.get? "line" = some v ∧ v.IntegerStops e

variable {d : Data} {e : Failure}

theorem LineRefused.isReported (h : LineRefused d e) : e.isReported = true := by
  cases h with
  | missing | notPositive => rfl
  | noInteger _ h => cases h <;> rfl

theorem LineStops.isReported (h : LineStops d e) : e.isReported = false := by
  obtain ⟨v, -, h⟩ := h
  cases h <;> rfl

/-- Nothing but the line of an object is refused. -/
theorem ofData_eq_error_iff (hd : d.asMapping?.isSome = true) :
    ofData d = .error e ↔ LineRefused d e ∨ LineStops d e := by
  -- The other parts are taken as they are.
  have hfails : ofData d = .error e ↔
      (((d.get? "line").getD (.int 0)).toInt >>= fun n => LineNumber.ofData (.int n)) =
        .error e := by
    unfold ofData
    rw [Data.field_of_asMapping? hd, ok_bind]
    cases ((d.get? "line").getD (.int 0)).toInt with
    | error f => simp only [bind, Except.bind, Except.error.injEq]
    | ok n =>
      rw [ok_bind, ok_bind]
      cases LineNumber.ofData (.int n) with
      | error f => simp only [bind, Except.bind, Except.error.injEq]
      | ok line =>
        constructor
        · rintro ⟨⟩
        · rintro ⟨⟩
  rw [hfails, bind_eq_error_iff]
  simp only [LineNumber.ofData_int_eq_error_iff]
  cases hline : d.get? "line" with
  | none =>
    -- Zero stands for a line that is missing.
    constructor
    · rintro (h | ⟨n, hn, -, rfl⟩)
      · cases h
      · cases hn
        exact .inl (.missing hline)
    · rintro (h | ⟨v, hv, -⟩)
      · cases h with
        | missing => exact .inr ⟨0, rfl, Int.le_refl 0, rfl⟩
        | noInteger hv | notPositive hv => cases hline.symm.trans hv
      · cases hline.symm.trans hv
  | some v =>
    simp only [Option.getD_some, Data.toInt_eq_error_iff]
    constructor
    · rintro ((h | h) | ⟨n, hn, hle, rfl⟩)
      · exact .inl (.noInteger hline h)
      · exact .inr ⟨v, hline, h⟩
      · exact .inl (.notPositive hline hn hle)
    · rintro (h | ⟨w, hw, h⟩)
      · cases h with
        | missing hnone => cases hline.symm.trans hnone
        | noInteger hw h =>
          cases hline.symm.trans hw
          exact .inl (.inl h)
        | notPositive hw hn hle =>
          cases hline.symm.trans hw
          exact .inr ⟨_, hn, hle, rfl⟩
      · cases hline.symm.trans hw
        exact .inl (.inr h)

end Comment

/-! ## Section 3: Texts -/

namespace Command

/-- A text is a list of objects that describe comments. -/
def Lists (text : String) (cs : List Comment) : Prop :=
  ∃ items, Json.read text = .ok (.list items) ∧ (∀ d ∈ items, d.asMapping?.isSome = true)
    ∧ List.Forall₂ (fun d c => Comment.ofData d = .ok c) items cs

/-- A text is a list of objects, and those before an object in it describe comments. -/
def Reaches (text : String) (d : Data) : Prop :=
  ∃ before later, Json.read text = .ok (.list (before ++ d :: later))
    ∧ (∀ x ∈ before ++ d :: later, x.asMapping?.isSome = true)
    ∧ ∀ x ∈ before, ∃ c, Comment.ofData x = .ok c

/-- Why a text is refused: it is no JSON, no list of objects, or the line of the first object that
describes no comment is refused. -/
inductive ListRefused (text : String) : Failure → Prop where
  | noJson {e : Failure} (h : Json.read text = .error e) : ListRefused text e
  | noObjects {d : Data} (hd : Json.read text = .ok d)
      (h : ¬ ∃ items, d = .list items ∧ ∀ x ∈ items, x.asMapping?.isSome = true) :
      ListRefused text .reportNotList
  | line {d : Data} {e : Failure} (hd : Reaches text d) (h : Comment.LineRefused d e) :
      ListRefused text e

/-- The line of the first object that describes no comment stops the program. -/
def ListStops (text : String) (e : Failure) : Prop :=
  ∃ d, Reaches text d ∧ Comment.LineStops d e

variable {text : String} {e : Failure}

theorem ListStops.isReported (h : ListStops text e) : e.isReported = false := by
  obtain ⟨d, -, h⟩ := h
  exact h.isReported

/-- A text that is no JSON is refused with a message. -/
theorem isReported_of_read (h : Json.read text = .error e) : e.isReported = true := by
  unfold Json.read Json.readChars? at h
  split at h
  · cases h
    rfl
  · split at h
    · cases h
      rfl
    · cases h
      rfl
    · split at h
      · cases h
      · cases h
        rfl

theorem ListRefused.isReported (h : ListRefused text e) : e.isReported = true := by
  cases h with
  | noJson h => exact isReported_of_read h
  | noObjects => rfl
  | line _ h => exact h.isReported

/-- Lists of objects are read one object after another. -/
theorem commentsOf_of_list {items : List Data} (hitems : Json.read text = .ok (.list items))
    (hobjects : ∀ d ∈ items, d.asMapping?.isSome = true) :
    commentsOf text = items.mapM Comment.ofData := by
  rw [commentsOf, hitems, ok_bind]
  exact if_pos (List.all_eq_true.mpr hobjects)

theorem commentsOf_of_not_list {d : Data} (hd : Json.read text = .ok d)
    (h : ¬ ∃ items, d = .list items ∧ ∀ x ∈ items, x.asMapping?.isSome = true) :
    commentsOf text = .error .reportNotList := by
  rw [commentsOf, hd, ok_bind]
  split
  · next items =>
    refine if_neg fun hall => h ⟨items, rfl, ?_⟩
    exact List.all_eq_true.mp hall
  · rfl

/-- A text is a list of objects, or it is refused because it is none. -/
theorem list_cases (text : String) :
    (∃ items, Json.read text = .ok (.list items) ∧ ∀ d ∈ items, d.asMapping?.isSome = true)
      ∨ ∃ e, ListRefused text e ∧ commentsOf text = .error e := by
  cases hread : Json.read text with
  | error e =>
    refine .inr ⟨e, .noJson hread, ?_⟩
    rw [commentsOf, hread]
    rfl
  | ok d =>
    by_cases h : ∃ items, d = .list items ∧ ∀ x ∈ items, x.asMapping?.isSome = true
    · obtain ⟨items, rfl, hobjects⟩ := h
      exact .inl ⟨items, rfl, hobjects⟩
    · exact .inr ⟨_, .noObjects hread h, commentsOf_of_not_list hread h⟩

theorem commentsOf_eq_ok_iff {cs : List Comment} : commentsOf text = .ok cs ↔ Lists text cs := by
  constructor
  · intro h
    rcases list_cases text with ⟨items, hitems, hobjects⟩ | ⟨e, -, he⟩
    · rw [commentsOf_of_list hitems hobjects] at h
      exact ⟨items, hitems, hobjects, mapM_eq_ok_iff.mp h⟩
    · cases he.symm.trans h
  · rintro ⟨items, hitems, hobjects, hcs⟩
    rw [commentsOf_of_list hitems hobjects]
    exact mapM_eq_ok_iff.mpr hcs

/-- An object whose line is wrong is the reason for the failure if it is the first one. -/
theorem commentsOf_of_reaches {d : Data} (hd : Reaches text d)
    (h : Comment.LineRefused d e ∨ Comment.LineStops d e) : commentsOf text = .error e := by
  obtain ⟨before, later, hread, hobjects, hbefore⟩ := hd
  have hobject : d.asMapping?.isSome = true := hobjects d (by simp)
  rw [commentsOf_of_list hread hobjects, mapM_eq_error_iff]
  exact ⟨before, d, later, rfl, hbefore, (Comment.ofData_eq_error_iff hobject).mpr h⟩

theorem commentsOf_eq_error_iff :
    commentsOf text = .error e ↔ ListRefused text e ∨ ListStops text e := by
  constructor
  · intro h
    rcases list_cases text with ⟨items, hitems, hobjects⟩ | ⟨f, hf, herror⟩
    · rw [commentsOf_of_list hitems hobjects, mapM_eq_error_iff] at h
      obtain ⟨before, d, later, rfl, hbefore, hd⟩ := h
      have hreaches : Reaches text d := ⟨before, later, hitems, hobjects, hbefore⟩
      rcases (Comment.ofData_eq_error_iff (hobjects d (by simp))).mp hd with h | h
      · exact .inl (.line hreaches h)
      · exact .inr ⟨d, hreaches, h⟩
    · cases herror.symm.trans h
      exact .inl hf
  · rintro (h | ⟨d, hd, h⟩)
    · cases h with
      | noJson h =>
        rw [commentsOf, h]
        rfl
      | noObjects hd h => exact commentsOf_of_not_list hd h
      | line hd h => exact commentsOf_of_reaches hd (.inl h)
    · exact commentsOf_of_reaches hd (.inr h)

end Command

end TaggedComments
