import TaggedComments.Data.Stamp
import TaggedComments.Number.Binary64

/-!
# Scalar values

The values without parts that configuration files, comment lists and requests are made of.

- `Scalar` is a scalar value.
- `Scalar.truthy` says which values count as true.
- `Scalar.same` is equality of values: truth values count as the integers zero and one, an
  integer equals a floating point number of the same value, and a stamp one of the same instant.
- `Scalar.same_refl`, `Scalar.same_comm` and `Scalar.same_trans` make it an equivalence.
-/

namespace TaggedComments

/-- A value without parts. -/
inductive Scalar where
  /-- No value. -/
  | null
  /-- A truth value. -/
  | bool (b : Bool)
  /-- An integer. -/
  | int (n : Int)
  /-- A floating point number. -/
  | real (x : Binary64)
  /-- A text. -/
  | text (s : String)
  /-- A day or a moment. -/
  | stamp (s : Stamp)
  /-- A sequence of bytes. -/
  | bytes (b : List Nat)
  deriving DecidableEq, Inhabited

namespace Scalar

/-- Whether the value counts as true: nothing, false, zero and what is empty do not. -/
def truthy : Scalar → Bool
  | null => false
  | bool b => b
  | int n => n != 0
  | real x => !x.isZero
  | text s => !s.isEmpty
  | stamp _ => true
  | bytes b => !b.isEmpty

/-- The exact value of a truth value, an integer or a finite number. -/
def value? : Scalar → Option Rat
  | bool b => some ((if b then 1 else 0 : Int) : Rat)
  | int n => some (n : Rat)
  | real x => x.value?
  | _ => none

/-- Equality of scalars that are no numbers: stamps by their instants, all else as it is. A NaN is
the same as itself. -/
def sameForm : Scalar → Scalar → Bool
  | stamp x, stamp y => x.same y
  | a, b => a == b

/-- Equality of values. -/
def same (a b : Scalar) : Bool :=
  match a.value?, b.value? with
  | some x, some y => x == y
  | none, none => a.sameForm b
  | _, _ => false

/-- Texts are the same exactly when they are equal. -/
@[simp] theorem same_text (s t : String) : same (text s) (text t) = (s == t) := by
  simp only [same, value?, sameForm]
  rw [Bool.eq_iff_iff]
  simp

/-! ## Equality is an equivalence -/

theorem sameForm_refl (a : Scalar) : sameForm a a = true := by
  cases a <;> simp [sameForm, Stamp.same_refl]

theorem sameForm_comm (a b : Scalar) : sameForm a b = sameForm b a := by
  cases a <;> cases b <;> first | exact Stamp.same_comm _ _ | exact BEq.comm

theorem sameForm_trans {a b c : Scalar} (h : sameForm a b = true) (k : sameForm b c = true) :
    sameForm a c = true := by
  cases b with
  | stamp y =>
    cases a <;> cases c <;> simp only [sameForm, beq_iff_eq, reduceCtorEq] at h k ⊢
    exact Stamp.same_trans h k
  | _ =>
    -- Only a stamp is the same as another scalar than itself.
    simp only [sameForm, beq_iff_eq] at k
    exact k ▸ h

@[simp] theorem same_refl (a : Scalar) : same a a = true := by
  unfold same
  cases a.value? with
  | some x => simp
  | none => exact sameForm_refl a

theorem same_comm (a b : Scalar) : same a b = same b a := by
  unfold same
  cases a.value? <;> cases b.value?
  · exact sameForm_comm a b
  · rfl
  · rfl
  · exact BEq.comm

theorem same_trans {a b c : Scalar} (h : same a b = true) (k : same b c = true) :
    same a c = true := by
  unfold same at *
  cases ha : a.value? <;> cases hb : b.value? <;> cases hc : c.value? <;>
    simp only [ha, hb, hc, Bool.false_eq_true] at h k ⊢
  · exact sameForm_trans h k
  · simp_all

end Scalar

end TaggedComments
