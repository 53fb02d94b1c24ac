/-!
# Tables over code points

Character properties are stored as tables over code points and looked up here.

- `Ranges` is an ascending list of closed intervals; `Ranges.contains` looks a code point up.
- `CaseRun` maps every `step`-th code point of an interval by one constant offset.
-/

namespace TaggedComments.Text

/-- Closed intervals of code points, in ascending order. -/
abbrev Ranges := List (Nat × Nat)

namespace Ranges

/-- A code point is contained when one of the intervals holds it. -/
def contains (table : Ranges) (n : Nat) : Bool :=
  table.any fun r => r.1 ≤ n && n ≤ r.2

theorem contains_iff (table : Ranges) (n : Nat) :
    table.contains n = true ↔ ∃ r ∈ table, r.1 ≤ n ∧ n ≤ r.2 := by
  simp [contains, List.any_eq_true]

end Ranges

/-- A run of code points that one rule maps: every `step`-th point from `first` to `last` moves
by `offset`. -/
structure CaseRun where
  /-- The first code point of the run. -/
  first : Nat
  /-- The last code point of the run. -/
  last : Nat
  /-- The distance between two points of the run. -/
  step : Nat
  /-- What is added to each of them. -/
  offset : Int

namespace CaseRun

/-- Whether the run maps the code point. -/
def covers (r : CaseRun) (n : Nat) : Bool :=
  r.first ≤ n && n ≤ r.last && (n - r.first) % r.step == 0

/-- The image of a code point under the first run that covers it; a point that none covers stays. -/
def map (runs : List CaseRun) (n : Nat) : Nat :=
  match runs.find? (·.covers n) with
  | some r => (Int.ofNat n + r.offset).toNat
  | none => n

end CaseRun

end TaggedComments.Text
