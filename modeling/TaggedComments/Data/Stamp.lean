/-!
# Days and moments

A day of the calendar, or a moment of it with a time of day. The distance from universal time may
be known; moments for which it is known are the same if they are the same instant.

- `Stamp` is a day or a moment, `Clock` a time of day.
- `Stamp.monthDays` is the length of a month, `Stamp.dayNumber` counts the days.
- `Stamp.same` compares two stamps; `Stamp.same_refl`, `Stamp.same_comm` and `Stamp.same_trans`
  make it an equivalence.
-/

namespace TaggedComments

/-- A time of day. -/
structure Clock where
  /-- The hour, from 0 to 23. -/
  hour : Nat
  /-- The minute, from 0 to 59. -/
  minute : Nat
  /-- The second, from 0 to 59. -/
  second : Nat
  /-- The millionths of a second. -/
  micro : Nat
  /-- The distance from universal time in minutes, if it is known. -/
  offset : Option Int
  deriving DecidableEq, Inhabited

/-- A day, or a moment of it. -/
structure Stamp where
  /-- The year, from 1 to 9999. -/
  year : Nat
  /-- The month, from 1 to 12. -/
  month : Nat
  /-- The day of the month. -/
  day : Nat
  /-- The time of day, for a moment. -/
  clock : Option Clock
  deriving DecidableEq, Inhabited

namespace Stamp

/-- The number of days of a month. -/
def monthDays (year month : Nat) : Nat :=
  if month = 2 then
    if year % 4 = 0 ∧ (year % 100 ≠ 0 ∨ year % 400 = 0) then 29 else 28
  else if month = 4 ∨ month = 6 ∨ month = 9 ∨ month = 11 then 30
  else 31

/-- The number of days of the years before a year. -/
def daysBefore (year : Nat) : Nat :=
  let y := year - 1
  365 * y + y / 4 - y / 100 + y / 400

/-- The number of days of the first months of a year. -/
def daysOfMonths (year : Nat) : Nat → Nat
  | 0 => 0
  | months + 1 => daysOfMonths year months + monthDays year (months + 1)

/-- The number of the day, counted from the first day of the calendar. -/
def dayNumber (s : Stamp) : Nat :=
  daysBefore s.year + daysOfMonths s.year (s.month - 1) + s.day

/-- The instant in millionths of a second, for a moment whose distance from universal time is
known. -/
def instant? (s : Stamp) : Option Int :=
  s.clock.bind fun c => c.offset.map fun offset =>
    let minutes := Int.ofNat ((s.dayNumber * 24 + c.hour) * 60 + c.minute) - offset
    (minutes * 60 + Int.ofNat c.second) * 1000000 + Int.ofNat c.micro

/-- Whether two stamps are the same: by their instants if those are known, else by their fields. -/
def same (a b : Stamp) : Bool :=
  match a.instant?, b.instant? with
  | some m, some n => m == n
  | none, none => a == b
  | _, _ => false

theorem same_refl (a : Stamp) : same a a = true := by
  unfold same
  cases a.instant? <;> simp

theorem same_comm (a b : Stamp) : same a b = same b a := by
  unfold same
  cases a.instant? <;> cases b.instant?
  · exact BEq.comm
  · rfl
  · rfl
  · exact BEq.comm

theorem same_trans {a b c : Stamp} (h : same a b = true) (k : same b c = true) :
    same a c = true := by
  unfold same at *
  cases ha : a.instant? <;> cases hb : b.instant? <;> cases hc : c.instant? <;> simp_all

end Stamp

end TaggedComments
