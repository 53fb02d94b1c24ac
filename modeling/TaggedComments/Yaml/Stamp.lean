import TaggedComments.Yaml.Source

/-!
# Days and moments

A scalar may name a day, or a moment of it: year, month and day with hyphens, after a letter or
blanks the time of day, and after that the distance from universal time.

- `StampText` holds the numbers of such a scalar, `StampText.read?` takes them apart.
- `StampText.stamp` checks them against the calendar.
-/

namespace TaggedComments.Yaml

/-- The distance from universal time as it is written. -/
structure ZoneText where
  /-- Whether it lies west. -/
  west : Bool
  /-- The hours. -/
  hours : Nat
  /-- The minutes. -/
  minutes : Nat

/-- The time of day as it is written. -/
structure ClockText where
  /-- The hour. -/
  hour : Nat
  /-- The minute. -/
  minute : Nat
  /-- The second. -/
  second : Nat
  /-- The digits of the fraction. -/
  fraction : List Char
  /-- The distance from universal time, if it is written. -/
  zone : Option ZoneText

/-- A day or a moment as it is written. -/
structure StampText where
  /-- The year. -/
  year : Nat
  /-- The month. -/
  month : Nat
  /-- The day of the month. -/
  day : Nat
  /-- The time of day, if it is written. -/
  clock : Option ClockText

/-- The number that decimal digits stand for. -/
def digitsValue (ds : List Char) : Nat :=
  ds.foldl (fun n c => 10 * n + (c.toNat - 48)) 0

/-- A number of at least and at most so many digits in front. -/
def numberAt? (least most : Nat) (s : List Char) : Option (Nat × List Char) :=
  let ds := (s.take most).takeWhile Char.isDigit
  if ds.length < least then none else some (digitsValue ds, s.drop ds.length)

/-- The text after a character. -/
def after? (c : Char) : List Char → Option (List Char)
  | [] => none
  | d :: s => if d = c then some s else none

namespace StampText

/-- The distance from universal time up to the end of the text. -/
def zone? (s : List Char) : Option (Option ZoneText) :=
  match s.dropWhile isBlank with
  | [] => if s.isEmpty then some none else none
  | ['Z'] => some (some ⟨false, 0, 0⟩)
  | c :: r =>
    if c == '+' || c == '-' then do
      let (hours, r) ← numberAt? 1 2 r
      if r.isEmpty then return some ⟨c == '-', hours, 0⟩
      else
        let r ← after? ':' r
        let (minutes, r) ← numberAt? 2 2 r
        if r.isEmpty then return some ⟨c == '-', hours, minutes⟩ else none
    else none

/-- The time of day up to the end of the text. -/
def clock? (s : List Char) : Option ClockText := do
  let (hour, s) ← numberAt? 1 2 s
  let s ← after? ':' s
  let (minute, s) ← numberAt? 2 2 s
  let s ← after? ':' s
  let (second, s) ← numberAt? 2 2 s
  let (fraction, s) := match s with
    | '.' :: r => r.span Char.isDigit
    | _ => ([], s)
  let zone ← zone? s
  return ⟨hour, minute, second, fraction, zone⟩

/-- Take a day or a moment apart. -/
def read? (s : List Char) : Option StampText := do
  let (year, s) ← numberAt? 4 4 s
  let s ← after? '-' s
  let (month, s) ← numberAt? 1 2 s
  let s ← after? '-' s
  let (day, s) ← numberAt? 1 2 s
  match s with
  | [] => return ⟨year, month, day, none⟩
  | c :: r =>
    if c == 'T' || c == 't' then
      let clock ← clock? r
      return ⟨year, month, day, some clock⟩
    else if isBlank c then
      let clock ← clock? (r.dropWhile isBlank)
      return ⟨year, month, day, some clock⟩
    else none

/-- Whether a scalar is a day or a moment without being told so: a day alone has two digits for its
month and two for its day. -/
def isWritten (s : List Char) : Bool :=
  match read? s with
  | none => false
  | some t => t.clock.isSome || s.length == 10

/-- Refuse a scalar with a message unless a condition holds. -/
def require (condition : Bool) (message : String) : Except Failure Unit :=
  if condition then .ok () else .error (.badValue message)

/-- The minutes of a distance, which is less than a day. -/
def offset (z : ZoneText) : Except Failure Int := do
  let minutes := Int.ofNat (z.hours * 60 + z.minutes)
  let minutes := if z.west then -minutes else minutes
  require (minutes.natAbs < 1440)
    ("offset must be a timedelta strictly between -timedelta(hours=24) and "
      ++ "timedelta(hours=24), not " ++ Clock.spanLiteral minutes ++ ".")
  return minutes

/-- Millionths from the digits of a fraction; further digits do not count. -/
def micro (fraction : List Char) : Nat :=
  let ds := fraction.take 6
  digitsValue ds * Nat.pow 10 (6 - ds.length)

/-- The day or moment, if the calendar has it. -/
def stamp (t : StampText) : Except Failure Stamp := do
  let offset ← match t.clock.bind (·.zone) with
    | some z => (offset z).map some
    | none => .ok none
  require (1 ≤ t.year) ("year " ++ toString t.year ++ " is out of range")
  require (1 ≤ t.month && t.month ≤ 12) "month must be in 1..12"
  require (1 ≤ t.day && t.day ≤ Stamp.monthDays t.year t.month) "day is out of range for month"
  match t.clock with
  | none => return ⟨t.year, t.month, t.day, none⟩
  | some c =>
    require (c.hour ≤ 23) "hour must be in 0..23"
    require (c.minute ≤ 59) "minute must be in 0..59"
    require (c.second ≤ 59) "second must be in 0..59"
    return ⟨t.year, t.month, t.day, some ⟨c.hour, c.minute, c.second, micro c.fraction, offset⟩⟩

end StampText

end TaggedComments.Yaml
