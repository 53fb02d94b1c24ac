import TaggedComments.Data.Basic
import TaggedComments.Number.Integer
import TaggedComments.Number.Shortest
import TaggedComments.Text.Quoted

/-!
# Values as text

Messages and reports show values in two ways.

- `Data.literal` shows a value as it would be written down: texts stand between quotes.
- `Data.isWritable` says whether its integers are short enough for that.
- `Data.display` shows a text as it is and everything else as its literal; a stamp is shown in
  the order year, month, day.
-/

namespace TaggedComments

/-- A number with leading zeros up to a width. -/
def padNumber (width n : Nat) : String :=
  let ds := Nat.toDigits 10 n
  String.ofList (List.replicate (width - ds.length) '0' ++ ds)

namespace Clock

/-- The distance from universal time: sign, hours and minutes. -/
def offsetText (offset : Int) : String :=
  (if offset < 0 then "-" else "+") ++ padNumber 2 (offset.natAbs / 60) ++ ":"
    ++ padNumber 2 (offset.natAbs % 60)

/-- Hours, minutes, seconds, the fraction if there is one, and the offset if it is known. -/
def display (c : Clock) : String :=
  padNumber 2 c.hour ++ ":" ++ padNumber 2 c.minute ++ ":" ++ padNumber 2 c.second
    ++ (if c.micro = 0 then "" else "." ++ padNumber 6 c.micro)
    ++ (match c.offset with
      | some o => offsetText o
      | none => "")

/-- A span of time as a literal: whole days downward and the seconds above them. -/
def spanLiteral (minutes : Int) : String :=
  let seconds := minutes * 60
  let days := Int.fdiv seconds 86400
  let rest := Int.fmod seconds 86400
  let parts := (if days = 0 then [] else ["days=" ++ toString days])
    ++ (if rest = 0 then [] else ["seconds=" ++ toString rest])
  "datetime.timedelta(" ++ ", ".intercalate parts ++ ")"

/-- The offset as a literal. -/
def offsetLiteral (offset : Int) : String :=
  if offset = 0 then "datetime.timezone.utc"
  else "datetime.timezone(" ++ spanLiteral offset ++ ")"

/-- The fields of a time as a literal lists them: trailing zero seconds are left out. -/
def literalFields (c : Clock) : List String :=
  let fields := [c.hour, c.minute]
    ++ (if c.second = 0 && c.micro = 0 then [] else [c.second])
    ++ (if c.micro = 0 then [] else [c.micro])
  fields.map toString ++ (match c.offset with
    | some o => ["tzinfo=" ++ offsetLiteral o]
    | none => [])

end Clock

namespace Stamp

/-- Year, month and day, and the time of day of a moment. -/
def display (s : Stamp) : String :=
  padNumber 4 s.year ++ "-" ++ padNumber 2 s.month ++ "-" ++ padNumber 2 s.day
    ++ (match s.clock with
      | some c => " " ++ c.display
      | none => "")

/-- The stamp as a literal. -/
def literal (s : Stamp) : String :=
  let day := [s.year, s.month, s.day].map toString
  match s.clock with
  | none => "datetime.date(" ++ ", ".intercalate day ++ ")"
  | some c => "datetime.datetime(" ++ ", ".intercalate (day ++ c.literalFields) ++ ")"

end Stamp

namespace Scalar

/-- The literal of a value without parts. -/
def literal : Scalar → String
  | null => "None"
  | bool b => if b then "True" else "False"
  | int n => toString n
  | real x => x.text
  | text s => Text.quotedString s
  | stamp s => s.literal
  | bytes b => String.ofList (Text.quotedBytes b)

/-- The text shown for a value without parts. -/
def display : Scalar → String
  | text s => s
  | stamp s => s.display
  | s => s.literal

end Scalar

namespace Data

/-- What stands for a collection inside of its own literal. -/
def elision : Data → String
  | .mapping _ => "\x7b...\x7d"
  | .pair _ _ => "(...)"
  | _ => "[...]"

mutual

/-- A value as it would be written down inside of knots with these names and elisions. -/
def literalIn (around : List (Nat × String)) : Data → String
  | .scalar s => s.literal
  | .list xs => "[" ++ ", ".intercalate (literalsIn around xs) ++ "]"
  | .mapping es => "\x7b" ++ ", ".intercalate (entryLiteralsIn around es) ++ "\x7d"
  | .set [] => "set()"
  | .set (x :: xs) =>
    "\x7b" ++ ", ".intercalate (literalIn around x :: literalsIn around xs) ++ "\x7d"
  | .pair a b => "(" ++ literalIn around a ++ ", " ++ literalIn around b ++ ")"
  | .knot n b =>
    match around.lookup n with
    | some shown => shown
    | none => literalIn ((n, b.elision) :: around) b
  | .again n => (around.lookup n).getD "..."
termination_by structural d => d

/-- The literals of several values. -/
def literalsIn (around : List (Nat × String)) : List Data → List String
  | [] => []
  | x :: xs => literalIn around x :: literalsIn around xs
termination_by structural d => d

/-- Keys and values of entries as literals. -/
def entryLiteralsIn (around : List (Nat × String)) : List (Data × Data) → List String
  | [] => []
  | (k, v) :: es => (literalIn around k ++ ": " ++ literalIn around v) :: entryLiteralsIn around es
termination_by structural d => d

end

/-- A value as it would be written down; a collection that stands inside of itself is elided. -/
def literal (d : Data) : String :=
  literalIn [] d

mutual

/-- Whether all integers of a value are short enough to be written. -/
def isWritable : Data → Bool
  | .scalar (.int n) => n.natAbs < Nat.pow 10 Integer.maxDigits
  | .scalar _ => true
  | .list xs => areWritable xs
  | .mapping es => areWritableEntries es
  | .set xs => areWritable xs
  | .pair a b => isWritable a && isWritable b
  | .knot _ b => isWritable b
  | .again _ => true
termination_by structural d => d

/-- Whether all integers of several values are short enough to be written. -/
def areWritable : List Data → Bool
  | [] => true
  | x :: xs => isWritable x && areWritable xs
termination_by structural d => d

/-- Whether all integers of entries are short enough to be written. -/
def areWritableEntries : List (Data × Data) → Bool
  | [] => true
  | (k, v) :: es => isWritable k && isWritable v && areWritableEntries es
termination_by structural d => d

end

@[simp] theorem isWritable_text (s : String) : isWritable (.text s) = true := rfl

/-- A value as a report shows it. -/
def display : Data → String
  | .scalar s => s.display
  | d => d.literal

@[simp] theorem display_text (s : String) : display (.text s) = s := rfl

end Data

end TaggedComments
