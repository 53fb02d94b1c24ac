import TaggedComments.Text.Blank
import TaggedComments.Text.Digit

/-!
# Integers in text

An integer is written with decimal digits of any script, a sign in front if need be, single
underscores between digits, and white space around it.

- `readInt` reads one and says what is wrong otherwise.
- `maxDigits` limits the number of digits.
-/

namespace TaggedComments

/-- Why a text is not an integer. -/
inductive IntegerFault where
  /-- It has another form. -/
  | malformed
  /-- It has more digits than are read. -/
  | tooManyDigits (count : Nat)
  deriving DecidableEq

namespace Integer

/-- The largest number of digits that is read. -/
def maxDigits : Nat := 4300

/-- White space that may stand around an integer: all of it but the four information
separators of ASCII. -/
def isPadding (c : Char) : Bool :=
  Text.isSpace c && !(28 ≤ c.toNat && c.toNat ≤ 31)

/-- The digits at the front, single underscores between them left out, and the rest. -/
def takeDigits : List Char → List Nat × List Char
  | [] => ([], [])
  | c :: s =>
    match Text.digitValue? c with
    | some d =>
      let (ds, rest) := takeDigits s
      (d :: ds, rest)
    | none =>
      match c, s with
      | '_', c' :: s' =>
        match Text.digitValue? c' with
        | some d =>
          let (ds, rest) := takeDigits s'
          (d :: ds, rest)
        | none => ([], c :: s)
      | _, _ => ([], c :: s)

/-- The number that decimal digits stand for. -/
def ofDigits (ds : List Nat) : Nat :=
  ds.foldl (fun n d => 10 * n + d) 0

/-- A natural number at the front, with nothing after it. -/
def readNat (s : List Char) : Except IntegerFault Nat :=
  let (ds, rest) := takeDigits s
  if maxDigits < ds.length then .error (.tooManyDigits ds.length)
  else if s.head? == some '_' || ds.isEmpty || !rest.isEmpty then .error .malformed
  else .ok (ofDigits ds)

/-- Read an integer. -/
def readInt (s : List Char) : Except IntegerFault Int :=
  match Text.dropRightWhile isPadding (s.dropWhile isPadding) with
  | '-' :: r => (readNat r).map fun n => -Int.ofNat n
  | '+' :: r => (readNat r).map Int.ofNat
  | r => (readNat r).map Int.ofNat

end Integer

end TaggedComments
