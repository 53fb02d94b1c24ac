import TaggedComments.Data.Access
import TaggedComments.Number.Decimal
import TaggedComments.Text.Lower
import TaggedComments.Yaml.Kind

/-!
# Numbers of scalars

A scalar that stands for a number may group its digits by underscores, name its base by its first
digits, and count in sixties between colons.

- `intOf` is the integer of a scalar, `realOf` its floating point number.
-/

namespace TaggedComments.Yaml

/-- The text without its underscores. -/
def ungrouped (text : String) : List Char :=
  text.toList.filter (· != '_')

/-- The value of a digit of a base up to thirty-six. -/
def baseDigit? (base : Nat) (c : Char) : Option Nat :=
  let value := match Text.digitValue? c with
    | some d => some d
    | none =>
      if c.isLower then some (c.toNat - 87)
      else if c.isUpper then some (c.toNat - 55)
      else none
  value.filter (· < base)

/-- The letter that may stand after a zero in front of the digits of a base. -/
def baseLetter (base : Nat) : Option Char :=
  if base = 2 then some 'b' else if base = 8 then some 'o' else if base = 16 then some 'x' else none

/-- An integer of a base that is a power of two, with white space around it. -/
def readBase (base : Nat) (text : List Char) : Except Failure Int :=
  let s := Text.dropRightWhile Integer.isPadding (text.dropWhile Integer.isPadding)
  let (negative, s) := Binary64.splitSign s
  let s := match s with
    | '0' :: c :: r => if some c.toLower = baseLetter base then r else s
    | s => s
  match s.mapM (baseDigit? base) with
  | some (d :: ds) =>
    let n := Int.ofNat ((d :: ds).foldl (fun n d => base * n + d) 0)
    .ok (if negative then -n else n)
  | _ => .error (.badInteger base (String.ofList text))

/-- A decimal integer. -/
def readDecimal (text : List Char) : Except Failure Int :=
  Data.toInt (.text (String.ofList text))

/-- An integer without the sign in front of it. -/
def magnitude (s : List Char) : Except Failure Int :=
  match s with
  | [] => .error .emptyNumber
  | ['0'] => .ok 0
  | '0' :: 'b' :: r => readBase 2 r
  | '0' :: 'x' :: r => readBase 16 r
  | '0' :: _ => readBase 8 s
  | _ =>
    if s.contains ':' then do
      let parts ← (Text.splitOn ':' s).mapM readDecimal
      return parts.foldl (fun n d => 60 * n + d) 0
    else readDecimal s

/-- The integer of a scalar. -/
def intOf (text : String) : Except Failure Int :=
  let s := ungrouped text
  if s.isEmpty then .error .emptyNumber
  else
    let (negative, s) := Binary64.splitSign s
    (magnitude s).map fun n => if negative then -n else n

/-- A floating point number as it is written. -/
def readReal (text : List Char) : Except Failure Binary64 :=
  match Binary64.read? text with
  | some x => .ok x
  | none =>
    .error (.badValue ("could not convert string to float: "
      ++ Text.quotedString (String.ofList text)))

/-- Numbers that count in sixties, the ones first; `unit` is what the first counts. -/
def sumSixties : (unit : Nat) → (sum : Binary64) → List Binary64 → Except Failure Binary64
  | _, sum, [] => .ok sum
  | unit, sum, x :: xs =>
    match x.times? unit with
    | some y => sumSixties (unit * 60) (sum.add y) xs
    | none => .error .tooLarge

/-- The floating point number of a scalar. -/
def realOf (text : String) : Except Failure Binary64 :=
  let s := Text.lower (ungrouped text)
  if s.isEmpty then .error .emptyNumber
  else
    let (negative, s) := Binary64.splitSign s
    let number : Except Failure Binary64 :=
      if s = ['.', 'i', 'n', 'f'] then .ok (.infinite false)
      else if s = ['.', 'n', 'a', 'n'] then .ok .nan
      else if s.contains ':' then do
        let parts ← (Text.splitOn ':' s).mapM readReal
        sumSixties 1 (.finite false 0 0) parts.reverse
      else readReal s
    number.map fun x => if negative then x.negate else x

end TaggedComments.Yaml
