import TaggedComments.Number.Binary64
import TaggedComments.Number.Integer

/-!
# Floating point numbers in text

A number is written with decimal digits of any script, a point and an exponent if need be, or
with the word for an infinity or for a NaN.

- `Binary64.read?` reads a number.
- `Binary64.add` and `Binary64.times` are the sum of two numbers and the multiple of one, rounded.
-/

namespace TaggedComments.Binary64

/-- The decimal digits in front, of any script, and the text after them. -/
def digitRun : List Char → List Nat × List Char
  | [] => ([], [])
  | c :: s =>
    match Text.digitValue? c with
    | some d =>
      let (ds, rest) := digitRun s
      (d :: ds, rest)
    | none => ([], c :: s)

/-- Whether a sign in front is a minus, and the text after the sign. -/
def splitSign : List Char → Bool × List Char
  | [] => (false, [])
  | c :: s => if c == '-' then (true, s) else if c == '+' then (false, s) else (false, c :: s)

/-- The exponent up to the end of the text; none is zero. -/
def exponent? : List Char → Option Int
  | [] => some 0
  | c :: s =>
    if c == 'e' || c == 'E' then
      let (negative, r) := splitSign s
      match digitRun r with
      | ([], _) => none
      | (ds, []) =>
        let n := Int.ofNat (Integer.ofDigits ds)
        some (if negative then -n else n)
      | _ => none
    else none

/-- A decimal number up to the end of the text. -/
def decimal? (negative : Bool) (s : List Char) : Option Binary64 :=
  let (whole, rest) := digitRun s
  let (fraction, rest) := match rest with
    | '.' :: r => digitRun r
    | r => ([], r)
  let digits := whole ++ fraction
  if digits.isEmpty then none
  else
    (exponent? rest).map fun e =>
      ofDecimal negative (Integer.ofDigits digits) (e - Int.ofNat fraction.length)

/-- Read a number with white space around it. -/
def read? (text : List Char) : Option Binary64 :=
  let s := Text.dropRightWhile Integer.isPadding (text.dropWhile Integer.isPadding)
  let (negative, s) := splitSign s
  let word := String.ofList (s.map Char.toLower)
  if word = "inf" || word = "infinity" then some (.infinite negative)
  else if word = "nan" then some .nan
  else decimal? negative s

/-- The number nearest to `± n · 2 ^ e`. -/
def ofScaled (negative : Bool) (n : Nat) (e : Int) : Binary64 :=
  let (num, den) := unscale n 1 (-e)
  ofRatio negative num den

/-- The sum of two numbers. -/
def add : Binary64 → Binary64 → Binary64
  | .nan, _ => .nan
  | _, .nan => .nan
  | .infinite s, .infinite t => if s = t then .infinite s else .nan
  | .infinite s, .finite .. => .infinite s
  | .finite .., .infinite t => .infinite t
  | .finite s m e, .finite t n f =>
    let k := min e f
    let scaled (negative : Bool) (m : Nat) (e : Int) : Int :=
      let a := Int.ofNat (m * Nat.pow 2 (e - k).toNat)
      if negative then -a else a
    let sum := scaled s m e + scaled t n f
    if sum = 0 then .finite (s && t) 0 0 else ofScaled (sum < 0) sum.natAbs k

/-- A positive multiple of a number: none if the factor is too large for a number of its own. -/
def times? (factor : Nat) (x : Binary64) : Option Binary64 :=
  match ofRatio false factor 1 with
  | .finite _ n f =>
    match x with
    | .finite s m e => some (ofScaled s (m * n) (e + f))
    | x => some x
  | _ => none

end TaggedComments.Binary64
