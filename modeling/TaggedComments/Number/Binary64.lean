/-!
# Binary floating point numbers

Numbers of 53 significant bits, kept as exact integers: a finite number is `± m · 2 ^ e`, where
`m` has 53 bits or `e` is the least exponent.

- `ofRatio` and `ofDecimal` round a fraction and a decimal to the nearest number, a tie to the
  even one; too large a value becomes infinite.
- `value?` is the exact value of a finite number: the zeros agree.
- `truncate?` is the integer part of a finite number.
-/

namespace TaggedComments

/-- A binary floating point number of double width. -/
inductive Binary64 where
  /-- Not a number. -/
  | nan
  /-- An infinity and its sign. -/
  | infinite (negative : Bool)
  /-- `± mantissa · 2 ^ exponent`. -/
  | finite (negative : Bool) (mantissa : Nat) (exponent : Int)
  deriving DecidableEq, Inhabited

namespace Binary64

/-- The number of bits of a mantissa. -/
def precision : Nat := 53

/-- The exponent of the smallest steps. -/
def minExponent : Int := -1074

/-- The largest exponent of a mantissa of full width. -/
def maxExponent : Int := 971

/-- The quotient rounded to the nearest integer, a tie to the even one. -/
def divNearest (num den : Nat) : Nat :=
  let q := num / den
  let r := num % den
  if 2 * r < den then q
  else if den < 2 * r then q + 1
  else if q % 2 == 0 then q else q + 1

/-- The fraction `num / den` divided by `2 ^ e`, again as a fraction. -/
def unscale (num den : Nat) (e : Int) : Nat × Nat :=
  if e ≥ 0 then (num, den * Nat.pow 2 e.toNat) else (num * Nat.pow 2 (-e).toNat, den)

/-- The exponent of the leading bit of a positive fraction. -/
def leadingExponent (num den : Nat) : Int :=
  let e : Int := Int.ofNat num.log2 - Int.ofNat den.log2
  let scaled := unscale num den e
  if scaled.1 < scaled.2 then e - 1 else e

/-- The number nearest to a fraction with a positive denominator. -/
def ofRatio (negative : Bool) (num den : Nat) : Binary64 :=
  if num = 0 then .finite negative 0 0
  else
    let e := max (leadingExponent num den - Int.ofNat (precision - 1)) minExponent
    let scaled := unscale num den e
    let m := divNearest scaled.1 scaled.2
    if m = 0 then .finite negative 0 0
    else
      let (m, e) := if m = Nat.pow 2 precision then (Nat.pow 2 (precision - 1), e + 1) else (m, e)
      if maxExponent < e then .infinite negative else .finite negative m e

/-- The number of decimal digits, none for zero. -/
def decimalLength (n : Nat) : Nat :=
  if n = 0 then 0 else (Nat.toDigits 10 n).length

/-- The number nearest to `digits · 10 ^ exponent`. Values whose size alone decides the answer
are settled without the power. -/
def ofDecimal (negative : Bool) (digits : Nat) (exponent : Int) : Binary64 :=
  let size := Int.ofNat (decimalLength digits) + exponent
  if digits = 0 || size < -400 then .finite negative 0 0
  else if 400 < size then .infinite negative
  else if exponent ≥ 0 then ofRatio negative (digits * Nat.pow 10 exponent.toNat) 1
  else ofRatio negative digits (Nat.pow 10 (-exponent).toNat)

/-- Whether the number is zero. -/
def isZero : Binary64 → Bool
  | .finite _ 0 _ => true
  | _ => false

/-- The exact value of a finite number. -/
def value? : Binary64 → Option Rat
  | .finite negative m e =>
    let (num, den) := unscale m 1 (-e)
    some (mkRat (if negative then -Int.ofNat num else Int.ofNat num) den)
  | _ => none

/-- The integer part, toward zero; none of an infinity and none of a NaN. -/
def truncate? : Binary64 → Option Int
  | .finite negative m e =>
    let n : Nat := if e ≥ 0 then m * Nat.pow 2 e.toNat else m / Nat.pow 2 (-e).toNat
    some (if negative then -Int.ofNat n else Int.ofNat n)
  | _ => none

/-- The number with the other sign. -/
def negate : Binary64 → Binary64
  | .nan => .nan
  | .infinite s => .infinite !s
  | .finite s m e => .finite (!s) m e

end Binary64

end TaggedComments
