import TaggedComments.Number.Binary64

/-!
# Shortest decimal text

A number is written with the fewest decimal digits that read back as the same number, and among
those the digits nearest to it.

- `shortestDigits` finds the digits and their exponent.
- `Binary64.text` lays them out: positionally while the point lies near the digits, else with an
  exponent of at least two digits.
-/

namespace TaggedComments.Binary64

/-- The decimal exponent of the leading digit of a positive fraction. -/
def leadingDecimal (num den : Nat) : Int :=
  if num ≥ den then Int.ofNat (decimalLength (num / den)) - 1
  else -Int.ofNat (decimalLength ((den - 1) / num))

/-- The two neighbours of a fraction on the grid of multiples of `10 ^ k`, the nearer first. -/
def gridNeighbours (num den : Nat) (k : Int) : List Nat :=
  let (a, b) := if k ≥ 0 then (num, den * Nat.pow 10 k.toNat)
    else (num * Nat.pow 10 (-k).toNat, den)
  let low := a / b
  let r := a % b
  if 2 * r < b || (2 * r == b && low % 2 == 0) then [low, low + 1] else [low + 1, low]

/-- Search the grids of `count` digits and more for a neighbour that reads back. -/
def searchDigits (target : Binary64) (num den : Nat) : (count room : Nat) → Nat × Int
  | _, 0 => (num / den, 0)
  | count, room + 1 =>
    let k := leadingDecimal num den - Int.ofNat count + 1
    match (gridNeighbours num den k).find? fun d => ofDecimal false d k == target with
    | some d => (d, k)
    | none => searchDigits target num den (count + 1) room

/-- The fewest digits `d` and the exponent `k` such that `d · 10 ^ k` reads back as the positive
number `m · 2 ^ e`. -/
def shortestDigits (m : Nat) (e : Int) : Nat × Int :=
  let (num, den) := unscale m 1 (-e)
  let (d, k) := searchDigits (.finite false m e) num den 1 17
  dropZeros d k 17
where
  /-- Move trailing zeros of the digits into the exponent. -/
  dropZeros (d : Nat) (k : Int) : Nat → Nat × Int
    | 0 => (d, k)
    | n + 1 => if d ≠ 0 && d % 10 == 0 then dropZeros (d / 10) (k + 1) n else (d, k)

/-- The point is written among the digits while it stands at most four places before the first
and at most sixteen places after it. -/
def layOut (digits : List Char) (exponent : Int) : List Char :=
  let point := exponent + Int.ofNat digits.length
  if -4 < point && point ≤ 0 then
    '0' :: '.' :: List.replicate (-point).toNat '0' ++ digits
  else if 0 < point && point ≤ 16 then
    let n := point.toNat
    if digits.length ≤ n then digits ++ List.replicate (n - digits.length) '0' ++ ['.', '0']
    else digits.take n ++ '.' :: digits.drop n
  else
    let e := point - 1
    let size := Nat.toDigits 10 e.natAbs
    let mantissa := match digits with
      | [] => []
      | [d] => [d]
      | d :: ds => d :: '.' :: ds
    mantissa ++ 'e' :: (if e < 0 then '-' else '+') ::
      (if size.length < 2 then '0' :: size else size)

/-- The text of a number. -/
def text : Binary64 → String
  | .nan => "nan"
  | .infinite negative => if negative then "-inf" else "inf"
  | .finite negative m e =>
    let body := if m = 0 then ['0', '.', '0']
      else
        let (d, k) := shortestDigits m e
        layOut (Nat.toDigits 10 d) k
    String.ofList (if negative then '-' :: body else body)

end TaggedComments.Binary64
