/-!
# Base 64

Bytes are written with sixty-four characters, four for three bytes, and padded with equals signs.
Other characters between them do not count.

- `decode?` reads bytes.
-/

namespace TaggedComments.Text.Base64

/-- The six bits of a character. -/
def value? (c : Char) : Option Nat :=
  if c.isUpper then some (c.toNat - 65)
  else if c.isLower then some (c.toNat - 71)
  else if c.isDigit then some (c.toNat + 4)
  else if c == '+' then some 62
  else if c == '/' then some 63
  else none

/-- Read bytes: `place` is the number of characters of the group so far, `left` the bits that no
byte holds yet, and `pads` the number of equals signs just before. A group that is padded in full
ends the bytes. -/
def decodeFrom : (place left pads : Nat) → List Char → Option (List Nat)
  | place, _, _, [] => if place = 0 then some [] else none
  | place, left, pads, c :: s =>
    if c == '=' then
      if 2 ≤ place then
        if 4 ≤ place + pads + 1 then some [] else decodeFrom place left (pads + 1) s
      else decodeFrom place left pads s
    else
      match value? c with
      | none => decodeFrom place left pads s
      | some v =>
        match place with
        | 0 => decodeFrom 1 v 0 s
        | 1 => (decodeFrom 2 (v % 16) 0 s).map ((left * 4 + v / 16) :: ·)
        | 2 => (decodeFrom 3 (v % 4) 0 s).map ((left * 16 + v / 4) :: ·)
        | _ => (decodeFrom 0 0 0 s).map ((left * 64 + v) :: ·)

/-- Read bytes; a group that is not complete has none. -/
def decode? (s : List Char) : Option (List Nat) :=
  decodeFrom 0 0 0 s

end TaggedComments.Text.Base64
