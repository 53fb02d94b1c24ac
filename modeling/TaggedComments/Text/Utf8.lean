import TaggedComments.Failure

/-!
# UTF-8

Text is stored in bytes by UTF-8. Reading bytes as text can be strict, and then says where the
first fault is, or lenient, and then puts a replacement character for every longest start of a
character that goes on wrongly.

- `encode` stores a text.
- `decode` is the strict reading, `decodePart` that of bytes that others follow.
- `decodeLossy` is the lenient reading.
-/

namespace TaggedComments.Text.Utf8

/-- The bytes of a character. -/
def encodeChar (c : Char) : List Nat :=
  let n := c.toNat
  if n < 0x80 then [n]
  else if n < 0x800 then [0xc0 + n / 64, 0x80 + n % 64]
  else if n < 0x10000 then [0xe0 + n / 4096, 0x80 + n / 64 % 64, 0x80 + n % 64]
  else [0xf0 + n / 262144, 0x80 + n / 4096 % 64, 0x80 + n / 64 % 64, 0x80 + n % 64]

/-- The bytes of a text. -/
def encode (s : List Char) : List Nat :=
  s.flatMap encodeChar

/-- What a first byte announces: the bits that it gives, the range of the second byte, and the
number of bytes after the first. -/
def lead? (b : Nat) : Option (Nat × (Nat × Nat) × Nat) :=
  if b < 0xc2 then none
  else if b < 0xe0 then some (b - 0xc0, (0x80, 0xbf), 1)
  else if b < 0xf0 then
    some (b - 0xe0, (if b = 0xe0 then 0xa0 else 0x80, if b = 0xed then 0x9f else 0xbf), 2)
  else if b < 0xf5 then
    some (b - 0xf0, (if b = 0xf0 then 0x90 else 0x80, if b = 0xf4 then 0x8f else 0xbf), 3)
  else none

/-- The continuation of a character: its number and the bytes after it, or the fault and the number
of bytes that were right. -/
def continuation : (value : Nat) → (range : Nat × Nat) → (count : Nat) → List Nat →
    Except (ByteFault × Nat) (Nat × List Nat)
  | value, _, 0, bytes => .ok (value, bytes)
  | _, _, _ + 1, [] => .error (.truncated, 0)
  | value, range, count + 1, b :: bytes =>
    if range.1 ≤ b && b ≤ range.2 then
      match continuation (value * 64 + (b - 0x80)) (0x80, 0xbf) count bytes with
      | .ok x => .ok x
      | .error (f, n) => .error (f, n + 1)
    else .error (.continuation, 0)

/-- The first character of bytes that are not empty, and the bytes after it; or the fault and the
number of bytes that belong to it. -/
def readChar (b : Nat) (bytes : List Nat) : Except (ByteFault × Nat) (Char × List Nat) :=
  if b < 0x80 then .ok (Char.ofNat b, bytes)
  else
    match lead? b with
    | none => .error (.start, 1)
    | some (bits, range, count) =>
      match continuation bits range count bytes with
      | .ok (n, rest) => .ok (Char.ofNat n, rest)
      | .error (f, n) => .error (f, n + 1)

/-- Read bytes as text from a position on; the fuel bounds the number of characters. -/
def decodeFrom : Nat → (position : Nat) → List Nat → Except Failure (List Char)
  | 0, _, _ => .ok []
  | _, _, [] => .ok []
  | fuel + 1, position, b :: bytes =>
    match readChar b bytes with
    | .ok (c, rest) =>
      (decodeFrom fuel (position + (encodeChar c).length) rest).map (c :: ·)
    | .error (f, n) => .error (.undecodable b position (position + n - 1) f)

/-- Read bytes as text; the first fault is the failure. -/
def decode (bytes : List Nat) : Except Failure (List Char) :=
  decodeFrom bytes.length 0 bytes

/-- Read bytes as text from a position on, up to a character that is not complete; the fuel bounds
the number of characters. -/
def decodePartFrom : Nat → (position : Nat) → List Nat → Except Failure (List Char × List Nat)
  | 0, _, bytes => .ok ([], bytes)
  | _, _, [] => .ok ([], [])
  | fuel + 1, position, b :: bytes =>
    match readChar b bytes with
    | .ok (c, rest) =>
      (decodePartFrom fuel (position + (encodeChar c).length) rest).map fun x => (c :: x.1, x.2)
    | .error (.truncated, _) => .ok ([], b :: bytes)
    | .error (f, n) => .error (.undecodable b position (position + n - 1) f)

/-- Read bytes that others follow as text: the characters, and the bytes of a character that is not
complete. -/
def decodePart (bytes : List Nat) : Except Failure (List Char × List Nat) :=
  decodePartFrom bytes.length 0 bytes

/-- Read bytes as text with replacement characters; the fuel bounds the number of characters. -/
def decodeLossyFrom : Nat → List Nat → List Char
  | 0, _ => []
  | _, [] => []
  | fuel + 1, b :: bytes =>
    match readChar b bytes with
    | .ok (c, rest) => c :: decodeLossyFrom fuel rest
    | .error (_, n) => '\ufffd' :: decodeLossyFrom fuel ((b :: bytes).drop n)

/-- Read bytes as text; what is not text becomes replacement characters. -/
def decodeLossy (bytes : List Nat) : List Char :=
  decodeLossyFrom bytes.length bytes

end TaggedComments.Text.Utf8
