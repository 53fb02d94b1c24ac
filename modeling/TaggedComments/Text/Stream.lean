import TaggedComments.Text.Lines
import TaggedComments.Text.Utf8

/-!
# Text in pieces

A long file is read in pieces: some bytes are taken and decoded, and the characters wait until
they are asked for. A character that is cut at the end of a piece is completed by the next one, and
so is a line end of two characters. Where bytes are no text, the failure comes with the piece that
holds them, and positions count from the start of that piece.

- `Stream` is a file that is being read.
- `Stream.readPiece` decodes the next bytes, `Stream.read` takes characters.
- `Stream.read_length_le` says that no more characters are taken than were asked for.
-/

namespace TaggedComments.Text

/-- Bytes that are read as text in pieces. -/
structure Stream where
  /-- The bytes that are left. -/
  bytes : List Nat
  /-- The first bytes of a character that the last piece did not complete. -/
  begun : List Nat := []
  /-- Whether a carriage return at the end of the last piece waits for what follows it. -/
  held : Bool := false
  /-- Characters that are decoded and not yet taken. -/
  waiting : List Char := []
  /-- The number of bytes of the last piece. -/
  lastBytes : Nat := 0
  /-- The number of characters of the last piece. -/
  lastChars : Nat := 0

namespace Stream

/-- The least number of bytes of a piece. -/
def pieceSize : Nat := 8192

/-- The number of bytes to read for some characters, judged by the last piece. -/
def sizeFor (s : Stream) (wanted : Nat) : Nat :=
  max pieceSize (max wanted (if s.lastChars = 0 then 0 else s.lastBytes * wanted / s.lastChars))

/-- The characters of a piece and the first bytes of the next; the last piece has to be complete. -/
def decodePiece (isLast : Bool) (bytes : List Nat) : Except Failure (List Char × List Nat) :=
  if isLast then (Utf8.decode bytes).map fun cs => (cs, []) else Utf8.decodePart bytes

/-- The characters of a piece with its line ends unified, and whether a carriage return at its end
waits for the next piece. -/
def lineEnds (isLast held : Bool) (cs : List Char) : List Char × Bool :=
  if cs.isEmpty && !isLast then ([], held)
  else
    let cs := if held then '\r' :: cs else cs
    if !isLast && cs.getLast? == some '\r' then (unifyLineEnds cs.dropLast, true)
    else (unifyLineEnds cs, false)

/-- Decode the next bytes, when some characters are wanted; whether there was anything left. -/
def readPiece (s : Stream) (wanted : Nat) : Except Failure (Bool × Stream) := do
  let size := s.sizeFor wanted
  let piece := s.bytes.take size
  let isLast := piece.isEmpty
  let (cs, begun) ← decodePiece isLast (s.begun ++ piece)
  let (cs, held) := lineEnds isLast s.held cs
  return (!isLast || !cs.isEmpty, {
    bytes := s.bytes.drop size, begun, held, waiting := cs
    lastBytes := piece.length, lastChars := cs.length })

/-- Take characters, as many as there are up to a number; the fuel bounds the number of pieces. -/
def readFrom : Nat → (wanted : Nat) → Stream → Except Failure (List Char × Stream)
  | 0, _, s => .ok ([], s)
  | fuel + 1, wanted, s =>
    let taken := s.waiting.take wanted
    let s := { s with waiting := s.waiting.drop wanted }
    if taken.length = wanted then .ok (taken, s)
    else
      match s.readPiece (wanted - taken.length) with
      | .error e => .error e
      | .ok (false, s) => .ok (taken, s)
      | .ok (true, s) =>
        (readFrom fuel (wanted - taken.length) s).map fun x => (taken ++ x.1, x.2)

/-- Take characters, as many as there are up to a number. -/
def read (wanted : Nat) (s : Stream) : Except Failure (List Char × Stream) :=
  readFrom (s.bytes.length + 3) wanted s

private theorem readFrom_length_le {fuel wanted : Nat} {s t : Stream} {cs : List Char}
    (h : readFrom fuel wanted s = .ok (cs, t)) : cs.length ≤ wanted := by
  induction fuel generalizing wanted s t cs with
  | zero => cases h; simp
  | succ fuel ih =>
    have hl : (s.waiting.take wanted).length ≤ wanted := by
      rw [List.length_take]
      exact Nat.min_le_left _ _
    simp only [readFrom] at h
    split at h
    · cases h; exact hl
    · split at h
      · cases h
      · cases h; exact hl
      · rename_i s' _
        cases hr : readFrom fuel (wanted - (s.waiting.take wanted).length) s' with
        | error e => rw [hr] at h; cases h
        | ok x =>
          rw [hr] at h
          cases h
          have := ih hr
          rw [List.length_append]
          omega

/-- No more characters are taken than were asked for. -/
theorem read_length_le {wanted : Nat} {s t : Stream} {cs : List Char}
    (h : s.read wanted = .ok (cs, t)) : cs.length ≤ wanted :=
  readFrom_length_le h

end Stream

end TaggedComments.Text
