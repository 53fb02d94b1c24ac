import TaggedComments.Failure

/-!
# Places in a YAML text

A text is read from left to right with a place that counts lines and columns, for indentation
carries meaning. Line ends are line feeds by the time a text is read here; besides them the next
line mark and the two Unicode separators end a line.

A text may stop where it cannot be read on. What is wrong there counts when that place is reached,
so that a fault before it comes first.

- `Source` is the rest of a text with its place; the end reads as the character zero. The next
  character of a source has always been reached.
- `Source.reach` refuses places that cannot be read.
- `Source.advance`, `Source.span` and `Source.lineBreak` move on.
- `Fault` says whether a text is malformed or fails otherwise.
-/

namespace TaggedComments.Yaml

/-- Why a text has no value. -/
inductive Fault where
  /-- It is not YAML, or it uses a tag or an alias that nothing defines. -/
  | malformed
  /-- A part of it cannot be read, or a scalar in it has no value. -/
  | failure (f : Failure)

/-- The rest of a text and its place. -/
structure Source where
  /-- The rest of the text. -/
  rest : List Char
  /-- What keeps the text after that from being read, if it does not end there. -/
  barrier : Option Fault
  /-- The number of characters of the whole text. -/
  size : Nat
  /-- The number of characters before it. -/
  index : Nat
  /-- The number of lines before it. -/
  line : Nat
  /-- The number of characters before it on its line; byte order marks do not count. -/
  column : Nat

/-- What reads as the end of the text. -/
def endMark : Char := '\x00'

/-- Whether the character ends a line. -/
def isBreak (c : Char) : Bool :=
  c == '\n' || c == '\x85' || c == '\u2028' || c == '\u2029'

/-- Whether a line ends here. -/
def isBreakOrEnd (c : Char) : Bool :=
  isBreak c || c == endMark

/-- Whether the character is a blank or a tab. -/
def isBlank (c : Char) : Bool :=
  c == ' ' || c == '\t'

/-- Whether a word ends here. -/
def isBlankOrEnd (c : Char) : Bool :=
  isBlank c || isBreakOrEnd c

/-- Whether a word ends here, tabs being part of words. -/
def isSpaceOrEnd (c : Char) : Bool :=
  c == ' ' || isBreakOrEnd c

/-- Whether the character may stand in the name of an anchor, a directive or a tag handle. -/
def isNameChar (c : Char) : Bool :=
  c.isAlphanum || c == '-' || c == '_'

/-- The characters that may stand in a YAML text. -/
def isAllowed (c : Char) : Bool :=
  let n := c.toNat
  n == 9 || n == 10 || n == 13 || (32 ≤ n && n ≤ 126) || n == 0x85 || (0xa0 ≤ n && n ≤ 0xd7ff)
    || (0xe000 ≤ n && n ≤ 0xfffd) || (0x10000 ≤ n && n ≤ 0x10ffff)

namespace Source

/-- Refuse a place some characters ahead that cannot be read. -/
def reach (s : Source) (n : Nat) : Except Fault Unit :=
  match s.barrier with
  | none => .ok ()
  | some f => if (s.rest.drop n).isEmpty then .error f else .ok ()

/-- The start of a text, and what keeps the text after it from being read. -/
def start (text : List Char) (barrier : Option Fault) : Except Fault Source := do
  let s : Source := ⟨text, barrier, text.length, 0, 0, 0⟩
  s.reach 0
  return s

/-- A bound on the number of steps to the end of the text. -/
def room (s : Source) : Nat :=
  s.size - s.index + 1

/-- The next character, which has been reached. -/
def peek (s : Source) : Char :=
  s.rest.headD endMark

/-- The character some places ahead. -/
def peekAt (s : Source) (n : Nat) : Except Fault Char := do
  s.reach n
  return (s.rest.drop n).headD endMark

/-- The place after the next character. -/
def next (s : Source) : Except Fault Source := do
  s.reach 1
  match s.rest with
  | [] => return s
  | c :: r =>
    if isBreak c then
      return { s with rest := r, index := s.index + 1, line := s.line + 1, column := 0 }
    else
      let column := if c == '\ufeff' then s.column else s.column + 1
      return { s with rest := r, index := s.index + 1, column }

/-- The place some characters ahead. -/
def advance (s : Source) : Nat → Except Fault Source
  | 0 => .ok s
  | n + 1 => s.next.bind (·.advance n)

/-- The characters of a class in front, and the place after them. -/
def span (s : Source) (p : Char → Bool) : Except Fault (List Char × Source) :=
  let cs := s.rest.takeWhile p
  (s.advance cs.length).map fun t => (cs, t)

/-- The place after the characters of a class. -/
def skip (s : Source) (p : Char → Bool) : Except Fault Source :=
  (s.span p).map (·.2)

/-- A line end, if there is one: the two separators stay themselves, the others are line feeds. -/
def lineBreak (s : Source) : Except Fault (List Char × Source) :=
  let c := s.peek
  if c == '\u2028' || c == '\u2029' then s.next.map fun t => ([c], t)
  else if isBreak c then s.next.map fun t => (['\n'], t)
  else .ok ([], s)

/-- Whether three marks and a blank or a line end come next. -/
def startsWith (s : Source) (mark : Char) : Except Fault Bool :=
  if s.rest.take 3 == [mark, mark, mark] then (s.peekAt 3).map isBlankOrEnd
  else (s.reach 2).map fun _ => false

/-- Whether a document starts or ends at this place, on the first column or not. -/
def atSeparator (s : Source) : Except Fault Bool := do
  return (← s.startsWith '-') || (← s.startsWith '.')

/-- The place after blanks and a comment. -/
def skipRemark (s : Source) : Except Fault Source := do
  let s ← s.skip (· == ' ')
  if s.peek == '#' then s.skip fun c => !isBreakOrEnd c else return s

/-- The place after blanks, a comment and the line end that has to follow. -/
def skipLineRest (s : Source) : Except Fault Source := do
  let s ← s.skipRemark
  if isBreakOrEnd s.peek then return (← s.lineBreak).2 else throw .malformed

end Source

end TaggedComments.Yaml
