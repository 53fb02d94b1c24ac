import TaggedComments.Yaml.Source

/-!
# Quoted scalars

Between apostrophes only a doubled apostrophe is special; between double quotes a backslash
escapes. Blanks around a line end are dropped, a single line end becomes a blank, and further
ones stay.

- `quotedScalar` reads a scalar at its opening quote.
-/

namespace TaggedComments.Yaml

/-- The character that a letter after a backslash stands for. -/
def simpleEscape? : Char → Option Char
  | '0' => some '\x00'
  | 'a' => some '\x07'
  | 'b' => some '\x08'
  | 't' => some '\t'
  | '\t' => some '\t'
  | 'n' => some '\n'
  | 'v' => some '\x0b'
  | 'f' => some '\x0c'
  | 'r' => some '\r'
  | 'e' => some '\x1b'
  | ' ' => some ' '
  | '"' => some '"'
  | '\\' => some '\\'
  | '/' => some '/'
  | 'N' => some '\x85'
  | '_' => some '\xa0'
  | 'L' => some '\u2028'
  | 'P' => some '\u2029'
  | _ => none

/-- The number of hexadecimal digits after a letter after a backslash. -/
def escapeWidth? : Char → Option Nat
  | 'x' => some 2
  | 'u' => some 4
  | 'U' => some 8
  | _ => none

/-- The value of a hexadecimal digit. -/
def hexDigit? (c : Char) : Option Nat :=
  if c.isDigit then some (c.toNat - 48)
  else if 'a' ≤ c && c ≤ 'f' then some (c.toNat - 87)
  else if 'A' ≤ c && c ≤ 'F' then some (c.toNat - 55)
  else none

/-- The value of some hexadecimal digits from an offset on, digits before them given. -/
def Source.hexFrom (s : Source) (offset value : Nat) : (count : Nat) → Except Fault Nat
  | 0 => .ok value
  | count + 1 => do
    match hexDigit? (← s.peekAt offset) with
    | some d => s.hexFrom (offset + 1) (16 * value + d) count
    | none => throw .malformed

/-- The number of exactly some hexadecimal digits in front. -/
def Source.hexNumber (s : Source) (width : Nat) : Except Fault Nat :=
  s.hexFrom 0 0 width

/-- The character of a number. -/
def charOfNumber (n : Nat) : Except Fault Char :=
  if n < 0x110000 then .ok (if 0xd800 ≤ n && n < 0xe000 then '\ufffd' else Char.ofNat n)
  else if n < 0x80000000 then
    .error (.failure (.badValue "chr() arg not in range(0x110000)"))
  else .error (.failure .tooLarge)

/-- Line ends inside a quoted scalar, with the blanks before each. -/
def quotedBreaks : Nat → Source → Except Fault (List Char × Source)
  | 0, _ => .error .malformed
  | fuel + 1, s => do
    if ← s.atSeparator then throw .malformed
    else
      let s ← s.skip isBlank
      if isBreak s.peek then
        let (c, s) ← s.lineBreak
        let (cs, s) ← quotedBreaks fuel s
        return (c ++ cs, s)
      else return ([], s)

/-- What stands for a line end and those that follow it: a blank for a single line feed. -/
def foldBreaks (first further : List Char) : List Char :=
  if first != ['\n'] then first ++ further
  else if further.isEmpty then [' ']
  else further

/-- Blanks or line ends inside a quoted scalar. -/
def quotedGap (s : Source) : Except Fault (List Char × Source) := do
  let (blanks, s) ← s.span isBlank
  if s.peek == endMark then throw .malformed
  else if isBreak s.peek then
    let (first, s) ← s.lineBreak
    let (further, s) ← quotedBreaks s.room s
    return (foldBreaks first further, s)
  else return (blanks, s)

/-- An escape after its backslash. -/
def quotedEscape (s : Source) : Except Fault (List Char × Source) := do
  match simpleEscape? s.peek, escapeWidth? s.peek with
  | some c, _ => return ([c], ← s.next)
  | none, some width =>
    let s ← s.next
    let c ← charOfNumber (← s.hexNumber width)
    return ([c], ← s.advance width)
  | none, none =>
    if isBreak s.peek then
      let (_, s) ← s.lineBreak
      quotedBreaks s.room s
    else throw .malformed

/-- The characters of a quoted scalar up to a blank, a line end or the closing quote. -/
def quotedWord (double : Bool) : Nat → Source → Except Fault (List Char × Source)
  | 0, _ => .error .malformed
  | fuel + 1, s => do
    let (plain, s) ← s.span fun c =>
      !(c == '\'' || c == '"' || c == '\\' || isBlankOrEnd c)
    let c := s.peek
    let doubled ← if !double && c == '\'' then (· == '\'') <$> s.peekAt 1 else pure false
    if doubled then
      let (more, s) ← quotedWord double fuel (← s.advance 2)
      return (plain ++ '\'' :: more, s)
    else if (double && c == '\'') || (!double && (c == '"' || c == '\\')) then
      let (more, s) ← quotedWord double fuel (← s.next)
      return (plain ++ c :: more, s)
    else if double && c == '\\' then
      let (cs, s) ← quotedEscape (← s.next)
      let (more, s) ← quotedWord double fuel s
      return (plain ++ cs ++ more, s)
    else return (plain, s)

/-- The rest of a quoted scalar after a word. -/
def quotedRest (double : Bool) : Nat → Source → Except Fault (List Char × Source)
  | 0, _ => .error .malformed
  | fuel + 1, s => do
    if s.peek == (if double then '"' else '\'') then return ([], ← s.next)
    else
      let (gap, s) ← quotedGap s
      let (word, s) ← quotedWord double s.room s
      let (more, s) ← quotedRest double fuel s
      return (gap ++ word ++ more, s)

/-- A quoted scalar from its opening quote on. -/
def quotedScalar (double : Bool) (s : Source) : Except Fault (String × Source) := do
  let s ← s.next
  let (word, s) ← quotedWord double s.room s
  let (more, s) ← quotedRest double s.room s
  return (String.ofList (word ++ more), s)

end TaggedComments.Yaml
