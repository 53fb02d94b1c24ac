import TaggedComments.Yaml.Source

/-!
# Block scalars

A scalar written on indented lines of its own, its line ends kept or folded. Its header may fix
the indentation and say what happens to the line ends after the last line.

- `blockScalar` reads a scalar at its indicator.
-/

namespace TaggedComments.Yaml

/-- What happens to the line ends after the last line. -/
inductive Chomp where
  /-- One stays. -/
  | clip
  /-- None stays. -/
  | strip
  /-- All stay. -/
  | keep
  deriving DecidableEq

/-- The treatment that a sign in the header asks for. -/
def chomp? : Char → Option Chomp
  | '+' => some .keep
  | '-' => some .strip
  | _ => none

/-- The indentation that a digit in the header asks for; zero is none. -/
def increment? (c : Char) : Option (Except Fault Nat) :=
  if c == '0' then some (.error .malformed)
  else if c.isDigit then some (.ok (c.toNat - 48))
  else none

/-- The header after the indicator: a sign and a digit in any order. -/
def blockHeader (s : Source) : Except Fault (Chomp × Option Nat × Source) := do
  let (chomp, increment, s) ← match chomp? s.peek, increment? s.peek with
    | some ch, _ => do
      let s ← s.next
      match increment? s.peek with
      | some n => pure (ch, some (← n), ← s.next)
      | none => pure (ch, none, s)
    | none, some n => do
      let n ← n
      let s ← s.next
      match chomp? s.peek with
      | some ch => pure (ch, some n, ← s.next)
      | none => pure (.clip, some n, s)
    | none, none => pure (.clip, none, s)
  if isSpaceOrEnd s.peek then return (chomp, increment, s) else throw .malformed

/-- Blank lines before the first line of text, and the deepest column that blanks reach. -/
def leadingLines : Nat → (deepest : Nat) → Source → Except Fault (List Char × Nat × Source)
  | 0, deepest, s => .ok ([], deepest, s)
  | fuel + 1, deepest, s => do
    if s.peek == ' ' then
      let s ← s.next
      leadingLines fuel (max deepest s.column) s
    else if isBreak s.peek then
      let (c, s) ← s.lineBreak
      let (cs, deepest, s) ← leadingLines fuel deepest s
      return (c ++ cs, deepest, s)
    else return ([], deepest, s)

/-- The place after blanks up to a column. -/
def skipIndent (indent : Nat) (s : Source) : Except Fault Source :=
  s.advance ((s.rest.take (indent - s.column)).takeWhile (· == ' ')).length

/-- Blank lines between lines of text, up to the indentation of the next. -/
def blankLines (indent : Nat) : Nat → Source → Except Fault (List Char × Source)
  | 0, s => .ok ([], s)
  | fuel + 1, s => do
    let s ← skipIndent indent s
    if isBreak s.peek then
      let (c, s) ← s.lineBreak
      let (cs, s) ← blankLines indent fuel s
      return (c ++ cs, s)
    else return ([], s)

/-- The lines of a block scalar, blank lines before them given: the text, the line end of the last
line and the blank lines after it. -/
def blockLines (folded : Bool) (indent : Nat) :
    Nat → (blank : List Char) → Source →
      Except Fault (List Char × List Char × List Char × Source)
  | 0, blank, s => .ok ([], [], blank, s)
  | fuel + 1, blank, s => do
    if s.column == indent && s.peek != endMark then
      let flush := !isBlank s.peek
      let (line, s) ← s.span fun c => !isBreakOrEnd c
      let (lineEnd, s) ← s.lineBreak
      let (further, s) ← blankLines indent s.room s
      if s.column == indent && s.peek != endMark then
        let joint :=
          if folded && lineEnd == ['\n'] && flush && !isBlank s.peek then
            if further.isEmpty then [' '] else []
          else lineEnd
        let (more, last, after, s) ← blockLines folded indent fuel further s
        return (blank ++ line ++ joint ++ more, last, after, s)
      else return (blank ++ line, lineEnd, further, s)
    else return ([], [], blank, s)

/-- A block scalar from its indicator on; `indent` is the column of what surrounds it. -/
def blockScalar (folded : Bool) (indent : Int) (s : Source) : Except Fault (String × Source) := do
  let (chomp, increment, s) ← blockHeader (← s.next)
  let s ← s.skipLineRest
  let least := (max (indent + 1) 1).toNat
  let (blank, column, s) ← match increment with
    | none => do
      let (cs, deepest, s) ← leadingLines s.room 0 s
      pure (cs, max least deepest, s)
    | some n => do
      let column := least + n - 1
      let (cs, s) ← blankLines column s.room s
      pure (cs, column, s)
  let (text, last, after, s) ← blockLines folded column s.room blank s
  let tail := match chomp with
    | .strip => []
    | .clip => last
    | .keep => last ++ after
  return (String.ofList (text ++ tail), s)

end TaggedComments.Yaml
