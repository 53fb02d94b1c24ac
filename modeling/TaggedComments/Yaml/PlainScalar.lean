import TaggedComments.Yaml.QuotedScalar

/-!
# Plain scalars

A scalar without quotes ends at a comment, before a colon that a blank follows, inside brackets
also at punctuation, and where the next line is indented no deeper than what surrounds it.

- `plainScalar` reads a scalar; it also says whether a key may start where it ends.
-/

namespace TaggedComments.Yaml

/-- Whether a character is punctuation of flow collections. -/
def isFlowMark (c : Char) : Bool :=
  c == ',' || c == '[' || c == ']' || c == '\x7b' || c == '\x7d'

/-- The number of characters of a word in front. -/
def plainLength (flow : Bool) (barrier : Option Fault) : List Char → Except Fault Nat
  | [] => match barrier with
    | none => .ok 0
    | some f => .error f
  | c :: r => do
    let d ← match r, barrier with
      | d :: _, _ => pure d
      | [], none => pure endMark
      | [], some f => if c == ':' then throw f else pure endMark
    if isBlankOrEnd c || (c == ':' && (isBlankOrEnd d || (flow && isFlowMark d)))
        || (flow && (isFlowMark c || c == '?')) then return 0
    else return (← plainLength flow barrier r) + 1

/-- Line ends and blanks after the first line end of a gap; none if a document ends there. -/
def plainBreaks : Nat → Source → Except Fault (Option (List Char) × Source)
  | 0, s => .ok (none, s)
  | fuel + 1, s => do
    if s.peek == ' ' then plainBreaks fuel (← s.next)
    else if isBreak s.peek then
      let (c, s) ← s.lineBreak
      if ← s.atSeparator then return (none, s)
      else
        let (cs, s) ← plainBreaks fuel s
        return (cs.map (c ++ ·), s)
    else return (some [], s)

/-- What stands between two words: blanks, or line ends, after which a key may start. -/
structure PlainGap where
  /-- The characters of the gap; without any the scalar ends. -/
  chars : List Char
  /-- Whether it holds a line end. -/
  broken : Bool
  /-- The place after it. -/
  source : Source

/-- The gap after a word. -/
def plainGap (s : Source) : Except Fault PlainGap := do
  let (blanks, s) ← s.span (· == ' ')
  if isBreak s.peek then
    let (first, s) ← s.lineBreak
    if ← s.atSeparator then return ⟨[], true, s⟩
    else
      match ← plainBreaks s.room s with
      | (some further, s) => return ⟨foldBreaks first further, true, s⟩
      | (none, s) => return ⟨[], true, s⟩
  else return ⟨blanks, false, s⟩

/-- Words and the gaps between them; `indent` is the least column of a further line. -/
def plainWords (flow : Bool) (indent : Int) :
    Nat → (gap : List Char) → (keyAllowed : Bool) → Source →
      Except Fault (List Char × Bool × Source)
  | 0, _, allowed, s => .ok ([], allowed, s)
  | fuel + 1, gap, allowed, s => do
    let n ← if s.peek == '#' then pure 0 else plainLength flow s.barrier s.rest
    if n = 0 then return ([], allowed, s)
    else
      let word := s.rest.take n
      let g ← plainGap (← s.advance n)
      if g.chars.isEmpty || g.source.peek == '#'
          || (!flow && Int.ofNat g.source.column < indent) then
        return (gap ++ word, g.broken, g.source)
      else
        let (more, allowed, s) ← plainWords flow indent fuel g.chars g.broken g.source
        return (gap ++ word ++ more, allowed, s)

/-- A plain scalar, and whether a key may start after it. -/
def plainScalar (flow : Bool) (indent : Int) (s : Source) :
    Except Fault (String × Bool × Source) := do
  let (cs, allowed, s) ← plainWords flow indent s.room [] false s
  return (String.ofList cs, allowed, s)

end TaggedComments.Yaml
