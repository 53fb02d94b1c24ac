import TaggedComments.Yaml.Token

/-!
# Layout

Indentation opens and closes collections; a colon makes the scalar or collection before it on the
same line a key, so the place where that started is remembered until it is known whether a colon
follows. Tokens from such a place on are not settled: others may still be put before them.

A text is read no further than its reader asks. Of a text that cannot be read to its end there are
the tokens that are settled when the fault shows, and the fault after them.

- `Layout` is the state between two tokens: the columns of the open collections and the places
  where keys may have started.
- `Layout.step` reads the next token, `Layout.settled` counts the settled ones.
- `Tokens.ofText` are the tokens of a text.
-/

namespace TaggedComments.Yaml

/-- The tokens of a text as far as they can be read. -/
structure Tokens where
  /-- The tokens. -/
  list : List Token
  /-- The fault after them; without one they are all. -/
  fault : Option Fault

/-- A place where a key may have started. -/
structure KeyPlace where
  /-- The number of tokens before it. -/
  position : Nat
  /-- Whether a colon has to follow. -/
  required : Bool
  /-- Its index in the text. -/
  index : Nat
  /-- Its line. -/
  line : Nat
  /-- Its column. -/
  column : Nat

/-- The state between two tokens. -/
structure Layout where
  /-- The rest of the text. -/
  source : Source
  /-- The tokens so far, the last one first. -/
  backward : List Token := []
  /-- The number of tokens so far. -/
  count : Nat := 0
  /-- The number of open brackets and braces. -/
  flowLevel : Nat := 0
  /-- The column of the innermost open collection. -/
  indent : Int := -1
  /-- The columns of those around it. -/
  outer : List Int := []
  /-- Whether a key may start here. -/
  keyAllowed : Bool := true
  /-- Where keys may have started, by the number of open brackets and braces. -/
  keys : List (Nat × KeyPlace) := []

namespace Layout

/-! ## Indentation and keys -/

/-- Add a token. -/
def push (l : Layout) (t : Token) : Layout :=
  { l with backward := t :: l.backward, count := l.count + 1 }

/-- Add a token at an earlier place. -/
def insert (l : Layout) (position : Nat) (t : Token) : Layout :=
  let later := l.count - position
  { l with
    backward := l.backward.take later ++ t :: l.backward.drop later, count := l.count + 1 }

/-- The number of tokens before which nothing is put any more. -/
def settled (l : Layout) : Nat :=
  l.keys.foldl (fun n k => min n k.2.position) l.count

/-- Some tokens from the first on, and a fault after them. -/
def upTo (l : Layout) (number : Nat) (fault : Option Fault) : Tokens :=
  ⟨(l.backward.drop (l.count - number)).reverse, fault⟩

/-- Whether the text stands inside brackets or braces. -/
def inFlow (l : Layout) : Bool :=
  l.flowLevel != 0

/-- The column of the next character. -/
def column (l : Layout) : Int :=
  Int.ofNat l.source.column

/-- Close the collections that are indented deeper than a column. -/
def unwind (l : Layout) (column : Int) : Layout :=
  if l.inFlow then l else go l.outer l
where
  /-- Close collections as long as there are outer ones. -/
  go : List Int → Layout → Layout
    | [], l => l
    | i :: is, l =>
      if l.indent > column then go is { l.push .blockEnd with indent := i, outer := is } else l

/-- Open a collection at a column if it is deeper than the innermost open one. -/
def deepen (l : Layout) (column : Int) : Bool × Layout :=
  if l.indent < column then (true, { l with indent := column, outer := l.indent :: l.outer })
  else (false, l)

/-- Open a block collection at the next character if that is deeper. -/
def openBlock (l : Layout) (t : Token) : Layout :=
  match l.deepen l.column with
  | (true, l) => l.push t
  | (false, l) => l

/-- Give up places where keys can no longer have started: those on earlier lines and those too far
back. A place where a colon has to follow cannot be given up. -/
def dropStaleKeys (l : Layout) : Except Fault Layout :=
  let stale (k : KeyPlace) : Bool :=
    k.line != l.source.line || l.source.index - k.index > 1024
  if l.keys.any fun k => stale k.2 && k.2.required then .error .malformed
  else .ok { l with keys := l.keys.filter fun k => !stale k.2 }

/-- Give up the place of the current level. -/
def dropKey (l : Layout) : Except Fault Layout :=
  match l.keys.lookup l.flowLevel with
  | some k =>
    if k.required then .error .malformed
    else .ok { l with keys := l.keys.filter fun x => x.1 != l.flowLevel }
  | none => .ok l

/-- Remember that a key may start at the next character. -/
def saveKey (l : Layout) : Except Fault Layout :=
  if l.keyAllowed then
    l.dropKey.map fun l =>
      let place : KeyPlace :=
        ⟨l.count, !l.inFlow && l.indent == l.column, l.source.index, l.source.line,
          l.source.column⟩
      { l with keys := (l.flowLevel, place) :: l.keys }
  else .ok l

/-- The same state at another place of the text. -/
def moveTo (l : Layout) (s : Source) : Layout :=
  { l with source := s }

/-- Allow a key to start here, or not. -/
def allowKey (l : Layout) (b : Bool) : Layout :=
  { l with keyAllowed := b }

/-! ## Reading one token -/

/-- Skip blanks, comments and line ends. After a line end outside brackets a key may start. -/
def skipGapFrom : Nat → Layout → Except Fault Layout
  | 0, l => .ok l
  | fuel + 1, l => do
    let s ← l.source.skipRemark
    if isBreak s.peek then
      let (_, s) ← s.lineBreak
      let l := l.moveTo s
      skipGapFrom fuel (if l.inFlow then l else l.allowKey true)
    else return l.moveTo s

/-- Skip what stands before the next token. -/
def skipGap (l : Layout) : Except Fault Layout :=
  l.skipGapFrom l.source.room

/-- Close all collections before a token that stands outside of them. -/
def outside (l : Layout) : Except Fault Layout :=
  (l.unwind (-1)).dropKey.map (·.allowKey false)

/-- A token of one or more characters. -/
def mark (l : Layout) (t : Token) (length : Nat) : Except Fault Layout :=
  (l.source.advance length).map (l.push t).moveTo

/-- A bracket or brace opens. -/
def openFlow (l : Layout) (t : Token) : Except Fault Layout := do
  let l ← l.saveKey
  (({ l with flowLevel := l.flowLevel + 1 }).allowKey true).mark t 1

/-- A bracket or brace closes. -/
def closeFlow (l : Layout) (t : Token) : Except Fault Layout := do
  let l ← l.dropKey
  (({ l with flowLevel := l.flowLevel - 1 }).allowKey false).mark t 1

/-- A comma. -/
def flowEntry (l : Layout) : Except Fault Layout := do
  (← (l.allowKey true).dropKey).mark .flowEntry 1

/-- A hyphen before an item. -/
def blockEntry (l : Layout) : Except Fault Layout := do
  if !l.inFlow && !l.keyAllowed then throw .malformed
  else
    let l := if l.inFlow then l else l.openBlock .blockSequence
    (← (l.allowKey true).dropKey).mark .blockEntry 1

/-- A question mark before a key. -/
def explicitKey (l : Layout) : Except Fault Layout := do
  if !l.inFlow && !l.keyAllowed then throw .malformed
  else
    let l := if l.inFlow then l else l.openBlock .blockMapping
    (← (l.allowKey !l.inFlow).dropKey).mark .key 1

/-- A colon before a value. What started on this line becomes a key, if it may. -/
def value (l : Layout) : Except Fault Layout := do
  match l.keys.lookup l.flowLevel with
  | some k =>
    let l := { l with keys := l.keys.filter fun x => x.1 != l.flowLevel }
    let l := l.insert k.position .key
    let l := if l.inFlow then l else
      match l.deepen (Int.ofNat k.column) with
      | (true, l) => l.insert k.position .blockMapping
      | (false, l) => l
    (l.allowKey false).mark .value 1
  | none =>
    if !l.inFlow && !l.keyAllowed then throw .malformed
    else
      let l := if l.inFlow then l else l.openBlock .blockMapping
      (← (l.allowKey !l.inFlow).dropKey).mark .value 1

/-- A token that may be or start a key: read after the place is remembered. -/
def keyed (l : Layout) (read : Source → Except Fault (Token × Source)) : Except Fault Layout := do
  let l ← l.saveKey
  let (t, s) ← read l.source
  return ((l.allowKey false).push t).moveTo s

/-- An alias. -/
def aliasToken (s : Source) : Except Fault (Token × Source) := do
  let (name, s) ← anchorName (← s.next)
  return (.alias name, s)

/-- An anchor. -/
def anchorToken (s : Source) : Except Fault (Token × Source) := do
  let (name, s) ← anchorName (← s.next)
  return (.anchor name, s)

/-- A quoted scalar. -/
def quotedToken (double : Bool) (s : Source) : Except Fault (Token × Source) := do
  let (text, s) ← quotedScalar double s
  return (.scalar false text, s)

/-- A plain scalar. -/
def plain (l : Layout) : Except Fault Layout := do
  let l ← l.saveKey
  let (text, allowed, s) ← plainScalar l.inFlow (l.indent + 1) l.source
  return ((l.allowKey allowed).push (.scalar true text)).moveTo s

/-- A scalar on lines of its own. -/
def block (l : Layout) (folded : Bool) : Except Fault Layout := do
  let l ← (l.allowKey true).dropKey
  let (text, s) ← blockScalar folded l.indent l.source
  return (l.push (.scalar false text)).moveTo s

/-- Whether a character starts no plain scalar, or does so only before something else. -/
def isIndicator (c : Char) : Bool :=
  isBlankOrEnd c || isFlowMark c || ['-', '?', ':', '#', '&', '*', '!', '|', '>', '\'', '"', '%',
    '@', '\x60'].contains c

/-- Whether a plain scalar may start here. -/
def plainStarts (l : Layout) : Except Fault Bool := do
  let c := l.source.peek
  if isIndicator c then
    let d ← l.source.peekAt 1
    return !isBlankOrEnd d && (c == '-' || (!l.inFlow && (c == '?' || c == ':')))
  else return true

/-- Whether the next character is a mark that stands alone, which means that a blank or a line end
follows. Inside brackets it may not have to. -/
def isLoneMark (l : Layout) (mark : Char) (loneInFlow : Bool) : Except Fault Bool :=
  if l.source.peek != mark then .ok false
  else if l.inFlow && !loneInFlow then .ok true
  else (l.source.peekAt 1).map isBlankOrEnd

/-- Whether three marks for the start or the end of a document come next. -/
def separates (l : Layout) (c : Char) : Except Fault Bool :=
  if (c == '-' || c == '.') && l.source.column == 0 then l.source.startsWith c else .ok false

/-- Read a token that starts with a character of a kind of its own, or a plain scalar. -/
def content (l : Layout) (c : Char) : Except Fault Layout := do
  match c with
  | '[' => l.openFlow .flowSequence
  | '\x7b' => l.openFlow .flowMapping
  | ']' => l.closeFlow .flowSequenceEnd
  | '\x7d' => l.closeFlow .flowMappingEnd
  | ',' => l.flowEntry
  | '*' => l.keyed aliasToken
  | '&' => l.keyed anchorToken
  | '!' => l.keyed tagToken
  | '\'' => l.keyed (quotedToken false)
  | '"' => l.keyed (quotedToken true)
  | _ =>
    if ← l.isLoneMark '-' true then l.blockEntry
    else if ← l.isLoneMark '?' false then l.explicitKey
    else if ← l.isLoneMark ':' false then l.value
    else if (c == '|' || c == '>') && !l.inFlow then l.block (c == '>')
    else if ← l.plainStarts then l.plain
    else throw .malformed

/-- Read the next token, and whether it is the last. -/
def step (l : Layout) : Except Fault (Bool × Layout) := do
  let l ← l.skipGap
  let l ← l.dropStaleKeys
  let l := l.unwind l.column
  let c := l.source.peek
  if c == endMark then return (true, (← l.outside).push .streamEnd)
  else if c == '%' && l.source.column == 0 then
    let l ← l.outside
    let (d, s) ← directive l.source
    return (false, (l.push (.directive d)).moveTo s)
  else if ← l.separates c then
    let l ← l.outside
    return (false, ← l.mark (if c == '-' then .documentStart else .documentEnd) 3)
  else return (false, ← l.content c)

/-- Read tokens up to the end of the text or to a fault. -/
def run : Nat → Layout → Tokens
  | 0, l => l.upTo l.settled (some .malformed)
  | fuel + 1, l =>
    match l.step with
    | .error f => l.upTo l.settled (some f)
    | .ok (true, l) => l.upTo l.count none
    | .ok (false, next) =>
      match next.dropStaleKeys with
      | .error f => next.upTo l.settled (some f)
      | .ok l => run fuel l

end Layout

/-- The place after a byte order mark, which may stand at the start. -/
def Source.skipMark (s : Source) : Except Fault Source :=
  if s.peek == '\ufeff' then s.next else .ok s

/-- The tokens of a text, and what keeps the text after it from being read. -/
def Tokens.ofText (text : List Char) (barrier : Option Fault) : Tokens :=
  match (Source.start text barrier).bind Source.skipMark with
  | .error f => ⟨[], some f⟩
  | .ok source => Layout.run (text.length + 2) { source }

end TaggedComments.Yaml
