import TaggedComments.Text.Utf8
import TaggedComments.Yaml.BlockScalar
import TaggedComments.Yaml.PlainScalar

/-!
# Tokens

A text is a sequence of tokens: scalars, the marks of collections, and the names and tags in
front of them.

- `Token` lists the kinds of tokens, `Directive` the lines that tell how to read a document.
- `anchorName`, `tagToken` and `directive` read those that are made of names.
-/

namespace TaggedComments.Yaml

/-- A line that tells how a document is to be read. -/
inductive Directive where
  /-- The version of the notation. -/
  | version (major minor : Nat)
  /-- What a tag handle stands for. -/
  | handle (name meaning : String)
  /-- Something else. -/
  | other

/-- A token. -/
inductive Token where
  /-- The end of the text. -/
  | streamEnd
  /-- A directive. -/
  | directive (d : Directive)
  /-- Three hyphens. -/
  | documentStart
  /-- Three points. -/
  | documentEnd
  /-- Items that start with hyphens. -/
  | blockSequence
  /-- Keys and values on lines. -/
  | blockMapping
  /-- The end of items or of keys and values. -/
  | blockEnd
  /-- A bracket opens. -/
  | flowSequence
  /-- A bracket closes. -/
  | flowSequenceEnd
  /-- A brace opens. -/
  | flowMapping
  /-- A brace closes. -/
  | flowMappingEnd
  /-- A hyphen. -/
  | blockEntry
  /-- A comma. -/
  | flowEntry
  /-- A key. -/
  | key
  /-- A value. -/
  | value
  /-- The value that an anchor names. -/
  | alias (name : String)
  /-- A name for the value after it. -/
  | anchor (name : String)
  /-- A tag: a handle, if it has one, and the rest. -/
  | tag (handle : Option String) (suffix : String)
  /-- A scalar, plain or not. -/
  | scalar (plain : Bool) (text : String)

/-! ## Names, tags and directives -/

/-- A name, which may not be empty. -/
def nameAt (s : Source) : Except Fault (String × Source) := do
  let (cs, s) ← s.span isNameChar
  if cs.isEmpty then throw .malformed else return (String.ofList cs, s)

/-- The name of an anchor or an alias after its indicator. -/
def anchorName (s : Source) : Except Fault (String × Source) := do
  let (name, s) ← nameAt s
  let c := s.peek
  if isBlankOrEnd c || ['?', ':', ',', ']', '\x7d', '%', '@', '\x60'].contains c then
    return (name, s)
  else throw .malformed

/-- The handle of a tag: one exclamation mark, or a name between two. -/
def tagHandle (s : Source) : Except Fault (String × Source) := do
  if s.peek != '!' then throw .malformed
  else
    let s ← s.next
    if s.peek == ' ' then return ("!", s)
    else
      let (cs, s) ← s.span isNameChar
      if s.peek == '!' then return (String.ofList ('!' :: cs ++ ['!']), ← s.next)
      else throw .malformed

/-- Whether a character may stand in a tag as it is. -/
def isUriChar (c : Char) : Bool :=
  c.isAlphanum || ['-', ';', '/', '?', ':', '@', '&', '=', '+', '$', ',', '_', '.', '!', '~', '*',
    '\'', '(', ')', '[', ']'].contains c

/-- Escaped bytes in a tag. -/
def uriBytes : Nat → Source → Except Fault (List Nat × Source)
  | 0, s => .ok ([], s)
  | fuel + 1, s => do
    if s.peek == '%' then
      let s ← s.next
      let n ← s.hexNumber 2
      let (bytes, s) ← uriBytes fuel (← s.advance 2)
      return (n :: bytes, s)
    else return ([], s)

/-- The characters that escaped bytes stand for. -/
def uriDecode (bytes : List Nat) : Except Fault (List Char) :=
  (Text.Utf8.decode bytes).mapError fun _ => .malformed

/-- The characters of a tag after its handle. -/
def uriChars : Nat → Source → Except Fault (List Char × Source)
  | 0, s => .ok ([], s)
  | fuel + 1, s => do
    let c := s.peek
    if c == '%' then
      let (bytes, s) ← uriBytes s.room s
      let cs ← uriDecode bytes
      let (more, s) ← uriChars fuel s
      return (cs ++ more, s)
    else if isUriChar c then
      let (more, s) ← uriChars fuel (← s.next)
      return (c :: more, s)
    else return ([], s)

/-- The part of a tag after its handle, which may not be empty. -/
def tagUri (s : Source) : Except Fault (String × Source) := do
  let (cs, t) ← uriChars s.room s
  if t.index = s.index then throw .malformed else return (String.ofList cs, t)

/-- Whether another exclamation mark occurs in the tag. -/
def hasHandle (s : Source) : Except Fault Bool := do
  let (_, t) ← s.span fun c => !(isSpaceOrEnd c || c == '!')
  return t.peek == '!'

/-- A tag from its exclamation mark on. -/
def tagToken (s : Source) : Except Fault (Token × Source) := do
  let after ← s.next
  let c := after.peek
  let (t, s) ←
    if c == '<' then do
      let (suffix, s) ← tagUri (← after.next)
      if s.peek == '>' then pure (Token.tag none suffix, ← s.next) else throw .malformed
    else if isBlankOrEnd c then pure (Token.tag none "!", after)
    else do
      let (handle, s) ← if ← hasHandle after then tagHandle s else pure ("!", after)
      let (suffix, s) ← tagUri s
      pure (Token.tag (some handle) suffix, s)
  if isSpaceOrEnd s.peek then return (t, s) else throw .malformed

/-- A number in a directive. -/
def directiveNumber (s : Source) : Except Fault (Nat × Source) := do
  let (ds, s) ← s.span Char.isDigit
  if ds.isEmpty then throw .malformed
  else if Integer.maxDigits < ds.length then throw (.failure (.tooManyDigits ds.length))
  else return (ds.foldl (fun n c => 10 * n + (c.toNat - 48)) 0, s)

/-- What follows the name of a directive. -/
def directiveBody (name : String) (s : Source) : Except Fault (Directive × Source) := do
  if name = "YAML" then
    let (major, s) ← directiveNumber (← s.skip (· == ' '))
    if s.peek != '.' then throw .malformed
    else
      let (minor, s) ← directiveNumber (← s.next)
      if isSpaceOrEnd s.peek then return (.version major minor, s) else throw .malformed
  else if name = "TAG" then
    let (handle, s) ← tagHandle (← s.skip (· == ' '))
    if s.peek != ' ' then throw .malformed
    else
      let (meaning, s) ← tagUri (← s.skip (· == ' '))
      if isSpaceOrEnd s.peek then return (.handle handle meaning, s) else throw .malformed
  else return (.other, ← s.skip fun c => !isBreakOrEnd c)

/-- A directive from its percent sign on, with its line end. -/
def directive (s : Source) : Except Fault (Directive × Source) := do
  let (name, s) ← nameAt (← s.next)
  if isSpaceOrEnd s.peek then
    let (d, s) ← directiveBody name s
    return (d, ← s.skipLineRest)
  else throw .malformed

end TaggedComments.Yaml
