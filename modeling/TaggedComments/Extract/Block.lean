import TaggedComments.Grammar.Basic
import TaggedComments.Text.Blank

/-!
# Block comments

Blocks are found from left to right. At a place where blocks may open, the first pair of
delimiters counts whose opener stands there and whose closer follows; the block ends at the
first closer, and the search goes on after it.

- `Block` is a block with its place in the text.
- `blockAt?` reads a block at a cursor, `blocks` finds the blocks of a text.
-/

namespace TaggedComments

/-- A block comment and its place: offsets into the text. -/
structure Block where
  /-- Where the opener starts. -/
  start : Nat
  /-- Where the opener ends. -/
  innerStart : Nat
  /-- What stands between opener and closer. -/
  inner : List Char
  /-- Where the closer ends. -/
  stop : Nat
  deriving DecidableEq

namespace Block

/-- Whether an offset lies inside the block. -/
def covers (b : Block) (offset : Nat) : Bool :=
  b.start ≤ offset && offset < b.stop

end Block

namespace Cursor

/-- Comments open at the start of a text and after white space. -/
def atBoundary (p : Cursor) : Bool :=
  match p.before with
  | none => true
  | some c => Text.isSpace c

end Cursor

/-- The text up to the first place where a pattern can be read, and the text after the pattern. -/
def untilPattern (closer : Pattern) : Option Char → List Char → Option (List Char × List Char)
  | b, [] => (closer.ends ⟨b, []⟩).head?.map fun p => ([], p.rest)
  | b, c :: r =>
    match closer.ends ⟨b, c :: r⟩ with
    | p :: _ => some ([], p.rest)
    | [] => (untilPattern closer (some c) r).map fun x => (c :: x.1, x.2)

namespace Grammar

/-- A block at a cursor: the lengths of opener and whole block, and what is inside. -/
structure BlockReading where
  /-- The length of the opener. -/
  openerLength : Nat
  /-- What stands between opener and closer. -/
  inner : List Char
  /-- The length of the whole block. -/
  length : Nat
  deriving DecidableEq

/-- Read a block with given delimiters. -/
def readDelimited? (d : Delimiters) (p : Cursor) : Option BlockReading :=
  (d.opener.ends p).findSome? fun q =>
    (untilPattern d.closer q.before q.rest).map fun x =>
      ⟨p.rest.length - q.rest.length, x.1, p.rest.length - x.2.length⟩

/-- Read a block at a cursor: the first delimiters that fit. -/
def blockAt? (g : Grammar) (p : Cursor) : Option BlockReading :=
  if g.anchored && !p.atBoundary then none else g.blocks.findSome? (readDelimited? · p)

/-- The blocks of the text after a cursor, whose offset is given; the first `skip` characters
belong to a block that was found. -/
def blocksFrom (g : Grammar) : (skip offset : Nat) → Option Char → List Char → List Block
  | _, _, _, [] => []
  | skip + 1, offset, _, c :: r => blocksFrom g skip (offset + 1) (some c) r
  | 0, offset, b, c :: r =>
    match g.blockAt? ⟨b, c :: r⟩ with
    | some x =>
      ⟨offset, offset + x.openerLength, x.inner, offset + x.length⟩
        :: blocksFrom g (x.length - 1) (offset + 1) (some c) r
    | none => blocksFrom g 0 (offset + 1) (some c) r

/-- The blocks of a text, from left to right. -/
def blocksOf (g : Grammar) (content : List Char) : List Block :=
  blocksFrom g 0 0 none content

end Grammar

end TaggedComments
