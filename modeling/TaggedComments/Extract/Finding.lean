import TaggedComments.Extract.Line
import TaggedComments.Tag
import TaggedComments.Text.Lines

/-!
# Extraction

The tagged comments of a text under one grammar: those of its blocks, line by line, and those of
its lines outside blocks, in the order of their lines.

- `Grammar.blockFindings` and `Grammar.lineFindings` are the two kinds.
- `Grammar.extract` puts them together; on one line the comments of blocks come first.
-/

namespace TaggedComments.Grammar

/-- Read a comment at the start of a line of a block: decoration, a body. -/
def pieceBody? (g : Grammar) (names : List (List Char)) (piece : List Char) : Option Body :=
  (Pattern.ends g.decoration (.start piece)).findSome? fun q => Body.read? names q.rest

/-- The comments of the lines of a block that starts on a given line. -/
def innerFindings (g : Grammar) (names : List (List Char)) (line : Nat) (inner : List Char) :
    List Finding :=
  (Text.lines inner).zipIdx.filterMap fun piece =>
    (g.pieceBody? names piece.1).map (Finding.ofBody (line + piece.2))

/-- The comments inside blocks. -/
def blockFindings (g : Grammar) (names : List (List Char)) (content : List Char)
    (blocks : List Block) : List Finding :=
  blocks.flatMap fun b => g.innerFindings names (Text.lineOf content b.innerStart) b.inner

/-- The comments of lines, of which the first has a number and an offset. -/
def lineFindingsFrom (g : Grammar) (names : List (List Char)) (covered : Nat → Bool) :
    (line offset : Nat) → List (List Char) → List Finding
  | _, _, [] => []
  | line, offset, s :: rest =>
    ((g.searchLine names covered offset none s).map (Finding.ofBody line)).toList
      ++ lineFindingsFrom g names covered (line + 1) (offset + s.length + 1) rest

/-- The comments of lines outside blocks. -/
def lineFindings (g : Grammar) (names : List (List Char)) (content : List Char)
    (blocks : List Block) : List Finding :=
  g.lineFindingsFrom names (fun o => blocks.any (·.covers o)) 1 0 (Text.lines content)

/-- The tagged comments of a text whose lines all end in line feeds. -/
def findings (g : Grammar) (names : List (List Char)) (content : List Char) : List Finding :=
  let blocks := g.blocksOf content
  (g.blockFindings names content blocks ++ g.lineFindings names content blocks).mergeSort
    fun a b => a.line ≤ b.line

/-- The tagged comments of a text, for given custom tags. -/
def extract (g : Grammar) (custom : List String) (content : String) : List Finding :=
  g.findings (Tags.byLength (Tags.all custom)) (Text.joinLineEnds content.toList)

end TaggedComments.Grammar
