import TaggedComments.Pattern

/-!
# Comment grammars

How one family of languages writes comments: markers that open a comment up to the end of the
line, and delimiters around blocks of any number of lines.
-/

namespace TaggedComments

/-- What stands around a block comment. -/
structure Delimiters where
  /-- What opens the block. -/
  opener : Pattern
  /-- What closes it. -/
  closer : Pattern
  deriving DecidableEq

/-- The comment syntax of one family of languages. -/
structure Grammar where
  /-- The name by which extensions refer to the grammar. -/
  name : String
  /-- What opens a comment that runs to the end of the line. -/
  lineMarkers : List Pattern := []
  /-- What stands around blocks; the first pair that fits is taken. -/
  blocks : List Delimiters := []
  /-- Decoration at the start of each line of a block. -/
  decoration : Pattern := [.many [' ', '\t']]
  /-- Whether a block opens only at the start of a line and after white space. -/
  anchored : Bool := true
  deriving DecidableEq

end TaggedComments
