import TaggedComments.Grammar.Basic

/-!
# The comment grammars of common languages

- `Grammar.builtin` lists the grammars.
- `Grammar.find?` looks one up by its name.
-/

namespace TaggedComments.Grammar

/-- Any number of blanks and tabs. -/
def blanks : Piece := .many [' ', '\t']

/-- A block between two fixed texts. -/
def fixedBlock (opener closer : String) : Delimiters :=
  ⟨Pattern.ofString opener, Pattern.ofString closer⟩

/-- A fixed text whose last character may repeat. -/
def repeated (s : String) (last : Char) : Pattern :=
  Pattern.ofString s ++ [.many [last]]

/-- Markup comments. -/
def markupBlock : Delimiters := fixedBlock "<!--" "-->"

/-- Slash and star around a block. -/
def slashStarBlock : Delimiters := fixedBlock "/*" "*/"

/-- Parenthesis and star around a block. -/
def parenStarBlock : Delimiters := fixedBlock "(*" "*)"

/-- Three hashes alone on their line. A longer row of hashes is a banner and delimits nothing. -/
def hashLine : Pattern :=
  [.lineStart, blanks] ++ Pattern.ofString "###" ++ [blanks, .lineEnd]

/-- A long bracket with any number of equals signs. -/
def longBracket : Delimiters :=
  ⟨Pattern.ofString "--[" ++ [.many ['='], .one '['],
    Pattern.ofString "]" ++ [.many ['='], .one ']']⟩

/-- Slashes, and slash and star around blocks. -/
def slashes : Grammar where
  name := "defaultParser"
  lineMarkers := [repeated "//" '/']
  blocks := [slashStarBlock]
  decoration := [blanks, .many ['*'], .optional '!', blanks]

/-- Hashes, and lines of three hashes around blocks. -/
def hashes : Grammar where
  name := "coffeeParser"
  lineMarkers := [repeated "#" '#']
  blocks := [⟨hashLine, hashLine⟩]
  decoration := [blanks, .many ['#'], blanks]

/-- Hashes, and triple quotes around blocks, which may open anywhere. -/
def tripleQuotes : Grammar where
  name := "pythonParser"
  lineMarkers := [repeated "#" '#']
  blocks := [fixedBlock "\"\"\"" "\"\"\"", fixedBlock "'''" "'''"]
  anchored := false

/-- Markup comments and braces with a hash. -/
def braceHash : Grammar where
  name := "twigParser"
  blocks := [markupBlock, fixedBlock "\x7b#" "#\x7d"]
  anchored := false

/-- Markup comments and double braces with an exclamation mark. -/
def doubleBraces : Grammar where
  name := "hbsParser"
  blocks := [markupBlock, fixedBlock "\x7b\x7b!--" "--\x7d\x7d", fixedBlock "\x7b\x7b!" "\x7d\x7d"]
  anchored := false

/-- Markup comments and percent tags with a hash. -/
def percentHash : Grammar where
  name := "ejsParser"
  blocks := [markupBlock, fixedBlock "<%#" "%>"]
  anchored := false

/-- Percent tags with hyphens and markup comments. -/
def percentHyphens : Grammar where
  name := "ssParser"
  blocks := [fixedBlock "<%--" "--%>", markupBlock]
  anchored := false

/-- Slashes with or without a hyphen. -/
def slashHyphen : Grammar where
  name := "jadeParser"
  lineMarkers := [Pattern.ofString "//" ++ [.optional '-']]

/-- A hyphen with a hash, or a slash. -/
def hyphenHash : Grammar where
  name := "hamlParser"
  lineMarkers := [Pattern.ofString "-#", Pattern.ofString "/"]

/-- Hyphens, and braces with hyphens around blocks. -/
def hyphens : Grammar where
  name := "haskellParser"
  lineMarkers := [repeated "--" '-']
  blocks := [fixedBlock "\x7b-" "-\x7d"]

/-- Two hyphens, and long brackets around blocks. -/
def longBrackets : Grammar where
  name := "luaParser"
  lineMarkers := [Pattern.ofString "--"]
  blocks := [longBracket]

/-- Percent signs. -/
def percents : Grammar where
  name := "erlangParser"
  lineMarkers := [repeated "%" '%']

/-- Percent signs, and an environment around blocks. -/
def commentEnvironment : Grammar where
  name := "latexParser"
  lineMarkers := [repeated "%" '%']
  blocks := [fixedBlock "\\begin\x7bcomment\x7d" "\\end\x7bcomment\x7d"]

/-- Two slashes, and braces or parenthesis and star around blocks. -/
def braces : Grammar where
  name := "pascalParser"
  lineMarkers := [Pattern.ofString "//"]
  blocks := [fixedBlock "\x7b" "\x7d", parenStarBlock]

/-- Semicolons. -/
def semicolons : Grammar where
  name := "clojureParser"
  lineMarkers := [repeated ";" ';']

/-- Slashes, and parenthesis and star around blocks. -/
def slashesParenStar : Grammar where
  name := "fsharpParser"
  lineMarkers := [repeated "//" '/']
  blocks := [parenStarBlock]
  decoration := [blanks, .many ['*'], blanks]

/-- All grammars that need no registration. -/
def builtin : List Grammar :=
  [slashes, hashes, tripleQuotes, braceHash, doubleBraces, percentHash, percentHyphens,
    slashHyphen, hyphenHash, hyphens, longBrackets, percents, commentEnvironment, braces,
    semicolons, slashesParenStar]

/-- The grammar of a name. -/
def find? (name : String) : Option Grammar :=
  builtin.find? fun g => g.name == name

end TaggedComments.Grammar
