import TaggedComments.Distinct

/-!
# Wildcards

File names are described by patterns in which some characters stand for others. Inside a path a
slash is never meant by a star or a question mark.

- `CharClass` is a class of characters, `Wildcard` a part of a pattern.
- `Wildcard.rests` are the ends of a text that follow a reading of a part.
- `Wildcard.restsAll` are those that follow a reading of several parts.
-/

namespace TaggedComments

/-- A class of characters. -/
structure CharClass where
  /-- Whether the class holds the characters outside the ranges. -/
  negated : Bool
  /-- The first and the last character of each range. -/
  ranges : List (Char × Char)
  deriving DecidableEq

/-- Whether a character belongs to a class. -/
def CharClass.contains (k : CharClass) (c : Char) : Bool :=
  k.negated != k.ranges.any fun r => r.1 ≤ c && c ≤ r.2

/-- A part of a pattern. -/
inductive Wildcard where
  /-- One fixed character. -/
  | one (c : Char)
  /-- One character of a class. -/
  | oneOf (k : CharClass)
  /-- One character other than a slash. -/
  | any
  /-- Any number of characters other than slashes. -/
  | star
  /-- One or more characters other than slashes. -/
  | name
  /-- Nothing, or the names of directories with the slash after them. -/
  | leading
  /-- Nothing, or a slash and names of directories after it. -/
  | between
  /-- A slash, or the end of the text. -/
  | boundary
  deriving DecidableEq

namespace Wildcard

/-- The text after its first character, if that belongs to a class. -/
def afterOne (p : Char → Bool) : List Char → List (List Char)
  | [] => []
  | c :: s => if p c then [s] else []

/-- The ends of a text that follow zero and more characters of a class. -/
def afterMany (p : Char → Bool) : List Char → List (List Char)
  | [] => [[]]
  | c :: s => (c :: s) :: if p c then afterMany p s else []

/-- The ends of a text that follow the names of directories: one or more characters that stand on
one line, and a slash. -/
def afterDirectories (s : List Char) : List (List Char) :=
  ((afterOne (· != '\n') s).flatMap (afterMany (· != '\n'))).flatMap (afterOne (· == '/'))

/-- The ends of a text that follow a slash and names on one line. -/
def afterBetween (s : List Char) : List (List Char) :=
  ((afterOne (· == '/') s).flatMap (afterOne (· != '\n'))).flatMap (afterMany (· != '\n'))

/-- Whether a text ends here, but for one line end. -/
def atEnd (s : List Char) : Bool :=
  s == [] || s == ['\n']

/-- The ends of a text that follow a reading of a part. -/
def rests (w : Wildcard) (s : List Char) : List (List Char) :=
  match w with
  | one c => afterOne (· == c) s
  | oneOf k => afterOne k.contains s
  | any => afterOne (· != '/') s
  | star => afterMany (· != '/') s
  | name => (afterOne (· != '/') s).flatMap (afterMany (· != '/'))
  | leading => s :: afterDirectories s
  | between => s :: afterBetween s
  | boundary => afterOne (· == '/') s ++ if atEnd s then [s] else []

/-- The ends that follow a reading of several parts from any of several ends on, each once. -/
def restsAll : List Wildcard → List (List Char) → List (List Char)
  | [], ends => ends
  | w :: ws, ends => restsAll ws (distinct (ends.flatMap w.rests))

/-- Whether a text is a reading of several parts. -/
def matchesAll (ws : List Wildcard) (s : List Char) : Bool :=
  (restsAll ws [s]).contains []

/-- Whether a text starts with a reading of several parts. -/
def matchesStart (ws : List Wildcard) (s : List Char) : Bool :=
  !(restsAll ws [s]).isEmpty

end Wildcard

end TaggedComments
