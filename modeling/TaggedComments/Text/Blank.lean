/-!
# White space

Two classes of white space occur: the blanks inside a line, and the wide class of every white
space character, which separates words and is trimmed from texts.

- `isSpace` is the wide class, `isBlank` the blank and the tab.
- `trim` removes white space at both ends; `trimRightBlanks` removes blanks at the right end.
-/

namespace TaggedComments.Text

/-- White space of any kind. -/
def isSpace (c : Char) : Bool :=
  let n := c.toNat
  (9 ≤ n && n ≤ 13) || (28 ≤ n && n ≤ 32) || n == 0x85 || n == 0xa0 || n == 0x1680
    || (0x2000 ≤ n && n ≤ 0x200a) || n == 0x2028 || n == 0x2029 || n == 0x202f || n == 0x205f
    || n == 0x3000

/-- The blank and the tab. -/
def isBlank (c : Char) : Bool :=
  c == ' ' || c == '\t'

/-- Blanks are white space. -/
theorem isSpace_of_isBlank {c : Char} (h : isBlank c = true) : isSpace c = true := by
  simp only [isBlank, Bool.or_eq_true, beq_iff_eq] at h
  rcases h with rfl | rfl <;> decide

/-- The text without white space at its left end. -/
def trimLeft (s : List Char) : List Char :=
  s.dropWhile isSpace

/-- The text without the characters of a class at its right end. -/
def dropRightWhile (p : Char → Bool) (s : List Char) : List Char :=
  (s.reverse.dropWhile p).reverse

/-- The text without white space at its right end. -/
def trimRight (s : List Char) : List Char :=
  dropRightWhile isSpace s

/-- The text without blanks at its right end. -/
def trimRightBlanks (s : List Char) : List Char :=
  dropRightWhile isBlank s

/-- The text without white space at its ends. -/
def trim (s : List Char) : List Char :=
  trimRight (trimLeft s)

/-- Dropping from the right keeps a front part. -/
theorem dropRightWhile_append (p : Char → Bool) (s : List Char) :
    dropRightWhile p s ++ (s.reverse.takeWhile p).reverse = s := by
  rw [dropRightWhile, ← List.reverse_append, List.takeWhile_append_dropWhile, List.reverse_reverse]

/-- A trimmed string. -/
def trimString (s : String) : String :=
  String.ofList (trim s.toList)

end TaggedComments.Text
