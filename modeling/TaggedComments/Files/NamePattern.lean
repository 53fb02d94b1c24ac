import TaggedComments.Files.Wildcard

/-!
# Patterns of names

A star stands for any characters of a name, a question mark for one, and a class in brackets for
one of its characters. A bracket that is not closed is an ordinary character.

- `NamePattern.ofString` reads a pattern.
- `NamePattern.accepts` says whether a name has its form.
- `NamePattern.isMagic` says whether a text is a pattern at all.
-/

namespace TaggedComments.NamePattern

/-- A part of the inside of brackets: a character or a range. -/
inductive Member where
  /-- One character. -/
  | one (c : Char)
  /-- The characters from one to another. -/
  | range (first last : Char)

/-- The inside of brackets as characters and ranges. A hyphen between two characters makes a range;
one after a range does not continue it. -/
def membersOf : List Char → List Member
  | a :: '-' :: b :: s => .range a b :: membersOf s
  | a :: s => .one a :: membersOf s
  | [] => []

/-- Whether the member holds a character at all. -/
def Member.isProper : Member → Bool
  | .one _ => true
  | .range a b => a ≤ b

/-- The range of a member. -/
def Member.bounds : Member → Char × Char
  | .one c => (c, c)
  | .range a b => (a, b)

/-- The members of a class; an exclamation mark in front is one of its own. -/
def classMembers : List Char → List Member
  | '!' :: s => .one '!' :: membersOf s
  | s => membersOf s

/-- The part of a pattern that proper members of a class make. An exclamation mark in front negates
the others; without others it stands for any character. -/
def ofMembers : List Member → Wildcard
  | .one '!' :: ms => .oneOf ⟨true, ms.map Member.bounds⟩
  | .range '!' b :: ms => .oneOf ⟨true, ('-', '-') :: (b, b) :: ms.map Member.bounds⟩
  | ms => .oneOf ⟨false, ms.map Member.bounds⟩

/-- The number of characters inside brackets that are closed: the first one, after an exclamation
mark, may be a closing bracket. -/
def classLength? (s : List Char) : Option Nat :=
  let sign := match s with
    | '!' :: _ => 1
    | _ => 0
  let bracket := match s.drop sign with
    | ']' :: _ => 1
    | _ => 0
  let more := ((s.drop (sign + bracket)).takeWhile (· != ']')).length
  let n := sign + bracket + more
  if n < s.length then some n else none

/-- Read a pattern; the fuel bounds the number of its characters. -/
def read : Nat → List Char → List Wildcard
  | 0, _ => []
  | _, [] => []
  | fuel + 1, '*' :: s => .star :: read fuel s
  | fuel + 1, '?' :: s => .any :: read fuel s
  | fuel + 1, '[' :: s =>
    match classLength? s with
    | none => .one '[' :: read fuel s
    | some n =>
      ofMembers ((classMembers (s.take n)).filter Member.isProper) :: read fuel (s.drop (n + 1))
  | fuel + 1, c :: s => .one c :: read fuel s

/-- Read a pattern. -/
def ofString (s : String) : List Wildcard :=
  read s.length s.toList

/-- Whether a name has the form of a pattern. A name that starts with a point is found only by a
pattern that does. -/
def accepts (pattern name : String) : Bool :=
  (name.toList.head? != some '.' || pattern.toList.head? == some '.')
    && Wildcard.matchesAll (ofString pattern) name.toList

/-- Whether a text holds a character that makes it a pattern. -/
def isMagic (s : String) : Bool :=
  s.toList.any fun c => c == '*' || c == '?' || c == '['

end TaggedComments.NamePattern
