/-!
# Delimiter patterns

What opens and closes comments is described by short patterns of fixed characters, repetitions
and line ends. A pattern is read from a cursor, a place in a text that knows the character
before it.

- `Cursor` is such a place, `Piece` a part of a pattern, `Pattern` a sequence of parts.
- `Pattern.ends` lists the places where a reading of the pattern can end, the preferred first:
  a repetition takes as many characters as it can and gives them back one by one.
- `Pattern.ends_append` says that patterns are read one after the other.
- `Pattern.suffix_of_mem_ends` says that a reading ends further right in the same text.
-/

namespace TaggedComments

/-- A place in a text: the character before it, if there is one, and the text after it. -/
structure Cursor where
  /-- The character before the place. -/
  before : Option Char
  /-- The text after the place. -/
  rest : List Char
  deriving DecidableEq

/-- A part of a pattern. -/
inductive Piece where
  /-- One fixed character. -/
  | one (c : Char)
  /-- Any number of characters of a list. -/
  | many (cs : List Char)
  /-- One fixed character or nothing. -/
  | optional (c : Char)
  /-- Nothing, at the start of a line. -/
  | lineStart
  /-- Nothing, at the end of a line. -/
  | lineEnd
  deriving DecidableEq

/-- Parts that follow one another. -/
abbrev Pattern := List Piece

namespace Cursor

/-- The start of a text. -/
def start (s : List Char) : Cursor :=
  ⟨none, s⟩

/-- The places after zero and more characters of a list, the farthest first. -/
def overMany (cs : List Char) : Option Char → List Char → List Cursor
  | b, [] => [⟨b, []⟩]
  | b, c :: r => if cs.contains c then overMany cs (some c) r ++ [⟨b, c :: r⟩] else [⟨b, c :: r⟩]

/-- The places after one given character: at most one. -/
def overOne (c : Char) (p : Cursor) : List Cursor :=
  match p.rest with
  | [] => []
  | d :: r => if d = c then [⟨some d, r⟩] else []

/-- Whether a line starts here. -/
def atLineStart (p : Cursor) : Bool :=
  match p.before with
  | none => true
  | some c => c == '\n'

/-- Whether a line ends here. -/
def atLineEnd (p : Cursor) : Bool :=
  match p.rest with
  | [] => true
  | c :: _ => c == '\n'

theorem suffix_of_mem_overMany {cs : List Char} {b : Option Char} {r : List Char} {q : Cursor}
    (h : q ∈ overMany cs b r) : q.rest <:+ r := by
  induction r generalizing b with
  | nil => simp_all [overMany]
  | cons c r ih =>
    simp only [overMany] at h
    split at h
    · rcases List.mem_append.1 h with h | h
      · exact (ih h).trans (List.suffix_cons c r)
      · simp_all
    · simp_all

theorem suffix_of_mem_overOne {c : Char} {p q : Cursor} (h : q ∈ p.overOne c) :
    q.rest <:+ p.rest := by
  unfold overOne at h
  split at h
  · cases h
  · next d r hr =>
    split at h
    · simp_all
    · cases h

end Cursor

namespace Piece

/-- The places where a reading of the part can end. -/
def ends (p : Cursor) : Piece → List Cursor
  | one c => p.overOne c
  | many cs => Cursor.overMany cs p.before p.rest
  | optional c => p.overOne c ++ [p]
  | lineStart => if p.atLineStart then [p] else []
  | lineEnd => if p.atLineEnd then [p] else []

theorem suffix_of_mem_ends {x : Piece} {p q : Cursor} (h : q ∈ x.ends p) : q.rest <:+ p.rest := by
  cases x with
  | one c => exact Cursor.suffix_of_mem_overOne h
  | many cs => exact Cursor.suffix_of_mem_overMany h
  | optional c =>
    rcases List.mem_append.1 h with h | h
    · exact Cursor.suffix_of_mem_overOne h
    · simp_all
  | lineStart | lineEnd =>
    simp only [ends] at h
    split at h <;> simp_all

end Piece

namespace Pattern

/-- The pattern of a fixed text. -/
def ofString (s : String) : Pattern :=
  s.toList.map .one

/-- The places where a reading of the pattern can end, in the order of preference. -/
def ends : Pattern → Cursor → List Cursor
  | [], p => [p]
  | x :: xs, p => (x.ends p).flatMap (ends xs)

@[simp] theorem ends_nil (p : Cursor) : ends [] p = [p] := rfl

theorem ends_cons (x : Piece) (xs : Pattern) (p : Cursor) :
    ends (x :: xs) p = (x.ends p).flatMap (ends xs) := rfl

/-- Patterns are read one after the other. -/
theorem ends_append (xs ys : Pattern) (p : Cursor) :
    ends (xs ++ ys) p = (ends xs p).flatMap (ends ys) := by
  induction xs generalizing p with
  | nil => simp
  | cons x xs ih =>
    rw [List.cons_append, ends_cons, ends_cons, List.flatMap_assoc]
    exact congrArg (List.flatMap · _) (funext ih)

/-- A reading ends further right in the same text. -/
theorem suffix_of_mem_ends {xs : Pattern} {p q : Cursor} (h : q ∈ ends xs p) :
    q.rest <:+ p.rest := by
  induction xs generalizing p with
  | nil => simp_all
  | cons x xs ih =>
    obtain ⟨r, hr, hq⟩ := List.mem_flatMap.1 h
    exact (ih hq).trans (Piece.suffix_of_mem_ends hr)

end Pattern

end TaggedComments
