import TaggedComments.Text.Blank
import TaggedComments.Text.CaseFold
import TaggedComments.Text.Upper
import TaggedComments.Text.Word

/-!
# The body of a comment

After its marker a comment reads: an at sign if need be, a tag, a reference in parentheses, a
colon and a message; everything but the tag may be missing. A message may also end in a
reference, after white space and a slash.

- `Body.read?` reads a body at the front of a text.
- `readTag?` finds the tag: the first name in the list that fits and that no word character and
  no hyphen continues.
- `splitTrailing` separates a reference at the end of a message.
- `Body.messageAndRef` is what is reported of a body, `Finding.ofBody` the comment it makes.
-/

namespace TaggedComments

/-- A tagged comment found in a text. -/
structure Finding where
  /-- The line, from one. -/
  line : Nat
  /-- The tag, in upper case. -/
  tag : String
  /-- The message. -/
  text : String
  /-- The reference, empty if there is none. -/
  ref : String
  deriving DecidableEq

/-- The parts of a comment as they are written. -/
structure Body where
  /-- The tag. -/
  tag : List Char
  /-- What stands between parentheses after the tag. -/
  ref : List Char
  /-- The message, without blanks after it. -/
  text : List Char
  deriving DecidableEq

namespace Body

/-- A tag ends where no word character and no hyphen follows. -/
def tagEnds : List Char → Bool
  | [] => true
  | c :: _ => !(Text.isWord c || c == '-')

/-- The first of the names that the input starts with and that ends there: the tag as written,
and the rest. -/
def readTag? (names : List (List Char)) (input : List Char) : Option (List Char × List Char) :=
  names.findSome? fun name => (Text.stripFolded? name input).filter fun r => tagEnds r.2

/-- A tag, after an at sign if that leads to one. -/
def readMarkedTag? (names : List (List Char)) : List Char → Option (List Char × List Char)
  | '@' :: input => (readTag? names input).or (readTag? names ('@' :: input))
  | input => readTag? names input

/-- A reference in parentheses, up to the first closing one; without one nothing is read. -/
def readReference : List Char → List Char × List Char
  | '(' :: s => if s.contains ')' then
      (s.takeWhile (· != ')'), (s.dropWhile (· != ')')).drop 1)
    else ([], '(' :: s)
  | s => ([], s)

/-- The input without a colon at its front. -/
def skipColon : List Char → List Char
  | ':' :: s => s
  | s => s

/-- What follows the tag. -/
def afterTag (tag : List Char) (s : List Char) : Body :=
  let (ref, s) := readReference (s.dropWhile Text.isBlank)
  let s := skipColon (s.dropWhile Text.isBlank)
  ⟨tag, ref, Text.trimRightBlanks (s.dropWhile Text.isBlank)⟩

/-- Read a body at the front of a line. -/
def read? (names : List (List Char)) (input : List Char) : Option Body :=
  (readMarkedTag? names input).map fun r => afterTag r.1 r.2

end Body

/-- Separate a reference at the end of a message: a slash after white space, and characters up to
the end that are neither white space nor slashes. The message is what stands before the white
space. -/
def splitTrailing (message : List Char) : Option (List Char × List Char) :=
  let r := message.reverse
  let token := r.takeWhile fun c => !(Text.isSpace c || c == '/')
  match r.dropWhile fun c => !(Text.isSpace c || c == '/') with
  | '/' :: front =>
    let text := front.dropWhile Text.isSpace
    if token.isEmpty || text.length == front.length then none
    else some (text.reverse, token.reverse)
  | _ => none

/-- The message and the reference that are reported of a body: a reference in parentheses counts
unless it is blank, else one at the end of the message. -/
def Body.messageAndRef (b : Body) : List Char × List Char :=
  let text := Text.trim b.text
  let ref := Text.trim b.ref
  if ref.isEmpty then
    match splitTrailing text with
    | some (t, r) => (Text.trim t, r)
    | none => (text, ref)
  else (text, ref)

/-- The comment that a body makes on a line. -/
def Finding.ofBody (line : Nat) (b : Body) : Finding where
  line := line
  tag := String.ofList (Text.upper b.tag)
  text := String.ofList b.messageAndRef.1
  ref := String.ofList b.messageAndRef.2

@[simp] theorem Finding.line_ofBody (line : Nat) (b : Body) : (ofBody line b).line = line := rfl

end TaggedComments
