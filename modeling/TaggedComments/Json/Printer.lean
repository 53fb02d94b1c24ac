import TaggedComments.Data.Literal

/-!
# Writing JSON

Values are written with ASCII characters alone.

- `Json.quote` is a quoted text: every other character is written by the number of its units.
- `Json.write` is a value on lines of its own with indentation, `Json.writeLine` a value on one
  line.
-/

namespace TaggedComments.Json

/-- The two halves that stand for a character beyond the first plane. -/
def halves (n : Nat) : Nat × Nat :=
  (0xD800 + (n - 0x10000) / 0x400, 0xDC00 + (n - 0x10000) % 0x400)

/-- A unit after a backslash. -/
def unitEscape (n : Nat) : List Char :=
  '\\' :: 'u' :: Text.hexDigits 4 n

/-- One character inside quotes. -/
def quoteChar (c : Char) : List Char :=
  if c = '"' then ['\\', '"']
  else if c = '\\' then ['\\', '\\']
  else if c = '\n' then ['\\', 'n']
  else if c = '\r' then ['\\', 'r']
  else if c = '\t' then ['\\', 't']
  else if c = '\x0c' then ['\\', 'f']
  else if c = '\x08' then ['\\', 'b']
  else if 32 ≤ c.toNat && c.toNat < 127 then [c]
  else if c.toNat < 0x10000 then unitEscape c.toNat
  else
    let (high, low) := halves c.toNat
    unitEscape high ++ unitEscape low

/-- A text between double quotes. -/
def quote (s : String) : String :=
  String.ofList ('"' :: s.toList.flatMap quoteChar ++ ['"'])

/-- A number; the infinities and the NaN have names. -/
def writeReal : Binary64 → String
  | .nan => "NaN"
  | .infinite negative => if negative then "-Infinity" else "Infinity"
  | x => x.text

/-- A value without parts. -/
def writeScalar : Scalar → String
  | .null => "null"
  | .bool b => if b then "true" else "false"
  | .int n => toString n
  | .real x => writeReal x
  | .text s => quote s
  | s => quote s.display

/-- How the parts of a value are set apart. -/
structure Layout where
  /-- What stands before an item at a depth. -/
  lead : Nat → String
  /-- What separates two items besides that. -/
  comma : String

/-- Every item on a line of its own, two blanks deeper than what holds it. -/
def Layout.block : Layout where
  lead depth := "\n" ++ String.ofList (List.replicate (2 * depth) ' ')
  comma := ","

/-- Everything on one line. -/
def Layout.line : Layout where
  lead _ := ""
  comma := ", "

/-- The written items between brackets. -/
def Layout.enclose (l : Layout) (depth : Nat) (opening closing : String) (items : List String) :
    String :=
  if items.isEmpty then opening ++ closing
  else opening ++ l.lead (depth + 1) ++ (l.comma ++ l.lead (depth + 1)).intercalate items
    ++ l.lead depth ++ closing

mutual

/-- A value at a depth. A value that contains itself has no such form; null ends it. -/
def writeAt (l : Layout) (depth : Nat) : Data → String
  | .scalar s => writeScalar s
  | .list xs => l.enclose depth "[" "]" (writeItems l (depth + 1) xs)
  | .mapping es => l.enclose depth "\x7b" "\x7d" (writeFields l (depth + 1) es)
  | .set xs => l.enclose depth "[" "]" (writeItems l (depth + 1) xs)
  | .pair a b => l.enclose depth "[" "]" [writeAt l (depth + 1) a, writeAt l (depth + 1) b]
  | .knot _ b => writeAt l depth b
  | .again _ => "null"
termination_by structural d => d

/-- Items at a depth. -/
def writeItems (l : Layout) (depth : Nat) : List Data → List String
  | [] => []
  | x :: xs => writeAt l depth x :: writeItems l depth xs
termination_by structural d => d

/-- Keys and values at a depth. -/
def writeFields (l : Layout) (depth : Nat) : List (Data × Data) → List String
  | [] => []
  | (k, v) :: es => (quote k.display ++ ": " ++ writeAt l depth v) :: writeFields l depth es
termination_by structural d => d

end

/-- A value on lines of its own. -/
def write (d : Data) : String :=
  writeAt .block 0 d

/-- A value on one line. -/
def writeLine (d : Data) : String :=
  writeAt .line 0 d

end TaggedComments.Json
