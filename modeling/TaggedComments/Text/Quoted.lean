import TaggedComments.Text.Printable

/-!
# Quoted text

Messages show a text between quotes, with everything that is not printable escaped.

- `quoted` is the text between quotes: apostrophes, or double quotes for a text that holds an
  apostrophe and no double quote.
- `escapeChar` writes one character: the backslash and the quote in use after a backslash, the
  common controls by letter, other unprintable characters by their number.
- `quotedBytes` shows a sequence of bytes in the same way.
-/

namespace TaggedComments.Text

/-- The last `width` hexadecimal digits of a number. -/
def hexDigits (width n : Nat) : List Char :=
  let ds := Nat.toDigits 16 n
  List.replicate (width - ds.length) '0' ++ ds

/-- The quote that stands around a text. -/
def quoteFor (s : List Char) : Char :=
  if s.contains '\'' && !s.contains '"' then '"' else '\''

/-- The number of an unprintable character after a backslash, in the shortest of three widths. -/
def escapeNumber (n : Nat) : List Char :=
  if n < 0x100 then '\\' :: 'x' :: hexDigits 2 n
  else if n < 0x10000 then '\\' :: 'u' :: hexDigits 4 n
  else '\\' :: 'U' :: hexDigits 8 n

/-- One character inside quotes. -/
def escapeChar (quote c : Char) : List Char :=
  if c = '\\' || c = quote then ['\\', c]
  else if c = '\n' then ['\\', 'n']
  else if c = '\r' then ['\\', 'r']
  else if c = '\t' then ['\\', 't']
  else if isPrintable c then [c]
  else escapeNumber c.toNat

/-- A text between quotes. -/
def quoted (s : List Char) : List Char :=
  let quote := quoteFor s
  quote :: s.flatMap (escapeChar quote) ++ [quote]

/-- A string between quotes. -/
def quotedString (s : String) : String :=
  String.ofList (quoted s.toList)

/-- Bytes between quotes, each that is no printable ASCII character by its number. -/
def quotedBytes (bytes : List Nat) : List Char :=
  let cs := bytes.map Char.ofNat
  let quote := quoteFor cs
  let one (c : Char) : List Char :=
    if c.toNat < 128 then escapeChar quote c else escapeNumber c.toNat
  'b' :: quote :: cs.flatMap one ++ [quote]

end TaggedComments.Text
