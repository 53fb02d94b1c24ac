import TaggedComments.Text.Split
import TaggedComments.Yaml.Stamp

/-!
# Kinds of nodes

What a node stands for is written as a tag, or follows from the form of a plain scalar.

- `Kind` lists the kinds that have a value.
- `Kind.named?` is the kind of a tag, `Kind.ofPlain` that of a plain scalar.
-/

namespace TaggedComments.Yaml

/-- What a node stands for. -/
inductive Kind where
  /-- Nothing. -/
  | null
  /-- A truth value. -/
  | bool
  /-- An integer. -/
  | int
  /-- A floating point number. -/
  | real
  /-- Bytes. -/
  | binary
  /-- A day or a moment. -/
  | stamp
  /-- A text. -/
  | text
  /-- A list. -/
  | list
  /-- A mapping. -/
  | mapping
  /-- A set. -/
  | set
  /-- A list of keys with values. -/
  | pairs
  /-- The key of mappings to merge. -/
  | merge
  /-- The key of the value that stands for a mapping. -/
  | value
  deriving DecidableEq

namespace Kind

/-- What the names of all kinds start with. -/
def nameSpace : String := "tag:yaml.org,2002:"

/-- Kinds and the ends of their tags. -/
def names : List (String × Kind) := [
  ("null", null), ("bool", bool), ("int", int), ("float", real), ("binary", binary),
  ("timestamp", stamp), ("str", text), ("seq", list), ("map", mapping), ("set", set),
  ("omap", pairs), ("pairs", pairs), ("merge", merge), ("value", value)]

/-- The kind of a tag. -/
def named? (tag : String) : Option Kind :=
  (names.find? fun n => nameSpace ++ n.1 = tag).map (·.2)

/-! ## Forms of plain scalars -/

/-- The words for truth values, in the three ways to write capital letters. -/
def truthWords : List String := [
  "yes", "Yes", "YES", "no", "No", "NO", "true", "True", "TRUE", "false", "False", "FALSE",
  "on", "On", "ON", "off", "Off", "OFF"]

/-- The words for nothing. -/
def nullWords : List String := ["", "~", "null", "Null", "NULL"]

/-- The text without a sign in front. -/
def unsigned : List Char → List Char
  | [] => []
  | c :: s => if c == '+' || c == '-' then s else c :: s

/-- A digit, then digits and underscores. -/
def isGrouped : List Char → Bool
  | [] => false
  | c :: s => c.isDigit && s.all fun d => d.isDigit || d == '_'

/-- One or more characters of a class or underscores. -/
def isRun (p : Char → Bool) (s : List Char) : Bool :=
  !s.isEmpty && s.all fun c => p c || c == '_'

/-- A number below sixty of one or two digits. -/
def isSixtieth : List Char → Bool
  | [c] => c.isDigit
  | [c, d] => '0' ≤ c && c ≤ '5' && d.isDigit
  | _ => false

/-- Numbers below sixty after a first number of any size, between colons. -/
def isSexagesimal (s : List Char) : Bool :=
  match Text.splitOn ':' s with
  | first :: second :: more => isGrouped first && (second :: more).all isSixtieth
  | _ => false

/-- Whether a text is an integer: binary, octal after a zero, hexadecimal, decimal, or in
sixties. -/
def isInt (s : List Char) : Bool :=
  match unsigned s with
  | ['0'] => true
  | '0' :: 'b' :: r => isRun (fun c => c == '0' || c == '1') r
  | '0' :: 'x' :: r =>
    isRun (fun c => c.isDigit || ('a' ≤ c && c ≤ 'f') || ('A' ≤ c && c ≤ 'F')) r
  | '0' :: r => isRun (fun c => '0' ≤ c && c ≤ '7') r
  | r => isGrouped r || isSexagesimal r

/-- Nothing, or the letter of an exponent, a sign and digits. -/
def isExponent : List Char → Bool
  | [] => true
  | c :: d :: s =>
    (c == 'e' || c == 'E') && (d == '+' || d == '-') && !s.isEmpty && s.all Char.isDigit
  | _ => false

/-- Whether a text is a floating point number: with a point, or the word for one. -/
def isReal (s : List Char) : Bool :=
  let r := unsigned s
  let (whole, rest) := r.span (· != '.')
  match rest with
  | [] => false
  | _ :: tail =>
    let (fraction, exponent) := tail.span fun c => c.isDigit || c == '_'
    (isGrouped whole && isExponent exponent)
      || (whole.isEmpty && r == s && isGrouped fraction && isExponent exponent)
      || (isSexagesimal whole && exponent.isEmpty)
      || [".inf", ".Inf", ".INF"].contains (String.ofList r)
      || [".nan", ".NaN", ".NAN"].contains (String.ofList s)

/-- The text without a line feed at its end, if it is longer than that. -/
def withoutLineEnd (text : String) : String :=
  let s := text.toList
  if s.length != 1 && s.getLast? == some '\n' then String.ofList s.dropLast else text

/-- The kind of a scalar by its form, a line feed at its end left out: none if nothing can be
written like this. -/
def ofPlain (given : String) : Option Kind :=
  let text := withoutLineEnd given
  let s := text.toList
  if truthWords.contains text then some bool
  else if isReal s then some real
  else if isInt s then some int
  else if text = "<<" then some merge
  else if nullWords.contains text then some null
  else if StampText.isWritten s then some stamp
  else if text = "=" then some value
  else if text = "!" || text = "&" || text = "*" then none
  else some Kind.text

end Kind

end TaggedComments.Yaml
