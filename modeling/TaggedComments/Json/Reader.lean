import TaggedComments.Failure
import TaggedComments.Number.Integer

/-!
# Reading JSON

Values are read from JSON text with every fault placed at the character where it shows.

- `Json.read` reads a text that holds one value.
- `Json.readText`, `Json.readNumber` read the leaves; `Json.readValue` any value at the front of a
  text.

Besides the standard notation the names of the infinities and of the NaN are read, integers are
exact, and a repeated key keeps its first place and its last value.
-/

namespace TaggedComments.Json

/-- Why reading stops: a fault and the text from the place where it shows, or an integer with too
many digits. -/
inductive Stop where
  /-- A fault of the notation. -/
  | fault (what : JsonFault) (rest : List Char)
  /-- An integer of this many digits. -/
  | digits (count : Nat)

/-- A value read at the front of a text, and the rest of the text. -/
abbrev Reading (α : Type) := Except Stop (α × List Char)

/-- White space between the parts of a value. -/
def isSpace (c : Char) : Bool :=
  c == ' ' || c == '\n' || c == '\r' || c == '\t'

/-- The text without white space in front. -/
def skipSpace (s : List Char) : List Char :=
  s.dropWhile isSpace

/-! ## Quoted text -/

/-- The value of a hexadecimal digit. -/
def hexValue? (c : Char) : Option Nat :=
  if '0' ≤ c && c ≤ '9' then some (c.toNat - '0'.toNat)
  else if 'a' ≤ c && c ≤ 'f' then some (c.toNat - 'a'.toNat + 10)
  else if 'A' ≤ c && c ≤ 'F' then some (c.toNat - 'A'.toNat + 10)
  else none

/-- Four hexadecimal digits at the front, with something after them. -/
def hexQuad? : List Char → Option (Nat × List Char)
  | a :: b :: c :: d :: e :: r => do
    let w ← hexValue? a
    let x ← hexValue? b
    let y ← hexValue? c
    let z ← hexValue? d
    return (((w * 16 + x) * 16 + y) * 16 + z, e :: r)
  | _ => none

/-- Whether a unit is the first half of a pair. -/
def isHighHalf (n : Nat) : Bool := 0xD800 ≤ n && n < 0xDC00

/-- Whether a unit is the second half of a pair. -/
def isLowHalf (n : Nat) : Bool := 0xDC00 ≤ n && n < 0xE000

/-- The character that two halves make. -/
def joinHalves (high low : Nat) : Char :=
  Char.ofNat (0x10000 + (high - 0xD800) * 0x400 + (low - 0xDC00))

/-- The character that one unit makes; half of a pair alone is replaced. -/
def ofUnit (n : Nat) : Char :=
  if isHighHalf n || isLowHalf n then '\ufffd' else Char.ofNat n

/-- The character after a backslash and a letter. -/
def simpleEscape? : Char → Option Char
  | '"' => some '"'
  | '\\' => some '\\'
  | '/' => some '/'
  | 'b' => some '\x08'
  | 'f' => some '\x0c'
  | 'n' => some '\n'
  | 'r' => some '\r'
  | 't' => some '\t'
  | _ => none

/-- The second half of a pair, if it follows. -/
def lowHalf? : List Char → Option (Nat × List Char) ⊕ List Char
  | '\\' :: 'u' :: r =>
    match r with
    | _ :: _ :: _ :: _ :: _ :: _ =>
      match hexQuad? r with
      | some (n, rest) => .inl (if isLowHalf n then some (n, rest) else none)
      | none => .inr ('u' :: r)
    | _ => .inl none
  | _ => .inl none

/-- The characters up to the closing quote. The text from the opening quote serves to place a
missing one; the fuel bounds the number of characters. -/
def readChars (opening : List Char) : Nat → List Char → Reading (List Char)
  | 0, _ => .error (.fault .unterminated opening)
  | _, [] => .error (.fault .unterminated opening)
  | fuel + 1, c :: r =>
    if c = '"' then .ok ([], r)
    else if c = '\\' then
      match r with
      | [] => .error (.fault .unterminated opening)
      | 'u' :: r' =>
        match hexQuad? r' with
        | none => .error (.fault .hexEscape r)
        | some (n, rest) =>
          if isHighHalf n then
            match lowHalf? rest with
            | .inr place => .error (.fault .hexEscape place)
            | .inl (some (m, rest')) =>
              (readChars opening fuel rest').map fun x => (joinHalves n m :: x.1, x.2)
            | .inl none => (readChars opening fuel rest).map fun x => (ofUnit n :: x.1, x.2)
          else (readChars opening fuel rest).map fun x => (ofUnit n :: x.1, x.2)
      | e :: r' =>
        match simpleEscape? e with
        | some d => (readChars opening fuel r').map fun x => (d :: x.1, x.2)
        | none => .error (.fault .escape (c :: r))
    else if c.toNat < 32 then .error (.fault .control (c :: r))
    else (readChars opening fuel r).map fun x => (c :: x.1, x.2)

/-- A quoted text whose opening quote has been read. -/
def readText (s : List Char) : Reading String :=
  (readChars ('"' :: s) (s.length + 1) s).map fun x => (String.ofList x.1, x.2)

/-! ## Numbers -/

/-- The ASCII digits at the front. -/
def takeDigits (s : List Char) : List Char × List Char :=
  (s.takeWhile Char.isDigit, s.dropWhile Char.isDigit)

/-- The number that ASCII digits stand for. -/
def digitsValue (ds : List Char) : Nat :=
  Integer.ofDigits (ds.map fun c => c.toNat - '0'.toNat)

/-- The whole part of a number: one zero, or digits that do not start with zero. -/
def wholePart? : List Char → Option (List Char × List Char)
  | '0' :: r => some (['0'], r)
  | c :: r => if c.isDigit then some (takeDigits (c :: r)) else none
  | [] => none

/-- The digits after a point; without digits nothing is read. -/
def fraction : List Char → List Char × List Char
  | '.' :: r =>
    let (ds, rest) := takeDigits r
    if ds.isEmpty then ([], '.' :: r) else (ds, rest)
  | s => ([], s)

/-- An exponent; without digits nothing is read. -/
def exponent? : List Char → Option (Int × List Char)
  | e :: r =>
    if e = 'e' || e = 'E' then
      let (negative, r) := match r with
        | '-' :: r' => (true, r')
        | '+' :: r' => (false, r')
        | _ => (false, r)
      let (ds, rest) := takeDigits r
      if ds.isEmpty then none
      else
        let n := Int.ofNat (digitsValue ds)
        some (if negative then -n else n, rest)
    else none
  | [] => none

/-- A number at the front of a text. -/
def readNumber (s : List Char) : Reading Data :=
  let (negative, r) := match s with
    | '-' :: r => (true, r)
    | _ => (false, s)
  match wholePart? r with
  | none => .error (.fault .value s)
  | some (whole, r) =>
    let (frac, r) := fraction r
    match frac, exponent? r with
    | [], none =>
      if Integer.maxDigits < whole.length then .error (.digits whole.length)
      else
        let n := Int.ofNat (digitsValue whole)
        .ok (.int (if negative then -n else n), r)
    | _, some (e, r) =>
      .ok (.real (.ofDecimal negative (digitsValue (whole ++ frac)) (e - Int.ofNat frac.length)), r)
    | _, none =>
      .ok (.real (.ofDecimal negative (digitsValue (whole ++ frac)) (-Int.ofNat frac.length)), r)

/-! ## Values

The fuel bounds the depth of the calls. Every second call goes over a character, so twice the number
of characters is enough. -/

/-- The named values. -/
def names : List (List Char × Data) :=
  [("null".toList, .null), ("true".toList, .bool true), ("false".toList, .bool false),
    ("NaN".toList, .real .nan), ("Infinity".toList, .real (.infinite false)),
    ("-Infinity".toList, .real (.infinite true))]

/-- A named value at the front of a text. -/
def readName? (s : List Char) : Option (Data × List Char) :=
  names.findSome? fun (name, d) => if name.isPrefixOf s then some (d, s.drop name.length) else none

mutual

/-- A value at the front of a text. -/
def readValue : Nat → List Char → Reading Data
  | 0, s => .error (.fault .value s)
  | fuel + 1, s =>
    match s with
    | '"' :: r => (readText r).map fun x => (.text x.1, x.2)
    | '[' :: r =>
      match skipSpace r with
      | ']' :: r => .ok (.list [], r)
      | r => (readItems fuel r).map fun x => (.list x.1, x.2)
    | '\x7b' :: r =>
      match skipSpace r with
      | '\x7d' :: r => .ok (.mapping [], r)
      | r => (readFields fuel [] r).map fun x => (.mapping x.1, x.2)
    | s =>
      match readName? s with
      | some x => .ok x
      | none => readNumber s

/-- The items of a list and its closing bracket. -/
def readItems : Nat → List Char → Except Stop (List Data × List Char)
  | 0, s => .error (.fault .value s)
  | fuel + 1, s => do
    let (d, r) ← readValue fuel s
    match skipSpace r with
    | ']' :: r => return ([d], r)
    | ',' :: r =>
      let (ds, r) ← readItems fuel (skipSpace r)
      return (d :: ds, r)
    | r => .error (.fault .comma r)

/-- The fields of an object after some entries, and its closing brace. -/
def readFields :
    Nat → List (Data × Data) → List Char → Except Stop (List (Data × Data) × List Char)
  | 0, _, s => .error (.fault .propertyName s)
  | fuel + 1, entries, s => do
    match s with
    | '"' :: r =>
      let (key, r) ← readText r
      match skipSpace r with
      | ':' :: r =>
        let (d, r) ← readValue fuel (skipSpace r)
        let entries := Data.put (.text key) d entries
        match skipSpace r with
        | '\x7d' :: r => return (entries, r)
        | ',' :: r => readFields fuel entries (skipSpace r)
        | r => .error (.fault .comma r)
      | r => .error (.fault .colon r)
    | s => .error (.fault .propertyName s)

end

/-- The place of a fault as a failure: line, column and offset. -/
def failureAt (doc : List Char) (fault : JsonFault) (rest : List Char) : Failure :=
  let offset := doc.length - rest.length
  let front := doc.take offset
  .badJson fault (front.count '\n' + 1) ((front.reverse.takeWhile (· != '\n')).length + 1) offset

/-- The value that a text holds. -/
def readChars? (doc : List Char) : Except Failure Data :=
  if doc.head? == some '\ufeff' then .error (failureAt doc .mark doc)
  else
    match readValue (2 * doc.length + 2) (skipSpace doc) with
    | .error (.fault f rest) => .error (failureAt doc f rest)
    | .error (.digits n) => .error (.tooManyDigits n)
    | .ok (d, rest) =>
      match skipSpace rest with
      | [] => .ok d
      | rest => .error (failureAt doc .extra rest)

/-- The value that a string holds. -/
def read (doc : String) : Except Failure Data :=
  readChars? doc.toList

end TaggedComments.Json
