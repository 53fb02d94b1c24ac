import TaggedComments.Failure
import TaggedComments.Number.Integer

/-!
# Taking values apart

Values of unknown kind are read with these operations, which fail when the kind does not have
the part that is asked for.

- `Data.field` is a field of a mapping, `Data.elements` are the elements of whatever has some.
- `Data.toInt` is the integer that a number or a text stands for.
- `Data.asKey` is a value as a key of a table with text keys.
- `Data.shown` is a value as a report shows it.
-/

namespace TaggedComments.Data

/-- A field of a mapping; nothing else has fields. -/
def field (key : String) (d : Data) : Except Failure (Option Data) :=
  match d.unfold with
  | .mapping es => .ok (lookup? (.text key) es)
  | _ => .error .noSuchPart

/-- The elements of a value: the characters of a text, the keys of a mapping. -/
def elements (d : Data) : Except Failure (List Data) :=
  match d.unfold with
  | .list xs => .ok xs
  | .mapping es => .ok (es.map (·.1))
  | .set xs => .ok xs
  | .pair a b => .ok [a, b]
  | .scalar (.text s) => .ok (s.toList.map fun c => .text (String.singleton c))
  | .scalar (.bytes b) => .ok (b.map fun n => .int (Int.ofNat n))
  | _ => .error .wrongKind

/-- The items of a list or a pair. -/
def asSequence? (d : Data) : Option (List Data) :=
  match d.unfold with
  | .list xs => some xs
  | .pair a b => some [a, b]
  | _ => none

/-- The integer that a value stands for: a number without its fraction, or a text. -/
def toInt : Data → Except Failure Int
  | .int n => .ok n
  | .bool b => .ok (if b then 1 else 0)
  | .real x =>
    match x.truncate? with
    | some n => .ok n
    | none => .error (if x = .nan then .integerOfNan else .tooLarge)
  | .text s =>
    match Integer.readInt s.toList with
    | .ok n => .ok n
    | .error .malformed => .error (.badInteger 10 s)
    | .error (.tooManyDigits n) => .error (.tooManyDigits n)
  | _ => .error .wrongKind

/-- The value as a key of a table with text keys: only a text can be found there, and what cannot
be a key fails. -/
def asKey (d : Data) : Except Failure (Option String) :=
  if d.isKey then .ok d.asText? else .error .wrongKind

/-- The value as a report shows it, unless an integer in it is too long. -/
def shown (d : Data) : Except Failure String :=
  if d.isWritable then .ok d.display else .error .numberTooLong

@[simp] theorem shown_text (s : String) : shown (.text s) = .ok s := rfl

@[simp] theorem asKey_text (s : String) : asKey (.text s) = .ok (some s) := rfl

end TaggedComments.Data
