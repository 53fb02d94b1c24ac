import TaggedComments.Text.Base64
import TaggedComments.Yaml.Number

/-!
# Values of scalars

A scalar of a kind stands for a value, if its text has the form that the kind asks for.

- `Kind.scalar?` is the value of a scalar of a kind; collections have none.
- `isPointNan` tells the NaN that is written with a point from one that is written as a number.
-/

namespace TaggedComments.Yaml

/-- The truth value of a word. -/
def truthOf (text : String) : Except Failure Bool :=
  let word := Text.lowerString text
  if ["yes", "true", "on"].contains word then .ok true
  else if ["no", "false", "off"].contains word then .ok false
  else .error (.unknownWord word)

/-- The day or moment of a scalar; a line feed at its end does not count. -/
def stampOf (text : String) : Except Failure Stamp :=
  match StampText.read? (Kind.withoutLineEnd text).toList with
  | some t => t.stamp
  | none => .error .noSuchPart

/-- The bytes of a scalar, which is written in ASCII. -/
def bytesOf (text : String) : Except Fault (List Nat) :=
  match Text.Base64.decode? text.toList with
  | some bytes =>
    if text.toList.all fun c => c.toNat < 128 then .ok bytes else .error .malformed
  | none => .error .malformed

/-- Whether the text of a floating point number is the word for a NaN that has a point. -/
def isPointNan (text : String) : Bool :=
  (Binary64.splitSign (Text.lower (ungrouped text))).2 = ['.', 'n', 'a', 'n']

namespace Kind

/-- The value of a scalar of a kind, if scalars of the kind have values. -/
def scalar? (kind : Kind) (text : String) : Option (Except Fault Scalar) :=
  match kind with
  | null => some (.ok .null)
  | bool => some (((truthOf text).map .bool).mapError .failure)
  | int => some (((intOf text).map .int).mapError .failure)
  | real => some (((realOf text).map .real).mapError .failure)
  | stamp => some (((stampOf text).map .stamp).mapError .failure)
  | Kind.text => some (.ok (.text text))
  | binary => some ((bytesOf text).map .bytes)
  | list | mapping | set | pairs | merge | value => none

/-- Whether scalars of a kind have values. -/
def isScalar (kind : Kind) : Bool :=
  (kind.scalar? "").isSome

end Kind

end TaggedComments.Yaml
