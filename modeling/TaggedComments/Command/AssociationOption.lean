import TaggedComments.Data.Basic
import TaggedComments.Failure
import TaggedComments.Text.Blank
import TaggedComments.Text.Split

/-!
# Associations on the command line

An option may name the parsers of an extension: the extension, an equals sign, and the parsers
with plus signs between them.

- `AssociationOption` is such an option taken apart, `AssociationOption.ofString` reads one.
- `AssociationOption.readAll` are the associations of several options, `readGiven` of several that
  may have lost their texts.
-/

namespace TaggedComments

/-- The parsers of an extension. -/
structure AssociationOption where
  /-- The extension. -/
  extension : String
  /-- The names of its parsers. -/
  parsers : List String
  deriving DecidableEq

namespace AssociationOption

/-- The text before the first equals sign and the text after it. -/
def divide? : List Char → Option (List Char × List Char)
  | [] => none
  | c :: s => if c = '=' then some ([], s) else (divide? s).map fun x => (c :: x.1, x.2)

/-- The names between plus signs, trimmed; empty ones do not count. -/
def namesOf (s : List Char) : List String :=
  (((Text.splitOn '+' s).map Text.trim).filter (!·.isEmpty)).map String.ofList

/-- Read an association. Something has to follow the equals sign. -/
def ofString (given : String) : Except Failure AssociationOption :=
  match divide? given.toList with
  | some (extension, c :: s) => .ok ⟨String.ofList (Text.trim extension), namesOf (c :: s)⟩
  | _ => .error (.badAssociation given)

/-- An association as an entry of a mapping. -/
def toEntry (a : AssociationOption) : Data × Data :=
  (.text a.extension, .mapping [(.text "parser_name", .list (a.parsers.map .text))])

/-- The associations of options: the last one for an extension counts, in the place of the first. -/
def readAll (given : List String) : Except Failure (List (Data × Data)) :=
  (given.mapM ofString).map fun as => Data.putAll [] (as.map toEntry)

/-- Read an association that may have lost its text; without one it cannot be divided. -/
def ofGiven : Option String → Except Failure AssociationOption
  | some given => ofString given
  | none => .error .noSuchPart

/-- The associations of options that may have lost their texts. -/
def readGiven (given : List (Option String)) : Except Failure (List (Data × Data)) :=
  (given.mapM ofGiven).map fun as => Data.putAll [] (as.map toEntry)

end AssociationOption

end TaggedComments
