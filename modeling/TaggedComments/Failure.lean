import TaggedComments.Data.Literal

/-!
# Failures

What can go wrong, by cause. Every cause that is reported to a user has its wording in
`Failure.message`; the causes without wording are values of a kind that an operation does not
take.

- `Failure` lists the causes.
- `Failure.message` words them.
- `Failure.field?` names the part of the input that a refused entry or option is about.
-/

namespace TaggedComments

/-- What is wrong with a text in the list notation, and where. -/
inductive JsonFault where
  /-- A value is missing. -/
  | value
  /-- A key in double quotes is missing. -/
  | propertyName
  /-- A colon is missing. -/
  | colon
  /-- A comma is missing. -/
  | comma
  /-- A quoted text does not end. -/
  | unterminated
  /-- A control character stands inside a quoted text. -/
  | control
  /-- A backslash escapes nothing. -/
  | escape
  /-- Four hexadecimal digits are missing. -/
  | hexEscape
  /-- Something follows the value. -/
  | extra
  /-- The text starts with a byte order mark. -/
  | mark
  deriving DecidableEq

/-- Why bytes are not text. -/
inductive ByteFault where
  /-- The byte starts no character. -/
  | start
  /-- The byte does not continue a character. -/
  | continuation
  /-- The bytes end inside a character. -/
  | truncated
  deriving DecidableEq

/-- What went wrong. -/
inductive Failure where
  /-- Custom tags are not a list. -/
  | tagsNotList
  /-- A custom tag is not a text with a visible character. -/
  | badTag (given : Data)
  /-- A request names no extension. -/
  | extensionMissing
  /-- The content of a request is not text. -/
  | contentNotText
  /-- An extension is not a point followed by something. -/
  | badExtension (given : Data)
  /-- An association names no parser. -/
  | parserMissing (extension : String)
  /-- The name of a parser is not a text with characters. -/
  | badParserName (extension : String) (given : Data)
  /-- The included extensions are not a list. -/
  | includedNotList (extension : String)
  /-- Associations are not a mapping. -/
  | entriesNotMapping
  /-- No parser is registered for an extension. -/
  | unsupported (extension : String)
  /-- No parser has this name. -/
  | unknownParser (name : String)
  /-- A line number is not a positive integer. -/
  | badLine (given : Data)
  /-- A text is not an integer. -/
  | badInteger (base : Nat) (given : String)
  /-- A text has more digits than are read. -/
  | tooManyDigits (count : Nat)
  /-- An integer has more digits than are written. -/
  | numberTooLong
  /-- A NaN has no integer part. -/
  | integerOfNan
  /-- A value cannot be laid out as text of a fixed width. -/
  | notPaddable (kind : String)
  /-- No report has this name. -/
  | unknownReporter (name : String)
  /-- An item of a list of associations has not two parts. -/
  | badPair (index length : Nat)
  /-- A parser gave up. -/
  | parserFailed (message : String)
  /-- An association on the command line is malformed. -/
  | badAssociation (given : String)
  /-- An ignore pattern is malformed. -/
  | badIgnorePattern (given : String)
  /-- A file is not text. -/
  | undecodable (byte : Nat) (start last : Nat) (fault : ByteFault)
  /-- A comment list is not a list of objects. -/
  | reportNotList
  /-- A comment list is malformed. -/
  | badJson (fault : JsonFault) (line column offset : Nat)
  /-- A file does not exist. -/
  | noSuchFile (path : String)
  /-- A path runs through a file. -/
  | notDirectory (path : String)
  /-- A directory stands where a file is needed. -/
  | isDirectory (path : String)
  /-- A scalar of a configuration file has no value. -/
  | badValue (message : String)
  /-- A word of a configuration file is no truth value. -/
  | unknownWord (word : String)
  /-- A number of a configuration file has no characters. -/
  | emptyNumber
  /-- A scalar of a configuration file stands for itself. -/
  | endless
  /-- A value has a kind that the operation does not take. -/
  | wrongKind
  /-- A value has no such part or operation. -/
  | noSuchPart
  /-- A number is too large for an integer. -/
  | tooLarge
  /-- A range of characters runs backward. -/
  | badRange
  deriving DecidableEq

namespace JsonFault

/-- The wording of a fault. -/
def message : JsonFault → String
  | value => "Expecting value"
  | propertyName => "Expecting property name enclosed in double quotes"
  | colon => "Expecting ':' delimiter"
  | comma => "Expecting ',' delimiter"
  | unterminated => "Unterminated string starting at"
  | control => "Invalid control character at"
  | escape => "Invalid \\escape"
  | hexEscape => "Invalid \\uXXXX escape"
  | extra => "Extra data"
  | mark => "Unexpected UTF-8 BOM (decode using utf-8-sig)"

end JsonFault

namespace ByteFault

/-- The wording of a fault. -/
def message : ByteFault → String
  | start => "invalid start byte"
  | continuation => "invalid continuation byte"
  | truncated => "unexpected end of data"

end ByteFault

namespace Failure

/-- The names of the reports, in the order in which they are offered. -/
def reporterNames : List String := ["table", "json", "raw", "markdown", "xml"]

/-- How the bytes that are not text are named: one by its value, several by their positions. -/
def bytesText (byte start last : Nat) : String :=
  if start = last then
    "byte 0x" ++ String.ofList (Text.hexDigits 2 byte) ++ " in position " ++ toString start
  else "bytes in position " ++ toString start ++ "-" ++ toString last

/-- What is said about an integer with too many digits. -/
def digitLimit : String := "Exceeds the limit (4300 digits) for integer string conversion"

/-- What helps against integers with too many digits. -/
def digitAdvice : String := "; use sys.set_int_max_str_digits() to increase the limit"

/-- The wording of a failure; a value of a wrong kind has none. -/
def message : Failure → Option String
  | tagsNotList => some "\x60custom_tags\x60 must be a list of strings"
  | badTag d => some ("\x60custom_tags\x60 must only contain non-empty strings, got " ++ d.literal)
  | extensionMissing => some "\x60extension\x60 is required"
  | contentNotText => some "\x60content\x60 must be a string"
  | badExtension d => some ("Cannot register extension: invalid extension " ++ d.literal)
  | parserMissing e =>
    some ("Cannot register extension " ++ e ++ ": \x60parser_name\x60 is missing")
  | badParserName e d =>
    some ("Cannot register extension " ++ e ++ ": invalid parser name " ++ d.literal)
  | includedNotList e =>
    some ("Cannot register extension " ++ e ++ ": \x60included_files\x60 must be a list")
  | entriesNotMapping => some "extension entries must be a mapping"
  | unsupported e => some ("extension " ++ e ++ " is not supported")
  | unknownParser n => some ("unknown parser: " ++ n)
  | badLine d => some ("line must be a positive integer, got " ++ d.literal)
  | badInteger base s =>
    some ("invalid literal for int() with base " ++ toString base ++ ": "
      ++ String.ofList ((Text.quoted s.toList).take 200))
  | tooManyDigits n =>
    some (digitLimit ++ ": value has " ++ toString n ++ " digits" ++ digitAdvice)
  | numberTooLong => some (digitLimit ++ digitAdvice)
  | integerOfNan => some "cannot convert float NaN to integer"
  | notPaddable kind => some ("Unknown format code 's' for object of type '" ++ kind ++ "'")
  | unknownReporter n =>
    some ("Unknown reporter: " ++ n ++ " (choose from " ++ ", ".intercalate reporterNames ++ ")")
  | badPair i n =>
    some ("dictionary update sequence element #" ++ toString i ++ " has length " ++ toString n
      ++ "; 2 is required")
  | parserFailed m => some m
  | badAssociation s =>
    some ("invalid association " ++ Text.quotedString s ++ ", expected .ext=parser")
  | badIgnorePattern s => some ("Invalid git pattern: " ++ Text.quotedString s)
  | undecodable b start last f =>
    some ("'utf-8' codec can't decode " ++ bytesText b start last ++ ": " ++ f.message)
  | reportNotList => some "report input must be a JSON list of todo objects"
  | badJson f line column offset =>
    some (f.message ++ ": line " ++ toString line ++ " column " ++ toString column ++ " (char "
      ++ toString offset ++ ")")
  | noSuchFile p => some ("[Errno 2] No such file or directory: " ++ Text.quotedString p)
  | notDirectory p => some ("[Errno 20] Not a directory: " ++ Text.quotedString p)
  | isDirectory p => some ("[Errno 21] Is a directory: " ++ Text.quotedString p)
  | badValue m => some m
  | unknownWord w => some (Text.quotedString w)
  | emptyNumber => some "string index out of range"
  | endless => some "maximum recursion depth exceeded"
  | wrongKind => none
  | noSuchPart => none
  | tooLarge => none
  | badRange => none

/-- The part of the input that a refused entry or option is about. -/
def field? : Failure → Option String
  | tagsNotList => some "custom_tags"
  | badTag _ => some "custom_tags"
  | extensionMissing => some "extension"
  | contentNotText => some "content"
  | badExtension _ => some "extension"
  | parserMissing _ => some "parser_name"
  | badParserName _ _ => some "parser_name"
  | includedNotList _ => some "included_files"
  | entriesNotMapping => some "entries"
  | _ => none

/-- A failure whose wording shows a value: an integer in it that is too long to be written is the
failure instead. -/
def showing (d : Data) (f : Failure) : Failure :=
  if d.isWritable then f else numberTooLong

@[simp] theorem showing_text (s : String) (f : Failure) : showing (.text s) f = f := rfl

end Failure

end TaggedComments
