import TaggedComments.Distinct
import TaggedComments.Failure
import TaggedComments.Text.Blank
import TaggedComments.Text.Upper

/-!
# Tags

The words that make a comment worth reporting: two builtin ones and those a request adds.

- `Tags.validate` checks the tags of a request.
- `Tags.all` lists the tags in force: upper case, the custom ones first, each once.
- `Tags.byLength` is the order in which tags are tried: the longer first.
- `Tags.expression` writes the form of a tagged text as a regular expression.
-/

namespace TaggedComments.Tags

/-- The tags that are always in force. -/
def builtin : List String := ["TODO", "FIXME"]

/-- A tag of a request: a text with a character that is not white space, taken without the white
space around it. -/
def readTag (d : Data) : Except Failure String :=
  match d with
  | .text s =>
    let t := Text.trimString s
    if t.isEmpty then .error (.badTag d) else .ok t
  | _ => .error (.badTag d)

/-- The custom tags of a request: none, or a list of texts. The first tag that is none decides
the failure. -/
def validate : Data → Except Failure (List String)
  | .null => .ok []
  | .list items => items.mapM readTag
  | _ => .error .tagsNotList

/-- Tags that were not validated: each has to be a text. -/
def ofItems (items : List Data) : Except Failure (List String) :=
  items.mapM fun d => match d.asText? with
    | some s => .ok s
    | none => .error .noSuchPart

/-- A string in upper case. -/
def upperString (s : String) : String :=
  String.ofList (Text.upper s.toList)

/-- The tags in force. -/
def all (custom : List String) : List String :=
  distinct ((custom ++ builtin).map upperString)

/-- The tags in the order in which they are tried: a longer one before a shorter one, so that a
tag is not taken for one that it begins with; tags of one length in their own order. -/
def byLength (tags : List String) : List (List Char) :=
  (tags.map String.toList).mergeSort fun a b => b.length ≤ a.length

/-- The builtin tags are always in force. -/
theorem mem_all_of_mem_builtin {custom : List String} {t : String} (h : t ∈ builtin) :
    upperString t ∈ all custom := by
  simpa [all] using .inr ⟨t, h, rfl⟩

/-- No tag in force is listed twice. -/
theorem nodup_all (custom : List String) : (all custom).Nodup :=
  nodup_distinct _

/-! ## Tags as a regular expression -/

/-- The characters that stand for something else in a regular expression. -/
def specialChars : List Char :=
  ['\t', '\n', '\x0b', '\x0c', '\r', ' ', '#', '$', '&', '(', ')', '*', '+', '-', '.', '?', '[',
    '\\', ']', '^', '\x7b', '|', '\x7d', '~']

/-- A text as a regular expression that matches it alone. -/
def escaped (s : List Char) : List Char :=
  s.flatMap fun c => if specialChars.contains c then ['\\', c] else [c]

/-- The regular expression of a tagged text: the tag, a reference in parentheses, a colon and the
message. -/
def expression (tags : List String) : String :=
  "@?(?P<tag>" ++ "|".intercalate ((byLength tags).map fun t => String.ofList (escaped t))
    ++ ")(?![\\w-])[ \\t]*(?:\\((?P<ref>[^)]*)\\))?[ \\t]*:?[ \\t]*(?P<text>.*?)[ \\t]*$"

end TaggedComments.Tags
