import TaggedComments.Data.Literal
import TaggedComments.Text.Digit
import TaggedComments.Text.Quoted

/-!
# Options of a command line

A command line is a list of words: options with and without values, and operands. A long option
may be shortened while it is clear which one is meant; short options may be joined into one word
and hold their value in it. The operands of a command stand together.

- `OptionTable` lists what a command takes.
- `Word` is what a single word is before its neighbours are looked at.
- `OptionTable.read` reads a command line; `Reading` is what it says.
-/

namespace TaggedComments

/-- An option. -/
structure OptionSpec where
  /-- Its name. -/
  key : String
  /-- How it may be written. -/
  spellings : List String
  /-- Whether a value belongs to it. -/
  takesValue : Bool := false
  /-- The values that it may have; any value if none is listed. -/
  choices : List String := []
  deriving DecidableEq

/-- What a command takes besides options. -/
inductive Operands where
  /-- Nothing. -/
  | none
  /-- Any number of words. -/
  | list
  /-- The name of a command and all that comes after it. -/
  | command
  deriving DecidableEq

/-- What a command takes. -/
structure OptionTable where
  /-- Its options. -/
  options : List OptionSpec
  /-- Its operands. -/
  operands : Operands

/-- Why a command line is not carried out. -/
inductive OptionFault where
  /-- It asks for help. -/
  | help
  /-- It is malformed. -/
  | usage (message : String)
  deriving DecidableEq

/-- What a word of a command line is. -/
inductive Word where
  /-- An option as it is spelled, perhaps with a value in the same word. -/
  | option (o : OptionSpec) (long : Bool) (attached : Option (List Char))
  /-- An option that the command does not have. -/
  | unknown
  /-- A word without hyphens in front. -/
  | plain
  /-- Two hyphens: no options follow. -/
  | endOfOptions

/-- What an option is set to. -/
inductive Setting where
  /-- It takes no value. -/
  | on
  /-- A text. -/
  | text (value : String)
  /-- Two hyphens in one word with the option: they are dropped, and no text is left. -/
  | dropped
  deriving DecidableEq

/-- The setting that a value makes. -/
def Setting.ofValue (value : List Char) : Setting :=
  if value = ['-', '-'] then dropped else text (String.ofList value)

/-- What a command line says. -/
structure Reading where
  /-- The options with their settings, in order. -/
  settings : List (String × Setting) := []
  /-- The operands. -/
  operands : List String := []
  /-- The name of a command and all that comes after it. -/
  command : Option (List String) := none
  /-- Words that have no place. -/
  extras : List String := []
  deriving DecidableEq

namespace OptionSpec

/-- How messages name an option. -/
def title (o : OptionSpec) : String :=
  "argument " ++ "/".intercalate o.spellings ++ ": "

/-- A value was given to an option that takes none. -/
def ignoredValue (o : OptionSpec) (value : List Char) : OptionFault :=
  .usage (o.title ++ "ignored explicit argument " ++ Text.quotedString (String.ofList value))

/-- An option stands without its value. -/
def missingValue (o : OptionSpec) : OptionFault :=
  .usage (o.title ++ "expected one argument")

end OptionSpec

/-- What is said about a value that is not among the choices. -/
def invalidChoice (title value : String) (choices : List String) : OptionFault :=
  .usage (title ++ "invalid choice: " ++ Text.quotedString value ++ " (choose from "
    ++ ", ".intercalate (choices.map Text.quotedString) ++ ")")

namespace OptionTable

/-! ## Single words -/

/-- The spellings of all options. -/
def spellings (t : OptionTable) : List (String × OptionSpec) :=
  t.options.flatMap fun o => o.spellings.map fun s => (s, o)

/-- Whether a spelling is a long one. -/
def isLong (spelling : List Char) : Bool :=
  match spelling with
  | _ :: '-' :: _ => true
  | _ => false

/-- Whether a text consists of decimal digits. -/
def isDigits (s : List Char) : Bool :=
  !s.isEmpty && s.all fun c => (Text.digitValue? c).isSome

/-- Whether a word is a negative number; the line end after one does not count. -/
def isNegativeNumber (word : List Char) : Bool :=
  match word with
  | '-' :: s =>
    let s := if s.getLast? == some '\n' then s.dropLast else s
    let (whole, rest) := s.span (· != '.')
    match rest with
    | [] => isDigits whole
    | _ :: fraction => (whole.isEmpty || isDigits whole) && isDigits fraction
  | _ => false

/-- The text before the first equals sign, and the text after it. -/
def splitEquals (word : List Char) : List Char × Option (List Char) :=
  match word.span (· != '=') with
  | (before, _ :: after) => (before, some after)
  | (before, []) => (before, none)

/-- The options that a word of two characters and more may mean: a long one by its first letters, a
short one with its value or with others after it. -/
def meanings (t : OptionTable) (word : List Char) : List (String × Word) :=
  if isLong word then
    let (name, value) := splitEquals word
    (t.spellings.filter fun s => name.isPrefixOf s.1.toList).map fun s =>
      (s.1, .option s.2 true value)
  else
    let short := word.take 2
    t.spellings.filterMap fun s =>
      if s.1.toList = short then some (s.1, .option s.2 false (some (word.drop 2)))
      else if word.isPrefixOf s.1.toList then
        some (s.1, .option s.2 (isLong s.1.toList) none)
      else none

/-- What a word is that starts with a hyphen and is no option in full. -/
def guess (t : OptionTable) (text : String) (word : List Char) : Except OptionFault Word :=
  match t.meanings word with
  | [m] => .ok m.2
  | [] => .ok (if isNegativeNumber word || word.contains ' ' then .plain else .unknown)
  | ms =>
    .error (.usage ("ambiguous option: " ++ text ++ " could match "
      ++ ", ".intercalate (ms.map (·.1))))

/-- What a word is. -/
def classify (t : OptionTable) (text : String) : Except OptionFault Word :=
  let word := text.toList
  if word.head? != some '-' then .ok .plain
  else
    match t.spellings.lookup text with
    | some o => .ok (.option o (isLong word) none)
    | none =>
      if word.length = 1 then .ok .plain
      else
        let (name, value) := splitEquals word
        match value, t.spellings.lookup (String.ofList name) with
        | some v, some o => .ok (.option o (isLong name) (some v))
        | _, _ => t.guess text word

/-- What the words of a command line are; after two hyphens all are plain. -/
def classifyAll (t : OptionTable) : List String → Except OptionFault (List (String × Word))
  | [] => .ok []
  | w :: ws =>
    if w = "--" then .ok ((w, .endOfOptions) :: ws.map fun x => (x, .plain))
    else do
      let word ← t.classify w
      let more ← t.classifyAll ws
      return (w, word) :: more

/-! ## Joined options -/

/-- The options in one word: those with their settings, and the last one if its value is to
follow. -/
structure Joined where
  /-- Options with their settings. -/
  taken : List (OptionSpec × Setting)
  /-- The option whose value has to follow. -/
  pending : Option OptionSpec := none

/-- An option without an attached value. -/
def alone (o : OptionSpec) : Joined :=
  if o.takesValue then ⟨[], some o⟩ else ⟨[(o, .on)], none⟩

/-- Another option in front. -/
def Joined.after (o : OptionSpec) (j : Joined) : Joined :=
  { j with taken := (o, .on) :: j.taken }

/-- Take a short option and what is attached to it apart: the value of an option that takes one,
else the letters of further options. -/
def disjoin (t : OptionTable) (o : OptionSpec) : List Char → Except OptionFault Joined
  | [] => if o.takesValue then .ok ⟨[(o, .text "")], none⟩ else .error (o.ignoredValue [])
  | c :: s =>
    if o.takesValue then .ok ⟨[(o, .ofValue (c :: s))], none⟩
    else
      match t.spellings.lookup (String.ofList ['-', c]) with
      | none => .error (o.ignoredValue (c :: s))
      | some next =>
        match s with
        | [] => .ok ((alone next).after o)
        | d :: r => (t.disjoin next (d :: r)).map (·.after o)

/-- Take an option apart. -/
def joined (t : OptionTable) (o : OptionSpec) (long : Bool) :
    Option (List Char) → Except OptionFault Joined
  | none => .ok (alone o)
  | some value =>
    if !long then t.disjoin o value
    else if o.takesValue then .ok ⟨[(o, .ofValue value)], none⟩
    else .error (o.ignoredValue value)

/-! ## Command lines -/

/-- The options of one word as settings: help ends the reading, and a value has to be one of the
choices. -/
def settings : List (OptionSpec × Setting) → Except OptionFault (List (String × Setting))
  | [] => .ok []
  | (o, given) :: os => do
    if o.key = "help" then .error .help
    else
      match given with
      | .text v =>
        if !o.choices.isEmpty && !o.choices.contains v then
          .error (invalidChoice o.title v o.choices)
        else .ok ()
      | _ => .ok ()
      let more ← settings os
      return (o.key, given) :: more

/-- How far the operands of a command line have been read. -/
inductive Stage where
  /-- None has come. -/
  | before
  /-- They are being read. -/
  | inside
  /-- An option came after them. -/
  | after
  deriving DecidableEq

/-- The stage after an option. -/
def Stage.atOption : Stage → Stage
  | before => before
  | _ => after

/-- Put settings and words without a place in front of a reading. -/
def prepend (settings : List (String × Setting)) (extras : List String) (r : Reading) : Reading :=
  { r with settings := settings ++ r.settings, extras := extras ++ r.extras }

/-- Whether the word is the two hyphens after which no options follow. -/
def endsOptions : Word → Bool
  | .endOfOptions => true
  | _ => false

/-- Read words that have been classified. -/
def readFrom (t : OptionTable) : Stage → List (String × Word) → Except OptionFault Reading
  | _, [] => .ok {}
  | stage, (text, .unknown) :: ws =>
    (t.readFrom stage.atOption ws).map (prepend [] [text])
  | stage, (_, .option o long attached) :: ws =>
    match t.joined o long attached with
    | .error e => .error e
    | .ok j =>
      match j.pending with
      | none =>
        match settings j.taken with
        | .error e => .error e
        | .ok s => (t.readFrom stage.atOption ws).map (prepend s [])
      | some last =>
        match ws with
        | (value, .plain) :: rest =>
          match settings (j.taken ++ [(last, .text value)]) with
          | .error e => .error e
          | .ok s => (t.readFrom stage.atOption rest).map (prepend s [])
        | _ => .error last.missingValue
  | stage, (text, w) :: ws =>
    match t.operands, stage with
    | .list, .before | .list, .inside =>
      (t.readFrom .inside ws).map fun r =>
        { r with operands := (if endsOptions w then [] else [text]) ++ r.operands }
    | .command, .before =>
      if endsOptions w && ws.isEmpty then .ok { extras := [text] }
      else .ok { command := some (text :: ws.map (·.1)) }
    | _, _ => (t.readFrom stage ws).map (prepend [] [text])

/-- Read a command line. -/
def read (t : OptionTable) (words : List String) : Except OptionFault Reading :=
  (t.classifyAll words).bind (t.readFrom .before)

end OptionTable

end TaggedComments
