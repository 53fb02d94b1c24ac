import TaggedComments.Failure
import TaggedComments.Files.Wildcard
import TaggedComments.Text.Blank
import TaggedComments.Text.Split

/-!
# Ignore rules

A project lists the paths to leave out by patterns. The last pattern that fits a path decides: an
exclamation mark in front takes the path back in. A pattern with a slash inside is seen from the
project, one without fits at any depth, and what it fits it fits with everything below.

- `IgnoreRule` is the rule of a pattern, `IgnoreRule.ofPattern` reads a pattern.
- `IgnoreRule.decides` says whether a rule fits a path.
- `IgnoreRules.ignores` says whether rules leave a path out.
-/

namespace TaggedComments

/-- What a rule fits. -/
inductive RuleForm where
  /-- Every path. -/
  | everything
  /-- Every path that leads through a directory. -/
  | nested
  /-- The paths that start with a reading of a pattern. -/
  | start (ws : List Wildcard)
  deriving DecidableEq

/-- A rule. -/
structure IgnoreRule where
  /-- Whether paths that fit are left out; else they are taken back in. -/
  ignore : Bool
  /-- What it fits. -/
  form : RuleForm
  deriving DecidableEq

namespace IgnoreRule

/-- Why a pattern gives no rule. -/
inductive PatternFault where
  /-- A bracket does not close: the pattern has no effect. -/
  | unclosed
  /-- Nothing follows the last backslash, or nothing is left of the pattern. -/
  | malformed
  /-- A range of characters runs backward. -/
  | backward
  deriving DecidableEq

/-! ## Segments -/

/-- The ranges inside brackets: a hyphen between two characters makes one. -/
def rangesOf : List Char → List (Char × Char)
  | a :: '-' :: b :: s => (a, b) :: rangesOf s
  | a :: s => (a, a) :: rangesOf s
  | [] => []

/-- Whether a class is negated, the characters inside its brackets and the text after them. The
first character may be a closing bracket. -/
def classAt? (s : List Char) : Option (Bool × List Char × List Char) :=
  let (negated, s) := match s with
    | '!' :: r => (true, r)
    | '^' :: r => (true, r)
    | r => (false, r)
  let (first, r) := match s with
    | ']' :: r => ([']'], r)
    | r => ([], r)
  match r.span (· != ']') with
  | (inside, _ :: after) => some (negated, first ++ inside, after)
  | (_, []) => none

/-- Read a segment; the fuel bounds the number of its characters. -/
def readSegment : Nat → List Char → Except PatternFault (List Wildcard)
  | 0, _ => .ok []
  | _, [] => .ok []
  | fuel + 1, c :: s =>
    if c = '\\' then
      match s with
      | [] => .error .malformed
      | d :: r => (readSegment fuel r).map (.one d :: ·)
    else if c = '*' then (readSegment fuel s).map (.star :: ·)
    else if c = '?' then (readSegment fuel s).map (.any :: ·)
    else if c = '[' then
      match classAt? s with
      | none => .error .unclosed
      | some (negated, inside, after) =>
        (readSegment fuel after).map (.oneOf ⟨negated, rangesOf inside⟩ :: ·)
    else (readSegment fuel s).map (.one c :: ·)

/-! ## Patterns -/

/-- Two stars stand for any directories. -/
def deep : String := "**"

/-- Segments seen from the project: an empty first one says so, a single one fits at any depth. -/
def anchor : List String → List String
  | "" :: segments => segments
  | [s] => if s = deep then [s] else [deep, s]
  | [s, ""] => if s = deep then [s, ""] else [deep, s, ""]
  | segments => segments

/-- An empty last segment stands for everything below. -/
def openEnd : List String → List String
  | [] => []
  | [s] => if s = "" then [deep] else [s]
  | s :: t :: segments => s :: openEnd (t :: segments)

/-- One of several double stars in a row is kept. -/
def collapse : List String → List String
  | [] => []
  | s :: segments =>
    let rest := collapse segments
    if s = deep && rest.head? == some deep then rest else s :: rest

/-- The parts of a segment in its place. -/
def segmentParts (first last slash : Bool) (s : String) : Except PatternFault (List Wildcard) :=
  if s = deep then
    .ok (if first then [.leading] else if last then [.one '/'] else [.between])
  else do
    let parts ← if s = "*" then .ok [.name] else readSegment s.length s.toList
    return (if slash then [.one '/'] else []) ++ parts ++ (if last then [.boundary] else [])

/-- The parts of segments; `slash` says whether a slash has to come before the next name. -/
def partsFrom (first slash : Bool) : List String → Except PatternFault (List Wildcard)
  | [] => .ok []
  | s :: segments => do
    let parts ← segmentParts first segments.isEmpty slash s
    let more ← partsFrom false (!(first && s = deep)) segments
    return parts ++ more

/-- Whether a class holds a range that runs backward. -/
def isBackward : Wildcard → Bool
  | .oneOf k => k.ranges.any fun r => r.2 < r.1
  | _ => false

/-- What segments fit. -/
def formOf (segments : List String) : Except PatternFault RuleForm :=
  let directory := segments.getLast? == some ""
  let segments := collapse (openEnd (anchor segments))
  if segments = [] then .error .malformed
  else if segments = [deep] then .ok (if directory then .nested else .everything)
  else if segments = [deep, "*"] then .ok .everything
  else if segments = [deep, "*", deep] then .ok .nested
  else do
    let parts ← partsFrom true false segments
    if parts.any isBackward then .error .backward else return .start parts

/-- The pattern without white space at its end, unless the last blank is escaped. -/
def trimPattern (s : List Char) : List Char :=
  match s.reverse with
  | ' ' :: '\\' :: _ => s
  | _ => Text.trimRight s

/-- The rule of a pattern: none if the pattern has no effect. -/
def ofPattern (pattern : String) : Except Failure (Option IgnoreRule) :=
  let s := trimPattern pattern.toList
  if s.isEmpty || s.head? == some '#' || s == ['/'] then .ok none
  else
    let (ignore, s) := match s with
      | '!' :: r => (false, r)
      | r => (true, r)
    match formOf ((Text.splitOn '/' s).map String.ofList) with
    | .ok form => .ok (some ⟨ignore, form⟩)
    | .error .unclosed => .ok none
    | .error .malformed => .error (.badIgnorePattern pattern)
    | .error .backward => .error .badRange

/-- Whether the rule fits a path. -/
def decides (r : IgnoreRule) (path : List Char) : Bool :=
  match r.form with
  | .everything => path.any (· != '\n')
  | .nested => path.contains '/'
  | .start ws => Wildcard.matchesStart ws path

end IgnoreRule

/-- The rules of a project, in the order of its patterns. -/
abbrev IgnoreRules := List IgnoreRule

namespace IgnoreRules

/-- The rules of patterns. -/
def ofPatterns (patterns : List String) : Except Failure IgnoreRules :=
  (patterns.mapM IgnoreRule.ofPattern).map (·.filterMap id)

/-- A path as rules see it: without the slash at its start, or the point and the slash. -/
def seen : List Char → List Char
  | '/' :: s => s
  | '.' :: '/' :: s => s
  | s => s

/-- Whether the rules leave a path out: the last rule that fits it says so. -/
def ignores (rules : IgnoreRules) (path : String) : Bool :=
  match rules.reverse.find? fun r => r.decides (seen path.toList) with
  | some r => r.ignore
  | none => false

end IgnoreRules

end TaggedComments
