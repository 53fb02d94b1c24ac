import TaggedComments.Request

/-!
# Sessions

A session works on registries that have names. Its steps change one registry each, or none, and
a step that fails does not end the session.

- `Step` is a step, `Outcome` the result of one.
- `Session.step` makes a step.
-/

namespace TaggedComments

/-- A step on one registry. -/
inductive Step where
  /-- Merge associations. -/
  | register (given : Data)
  /-- Ask whether an extension is known. -/
  | supports (extension : Data)
  /-- Ask for the entry of an extension. -/
  | get (extension : Data)
  /-- List the extensions. -/
  | extensions
  /-- List the entries. -/
  | entries
  /-- List the parsers to run for an extension. -/
  | resolve (extension embedded : Data)
  /-- Give a copy of the registry a name. -/
  | copy (name : String)
  /-- Answer a request. -/
  | answer (q : Request)

/-- The result of a step. -/
inductive Outcome where
  /-- Nothing to report. -/
  | done
  /-- A truth value. -/
  | truth (b : Bool)
  /-- An entry, if there is one. -/
  | entry (e : Option (Entry String))
  /-- Names. -/
  | names (ns : List String)
  /-- Extensions and their entries. -/
  | table (es : List (String × Entry String))
  /-- Comments. -/
  | comments (cs : List Comment)

/-- The entry of whatever is asked for; what cannot be a key fails. -/
def Registry.findData? (r : Registry) (extension : Data) : Except Failure (Option (Entry String)) :=
  extension.asKey.map fun k => k.bind r.find?

/-- Make a step that leaves other registries alone. -/
def Registry.step (r : Registry) : Step → Registry × Except Failure Outcome
  | .register given =>
    match r.register given with
    | .ok (r', _) => (r', .ok .done)
    | .error e => (r, .error e)
  | .supports x => (r, (r.findData? x).map fun e => .truth e.isSome)
  | .get x => (r, (r.findData? x).map .entry)
  | .extensions => (r, .ok (.names r.extensions))
  | .entries => (r, .ok (.table r.entries))
  | .resolve x embedded =>
    (r, match x.asKey with
      | .error e => .error e
      | .ok none => .error (.unsupported x.display)
      | .ok (some s) => (r.activeParsers s embedded.truthy).map .names)
  | .copy _ => (r, .ok .done)
  | .answer q =>
    let (r', t) := r.answer q
    (r', t.result.map .comments)

/-- Registries with names. -/
structure Session where
  /-- Names and their registries. -/
  registries : List (String × Registry)

namespace Session

/-- The registry of a name; an unknown name has the empty one. -/
def registry (s : Session) (name : String) : Registry :=
  (s.registries.lookup name).getD .empty

/-- The session after a name is given to a registry. -/
def assign (s : Session) (name : String) (r : Registry) : Session :=
  ⟨(name, r) :: s.registries.filter fun x => x.1 ≠ name⟩

/-- Make a step on the registry of a name. -/
def step (s : Session) (name : String) (x : Step) : Session × Except Failure Outcome :=
  let (r, result) := (s.registry name).step x
  let s := s.assign name r
  match x with
  | .copy other => (s.assign other r, result)
  | _ => (s, result)

/-- A session on the default registry and on a registry made from given entries. -/
def start (given : Option Data) : Except Failure Session :=
  match given with
  | none => .ok ⟨[("default", .builtin), ("r", .builtin)]⟩
  | some d =>
    (Registry.empty.register d).map fun x => ⟨[("default", .builtin), ("r", x.1)]⟩

end Session

end TaggedComments
