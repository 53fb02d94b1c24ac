import TaggedComments.Failure

/-!
# Logs

What is reported besides results: entries with a level and the name of their source. An action
keeps its entries also when it fails.

- `LogEntry` is an entry, `LogEntry.text` its line.
- `Traced` is a result together with the entries made on the way to it.
-/

namespace TaggedComments

/-- How much an entry matters. -/
inductive Level where
  /-- Details of the work. -/
  | debug
  /-- A summary of the work. -/
  | info
  /-- Something that was left out. -/
  | warning
  deriving DecidableEq

/-- The name of a level. -/
def Level.name : Level → String
  | debug => "DEBUG"
  | info => "INFO"
  | warning => "WARNING"

/-- An entry of the log. -/
structure LogEntry where
  /-- How much it matters. -/
  level : Level
  /-- Where it comes from. -/
  source : String
  /-- What it says. -/
  message : String
  deriving DecidableEq

/-- An entry as a line. -/
def LogEntry.text (e : LogEntry) : String :=
  e.level.name ++ " " ++ e.source ++ ": " ++ e.message

/-- A result, or the failure that came instead of it, with the entries made until then. -/
structure Traced (α : Type) where
  /-- The entries, the oldest first. -/
  log : List LogEntry
  /-- The result. -/
  result : Except Failure α

namespace Traced

variable {α β : Type}

/-- A result without entries. -/
def ofExcept (r : Except Failure α) : Traced α := ⟨[], r⟩

/-- A failure without entries. -/
def fail (e : Failure) : Traced α := ⟨[], .error e⟩

/-- One entry. -/
def note (level : Level) (source message : String) : Traced Unit :=
  ⟨[⟨level, source, message⟩], .ok ()⟩

/-- An action, and after it another that depends on its result. -/
def andThen (x : Traced α) (f : α → Traced β) : Traced β :=
  match x.result with
  | .ok a => ⟨x.log ++ (f a).log, (f a).result⟩
  | .error e => ⟨x.log, .error e⟩

instance : Monad Traced where
  pure a := ⟨[], .ok a⟩
  bind := andThen

/-- The same action with entries in front. -/
def after (log : List LogEntry) (x : Traced α) : Traced α :=
  ⟨log ++ x.log, x.result⟩

end Traced

end TaggedComments
