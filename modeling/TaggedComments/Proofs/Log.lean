import TaggedComments.Log
import TaggedComments.Proofs.Steps

/-!
# Results and logs

The result of an action and its log are followed separately: results are sequences of steps that may
fail, and logs are put one behind the other.

- `Traced.result_bind` and the lemmas beside it bring the result of an action to steps.
- `Traced.log_bind` says what an action and one after it log.
- `warnings` are the entries of a log that are shown in any case.
-/

namespace TaggedComments

namespace Traced

variable {α β : Type}

@[simp] theorem result_pure (a : α) : (pure a : Traced α).result = .ok a := rfl

@[simp] theorem result_ofExcept (r : Except Failure α) : (ofExcept r).result = r := rfl

@[simp] theorem result_after (log : List LogEntry) (x : Traced α) :
    (x.after log).result = x.result := rfl

@[simp] theorem log_after (log : List LogEntry) (x : Traced α) :
    (x.after log).log = log ++ x.log := rfl

/-- The result of two actions is that of two steps. -/
@[simp] theorem result_bind (x : Traced α) (f : α → Traced β) :
    (x >>= f).result = x.result >>= fun a => (f a).result := by
  show (x.andThen f).result = _
  rw [andThen]
  cases x.result <;> rfl

/-- The second of two actions logs behind the first, if there is a second one. -/
theorem log_bind (x : Traced α) (f : α → Traced β) :
    (x >>= f).log = x.log ++ (match x.result with
      | .ok a => (f a).log
      | .error _ => []) := by
  show (x.andThen f).log = _
  rw [andThen]
  cases x.result with
  | error e => exact (List.append_nil x.log).symm
  | ok a => rfl

end Traced

/-! ## Warnings -/

/-- The warnings of a log, in their order. -/
def warnings (log : List LogEntry) : List LogEntry :=
  log.filter fun e => e.level = .warning

@[simp] theorem warnings_append (log more : List LogEntry) :
    warnings (log ++ more) = warnings log ++ warnings more :=
  List.filter_append log more

/-- Two actions without warnings are one. -/
theorem warnings_log_bind {α β : Type} {x : Traced α} {f : α → Traced β}
    (hx : warnings x.log = []) (hf : ∀ a, warnings (f a).log = []) :
    warnings (x >>= f).log = [] := by
  rw [Traced.log_bind, warnings_append, hx, List.nil_append]
  cases x.result with
  | error e => rfl
  | ok a => exact hf a

end TaggedComments
