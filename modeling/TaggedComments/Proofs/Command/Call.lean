import TaggedComments.Command.Basic
import TaggedComments.Proofs.Log

/-!
# What a call shows

A call fails, has nothing to work on, or reports comments. It shows so in one of four ways: it prints
the report, it says that there is nothing to work on, it reports the failure, or the failure ends it
without a word.

- `CallEnd` is what a call comes to, `CallEnd.answer` the answer that stands for it.
- `CallResult.ofAnswer_printed` and the lemmas beside it are the four ways.
- `CallEnd.shown_of_reported` and `CallEnd.shown_of_code` say what is shown if there is an exit code,
  `CallEnd.exists_code_iff` when there is one.
- `Command.reportOf_eq_ok_iff` and `Command.exitCode_eq_zero_iff` are about the report that is
  printed.
-/

namespace TaggedComments

theorem Failure.exists_message {e : Failure} (h : e.isReported = true) :
    ∃ message, e.message = some message := by
  cases e <;> first | exact ⟨_, rfl⟩ | cases h

theorem callProgram_of_ofWords {env : Environment} {registry : Registry} {words : List String}
    {i : Invocation} (h : Invocation.ofWords words = .ok i) :
    callProgram env registry words =
      ((i.run env registry).1, .ofAnswer i.verbose (i.run env registry).2) := by
  rw [callProgram, h]

/-! ## Section 1: Reports -/

namespace Command

theorem reportOf_eq_ok_iff {c : Config} {found : List Comment} {a : Answer} :
    reportOf c found = .ok a ↔
      ∃ text, Report.render (found.map .comment) (.text c.reporter) = .ok text
        ∧ a = .printed (text ++ "\n") (exitCode c found) := by
  rw [reportOf, map_eq_ok_iff]

theorem reportOf_eq_error_iff {c : Config} {found : List Comment} {e : Failure} :
    reportOf c found = .error e ↔
      Report.render (found.map .comment) (.text c.reporter) = .error e := by
  rw [reportOf, map_eq_error_iff]

/-- The exit code is zero without comments, or if the settings keep it so. -/
theorem exitCode_eq_zero_iff {c : Config} {found : List Comment} :
    exitCode c found = 0 ↔ c.exitNicely = true ∨ found = [] := by
  unfold exitCode
  cases c.exitNicely <;> cases found <;> simp

theorem exitCode_le_one (c : Config) (found : List Comment) : exitCode c found ≤ 1 := by
  unfold exitCode
  split <;> omega

end Command

/-! ## Section 2: Answers -/

namespace CallResult

variable {verbose : Bool} {answer : Traced Answer}

theorem ofAnswer_printed {text : String} {code : Nat}
    (h : answer.result = .ok (.printed text code)) :
    ofAnswer verbose answer = ⟨.ok code, text, logText verbose answer.log⟩ := by
  rw [ofAnswer, h]

theorem ofAnswer_unusable {message : String} (h : answer.result = .ok (.unusable message)) :
    ofAnswer verbose answer =
      ⟨.ok 1, "", logText verbose answer.log ++ message ++ "\n"⟩ := by
  rw [ofAnswer, h]

theorem ofAnswer_reported {e : Failure} {message : String} (h : answer.result = .error e)
    (hreported : e.isReported = true) (hmessage : e.message = some message) :
    ofAnswer verbose answer =
      ⟨.ok 1, "", logText verbose answer.log ++ "error: " ++ message ++ "\n"⟩ := by
  simp only [ofAnswer, h, hreported, if_true, hmessage, Option.getD_some]

theorem ofAnswer_escaped {e : Failure} (h : answer.result = .error e)
    (hreported : e.isReported = false) :
    ofAnswer verbose answer = ⟨.error e, "", logText verbose answer.log⟩ := by
  simp only [ofAnswer, h, hreported, Bool.false_eq_true, if_false]

end CallResult

/-! ## Section 3: What a call comes to -/

/-- What a call that reports comments may come to. -/
inductive CallEnd where
  /-- It fails. -/
  | failed (e : Failure)
  /-- There is nothing to work on. -/
  | unusable (message : String)
  /-- Comments are reported under settings. -/
  | reported (config : Config) (found : List Comment) (text : String)

namespace CallEnd

/-- The answer that stands for what a call came to. -/
def answer : CallEnd → Except Failure Answer
  | failed e => .error e
  | unusable message => .ok (.unusable message)
  | reported config found text => .ok (.printed (text ++ "\n") (Command.exitCode config found))

section Shown

variable {outcome : CallEnd} {a : Traced Answer} (ha : a.result = outcome.answer) (verbose : Bool)

include ha

/-- What is shown if a failure is reported. -/
theorem shown_of_reported (hreported : ∀ e, outcome = .failed e → e.isReported = true) :
    (∀ config found text, outcome = .reported config found text →
        CallResult.ofAnswer verbose a = ⟨.ok (Command.exitCode config found), text ++ "\n",
          CallResult.logText verbose a.log⟩)
      ∧ (∀ e, outcome = .failed e → ∃ message, e.message = some message
        ∧ CallResult.ofAnswer verbose a =
          ⟨.ok 1, "", CallResult.logText verbose a.log ++ "error: " ++ message ++ "\n"⟩)
      ∧ ∀ message, outcome = .unusable message → CallResult.ofAnswer verbose a =
          ⟨.ok 1, "", CallResult.logText verbose a.log ++ message ++ "\n"⟩ := by
  refine ⟨?_, ?_, ?_⟩
  · rintro config found text rfl
    exact CallResult.ofAnswer_printed ha
  · rintro e rfl
    obtain ⟨message, hmessage⟩ := Failure.exists_message (hreported e rfl)
    exact ⟨message, hmessage, CallResult.ofAnswer_reported ha (hreported e rfl) hmessage⟩
  · rintro message rfl
    exact CallResult.ofAnswer_unusable ha

/-- There is an exit code exactly if a failure is reported. -/
theorem exists_code_iff : (∃ code, (CallResult.ofAnswer verbose a).status = .ok code) ↔
    ∀ e, outcome = .failed e → e.isReported = true := by
  constructor
  · rintro ⟨code, hcode⟩ e rfl
    by_contra hreported
    rw [Bool.not_eq_true] at hreported
    rw [CallResult.ofAnswer_escaped ha hreported] at hcode
    cases hcode
  · intro hreported
    obtain ⟨hprinted, hfailed, hunusable⟩ := shown_of_reported ha verbose hreported
    cases outcome with
    | failed e =>
      obtain ⟨message, -, h⟩ := hfailed e rfl
      exact ⟨1, by rw [h]⟩
    | unusable message => exact ⟨1, by rw [hunusable message rfl]⟩
    | reported config found text => exact ⟨_, by rw [hprinted config found text rfl]⟩

/-- What is shown with an exit code: only a report is printed, and only a report can have the exit
code zero. -/
theorem shown_of_code {code : Nat} (hcode : (CallResult.ofAnswer verbose a).status = .ok code) :
    (code = 0 ↔ ∃ config found text, outcome = .reported config found text
        ∧ (config.exitNicely = true ∨ found = []))
      ∧ code ≤ 1
      ∧ (∀ e, outcome = .failed e → (CallResult.ofAnswer verbose a).output = ""
        ∧ ∃ log message, e.message = some message
          ∧ (CallResult.ofAnswer verbose a).messages = log ++ "error: " ++ message ++ "\n")
      ∧ (∀ message, outcome = .unusable message → (CallResult.ofAnswer verbose a).output = ""
        ∧ ∃ log, (CallResult.ofAnswer verbose a).messages = log ++ message ++ "\n")
      ∧ ∀ config found text, outcome = .reported config found text →
        (CallResult.ofAnswer verbose a).output = text ++ "\n" := by
  obtain ⟨hprinted, hfailed, hunusable⟩ :=
    shown_of_reported ha verbose ((exists_code_iff ha verbose).mp ⟨code, hcode⟩)
  cases outcome with
  | failed e =>
    obtain ⟨message, hmessage, h⟩ := hfailed e rfl
    rw [h] at hcode ⊢
    cases hcode
    refine ⟨by simp, Nat.le_refl 1, ?_, by simp, by simp⟩
    rintro _ ⟨⟩
    exact ⟨rfl, _, _, hmessage, rfl⟩
  | unusable message =>
    rw [hunusable message rfl] at hcode ⊢
    cases hcode
    refine ⟨by simp, Nat.le_refl 1, by simp, ?_, by simp⟩
    rintro _ ⟨⟩
    exact ⟨rfl, _, rfl⟩
  | reported config found text =>
    rw [hprinted config found text rfl] at hcode ⊢
    cases hcode
    refine ⟨?_, Command.exitCode_le_one config found, by simp, by simp, ?_⟩
    · rw [Command.exitCode_eq_zero_iff]
      constructor
      · intro hzero
        exact ⟨config, found, text, rfl, hzero⟩
      · rintro ⟨_, _, _, ⟨⟩, hzero⟩
        exact hzero
    · rintro _ _ _ ⟨⟩
      rfl

end Shown

end CallEnd

end TaggedComments
