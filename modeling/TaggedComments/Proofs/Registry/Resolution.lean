import TaggedComments.Proofs.Steps
import TaggedComments.Registry.Basic

/-!
# Which parsers apply to an extension

An extension is resolved in one step: its own parsers apply, and with embedded sections those of the
extensions that it includes, but not of those that these include.

- `Registry.Applies` says which entries apply to an extension.
- `Registry.activeParsers_eq_ok_iff` and `Registry.activeParsers_eq_error_iff` say what resolving
  gives, and when it fails.
- `Registry.activeParsers_embedded` compares resolving with and without embedded sections.
-/

namespace TaggedComments.Registry

/-- The entries whose parsers apply to an extension, in the order in which they apply: its own one,
and with embedded sections those of the extensions that it includes. -/
inductive Applies (r : Registry) (x : String) : Bool → List (Entry String) → Prop where
  | own {e : Entry String} (h : r.find? x = some e) : Applies r x false [e]
  | embedded {e : Entry String} {inner : List (Entry String)} (h : r.find? x = some e)
      (hinner : List.Forall₂ (fun y i => r.find? y = some i) e.included inner) :
      Applies r x true (e :: inner)

/-- Some extension that an extension includes has no entry, and this is the first one. -/
def FirstMissing (r : Registry) (x y : String) : Prop :=
  ∃ e before later, r.find? x = some e ∧ e.included = before ++ y :: later
    ∧ (∀ z ∈ before, r.supports z = true) ∧ r.supports y = false

variable {r : Registry} {x : String} {b : Bool}

/-- The entries that apply are determined. -/
theorem Applies.unique {es fs : List (Entry String)} (h : r.Applies x b es)
    (h' : r.Applies x b fs) : es = fs := by
  cases h with
  | own he =>
    cases h' with
    | own he' => rw [Option.some.inj (he.symm.trans he')]
  | embedded he hinner =>
    cases h' with
    | embedded he' hinner' =>
      obtain rfl := Option.some.inj (he.symm.trans he')
      have hfound : Relator.RightUnique fun y i => r.find? y = some i := by
        intro y i j hi hj
        exact Option.some.inj (hi.symm.trans hj)
      rw [hfound.forall₂ hinner hinner']

theorem supports_eq_true_iff : r.supports x = true ↔ ∃ e, r.find? x = some e := by
  rw [supports, Option.isSome_iff_exists]

theorem supports_eq_false_iff : r.supports x = false ↔ r.find? x = none := by
  rw [supports, Option.isSome_eq_false_iff, Option.isNone_iff_eq_none]

theorem parsersOf_eq_ok_iff {e : Entry String} : r.parsersOf x = .ok e ↔ r.find? x = some e := by
  rw [parsersOf]
  cases r.find? x with
  | none => simp
  | some d => simp

theorem parsersOf_eq_error_iff {f : Failure} :
    r.parsersOf x = .error f ↔ r.supports x = false ∧ f = .unsupported x := by
  rw [supports_eq_false_iff, parsersOf]
  cases r.find? x with
  | none => simp [eq_comm]
  | some d => simp

theorem activeParsers_own : r.activeParsers x false =
    r.parsersOf x >>= fun e => .ok (distinct e.parsers) := by
  have hown : ∀ e : Entry String, e.parsers ++ [].flatMap (fun i : Entry String => i.parsers)
      = e.parsers := by
    simp
  simp only [activeParsers, Bool.false_eq_true, if_false, ok_bind, hown]
  rfl

theorem activeParsers_all : r.activeParsers x true =
    r.parsersOf x >>= fun e => e.included.mapM r.parsersOf >>= fun inner =>
      .ok (distinct (e.parsers ++ inner.flatMap (·.parsers))) :=
  rfl

/-- Resolving gives the parsers of all entries that apply, each where it first occurs. -/
theorem activeParsers_eq_ok_iff {names : List String} :
    r.activeParsers x b = .ok names ↔
      ∃ es, r.Applies x b es ∧ names = distinct (es.flatMap (·.parsers)) := by
  cases b with
  | false =>
    simp only [activeParsers_own, bind_eq_ok_iff, parsersOf_eq_ok_iff, Except.ok.injEq]
    constructor
    · rintro ⟨e, he, rfl⟩
      exact ⟨[e], .own he, by simp⟩
    · rintro ⟨es, hes, rfl⟩
      cases hes with
      | own he => exact ⟨_, he, by simp⟩
  | true =>
    simp only [activeParsers_all, bind_eq_ok_iff, mapM_eq_ok_iff, parsersOf_eq_ok_iff,
      Except.ok.injEq]
    constructor
    · rintro ⟨e, he, inner, hinner, rfl⟩
      exact ⟨e :: inner, .embedded he hinner, by simp⟩
    · rintro ⟨es, hes, rfl⟩
      cases hes with
      | embedded he hinner => exact ⟨_, he, _, hinner, by simp⟩

/-- Resolving fails for an extension without an entry, be it the one in question or, with embedded
sections, one that it includes. -/
theorem activeParsers_eq_error_iff {f : Failure} :
    r.activeParsers x b = .error f ↔ (r.supports x = false ∧ f = .unsupported x)
      ∨ (b = true ∧ ∃ y, r.FirstMissing x y ∧ f = .unsupported y) := by
  cases b with
  | false =>
    simp only [activeParsers_own, bind_eq_error_iff, parsersOf_eq_error_iff]
    simp
  | true =>
    simp only [activeParsers_all, bind_eq_error_iff, mapM_eq_error_iff, parsersOf_eq_ok_iff,
      parsersOf_eq_error_iff, ← supports_eq_true_iff, FirstMissing, true_and]
    apply or_congr Iff.rfl
    constructor
    · rintro ⟨e, he, ⟨before, y, later, hsplit, hbefore, hy, hf⟩ | ⟨inner, -, h⟩⟩
      · exact ⟨y, ⟨e, before, later, he, hsplit, hbefore, hy⟩, hf⟩
      · cases h
    · rintro ⟨y, ⟨e, before, later, he, hsplit, hbefore, hy⟩, hf⟩
      exact ⟨e, he, .inl ⟨before, y, later, hsplit, hbefore, hy, hf⟩⟩

/-- Embedded sections only add parsers, behind those of the extension itself. -/
theorem activeParsers_embedded {names all : List String}
    (h : r.activeParsers x false = .ok names) (hall : r.activeParsers x b = .ok all) :
    ∃ more, all = names ++ more := by
  obtain ⟨es, hes, rfl⟩ := activeParsers_eq_ok_iff.mp h
  obtain ⟨fs, hfs, rfl⟩ := activeParsers_eq_ok_iff.mp hall
  cases hes with
  | own he =>
    cases hfs with
    | own he' =>
      rw [he] at he'
      cases he'
      exact ⟨[], (List.append_nil _).symm⟩
    | embedded he' hinner =>
      rw [he] at he'
      cases he'
      -- The first entry is the same, and those behind it add names at the end.
      rw [List.flatMap_cons, List.flatMap_cons, List.flatMap_nil, List.append_nil, distinct_append]
      exact ⟨_, rfl⟩

end TaggedComments.Registry
