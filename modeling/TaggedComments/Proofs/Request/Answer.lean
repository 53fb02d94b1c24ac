import TaggedComments.Proofs.Aggregate.Run
import TaggedComments.Proofs.Registry.Resolution
import TaggedComments.Request

/-!
# What a request comes to

The steps of a request are taken one after another, and what it comes to has nothing to do with what
is logged on the way.

- `Registry.result_answer` and `Request.result_run` spell the steps out.
- `Registry.answer_embedded` compares a request with and without embedded sections.
-/

namespace TaggedComments

/-! ## Section 1: Steps -/

theorem Request.result_run (q : Request) (c : Checked) (r : Registry) :
    (q.run c r).result = r.activeParsers c.extension q.embedded.truthy >>= fun names =>
      (Aggregate.runParsers q.overrides Catalogue.builtin (c.tags.map .text) names c.content
        q.file).result := by
  rw [Request.run]
  cases r.activeParsers c.extension q.embedded.truthy <;> rfl

namespace Registry

theorem result_answer (r : Registry) (q : Request) :
    (r.answer q).2.result = q.check >>= fun c => r.register q.associations >>= fun x =>
      (q.run c x.1).result := by
  rw [answer]
  cases q.check with
  | error e => rfl
  | ok c => cases r.register q.associations <;> rfl

/-- A request succeeds if all its steps do. -/
theorem result_answer_eq_ok_iff {r : Registry} {q : Request} {cs : List Comment} :
    (r.answer q).2.result = .ok cs ↔ ∃ c x names, q.check = .ok c
      ∧ r.register q.associations = .ok x
      ∧ x.1.activeParsers c.extension q.embedded.truthy = .ok names
      ∧ (Aggregate.runParsers q.overrides Catalogue.builtin (c.tags.map .text) names c.content
        q.file).result = .ok cs := by
  simp only [result_answer, Request.result_run, bind_eq_ok_iff]
  constructor
  · intro ⟨c, hc, x, hx, names, hnames, hrun⟩
    exact ⟨c, x, names, hc, hx, hnames, hrun⟩
  · intro ⟨c, x, names, hc, hx, hnames, hrun⟩
    exact ⟨c, hc, x, hx, names, hnames, hrun⟩

/-! ## Section 2: Embedded sections -/

/-- **Embedded sections only add.** If a request succeeds with and without embedded sections, then
all comments that it comes to without them occur with them, unchanged and in the same order. More
generally parsers that run behind others neither replace nor move what these report. -/
theorem answer_embedded (r : Registry) (q : Request) {off on : Data} (hoff : off.truthy = false) :
    (∀ own all, (r.answer { q with embedded := off }).2.result = .ok own →
        (r.answer { q with embedded := on }).2.result = .ok all → own.Sublist all)
      ∧ ∀ overrides catalogue custom names more content file kept all,
        (Aggregate.runParsers overrides catalogue custom names content file).result = .ok kept →
        (Aggregate.runParsers overrides catalogue custom (names ++ more) content file).result =
          .ok all → kept.Sublist all := by
  constructor
  · intro own all h h'
    obtain ⟨c, x, names, hc, hx, hnames, hrun⟩ := result_answer_eq_ok_iff.mp h
    obtain ⟨c', x', names', hc', hx', hnames', hrun'⟩ := result_answer_eq_ok_iff.mp h'
    -- Neither the check nor the registration looks at embedded sections.
    obtain rfl : c = c' := Except.ok.inj (hc.symm.trans hc')
    obtain rfl : x = x' := Except.ok.inj (hx.symm.trans hx')
    rw [hoff] at hnames
    obtain ⟨more, rfl⟩ := activeParsers_embedded hnames hnames'
    exact Aggregate.sublist_of_result_runParsers_append hrun hrun'
  · intro overrides catalogue custom names more content file kept all h hall
    exact Aggregate.sublist_of_result_runParsers_append h hall

/-- Two parsers report one key with different references: the parser of the embedded sections adds
a comment on a later line and does not replace the reference. -/
theorem answer_embedded_reference :
    let onLine (n : Nat) (h : 0 < n) (ref : String) : Comment :=
      ⟨.text "TODO", .number n h, .text "", .text ref, .null⟩
    let parser (cs : List Comment) : Factory := fun _ => .ok fun _ _ => .ok (cs.map .comment)
    let r : Registry := ⟨[(".h", ⟨["outer"], [".x"]⟩), (".x", ⟨["inner"], []⟩)]⟩
    let q : Request := { extension := .text ".h", overrides := [
      ("outer", parser [onLine 2 (by decide) "a"]),
      ("inner", parser [onLine 2 (by decide) "b", onLine 3 (by decide) "c"])] }
    let own := [onLine 2 (by decide) "a"]
    let all := [onLine 2 (by decide) "a", onLine 3 (by decide) "c"]
    (r.answer { q with embedded := .bool false }).2.result = .ok own
      ∧ (r.answer { q with embedded := .bool true }).2.result = .ok all
      ∧ own.Sublist all := by
  intro onLine parser r q own all
  have hown : (r.answer { q with embedded := .bool false }).2.result = .ok own := by
    refine result_answer_eq_ok_iff.mpr ⟨⟨"", ".h", []⟩, (r, []), ["outer"], rfl, rfl, rfl, ?_⟩
    refine Aggregate.result_runParsers_eq_ok_iff.mpr ⟨[own], rfl, rfl, ?_⟩
    have hsorted : sortByLine own = own := List.mergeSort_singleton _
    rw [List.flatten_singleton, normalForm, hsorted]
    rfl
  have hwith : (r.answer { q with embedded := .bool true }).2.result = .ok all := by
    let found := [[onLine 2 (by decide) "a"], [onLine 2 (by decide) "b", onLine 3 (by decide) "c"]]
    refine result_answer_eq_ok_iff.mpr
      ⟨⟨"", ".h", []⟩, (r, []), ["outer", "inner"], rfl, rfl, rfl, ?_⟩
    refine Aggregate.result_runParsers_eq_ok_iff.mpr ⟨found, rfl, rfl, ?_⟩
    have hsorted : sortByLine found.flatten = found.flatten :=
      List.mergeSort_of_pairwise (by decide)
    rw [normalForm, hsorted]
    rfl
  exact ⟨hown, hwith, (answer_embedded r q rfl).1 own all hown hwith⟩

end Registry

end TaggedComments
