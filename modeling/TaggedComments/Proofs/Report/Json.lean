import TaggedComments.Command.Basic
import TaggedComments.Proofs.Aggregate.NormalForm
import TaggedComments.Proofs.Json.Written

/-!
# The JSON report is read back

Comments whose parts are texts are read from their JSON report as they were.

- `Comment.ofData_toData` reads a comment from its mapping.
- `Report.json_eq_ok_iff` says when there is a report.
- `Report.read_json` reads the values of a report, `Command.commentsOf_json` its comments.
-/

namespace TaggedComments

namespace Comment

variable {c : Comment}

/-- The names of the parts lead to the parts. -/
theorem get?_toData {f : String × Data} (hf : f ∈ c.fields) : c.toData.get? f.1 = some f.2 := by
  simp only [fields, List.mem_cons, List.not_mem_nil, or_false] at hf
  rcases hf with rfl | rfl | rfl | rfl | rfl <;>
    simp [toData, fields, Data.get?, Data.lookup?]

/-- Nothing takes the place of a text, also if it is empty. -/
theorem orElse_text (s : String) : (Data.text s).orElse (.text "") = .text s := by
  by_cases hs : s = ""
  · subst hs
    rfl
  · simp [Data.orElse, Data.truthy, Scalar.truthy, hs]

/-- A well-typed comment is the one that its mapping describes. -/
theorem ofData_toData (h : c.WellTyped) : ofData c.toData = .ok c := by
  obtain ⟨⟨tag, htag⟩, ⟨n, pos, hline⟩, ⟨text, htext⟩, ⟨ref, href⟩, -⟩ := h
  have hparts : ∀ f ∈ c.fields, c.toData.get? f.1 = some f.2 := fun f => get?_toData
  simp only [fields, List.forall_mem_cons, htag, hline, htext, href] at hparts
  obtain ⟨hgetFile, hgetTag, hgetLine, hgetText, hgetRef, -⟩ := hparts
  -- Each part is found, so none of the defaults is used.
  have hfield : c.toData.field "tag" = .ok (some (.text tag)) := congrArg Except.ok hgetTag
  have hint : (LineNumber.number n pos).toData.toInt = .ok (n : Int) := rfl
  have hnumber : LineNumber.ofData (.int n) = .ok (.number n pos) :=
    LineNumber.ofData_toData (.number n pos)
  simp only [ofData, hfield, hgetFile, hgetLine, hgetText, hgetRef, Option.getD_some, orElse_text,
    bind, Except.bind, hint, hnumber, Data.display_text]
  rw [← htag, ← hline, ← htext, ← href]
  rfl

/-- The mapping of a well-typed comment can be said in JSON if its line can be written. -/
theorem plain_toData (h : c.WellTyped) (hwritable : c.toData.isWritable = true) :
    Json.Plain c.toData := by
  obtain ⟨⟨tag, htag⟩, ⟨n, pos, hline⟩, ⟨text, htext⟩, ⟨ref, href⟩, hfile⟩ := h
  -- The only number among the parts is the line.
  have hn : (Data.int n).isWritable = true := by
    have hget := get?_toData (show ("line", c.line.toData) ∈ c.fields by simp [fields])
    rw [hline] at hget
    exact Data.isWritable_of_get? hwritable hget
  apply Json.Plain.mapping
  · show ["file", "tag", "line", "text", "ref"].Nodup
    decide
  · simp only [fields, List.forall_mem_cons, htag, hline, htext, href]
    refine ⟨?_, .text tag, .int hn, .text text, .text ref, by simp⟩
    rcases hfile with hfile | ⟨file, hfile⟩
    · rw [hfile]
      exact .null
    · rw [hfile]
      exact .text file

end Comment

namespace Report

variable {cs : List Comment} {text : String}

/-- There is a JSON report if every comment can be written. -/
theorem json_eq_ok_iff : json (cs.map .comment) = .ok text ↔
    (∀ c ∈ cs, c.toData.isWritable = true) ∧ text = jsonOf cs := by
  rw [json, Aggregate.mapM_asComment, ok_bind]
  split
  · next hall =>
    constructor
    · intro h
      cases h
      exact ⟨List.all_eq_true.mp hall, rfl⟩
    · rintro ⟨-, rfl⟩
      rfl
  · next hall =>
    constructor
    · intro h
      cases h
    · rintro ⟨h, -⟩
      exact absurd (List.all_eq_true.mpr h) hall

theorem plain_items (htyped : ∀ c ∈ cs, c.WellTyped) (hjson : json (cs.map .comment) = .ok text) :
    Json.Plain (.list (cs.map Comment.toData)) := by
  apply Json.Plain.list
  rw [List.forall_mem_map]
  intro c hc
  exact Comment.plain_toData (htyped c hc) ((json_eq_ok_iff.mp hjson).1 c hc)

/-- The mappings of well-typed comments are read from their report, also with white space behind
it. -/
theorem read_json (htyped : ∀ c ∈ cs, c.WellTyped) (hjson : json (cs.map .comment) = .ok text)
    {blanks : String} (hblanks : ∀ c ∈ blanks.toList, Json.isSpace c = true) :
    Json.read (text ++ blanks) = .ok (.list (cs.map Comment.toData)) := by
  rw [(json_eq_ok_iff.mp hjson).2]
  exact Json.read_writeAt Json.Layout.blank_block (plain_items htyped hjson) 0 hblanks

/-- The text of a report has only printable ASCII characters and ends of lines. -/
theorem isWritten_json (htyped : ∀ c ∈ cs, c.WellTyped)
    (hjson : json (cs.map .comment) = .ok text) : ∀ c ∈ text.toList, Json.IsWritten c := by
  rw [(json_eq_ok_iff.mp hjson).2]
  exact Json.isWritten_writeAt Json.Layout.blank_block (plain_items htyped hjson) 0

end Report

/-- The comments are read from their report. -/
theorem Command.commentsOf_json {cs : List Comment} {text blanks : String}
    (htyped : ∀ c ∈ cs, c.WellTyped) (hjson : Report.json (cs.map .comment) = .ok text)
    (hblanks : ∀ c ∈ blanks.toList, Json.isSpace c = true) :
    commentsOf (text ++ blanks) = .ok cs := by
  have hmappings : (cs.map Comment.toData).all (fun d => d.asMapping?.isSome) = true := by
    simp [Comment.toData, Data.asMapping?]
  have hcomments : (cs.map Comment.toData).mapM Comment.ofData = .ok cs :=
    mapM_map_eq_ok fun c hc => Comment.ofData_toData (htyped c hc)
  rw [commentsOf, Report.read_json htyped hjson hblanks, ok_bind]
  simp only [hmappings, if_true]
  exact hcomments

end TaggedComments
