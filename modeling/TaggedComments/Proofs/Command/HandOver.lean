import TaggedComments.Proofs.Command.ReportLine
import TaggedComments.Proofs.Report.Refusal

/-!
# Handing comments over in JSON files

Comments that were reported in JSON, in one file or cut into several, are rendered from these files
as if they had not been stored.

- `HoldsReport` says that a file holds the JSON report of comments.
- `Command.reportFiles_eq_reportOf` says that the report command renders the comments of its files.
- `report_of_stored_comments` is about a whole call.
-/

namespace TaggedComments

/-- A file holds the JSON report of comments; the line that it ends may be closed, as it is when the
output of a call is stored. -/
def HoldsReport (system : FileSystem) (file : String) (cs : List Comment) : Prop :=
  ∃ text ending, Report.json (cs.map .comment) = .ok text ∧ (ending = "" ∨ ending = "\n")
    ∧ system.read (Path.ofString file) = .ok (Text.Utf8.encode (text ++ ending).toList)

namespace Command

/-- A text without carriage returns that is stored is read back. -/
theorem decodeText_encode {s : String} (h : '\r' ∉ s.toList) :
    decodeText (Text.Utf8.encode s.toList) = .ok s := by
  rw [decodeText, Text.Utf8.decode_encode]
  simp [Except.map, Text.unifyLineEnds_of_not_mem h]

/-- The comments are read from the file that holds their report. -/
theorem comments_of_holdsReport {system : FileSystem} {file : String} {cs : List Comment}
    (htyped : ∀ c ∈ cs, c.WellTyped) (h : HoldsReport system file cs) :
    ((system.read (Path.ofString file) >>= decodeText) >>= commentsOf) = .ok cs := by
  obtain ⟨text, ending, hjson, hending, hread⟩ := h
  -- Reading a file would change carriage returns, but there are none.
  have hspace : ∀ c ∈ ending.toList, Json.isSpace c = true ∧ c ≠ '\r' := by
    rcases hending with rfl | rfl <;> simp [Json.isSpace]
  have hreturn : '\r' ∉ (text ++ ending).toList := by
    rw [String.toList_append, List.mem_append, not_or]
    refine ⟨?_, fun hmem => (hspace '\r' hmem).2 rfl⟩
    intro hmem
    exact Json.not_isWritten_return (Report.isWritten_json htyped hjson '\r' hmem)
  rw [hread, ok_bind, decodeText_encode hreturn, ok_bind]
  exact commentsOf_json htyped hjson fun c hc => (hspace c hc).1

variable {chunks : List (String × List Comment)}

/-- The report command renders the comments that its files hold. -/
theorem reportFiles_eq_reportOf {env : Environment}
    (htyped : ∀ c ∈ chunks.flatMap (·.2), c.WellTyped)
    (hchunks : ∀ chunk ∈ chunks, HoldsReport env.system chunk.1 chunk.2) (config : Config) :
    reportFiles config env (chunks.map (·.1)) = reportOf config (chunks.flatMap (·.2)) := by
  -- All files are read before the first is looked at, which makes no difference for success.
  have hfound : ((chunks.map (·.1)).mapM (fun f => env.system.read (Path.ofString f) >>= decodeText)
      >>= fun texts => texts.mapM commentsOf) = .ok (chunks.map (·.2)) := by
    rw [mapM_bind_mapM_eq_ok_iff, mapM_eq_ok_iff, List.forall₂_map_left_iff,
      List.forall₂_map_right_iff, List.forall₂_same]
    intro chunk hchunk
    apply comments_of_holdsReport _ (hchunks chunk hchunk)
    intro c hc
    exact htyped c (List.mem_flatMap.mpr ⟨chunk, hchunk, hc⟩)
  obtain ⟨texts, htexts, hcomments⟩ := bind_eq_ok_iff.mp hfound
  rw [reportFiles]
  show ((chunks.map (·.1)).mapM fun f => env.system.read (Path.ofString f) >>= decodeText) >>= _ = _
  rw [htexts, ok_bind, hcomments, ok_bind, List.flatMap_def]

end Command

section Calls

variable {env : Environment} {config : Config} {files : List String} {name : String}

/-- The settings of a report call are those of the project, with the report that is asked for. -/
theorem config_report (hconfig : (Config.load env.system (Path.ofString ".")).result = .ok config) :
    Invocation.config ⟨some ".", false, { reporter := some name }, .report files⟩ env.system
        (Path.ofString ".") =
      ⟨(Config.load env.system (Path.ofString ".")).log, .ok { config with reporter := name }⟩ := by
  show Traced.andThen _ _ = _
  rw [Traced.andThen, hconfig]
  simp [Overrides.apply_reporter, Traced.ofExcept]

/-- A call of the report command shows what the command says about its files. -/
theorem callProgram_report (registry : Registry) (hfiles : ∀ f ∈ files, OptionTable.IsOperand f)
    (hne : files ≠ []) (hname : name ∈ Failure.reporterNames)
    (hconfig : (Config.load env.system (Path.ofString ".")).result = .ok config) {text : String}
    {code : Nat} (hreport : Command.reportFiles { config with reporter := name } env files =
      .ok (.printed text code)) :
    callProgram env registry ("report" :: files ++ ["-r", name]) =
      (registry, ⟨.ok code, text,
        CallResult.logText false (Config.load env.system (Path.ofString ".")).log⟩) := by
  have hempty : files.isEmpty = false := by simpa using hne
  rw [callProgram, Invocation.ofWords_report hfiles hname]
  simp only [Invocation.run, config_report hconfig, Command.run, hempty, hreport]
  simp [Traced.ofExcept, Traced.after, CallResult.ofAnswer]

end Calls

/-- **Comments handed over in JSON.** What JSON says of well-typed comments is decoded to the same
comments. Wherever their list is cut, a report call for the files that hold the JSON reports of the
pieces prints what rendering the whole list gives and the end of the line, and it returns the exit
code of the whole list. -/
theorem report_of_stored_comments {name : String} (hname : name ∈ Failure.reporterNames)
    {cs : List Comment} (htyped : ∀ c ∈ cs, c.WellTyped) :
    (∀ text, Report.json (cs.map .comment) = .ok text →
      ∃ items, Json.read text = .ok (.list items) ∧ items.mapM Comment.ofData = .ok cs)
    ∧ ∀ (env : Environment) (registry : Registry) (config : Config)
        (chunks : List (String × List Comment)),
      (Config.load env.system (Path.ofString ".")).result = .ok config →
      chunks ≠ [] → chunks.flatMap (·.2) = cs →
      (∀ chunk ∈ chunks, OptionTable.IsOperand chunk.1
        ∧ HoldsReport env.system chunk.1 chunk.2) →
      ∃ text, Report.render (cs.map .comment) (.text name) = .ok text
        ∧ callProgram env registry ("report" :: chunks.map (·.1) ++ ["-r", name]) =
          (registry, ⟨.ok (Command.exitCode config cs), text ++ "\n",
            CallResult.logText false (Config.load env.system (Path.ofString ".")).log⟩) := by
  refine ⟨?_, ?_⟩
  · intro text hjson
    refine ⟨cs.map Comment.toData, ?_, ?_⟩
    · have hread := Report.read_json htyped hjson (show ∀ c ∈ "".toList, _ by simp)
      rwa [String.append_empty] at hread
    · exact mapM_map_eq_ok fun c hc => Comment.ofData_toData (htyped c hc)
  · rintro env registry config chunks hconfig hne rfl hchunks
    have hholds : ∀ chunk ∈ chunks, HoldsReport env.system chunk.1 chunk.2 :=
      fun chunk hchunk => (hchunks chunk hchunk).2
    -- The pieces were written, so the whole list can be.
    have hwritable : ∀ c ∈ chunks.flatMap (·.2), c.toData.isWritable = true := by
      intro c hc
      obtain ⟨chunk, hchunk, hc⟩ := List.mem_flatMap.mp hc
      obtain ⟨text, -, hjson, -⟩ := hholds chunk hchunk
      exact (Report.json_eq_ok_iff.mp hjson).1 c hc
    obtain ⟨text, htext⟩ := Report.exists_render htyped hname fun _ => hwritable
    refine ⟨text, htext, ?_⟩
    have hreport : Command.reportFiles { config with reporter := name } env (chunks.map (·.1)) =
        .ok (.printed (text ++ "\n") (Command.exitCode config (chunks.flatMap (·.2)))) := by
      rw [Command.reportFiles_eq_reportOf htyped hholds, Command.reportOf, htext]
      rfl
    apply callProgram_report registry _ _ hname hconfig hreport
    · rw [List.forall_mem_map]
      exact fun chunk hchunk => (hchunks chunk hchunk).1
    · simpa using hne

/-- Two comments in two files; one of them has quotes and a character beyond the first plane. -/
theorem report_of_stored_comments_raw :
    let first : Comment := ⟨.text "TODO", .number 3 (by decide), .text "say \"hi\" 😀", .text "A-1",
      .text "a.js"⟩
    let second : Comment := ⟨.text "FIXME", .number 1 (by decide), .text "", .text "", .null⟩
    let firstText := "[\n  \x7b\n    \"file\": \"a.js\",\n    \"tag\": \"TODO\",\n"
      ++ "    \"line\": 3,\n    \"text\": \"say \\\"hi\\\" \\ud83d\\ude00\",\n    \"ref\": \"A-1\"\n  \x7d\n]"
    let secondText := "[\n  \x7b\n    \"file\": null,\n    \"tag\": \"FIXME\",\n"
      ++ "    \"line\": 1,\n    \"text\": \"\",\n    \"ref\": \"\"\n  \x7d\n]"
    let stored (text : String) : Tree := .file (Text.Utf8.encode text.toList)
    let env : Environment := ⟨⟨.directory [("a.json", stored (firstText ++ "\n")),
      ("b.json", stored secondText)], []⟩, none⟩
    Report.json [.comment first] = .ok firstText ∧ Report.json [.comment second] = .ok secondText
      ∧ callProgram env ⟨[]⟩ ["report", "a.json", "b.json", "-r", "raw"] =
        (⟨[]⟩, ⟨.ok 1, "a.js:3 TODO say \"hi\" 😀\n<stdin>:1 FIXME\n", ""⟩) := by
  intro first second firstText secondText stored env
  have htyped : ∀ c ∈ [first, second], c.WellTyped := by
    simp [first, second, Comment.WellTyped]
  have hfirst : Report.json ([first].map .comment) = .ok firstText :=
    Report.json_eq_ok_iff.mpr ⟨by decide +kernel, by decide +kernel⟩
  have hsecond : Report.json ([second].map .comment) = .ok secondText :=
    Report.json_eq_ok_iff.mpr ⟨by decide +kernel, by decide +kernel⟩
  have hholdsFirst : HoldsReport env.system "a.json" [first] :=
    ⟨firstText, "\n", hfirst, .inr rfl, rfl⟩
  have hholdsSecond : HoldsReport env.system "b.json" [second] :=
    ⟨secondText, "", hsecond, .inl rfl, rfl⟩
  have hname : "raw" ∈ Failure.reporterNames := by decide
  refine ⟨hfirst, hsecond, ?_⟩
  obtain ⟨text, htext, hcall⟩ := (report_of_stored_comments hname htyped).2 env ⟨[]⟩ {}
    [("a.json", [first]), ("b.json", [second])] rfl (by simp) rfl (by
      simp only [List.forall_mem_cons]
      exact ⟨⟨by decide, hholdsFirst⟩, ⟨by decide, hholdsSecond⟩, by simp⟩)
  have hraw : Report.render ([first, second].map .comment) (.text "raw") =
      .ok "a.js:3 TODO say \"hi\" 😀\n<stdin>:1 FIXME" := by
    have hlines : "\n".intercalate ([first, second].map Report.rawLine) =
        "a.js:3 TODO say \"hi\" 😀\n<stdin>:1 FIXME" := by decide +kernel
    rw [Report.render_comments rfl, Report.raw, Aggregate.mapM_asComment, ← hlines]
    rfl
  rw [hraw] at htext
  cases htext
  exact hcall

end TaggedComments
