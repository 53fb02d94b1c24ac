import TaggedComments.Proofs.Report.Grouping
import TaggedComments.Proofs.Report.Json

/-!
# When a report is refused

The builtin reports of comments lay parts out that may be of any kind. The table needs texts for the
names of files, Markdown texts for messages, and JSON integers that are not too long; nothing else in a
comment with a text for a tag is refused.

- `Data.asText?_of_same` says that only a text is the same as a text.
- `Report.render_comments` says that comments are handed to the report as they are.
- `Report.Refused` says why a report of comments is refused, `Report.render_eq_error_iff` that there is
  no other reason.
- `Report.exists_render` is the report of comments whose parts are texts.
-/

namespace TaggedComments

/-! ## Section 1: Texts among values -/

namespace Data

theorem asText?_eq_some_iff {d : Data} {s : String} : d.asText? = some s ↔ d = .text s := by
  unfold asText?
  split
  · simp
  · next hother =>
    simp only [reduceCtorEq, false_iff]
    exact hother s

/-- Only a text is the same as a text. -/
theorem eq_of_text_same {s : String} {d : Data} (h : (Data.text s).same d = true) :
    d = .text s := by
  cases d with
  | scalar t =>
    -- Texts are no numbers, so they are only compared as they are.
    have hnone : (Scalar.text s).value? = none := rfl
    rw [same, Scalar.same, hnone] at h
    cases hvalue : t.value? with
    | some x => simp [hvalue] at h
    | none =>
      simp only [hvalue, Scalar.sameForm] at h
      rw [← eq_of_beq h]
  | _ => simp [same, beq] at h

theorem asText?_of_same {a b : Data} (h : a.same b = true) : a.asText? = b.asText? := by
  cases ha : a.asText? with
  | some s =>
    obtain rfl := asText?_eq_some_iff.mp ha
    rw [eq_of_text_same h]
    rfl
  | none =>
    cases hb : b.asText? with
    | none => rfl
    | some s =>
      obtain rfl := asText?_eq_some_iff.mp hb
      rw [same_comm] at h
      rw [eq_of_text_same h] at ha
      cases ha

/-- What cannot be a key is no text. -/
theorem asText?_of_isKey {d : Data} (h : d.isKey = false) : d.asText? = none := by
  cases htext : d.asText? with
  | none => rfl
  | some s =>
    rw [asText?_eq_some_iff.mp htext] at h
    cases h

end Data

namespace Report

variable {cs : List Comment}

/-! ## Section 2: Comments as items -/

theorem readItems_comments (cs : List Comment) :
    readItems (cs.map .comment) = .ok (cs.map .comment) := by
  rw [readItems, mapM_eq_ok_iff, List.forall₂_same]
  intro i hi
  obtain ⟨c, -, rfl⟩ := List.mem_map.mp hi
  rfl

/-- Comments are handed to the report of the name as they are. -/
theorem render_comments {name : String} {r : Reporter} (hr : named? name = some r) :
    render (cs.map .comment) (.text name) = r (cs.map .comment) := by
  have hfind : find (.text name) = .ok r := by
    rw [find, Data.asKey_text, ok_bind, Option.bind_some, hr]
  rw [render, readItems_comments, ok_bind, hfind, ok_bind]

/-! ## Section 3: Groups of comments -/

/-- A group for a key that is no text holds comments with such keys, and these are in no other. -/
theorem exists_mem_keysOf_iff {key : Comment → Data} :
    (∃ k ∈ keysOf key cs, k.asText? = none) ↔ ∃ c ∈ cs, (key c).asText? = none := by
  constructor
  · rintro ⟨k, hk, hnone⟩
    obtain ⟨c, hc, rfl⟩ := List.mem_map.mp ((distinctBy_sublist Data.same _).subset hk)
    exact ⟨c, hc, hnone⟩
  · rintro ⟨c, hc, hnone⟩
    obtain ⟨k, hk, hsame⟩ := exists_same_of_mem Data.same_refl (fun _ _ _ => Data.same_trans)
      (List.mem_map_of_mem (f := key) hc)
    exact ⟨k, hk, (Data.asText?_of_same hsame).trans hnone⟩

/-- Every comment is in a group, and every group is made of comments. -/
theorem exists_mem_groupOn_iff {key : Comment → Data} {p : Comment → Prop} :
    (∃ g ∈ groupOn key cs, ∃ c ∈ g.2, p c) ↔ ∃ c ∈ cs, p c := by
  constructor
  · rintro ⟨g, hg, c, hc, hp⟩
    exact ⟨c, (sublist_of_mem_groupOn hg).subset hc, hp⟩
  · rintro ⟨c, hc, hp⟩
    obtain ⟨g, hg, hcg⟩ := exists_mem_groupOn hc
    exact ⟨g, hg, c, hcg, hp⟩

/-! ## Section 4: One report -/

/-- The key of a file is no text if something that counts as true stands in its place. -/
theorem asText?_fileKey_eq_none_iff {c : Comment} :
    (fileKey c).asText? = none ↔ c.file.truthy = true ∧ c.file.asText? = none := by
  unfold fileKey Data.orElse
  cases c.file.truthy <;> simp [Data.asText?]

theorem withFileKey_of_isKey {c : Comment} (h : (fileKey c).isKey = true) :
    withFileKey (.comment c) = .ok c := by
  rw [withFileKey, Aggregate.asComment, ok_bind, if_pos h]

theorem withFileKey_eq_error_iff {c : Comment} {e : Failure} :
    withFileKey (.comment c) = .error e ↔ (fileKey c).isKey = false ∧ e = .wrongKind := by
  unfold withFileKey
  rw [Aggregate.asComment, ok_bind]
  cases (fileKey c).isKey <;> simp [eq_comm]

theorem withTagKey_of_text {c : Comment} (htag : ∃ s, c.tag = .text s) :
    withTagKey (.comment c) = .ok c := by
  obtain ⟨s, hs⟩ := htag
  simp [withTagKey, Aggregate.asComment, ok_bind, hs, Data.isKey]

/-- The section of a file is refused with its heading. -/
theorem heading_eq_error_iff {key : Data} {e : Failure} :
    heading key = .error e ↔ key.asText? = none ∧ e = .wrongKind := by
  unfold heading
  cases key.asText? with
  | some s => simp
  | none => simp only [true_and, Except.error.injEq, eq_comm]

theorem markdownRow_eq_error_iff {c : Comment} {e : Failure} :
    markdownRow c = .error e ↔ c.text.asText? = none ∧ e = .noSuchPart := by
  rw [markdownRow, map_eq_error_iff]
  unfold messageCell
  cases c.text.asText? with
  | some s => simp
  | none => simp only [true_and, Except.error.injEq, eq_comm]

variable (htags : ∀ c ∈ cs, ∃ s, c.tag = .text s)

include htags

/-- The rows of the files can be laid out, under the keys of the files. -/
theorem exists_fileRows : ∃ rows, fileRows cs = .ok rows ∧ rows.map (·.1) = keysOf fileKey cs := by
  -- A row needs nothing but a text for its tag.
  have hrow : ∀ c ∈ cs, ∃ line, row c = .ok line := by
    intro c hc
    obtain ⟨s, hs⟩ := htags c hc
    rw [row, hs]
    exact ⟨_, rfl⟩
  have hgroups : ∀ g ∈ groupOn fileKey cs, ∃ r : Data × List String,
      (g.2.mapM row).map (fun rows => (g.1, rows)) = .ok r := by
    intro g hg
    obtain ⟨rows, hrows⟩ := mapM_isOk_iff.mpr fun c hc =>
      hrow c ((sublist_of_mem_groupOn hg).subset hc)
    exact ⟨_, map_eq_ok_iff.mpr ⟨rows, hrows, rfl⟩⟩
  obtain ⟨rows, hrows⟩ := mapM_isOk_iff.mpr hgroups
  refine ⟨rows, hrows, ?_⟩
  have hkeys : List.Forall₂ (fun g r => r.1 = g.1) (groupOn fileKey cs) rows := by
    refine (mapM_eq_ok_iff.mp hrows).imp fun g r h => ?_
    obtain ⟨_, -, rfl⟩ := map_eq_ok_iff.mp h
    rfl
  rw [← map_fst_groupOn, ← List.forall₂_eq_eq_eq, List.forall₂_map_left_iff,
    List.forall₂_map_right_iff]
  exact hkeys.flip

theorem tableOf_eq_error_iff {e : Failure} : tableOf cs = .error e ↔
    (∃ c ∈ cs, (fileKey c).asText? = none) ∧ e = .wrongKind := by
  unfold tableOf
  split
  · next hempty =>
    obtain rfl := List.isEmpty_iff.mp hempty
    simp
  · obtain ⟨rows, hrows, hkeys⟩ := exists_fileRows htags
    have hnone : (∃ r ∈ rows, r.1.asText? = none) ↔ ∃ c ∈ cs, (fileKey c).asText? = none := by
      rw [← exists_mem_keysOf_iff, ← hkeys]
      simp
    have hsection : ∀ r e, section? r = .error e ↔ r.1.asText? = none ∧ e = .wrongKind :=
      fun r e => map_eq_error_iff.trans heading_eq_error_iff
    rw [hrows, ok_bind, bind_eq_error_iff,
      mapM_eq_error_iff_of_unique fun r _ e h => ((hsection r e).mp h).2]
    simp only [hsection, and_true, hnone]
    simp [pure, Except.pure]

theorem table_eq_error_iff {e : Failure} : table (cs.map .comment) = .error e ↔
    (∃ c ∈ cs, c.file.truthy = true ∧ c.file.asText? = none) ∧ e = .wrongKind := by
  simp only [← asText?_fileKey_eq_none_iff]
  have htable : table (cs.map .comment) = (cs.map .comment).mapM withFileKey >>= tableOf := rfl
  by_cases hkeys : ∀ c ∈ cs, (fileKey c).isKey = true
  · have hcs : (cs.map .comment).mapM withFileKey = .ok cs :=
      mapM_map_eq_ok fun c hc => withFileKey_of_isKey (hkeys c hc)
    rw [htable, hcs, ok_bind, tableOf_eq_error_iff htags]
  · simp only [not_forall, Bool.not_eq_true] at hkeys
    obtain ⟨c, hc, hkey⟩ := hkeys
    -- What cannot be a key is no text, so the table is refused in any case.
    have hnone : ∃ c ∈ cs, (fileKey c).asText? = none := ⟨c, hc, Data.asText?_of_isKey hkey⟩
    have hcs : (cs.map .comment).mapM withFileKey = .error .wrongKind := by
      refine (mapM_eq_error_iff_of_unique ?_).mpr ⟨?_, rfl⟩
      · intro i hi e h
        obtain ⟨d, -, rfl⟩ := List.mem_map.mp hi
        exact (withFileKey_eq_error_iff.mp h).2
      · exact ⟨_, List.mem_map_of_mem hc, withFileKey_eq_error_iff.mpr ⟨hkey, rfl⟩⟩
    rw [htable, hcs]
    simp only [hnone, true_and]
    exact ⟨fun h => by cases h; rfl, fun h => by rw [h]; rfl⟩

theorem markdown_eq_error_iff {e : Failure} : markdown (cs.map .comment) = .error e ↔
    (∃ c ∈ cs, c.text.asText? = none) ∧ e = .noSuchPart := by
  have hcs : (cs.map .comment).mapM withTagKey = .ok cs :=
    mapM_map_eq_ok fun c hc => withTagKey_of_text (htags c hc)
  have hrows : ∀ g : Data × List Comment, ∀ e, markdownSection g = .error e ↔
      (∃ c ∈ g.2, c.text.asText? = none) ∧ e = .noSuchPart := by
    intro g e
    rw [markdownSection, map_eq_error_iff,
      mapM_eq_error_iff_of_unique fun c _ e h => (markdownRow_eq_error_iff.mp h).2]
    simp only [markdownRow_eq_error_iff, and_true]
  show ((cs.map .comment).mapM withTagKey >>= markdownOf) = _ ↔ _
  rw [hcs, ok_bind, markdownOf, map_eq_error_iff,
    mapM_eq_error_iff_of_unique fun g _ e h => ((hrows g e).mp h).2]
  simp only [hrows, and_true, exists_mem_groupOn_iff]

omit htags in
theorem json_eq_error_iff {e : Failure} : json (cs.map .comment) = .error e ↔
    (∃ c ∈ cs, c.toData.isWritable = false) ∧ e = .numberTooLong := by
  rw [json, Aggregate.mapM_asComment, ok_bind]
  split
  · next hall =>
    simp only [List.all_eq_true] at hall
    simp only [reduceCtorEq, false_iff, not_and]
    rintro ⟨c, hc, hlong⟩
    rw [hall c hc] at hlong
    cases hlong
  · next hall =>
    simp only [List.all_eq_true, not_forall, Bool.not_eq_true, exists_prop] at hall
    simp only [hall, true_and, Except.error.injEq]
    exact eq_comm

/-! ## Section 5: All reports -/

/-- Why a builtin report of comments is refused. -/
@[mk_iff]
inductive Refused (name : String) (cs : List Comment) : Failure → Prop where
  | file {c : Comment} (hname : name = "table") (hc : c ∈ cs) (htrue : c.file.truthy = true)
      (h : c.file.asText? = none) : Refused name cs .wrongKind
  | message {c : Comment} (hname : name = "markdown") (hc : c ∈ cs) (h : c.text.asText? = none) :
      Refused name cs .noSuchPart
  | number {c : Comment} (hname : name = "json") (hc : c ∈ cs) (h : c.toData.isWritable = false) :
      Refused name cs .numberTooLong

/-- A builtin report of comments is refused for these reasons alone. -/
theorem render_eq_error_iff {name : String} (hname : name ∈ Failure.reporterNames) {e : Failure} :
    render (cs.map .comment) (.text name) = .error e ↔ Refused name cs e := by
  simp only [Failure.reporterNames, List.mem_cons, List.not_mem_nil, or_false] at hname
  rw [refused_iff]
  rcases hname with rfl | rfl | rfl | rfl | rfl
  · rw [render_comments (show named? "table" = some table from rfl), table_eq_error_iff htags]
    simp [← and_assoc]
  · rw [render_comments (show named? "json" = some json from rfl), json_eq_error_iff]
    simp [← and_assoc]
  · rw [render_comments (show named? "raw" = some raw from rfl), raw, Aggregate.mapM_asComment]
    simp [Except.map]
  · rw [render_comments (show named? "markdown" = some markdown from rfl),
      markdown_eq_error_iff htags]
    simp [← and_assoc]
  · rw [render_comments (show named? "xml" = some xml from rfl), xml, Aggregate.mapM_asComment]
    simp [Except.map]

omit htags in
/-- Every builtin report of well-typed comments succeeds; JSON has to be able to write them. -/
theorem exists_render (htyped : ∀ c ∈ cs, c.WellTyped) {name : String}
    (hname : name ∈ Failure.reporterNames)
    (hwritable : name = "json" → ∀ c ∈ cs, c.toData.isWritable = true) :
    ∃ text, render (cs.map .comment) (.text name) = .ok text := by
  cases hrender : render (cs.map .comment) (.text name) with
  | ok text => exact ⟨text, rfl⟩
  | error e =>
    exfalso
    cases (render_eq_error_iff (fun c hc => (htyped c hc).1) hname).mp hrender with
    | file _ hc htrue h =>
      obtain ⟨-, -, -, -, hfile | ⟨s, hfile⟩⟩ := htyped _ hc
      · rw [hfile] at htrue
        cases htrue
      · rw [hfile] at h
        cases h
    | message _ hc h =>
      obtain ⟨-, -, ⟨s, htext⟩, -⟩ := htyped _ hc
      rw [htext] at h
      cases h
    | number hjson hc h =>
      rw [hwritable hjson _ hc] at h
      cases h

end Report

end TaggedComments
