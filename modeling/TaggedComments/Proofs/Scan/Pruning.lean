import TaggedComments.Proofs.Files.IgnoreRule
import TaggedComments.Proofs.Scan.Walk

/-!
# Directories that need not be entered

A walk does not enter a directory that the rules leave out. If no rule takes paths back in, this
saves work and hides nothing: whatever lies in such a directory is left out by itself.

- `Walk.unruled` is the walk that looks at everything.
- `Discovery.ruleView_below` says how the rules see the paths below a directory of the project.
- `Discovery.walk_eq_filter` says that the walk of a project takes the files that a walk of
  everything finds and the rules do not leave out.
-/

namespace TaggedComments

/-- The walk that keeps out of the directories that no walk enters, and takes every other file. -/
def Walk.unruled : Walk where
  enters _ := true
  takes _ := true

/-- The rules see a text of names as it is: it starts neither with a slash nor with a point and a
slash. -/
theorem IgnoreRules.seen_text {names : List String} (h : ∀ n ∈ names, Path.IsPiece n) :
    IgnoreRules.seen (Path.text names) = Path.text names := by
  cases names with
  | nil => rfl
  | cons n ns =>
    have hsplit := Path.splitOn_text (by simp) h
    have hn := h n (by simp)
    unfold seen
    split
    · next s heq =>
      rw [heq, Text.splitOn, if_pos rfl, List.map_cons] at hsplit
      exact absurd (String.toList_eq_nil_iff.mp (List.cons.inj hsplit).1.symm) hn.ne_empty
    · next s heq =>
      rw [heq, show '.' :: '/' :: s = ['.'] ++ '/' :: s from rfl,
        Text.splitOn_append_cons (by decide), List.map_cons] at hsplit
      exact absurd (String.toList_inj.mp (List.cons.inj hsplit).1.symm) hn.ne_point
    · rfl

namespace Discovery

variable {d : Discovery} {p : Path} {es : List (String × Tree)} {ns : List String}

/-! ## Section 1: How the rules see a path -/

theorem relativeTo?_append (base names : List String) :
    relativeTo? base (base ++ names) = some names := by
  induction base with
  | nil => rfl
  | cons b base ih => rw [List.cons_append, relativeTo?, if_pos rfl, ih]

/-- The rules see what is below a directory of the project from there. -/
theorem ruleView_below {way : List String} (hp : d.system.resolve p = d.project ++ way)
    (hns : ∀ n ∈ ns, Path.IsEntryName n) (hne : ns ≠ []) :
    (d.ruleView (p.below ns)).toList = Path.text (way ++ ns) := by
  have hnonempty : ¬ (PathStart.here = .here ∧ way ++ ns = []) := fun h =>
    hne (List.append_eq_nil_iff.mp h.2).2
  rw [ruleView, FileSystem.resolve_below _ _ hns, hp, List.append_assoc, relativeTo?_append]
  exact Path.toList_display hnonempty

/-- The names on the way from the project to a path below it. -/
theorem exists_way (hfs : d.system.WellFormed) (hp : p.IsWritten)
    (hproject : d.project <+: d.system.resolve p) :
    ∃ way, d.system.resolve p = d.project ++ way ∧ ∀ n ∈ way, Path.IsPiece n := by
  obtain ⟨way, hway⟩ := hproject
  refine ⟨way, hway.symm, fun n hn => ?_⟩
  exact FileSystem.isPiece_of_mem_resolve hfs hp (hway ▸ List.mem_append_right _ hn)

section Way

variable {way : List String} (hp : d.system.resolve p = d.project ++ way)
  (hway : ∀ n ∈ way, Path.IsPiece n)

include hp hway

theorem seen_ruleView_below (hns : ∀ n ∈ ns, Path.IsEntryName n) (hne : ns ≠ []) :
    IgnoreRules.seen (d.ruleView (p.below ns)).toList = Path.text (way ++ ns) := by
  rw [ruleView_below hp hns hne, IgnoreRules.seen_text]
  intro n hn
  exact (List.mem_append.mp hn).elim (hway n) fun hn => (hns n hn).toIsPiece

/-- Under rules that take nothing back in, a path is left out if a rule fits the names on the way
to it. -/
theorem isIgnored_below_iff (hrules : ∀ r ∈ d.rules, r.ignore = true)
    (hns : ∀ n ∈ ns, Path.IsEntryName n) (hne : ns ≠ []) :
    d.isIgnored (p.below ns) = true ↔
      ∃ r ∈ d.rules, r.decides (Path.text (way ++ ns)) = true := by
  rw [isIgnored, IgnoreRules.ignores_eq_true_iff hrules, seen_ruleView_below hp hway hns hne]

end Way

/-! ## Section 2: Walks -/

/-- Names that lead from a path down to a directory. -/
structure LeadsToDirectory (d : Discovery) (p : Path) (ns : List String) : Prop where
  /-- The directory lies below the path. -/
  ne_nil : ns ≠ []
  /-- The names are those of entries. -/
  names : ∀ n ∈ ns, Path.IsEntryName n
  /-- There is a directory. -/
  found : ∃ es, d.system.find (p.below ns) = .ok (.directory es)

/-- Each directory on the way to something is a directory below the path. -/
theorem leadsToDirectory_of_leads (hroot : d.system.root.Proper)
    (hes : d.system.find p = .ok (.directory es)) {after : List String} {u : Tree}
    (hleads : Tree.Leads (.directory es) (ns ++ after) u) (hne : ns ≠ []) (hafter : after ≠ []) :
    d.LeadsToDirectory p ns := by
  obtain ⟨t, ht, hu⟩ := Tree.leads_append_iff.mp hleads
  have hns := ((FileSystem.proper_of_find hroot hes).leads ht).2
  obtain ⟨m, after, rfl⟩ := List.exists_cons_of_ne_nil hafter
  cases t with
  | file bytes => exact absurd hu Tree.not_leads_file
  | directory inner =>
    exact ⟨hne, hns, inner, (FileSystem.find_below_eq_ok_iff hroot hes hns).mpr ht⟩

/-- The walk takes the files that a walk of everything finds and the rules leave in, if the rules
leave out all that lies in a directory which they leave out. -/
theorem walk_eq_filter_of_closed (hroot : d.system.root.Proper)
    (hes : d.system.find p = .ok (.directory es))
    (hclosed : ∀ ns after, d.LeadsToDirectory p ns → after ≠ [] →
      (∀ n ∈ after, Path.IsEntryName n) → d.isIgnored (p.below ns) = true →
      d.isIgnored (p.below (ns ++ after)) = true) :
    d.walk.files p (.directory es) =
      (Walk.unruled.files p (.directory es)).filter fun f => !d.isIgnored f := by
  have ht := FileSystem.proper_of_find hroot hes
  refine Walk.eq_of_pairwise (Walk.pairwise_files ht) ((Walk.pairwise_files ht).filter _) ?_
  intro f
  rw [List.mem_filter, Walk.mem_files_iff, Walk.mem_files_iff]
  constructor
  · rintro ⟨ns, bytes, hne, hleads, rfl, htakes, hcomes⟩
    refine ⟨⟨ns, bytes, hne, hleads, rfl, rfl, fun before n after hsplit hafter => ?_⟩, htakes⟩
    exact ⟨(hcomes before n after hsplit hafter).1, rfl⟩
  · rintro ⟨⟨ns, bytes, hne, hleads, rfl, -, hcomes⟩, htakes⟩
    refine ⟨ns, bytes, hne, hleads, rfl, htakes, comesTo_walk_iff.mpr ?_⟩
    rintro before n after rfl hafter
    refine ⟨(hcomes before n after rfl hafter).1, ?_⟩
    -- A directory on the way that is left out would leave the file out.
    rw [List.append_cons] at hleads htakes
    have hnames := (ht.leads hleads).2
    have hdirectory := leadsToDirectory_of_leads hroot hes hleads (by simp) hafter
    cases hignored : d.isIgnored (p.below (before ++ [n])) with
    | false => rfl
    | true =>
      have hfile := hclosed _ after hdirectory hafter
        (fun m hm => hnames m (List.mem_append_right _ hm)) hignored
      rw [hfile] at htakes
      cases htakes

/-- This is so if no rule fits a directory without fitting what is below it. -/
theorem walk_eq_filter_of_fitsBelow (hroot : d.system.root.Proper)
    (hrules : ∀ r ∈ d.rules, r.ignore = true) {way : List String}
    (hp : d.system.resolve p = d.project ++ way) (hway : ∀ n ∈ way, Path.IsPiece n)
    (hes : d.system.find p = .ok (.directory es))
    (hbelow : ∀ ns, d.LeadsToDirectory p ns → ∀ r ∈ d.rules,
      r.FitsBelow (IgnoreRules.seen (d.ruleView (p.below ns)).toList)) :
    d.walk.files p (.directory es) =
      (Walk.unruled.files p (.directory es)).filter fun f => !d.isIgnored f := by
  apply walk_eq_filter_of_closed hroot hes
  intro ns after hdirectory hafter hnames hignored
  have hall : ∀ n ∈ ns ++ after, Path.IsEntryName n := by
    intro n hn
    exact (List.mem_append.mp hn).elim (hdirectory.names n) (hnames n)
  obtain ⟨r, hr, hdecides⟩ :=
    (isIgnored_below_iff hp hway hrules hdirectory.names hdirectory.ne_nil).mp hignored
  have hfit := hbelow ns hdirectory r hr
  rw [seen_ruleView_below hp hway hdirectory.names hdirectory.ne_nil] at hfit
  -- The rule that leaves the directory out leaves out what is below it as well.
  rw [isIgnored_below_iff hp hway hrules hall (by simp [hafter]), ← List.append_assoc,
    Path.text_append (by simp [hdirectory.ne_nil]) hafter]
  exact ⟨r, hr, hfit hdecides _⟩

/-- **Pruning hides nothing.** In a project whose ignore patterns take nothing back in, let a
directory be the project or lie below it. If no rule fits a directory below and yet fails to fit
something in it, the walk takes the files that a walk of everything finds and that are not ignored,
in the same order. A rule that is read from a pattern is like this for each path that does not end in
a line feed, so this holds in particular where no directory has such a name. -/
theorem walk_eq_filter (d : Discovery) (hfs : d.system.WellFormed) {patterns : List String}
    (hrules : IgnoreRules.ofPatterns patterns = .ok d.rules)
    (hplain : ∀ s ∈ patterns, s.toList.head? ≠ some '!') {p : Path} (hp : p.IsWritten)
    {es : List (String × Tree)} (hes : d.system.find p = .ok (.directory es))
    (hproject : d.project <+: d.system.resolve p) :
    ((∀ ns, d.LeadsToDirectory p ns → ∀ r ∈ d.rules,
        r.FitsBelow (IgnoreRules.seen (d.ruleView (p.below ns)).toList)) →
      d.walk.files p (.directory es) =
        (Walk.unruled.files p (.directory es)).filter fun f => !d.isIgnored f)
    ∧ (∀ r ∈ d.rules, ∀ path, path.getLast? ≠ some '\n' → r.FitsBelow path)
    ∧ ((∀ ns n, d.LeadsToDirectory p (ns ++ [n]) → n.toList.getLast? ≠ some '\n') →
      d.walk.files p (.directory es) =
        (Walk.unruled.files p (.directory es)).filter fun f => !d.isIgnored f) := by
  have hpositive : ∀ r ∈ d.rules, r.ignore = true := by
    intro r hr
    obtain ⟨s, hs, hof⟩ := IgnoreRules.exists_pattern_of_mem hrules hr
    by_contra hnegated
    exact hplain s hs ((IgnoreRule.ofPattern_eq_ok hof).2 (Bool.eq_false_iff.mpr hnegated))
  have hfits : ∀ r ∈ d.rules, ∀ path, path.getLast? ≠ some '\n' → r.FitsBelow path := by
    intro r hr path hpath
    obtain ⟨s, -, hof⟩ := IgnoreRules.exists_pattern_of_mem hrules hr
    exact IgnoreRule.fitsBelow_of_ofPattern hof hpath
  obtain ⟨way, hway, hpieces⟩ := exists_way hfs hp hproject
  have hassumed := walk_eq_filter_of_fitsBelow hfs.root hpositive hway hpieces hes
  refine ⟨hassumed, hfits, fun hnames => hassumed fun ns hdirectory r hr => hfits r hr _ ?_⟩
  -- What the rules see of a directory ends as its name does.
  obtain ⟨before, n, rfl⟩ := List.eq_nil_or_concat ns |>.resolve_left hdirectory.ne_nil
  rw [List.concat_eq_append] at hdirectory ⊢
  rw [seen_ruleView_below hway hpieces hdirectory.names hdirectory.ne_nil, ← List.append_assoc,
    Path.getLast?_text_concat]
  · exact hnames before n hdirectory
  · exact (hdirectory.names n (by simp)).toIsPiece

/-- A project leaves out the files of one kind and a directory with what is in it. -/
theorem walk_eq_filter_vendored :
    let tree : Tree := .directory [("v", .directory [("x.py", .file [])]), ("a.py", .file []),
      ("b.js", .file [])]
    let d : Discovery := ⟨⟨.directory [("home", tree)], ["home"]⟩, ["home"],
      [⟨true, .start [.leading, .one 'v', .boundary]⟩,
        ⟨true, .start [.leading, .star, .one '.', .one 'j', .one 's', .boundary]⟩]⟩
    let p : Path := ⟨.here, []⟩
    d.system.WellFormed ∧ IgnoreRules.ofPatterns ["v", "*.js"] = .ok d.rules ∧ p.IsWritten
      ∧ d.system.find p = .ok tree ∧ d.project <+: d.system.resolve p
      ∧ d.isIgnored ⟨.here, ["v"]⟩ = true ∧ d.isIgnored ⟨.here, ["b.js"]⟩ = true
      ∧ d.isIgnored ⟨.here, ["a.py"]⟩ = false
      ∧ d.walk.files p tree = (Walk.unruled.files p tree).filter fun f => !d.isIgnored f := by
  intro tree d p
  have hfs : d.system.WellFormed := ⟨by decide +kernel, by decide⟩
  have hrules : IgnoreRules.ofPatterns ["v", "*.js"] = .ok d.rules := rfl
  have hp : p.IsWritten := by simp [p, Path.IsWritten]
  have htree : d.system.find p = .ok tree := rfl
  have hproject : d.project <+: d.system.resolve p := by decide
  -- The only directory below is the one that is left out.
  have hway : ∀ ks es, tree.Leads ks (.directory es) → ks ≠ [] → ks = ["v"] := by
    rintro (_ | ⟨k, _ | ⟨l, _ | ⟨m, ks⟩⟩⟩) es hleads hne <;>
      simp_all [tree, Tree.leads_cons_iff, Tree.leads_nil_iff, Tree.not_leads_file,
        or_and_right, exists_or]
  refine ⟨hfs, hrules, hp, htree, hproject, by decide +kernel, by decide +kernel, by decide +kernel, ?_⟩
  refine (walk_eq_filter d hfs hrules (by decide) hp htree hproject).2.2 fun ns n hdirectory => ?_
  obtain ⟨es, hes⟩ := hdirectory.found
  have hleads := (FileSystem.find_below_eq_ok_iff hfs.root htree hdirectory.names).mp hes
  have hlast := congrArg List.getLast? (hway _ _ hleads hdirectory.ne_nil)
  simp only [List.getLast?_append, List.getLast?_singleton] at hlast
  rw [show n = "v" by simpa using hlast]
  decide

end Discovery

end TaggedComments
