import Mathlib.Data.List.Basic
import TaggedComments.Files.IgnoreRule
import TaggedComments.Proofs.Steps

/-!
# What a rule fits, it fits with everything below

The pattern of a rule fits a path by its start, up to a slash or the end of the path. So a rule that
fits a directory fits each path below it as well, with one exception: the end of a path may also be
found before a line feed at its end, and a path below does not end there.

- `Wildcard.Reads` says what parts read of a text, `Wildcard.matchesStart_eq_true_iff` that the
  search for a reading finds one if there is one.
- `Wildcard.EndsAtBoundary` is the form of the parts that a pattern is read as.
- `IgnoreRule.FitsBelow` says that a rule fits what is below a path if it fits the path;
  `IgnoreRule.fitsBelow_of_ofPattern` says when this is so.
- `IgnoreRules.ignores_eq_true_iff` describes rules that take nothing back in.
-/

namespace TaggedComments

/-! ## Section 1: Readings -/

namespace Wildcard

/-- What parts read of a text: each reads up to where the next one starts. -/
inductive Reads : List Wildcard → List Char → List Char → Prop where
  | nil (s : List Char) : Reads [] s s
  | cons {w : Wildcard} {ws : List Wildcard} {s mid rest : List Char} (h : mid ∈ w.rests s)
      (hmore : Reads ws mid rest) : Reads (w :: ws) s rest

variable {w : Wildcard} {vs ws : List Wildcard} {s rest : List Char}

theorem mem_restsAll_iff {ends : List (List Char)} :
    rest ∈ restsAll ws ends ↔ ∃ s ∈ ends, Reads ws s rest := by
  induction ws generalizing ends with
  | nil =>
    rw [restsAll]
    constructor
    · intro h
      exact ⟨rest, h, .nil rest⟩
    · rintro ⟨s, hs, ⟨⟩⟩
      exact hs
  | cons w ws ih =>
    rw [restsAll, ih]
    simp only [mem_distinct, List.mem_flatMap]
    constructor
    · rintro ⟨mid, ⟨s, hs, hmid⟩, hmore⟩
      exact ⟨s, hs, .cons hmid hmore⟩
    · rintro ⟨s, hs, _ | ⟨hmid, hmore⟩⟩
      exact ⟨_, ⟨s, hs, hmid⟩, hmore⟩

theorem matchesStart_eq_true_iff : matchesStart ws s = true ↔ ∃ rest, Reads ws s rest := by
  rw [matchesStart, Bool.not_eq_true', List.isEmpty_eq_false_iff_exists_mem]
  simp only [mem_restsAll_iff, List.mem_singleton, exists_eq_left]

theorem reads_append_iff :
    Reads (vs ++ ws) s rest ↔ ∃ mid, Reads vs s mid ∧ Reads ws mid rest := by
  induction vs generalizing s with
  | nil =>
    constructor
    · intro h
      exact ⟨s, .nil s, h⟩
    · rintro ⟨mid, ⟨⟩, h⟩
      exact h
  | cons v vs ih =>
    constructor
    · rintro (_ | ⟨hfirst, hmore⟩)
      obtain ⟨mid, hvs, hws⟩ := ih.mp hmore
      exact ⟨mid, .cons hfirst hvs, hws⟩
    · rintro ⟨mid, _ | ⟨hfirst, hvs⟩, hws⟩
      exact .cons hfirst (ih.mpr ⟨mid, hvs, hws⟩)

/-! ## Section 2: Longer texts -/

/-- A reader of the front of a text: it leaves an end of the text, and reads the same where the text
goes on. -/
structure ReadsFront (f : List Char → List (List Char)) : Prop where
  /-- An end of the text is left. -/
  suffix : ∀ {s rest}, rest ∈ f s → rest <:+ s
  /-- What follows the text follows what is left. -/
  append : ∀ {s rest} (x : List Char), rest ∈ f s → rest ++ x ∈ f (s ++ x)

variable {f g : List Char → List (List Char)} {p : Char → Bool}

theorem ReadsFront.comp (hf : ReadsFront f) (hg : ReadsFront g) :
    ReadsFront fun s => (f s).flatMap g := by
  constructor
  · intro s rest h
    obtain ⟨mid, hmid, hrest⟩ := List.mem_flatMap.mp h
    exact (hg.suffix hrest).trans (hf.suffix hmid)
  · intro s rest x h
    obtain ⟨mid, hmid, hrest⟩ := List.mem_flatMap.mp h
    exact List.mem_flatMap.mpr ⟨_, hf.append x hmid, hg.append x hrest⟩

/-- Reading may also stop before it starts. -/
theorem ReadsFront.optional (hf : ReadsFront f) : ReadsFront fun s => s :: f s := by
  constructor
  · intro s rest h
    rcases List.mem_cons.mp h with rfl | h
    · exact List.suffix_refl _
    · exact hf.suffix h
  · intro s rest x h
    rcases List.mem_cons.mp h with rfl | h
    · exact List.mem_cons_self
    · exact List.mem_cons_of_mem _ (hf.append x h)

theorem mem_afterOne_iff : rest ∈ afterOne p s ↔ ∃ c, p c = true ∧ s = c :: rest := by
  cases s with
  | nil => simp [afterOne]
  | cons c s =>
    rw [afterOne]
    by_cases hc : p c = true
    · rw [if_pos hc, List.mem_singleton]
      constructor
      · rintro rfl
        exact ⟨c, hc, rfl⟩
      · rintro ⟨c', -, heq⟩
        exact (List.cons.inj heq).2.symm
    · rw [if_neg hc]
      constructor
      · intro hmem
        cases hmem
      · rintro ⟨c', hc', heq⟩
        obtain ⟨rfl, -⟩ := List.cons.inj heq
        exact absurd hc' hc

theorem readsFront_afterOne (p : Char → Bool) : ReadsFront (afterOne p) := by
  constructor
  · intro s rest h
    obtain ⟨c, -, rfl⟩ := mem_afterOne_iff.mp h
    exact List.suffix_cons c rest
  · intro s rest x h
    obtain ⟨c, hc, rfl⟩ := mem_afterOne_iff.mp h
    exact mem_afterOne_iff.mpr ⟨c, hc, rfl⟩

theorem mem_afterMany_cons_iff {c : Char} :
    rest ∈ afterMany p (c :: s) ↔ rest = c :: s ∨ p c = true ∧ rest ∈ afterMany p s := by
  rw [afterMany, List.mem_cons]
  split
  · next hc => simp [hc]
  · next hc => simp [hc]

theorem readsFront_afterMany (p : Char → Bool) : ReadsFront (afterMany p) := by
  constructor
  · intro s rest h
    induction s with
    | nil =>
      obtain rfl := List.mem_singleton.mp h
      exact List.suffix_refl []
    | cons c s ih =>
      rcases mem_afterMany_cons_iff.mp h with rfl | ⟨-, h⟩
      · exact List.suffix_refl _
      · exact (ih h).trans (List.suffix_cons c s)
  · intro s rest x h
    induction s with
    | nil =>
      obtain rfl := List.mem_singleton.mp h
      cases x with
      | nil => exact h
      | cons c x => exact mem_afterMany_cons_iff.mpr (.inl rfl)
    | cons c s ih =>
      rw [List.cons_append, mem_afterMany_cons_iff]
      rcases mem_afterMany_cons_iff.mp h with rfl | ⟨hc, h⟩
      · exact .inl rfl
      · exact .inr ⟨hc, ih h⟩

/-- Each part but the boundary reads the front of a text. -/
theorem readsFront_rests (hw : w ≠ .boundary) : ReadsFront w.rests := by
  cases w with
  | one c => exact readsFront_afterOne _
  | oneOf k => exact readsFront_afterOne _
  | any => exact readsFront_afterOne _
  | star => exact readsFront_afterMany _
  | name => exact (readsFront_afterOne _).comp (readsFront_afterMany _)
  | leading =>
    exact (((readsFront_afterOne _).comp (readsFront_afterMany _)).comp
      (readsFront_afterOne _)).optional
  | between =>
    exact (((readsFront_afterOne _).comp (readsFront_afterOne _)).comp
      (readsFront_afterMany _)).optional
  | boundary => exact absurd rfl hw

theorem Reads.append (h : Reads ws s rest) (hws : .boundary ∉ ws) (x : List Char) :
    Reads ws (s ++ x) (rest ++ x) := by
  induction h with
  | nil s => exact .nil _
  | cons hfirst _ ih =>
    obtain ⟨hw, hws⟩ := not_or.mp (mt List.mem_cons.mpr hws)
    exact .cons ((readsFront_rests (Ne.symm hw)).append x hfirst) (ih hws)

theorem Reads.suffix (h : Reads ws s rest) (hws : .boundary ∉ ws) : rest <:+ s := by
  induction h with
  | nil s => exact List.suffix_refl s
  | cons hfirst _ ih =>
    obtain ⟨hw, hws⟩ := not_or.mp (mt List.mem_cons.mpr hws)
    exact (ih hws).trans ((readsFront_rests (Ne.symm hw)).suffix hfirst)

/-- The form of the parts of a pattern: a boundary can only be the last one. -/
def EndsAtBoundary (ws : List Wildcard) : Prop :=
  ∃ vs, .boundary ∉ vs ∧ (ws = vs ∨ ws = vs ++ [.boundary])

/-- A path that parts fit, they fit together with everything below it, unless a line feed is the
last character of the path. -/
theorem matchesStart_below (hws : EndsAtBoundary ws) (hs : s.getLast? ≠ some '\n')
    (h : matchesStart ws s = true) (x : List Char) : matchesStart ws (s ++ '/' :: x) = true := by
  rw [matchesStart_eq_true_iff] at h ⊢
  obtain ⟨rest, hreads⟩ := h
  obtain ⟨vs, hvs, rfl | rfl⟩ := hws
  · exact ⟨_, hreads.append hvs _⟩
  · obtain ⟨mid, hfront, _ | ⟨hlast, -⟩⟩ := reads_append_iff.mp hreads
    have hlonger := hfront.append hvs ('/' :: x)
    suffices hend : ∃ after, after ∈ boundary.rests (mid ++ '/' :: x) by
      obtain ⟨after, hafter⟩ := hend
      exact ⟨after, reads_append_iff.mpr ⟨_, hlonger, .cons hafter (.nil after)⟩⟩
    rcases List.mem_append.mp hlast with hslash | hend
    · exact ⟨_, List.mem_append_left _ ((readsFront_afterOne _).append _ hslash)⟩
    · -- The path ends here, and the slash before the names below is the boundary.
      have hmid : mid = [] := by
        split at hend
        · next hatEnd =>
          rw [atEnd, Bool.or_eq_true, beq_iff_eq, beq_iff_eq] at hatEnd
          rcases hatEnd with hnil | hfeed
          · exact hnil
          · obtain ⟨pre, rfl⟩ := hfront.suffix hvs
            simp [hfeed] at hs
        · cases hend
      subst hmid
      exact ⟨x, List.mem_append_left _ (mem_afterOne_iff.mpr ⟨'/', rfl, rfl⟩)⟩

end Wildcard

/-! ## Section 3: Rules -/

namespace IgnoreRule

/-- Whether a rule that fits a path fits everything below it. -/
def FitsBelow (r : IgnoreRule) (path : List Char) : Prop :=
  r.decides path = true → ∀ x, r.decides (path ++ '/' :: x) = true

theorem boundary_notMem_of_readSegment {fuel : Nat} {s : List Char} {ws : List Wildcard}
    (h : readSegment fuel s = .ok ws) : .boundary ∉ ws := by
  induction fuel generalizing s ws with
  | zero =>
    cases h
    exact List.not_mem_nil
  | succ fuel ih =>
    have hmore : ∀ {w : Wildcard} {s : List Char},
        (readSegment fuel s).map (w :: ·) = .ok ws → w ≠ .boundary → .boundary ∉ ws := by
      intro w s hmap hw
      obtain ⟨vs, hvs, rfl⟩ := map_eq_ok_iff.mp hmap
      exact mt List.mem_cons.mp (not_or.mpr ⟨Ne.symm hw, ih hvs⟩)
    cases s with
    | nil =>
      cases h
      exact List.not_mem_nil
    | cons c s =>
      simp only [readSegment] at h
      split at h
      · cases s with
        | nil => cases h
        | cons d r =>
          simp only at h
          exact hmore h nofun
      · split at h
        · exact hmore h nofun
        · split at h
          · exact hmore h nofun
          · split at h
            · cases hclass : classAt? s with
              | none => simp [hclass] at h
              | some found =>
                obtain ⟨negated, inside, after⟩ := found
                simp only [hclass] at h
                exact hmore h nofun
            · exact hmore h nofun

/-- The parts of a segment hold a boundary only at the end of the last one. -/
theorem segmentParts_eq_ok {first last slash : Bool} {s : String} {ws : List Wildcard}
    (h : segmentParts first last slash s = .ok ws) :
    ∃ vs, .boundary ∉ vs ∧ (ws = vs ∨ last = true ∧ ws = vs ++ [.boundary]) := by
  have hplain : ∀ parts, .boundary ∉ parts →
      (if slash then [.one '/'] else []) ++ parts ++ (if last then [.boundary] else []) = ws →
      ∃ vs, .boundary ∉ vs ∧ (ws = vs ∨ last = true ∧ ws = vs ++ [.boundary]) := by
    rintro parts hfree rfl
    have hfront : .boundary ∉ (if slash then [Wildcard.one '/'] else []) ++ parts := by
      rw [List.mem_append, not_or]
      refine ⟨?_, hfree⟩
      cases slash <;> simp
    cases last with
    | false => exact ⟨_, hfront, .inl (by simp)⟩
    | true => exact ⟨_, hfront, .inr ⟨rfl, rfl⟩⟩
  by_cases hdeep : s = deep
  · rw [segmentParts, if_pos hdeep] at h
    cases h
    refine ⟨_, ?_, .inl rfl⟩
    cases first <;> cases last <;> simp
  · rw [segmentParts, if_neg hdeep] at h
    by_cases hstar : s = "*"
    · simp only [hstar, if_true] at h
      exact hplain [.name] (by simp) (Except.ok.inj h)
    · simp only [hstar, if_false] at h
      obtain ⟨parts, hparts, hws⟩ := bind_eq_ok_iff.mp h
      exact hplain parts (boundary_notMem_of_readSegment hparts) (Except.ok.inj hws)

theorem endsAtBoundary_of_partsFrom {first slash : Bool} {segments : List String}
    {ws : List Wildcard} (h : partsFrom first slash segments = .ok ws) :
    Wildcard.EndsAtBoundary ws := by
  induction segments generalizing first slash ws with
  | nil =>
    cases h
    exact ⟨[], List.not_mem_nil, .inl rfl⟩
  | cons s segments ih =>
    rw [partsFrom] at h
    obtain ⟨parts, hparts, h⟩ := bind_eq_ok_iff.mp h
    obtain ⟨more, hmore, hws⟩ := bind_eq_ok_iff.mp h
    cases hws
    -- A boundary among the first parts means that no segment follows.
    obtain ⟨vs, hvs, heq | ⟨hlast, rfl⟩⟩ := segmentParts_eq_ok hparts
    · subst heq
      obtain ⟨us, hus, heq | rfl⟩ := ih hmore
      · subst heq
        exact ⟨parts ++ more, by simp [hvs, hus], .inl rfl⟩
      · exact ⟨parts ++ us, by simp [hvs, hus], .inr (List.append_assoc ..).symm⟩
    · obtain rfl := List.isEmpty_iff.mp hlast
      cases hmore
      exact ⟨vs, hvs, .inr (List.append_nil _)⟩

theorem endsAtBoundary_of_formOf {segments : List String} {ws : List Wildcard}
    (h : formOf segments = .ok (.start ws)) : Wildcard.EndsAtBoundary ws := by
  unfold formOf at h
  simp only at h
  -- The shorter forms are no readings of parts.
  split at h
  · cases h
  split at h
  · split at h <;> cases h
  split at h
  · cases h
  split at h
  · cases h
  obtain ⟨parts, hparts, hrest⟩ := bind_eq_ok_iff.mp h
  split at hrest
  · cases hrest
  · cases hrest
    exact endsAtBoundary_of_partsFrom hparts

theorem head?_trimPattern {s : List Char} {c : Char} (h : (trimPattern s).head? = some c) :
    s.head? = some c := by
  unfold trimPattern at h
  split at h
  · exact h
  · rw [← Text.dropRightWhile_append Text.isSpace s, List.head?_append]
    rw [Text.trimRight] at h
    rw [h]
    rfl

/-- The rule of a pattern has the form of its segments, and takes paths back in only if the pattern
has an exclamation mark in front. -/
theorem ofPattern_eq_ok {pattern : String} {r : IgnoreRule}
    (h : ofPattern pattern = .ok (some r)) :
    (∃ segments, formOf segments = .ok r.form)
      ∧ (r.ignore = false → pattern.toList.head? = some '!') := by
  have hsign : ∀ s, (trimPattern pattern.toList).head? = some s →
      pattern.toList.head? = some s := fun s => head?_trimPattern
  unfold ofPattern at h
  generalize trimPattern pattern.toList = s at h hsign
  simp only at h
  split at h
  · cases h
  split at h
  · next form hform =>
    cases h
    refine ⟨⟨_, hform⟩, fun hignore => hsign '!' ?_⟩
    -- The sign of the rule is read off the first character.
    simp only at hignore
    split at hignore
    · rfl
    · cases hignore
  · cases h
  · cases h
  · cases h

/-- A rule that is read from a pattern fits everything below the paths that it fits, unless a line
feed is the last character of a path. -/
theorem fitsBelow_of_ofPattern {pattern : String} {r : IgnoreRule}
    (h : ofPattern pattern = .ok (some r)) {path : List Char}
    (hpath : path.getLast? ≠ some '\n') : r.FitsBelow path := by
  obtain ⟨segments, hform⟩ := (ofPattern_eq_ok h).1
  intro hdecides x
  rw [decides] at hdecides ⊢
  cases hr : r.form with
  | everything =>
    simp only [hr] at hdecides ⊢
    rw [List.any_append, hdecides, Bool.true_or]
  | nested => simp
  | start ws =>
    simp only [hr] at hdecides ⊢
    rw [hr] at hform
    exact Wildcard.matchesStart_below (endsAtBoundary_of_formOf hform) hpath hdecides x

/-- The line feed at the end of a path is passed over, but not before a slash. -/
example : let r : IgnoreRule := ⟨true, .start [.leading, .one 'v', .boundary]⟩
    r.decides ['v', '\n'] = true ∧ r.decides ['v', '\n', '/', 'x'] = false := by
  decide +kernel

end IgnoreRule

namespace IgnoreRules

/-- Rules that take nothing back in leave out what one of them fits. -/
theorem ignores_eq_true_iff {rules : IgnoreRules} (h : ∀ r ∈ rules, r.ignore = true)
    (path : String) :
    rules.ignores path = true ↔ ∃ r ∈ rules, r.decides (seen path.toList) = true := by
  rw [ignores]
  cases hfind : rules.reverse.find? fun r => r.decides (seen path.toList) with
  | none =>
    rw [List.find?_eq_none] at hfind
    simp only [List.mem_reverse] at hfind
    constructor
    · intro hfalse
      cases hfalse
    · rintro ⟨r, hr, hdecides⟩
      exact absurd hdecides (hfind r hr)
  | some r =>
    have hr : r ∈ rules := List.mem_reverse.mp (List.mem_of_find?_eq_some hfind)
    have hdecides := List.find?_some (p := fun r => IgnoreRule.decides r (seen path.toList)) hfind
    exact ⟨fun _ => ⟨r, hr, hdecides⟩, fun _ => h r hr⟩

/-- Each rule is read from a pattern. -/
theorem exists_pattern_of_mem {patterns : List String} {rules : IgnoreRules}
    (h : ofPatterns patterns = .ok rules) {r : IgnoreRule} (hr : r ∈ rules) :
    ∃ pattern ∈ patterns, IgnoreRule.ofPattern pattern = .ok (some r) := by
  obtain ⟨read, hread, rfl⟩ := map_eq_ok_iff.mp h
  obtain ⟨found, hfound, hsome⟩ := List.mem_filterMap.mp hr
  obtain ⟨pattern, hpattern, hof⟩ := (mem_of_mapM_eq_ok hread).mp hfound
  exact ⟨pattern, hpattern, hof.trans (congrArg Except.ok hsome)⟩

end IgnoreRules

end TaggedComments
