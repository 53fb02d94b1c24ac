import TaggedComments.Proofs.Aggregate.LineOrder
import TaggedComments.Proofs.Steps

/-!
# What the output of several parsers amounts to

The output of parsers is determined by five conditions: it is in the order of lines, names no key
twice, leaves no key out, keeps the first comment of each key, and does not change the order on a
line.

- `IsAggregate` states the conditions; `isAggregate_normalForm` and `IsAggregate.eq_normalForm` say
  that the normal form meets them, and nothing else does.
- `firstOfKey_sortByLine` exchanges the two steps.
- `Aggregate.runParsers_exact` brings this to the output of any parsers.
-/

namespace TaggedComments

/-! ## Section 1: Keys -/

namespace Comment

@[simp] theorem sameKey_refl (c : Comment) : c.sameKey c = true := by
  simp [sameKey]

theorem sameKey_comm (c d : Comment) : c.sameKey d = d.sameKey c := by
  rw [sameKey, sameKey, BEq.comm, Data.same_comm c.tag, Data.same_comm c.text]

theorem sameKey_trans {c d e : Comment} (hcd : c.sameKey d = true) (hde : d.sameKey e = true) :
    c.sameKey e = true := by
  simp only [sameKey, Bool.and_eq_true, beq_iff_eq] at *
  obtain ⟨⟨hline, htag⟩, htext⟩ := hcd
  obtain ⟨⟨hline', htag'⟩, htext'⟩ := hde
  exact ⟨⟨hline.trans hline', Data.same_trans htag htag'⟩, Data.same_trans htext htext'⟩

theorem line_eq_of_sameKey {c d : Comment} (h : c.sameKey d = true) :
    c.line.value = d.line.value := by
  simp only [sameKey, Bool.and_eq_true, beq_iff_eq] at h
  exact h.1.1

/-- Comments with one key are the same as the same comments. -/
theorem sameKey_eq_of_sameKey {c d : Comment} (h : c.sameKey d = true) :
    c.sameKey = d.sameKey := by
  funext e
  apply Bool.eq_iff_iff.mpr
  constructor
  · intro hce
    rw [sameKey_comm] at h
    exact sameKey_trans h hce
  · intro hde
    exact sameKey_trans h hde

/-- The tag of a comment that is read from a value is a text. -/
theorem tag_of_ofData {d : Data} {c : Comment} (h : ofData d = .ok c) :
    ∃ s, c.tag = .text s := by
  unfold ofData at h
  -- Any of three steps may fail, and then nothing is read.
  cases htag : d.field "tag" with
  | error e =>
    rw [htag] at h
    cases h
  | ok tag =>
    cases hint : ((d.get? "line").getD (.int 0)).toInt with
    | error e =>
      rw [htag, hint] at h
      cases h
    | ok n =>
      cases hline : LineNumber.ofData (.int n) with
      | error e =>
        simp only [htag, hint, bind, Except.bind, hline] at h
        cases h
      | ok line =>
        simp only [htag, hint, bind, Except.bind, hline] at h
        cases h
        exact ⟨_, rfl⟩

end Comment

/-! ## Section 2: The two steps -/

theorem find?_of_mem_firstOfKey {cs : List Comment} {c : Comment} (h : c ∈ firstOfKey cs) :
    cs.find? c.sameKey = some c :=
  find?_of_mem_distinctBy Comment.sameKey_refl Comment.sameKey_comm h

theorem onLine_firstOfKey (n : Nat) (cs : List Comment) :
    onLine n (firstOfKey cs) = firstOfKey (onLine n cs) := by
  apply filter_distinctBy
  intro c d h
  rw [Comment.line_eq_of_sameKey h]

theorem ascending_normalForm (cs : List Comment) : Ascending (normalForm cs) :=
  (ascending_sortByLine cs).sublist (distinctBy_sublist _ _)

/-- The comments of a line are the first of their keys on that line. -/
theorem onLine_normalForm (n : Nat) (cs : List Comment) :
    onLine n (normalForm cs) = firstOfKey (onLine n cs) := by
  rw [normalForm, onLine_firstOfKey, onLine_sortByLine]

/-- It does not matter whether repetitions are dropped before sorting or after it. -/
theorem firstOfKey_sortByLine (cs : List Comment) :
    firstOfKey (sortByLine cs) = sortByLine (firstOfKey cs) := by
  apply eq_of_onLine_eq (ascending_normalForm cs) (ascending_sortByLine _)
  intro n
  -- Either way a line keeps the first of each key among its own comments.
  rw [onLine_sortByLine, onLine_firstOfKey]
  exact onLine_normalForm n cs

theorem mem_normalForm {cs : List Comment} {c : Comment} :
    c ∈ normalForm cs ↔ c ∈ firstOfKey cs := by
  rw [normalForm, firstOfKey_sortByLine, mem_sortByLine]

/-! ## Section 3: The conditions -/

/-- A list of comments is what the comments of all parsers, in their order, amount to. -/
structure IsAggregate (merged out : List Comment) : Prop where
  /-- The lines ascend. -/
  ascending : out.Pairwise fun c d => c.line.value ≤ d.line.value
  /-- No key occurs twice. -/
  distinct : out.Pairwise fun c d => c.sameKey d = false
  /-- No key is left out. -/
  complete : ∀ c ∈ merged, ∃ d ∈ out, c.sameKey d = true
  /-- Nothing is added. -/
  sound : ∀ c ∈ out, c ∈ merged
  /-- The first comment of a key is kept. -/
  first : ∀ c ∈ out, merged.find? c.sameKey = some c
  /-- The comments of a line keep their order. -/
  stable : out.Pairwise fun c d => c.line.value = d.line.value → merged.idxOf c < merged.idxOf d

theorem isAggregate_normalForm (merged : List Comment) :
    IsAggregate merged (normalForm merged) where
  ascending := ascending_normalForm merged
  distinct := pairwise_distinctBy _ _
  complete := by
    intro c hc
    obtain ⟨d, hd, hdc⟩ := exists_same_of_mem Comment.sameKey_refl
      (fun _ _ _ => Comment.sameKey_trans) (mem_sortByLine.mpr hc)
    exact ⟨d, hd, Comment.sameKey_comm d c ▸ hdc⟩
  sound := by
    intro c hc
    exact (distinctBy_sublist _ _).subset (mem_normalForm.mp hc)
  first := by
    intro c hc
    exact find?_of_mem_firstOfKey (mem_normalForm.mp hc)
  stable := by
    -- On one line the normal form has the first of each key, in the order of the list.
    have honLine : ∀ n, (onLine n (normalForm merged)).Pairwise
        fun c d => merged.idxOf c < merged.idxOf d := by
      intro n
      rw [onLine_normalForm, ← onLine_firstOfKey]
      exact (pairwise_idxOf_distinctBy Comment.sameKey_refl merged).filter _
    apply List.pairwise_of_forall_sublist
    intro c d hsub hline
    -- Two comments of one line are found on that line in the same order.
    have hpair : [c, d] = onLine d.line.value [c, d] := by simp [onLine, hline]
    have hsub' := hsub.filter fun e => e.line.value = d.line.value
    rw [← onLine, ← hpair] at hsub'
    have hplace := (honLine d.line.value).sublist hsub'
    rw [List.pairwise_pair] at hplace
    exact hplace

namespace IsAggregate

variable {merged out : List Comment}

/-- The comments in question are the first of their keys. -/
theorem mem_iff (h : IsAggregate merged out) {c : Comment} :
    c ∈ out ↔ c ∈ merged ∧ merged.find? c.sameKey = some c := by
  constructor
  · intro hc
    exact ⟨h.sound c hc, h.first c hc⟩
  · rintro ⟨hc, hfirst⟩
    -- Some comment with this key was kept, and both are the first with the key.
    obtain ⟨d, hd, hcd⟩ := h.complete c hc
    have hd' := h.first d hd
    rw [← Comment.sameKey_eq_of_sameKey hcd, hfirst] at hd'
    obtain rfl := Option.some.inj hd'
    exact hd

/-- Line and place in the list order the comments strictly. -/
theorem strict (h : IsAggregate merged out) :
    out.Pairwise fun c d => c.line.value < d.line.value
      ∨ (c.line.value = d.line.value ∧ merged.idxOf c < merged.idxOf d) := by
  apply (h.ascending.and h.stable).imp
  rintro c d ⟨hle, hplace⟩
  rcases Nat.lt_or_eq_of_le hle with hlt | heq
  · exact .inl hlt
  · exact .inr ⟨heq, hplace heq⟩

/-- The conditions leave one list. -/
theorem eq_normalForm (h : IsAggregate merged out) : out = normalForm merged := by
  have h' := isAggregate_normalForm merged
  -- Both lists hold the same comments, and a strict order leaves one way to place them.
  have hperm : out.Perm (normalForm merged) := by
    apply (List.perm_ext_iff_of_nodup ?_ ?_).mpr
    · intro c
      rw [h.mem_iff, h'.mem_iff]
    · exact h.strict.imp fun hcd heq => by subst heq; omega
    · exact h'.strict.imp fun hcd heq => by subst heq; omega
  apply List.Perm.eq_of_pairwise ?_ h.strict h'.strict hperm
  intro c d _ _ hcd hdc
  omega

end IsAggregate

/-! ## Section 4: The output of parsers -/

namespace Aggregate

/-- What an item of a parser stands for: a comment for itself, a mapping for what is read from
it. -/
inductive Describes : Item → Comment → Prop where
  | comment (c : Comment) (h : c.WellTyped) : Describes (.comment c) c
  | mapping (es : List (Data × Data)) (c : Comment) (h : Comment.ofData (.mapping es) = .ok c) :
      Describes (.value (.mapping es)) c

theorem Describes.readItem_eq {i : Item} {c : Comment} (h : Describes i c) :
    readItem i = .ok (.comment c) := by
  cases h with
  | comment c h => rfl
  | mapping es c h =>
    rw [readItem, h]
    rfl

theorem mapM_readItem {items : List Item} {cs : List Comment}
    (h : List.Forall₂ Describes items cs) :
    items.mapM readItem = .ok (cs.map .comment) := by
  rw [mapM_eq_ok_iff, List.forall₂_map_right_iff]
  exact h.imp fun _ _ => Describes.readItem_eq

theorem mapM_asComment (cs : List Comment) : (cs.map .comment).mapM asComment = .ok cs :=
  mapM_map_eq_ok fun _ _ => rfl

theorem sort_comments (cs : List Comment) : sort (cs.map .comment) = .ok (sortByLine cs) := by
  rw [sort, mapM_asComment]
  rfl

/-- The tag is a text in any case, so only the message may keep a comment from having a key. -/
theorem Describes.hasKey_eq {i : Item} {c : Comment} (h : Describes i c) :
    c.hasKey = c.text.isKey := by
  have htag : ∃ s, c.tag = .text s := by
    cases h with
    | comment c h => exact h.1
    | mapping es c h => exact Comment.tag_of_ofData h
  obtain ⟨tag, htag⟩ := htag
  rw [Comment.hasKey, htag]
  rfl

theorem all_hasKey {items : List Item} {cs : List Comment}
    (h : List.Forall₂ Describes items cs) :
    cs.all Comment.hasKey = cs.all fun c => c.text.isKey := by
  induction h with
  | nil => rfl
  | cons hitem _ ih => rw [List.all_cons, List.all_cons, ih, hitem.hasKey_eq]

theorem exists_describes {items : List Item} (h : ∀ i ∈ items, ∃ c, Describes i c) :
    ∃ cs, List.Forall₂ Describes items cs :=
  exists_forall₂_iff.mpr h

theorem sort_dropRepeated (cs : List Comment) :
    (sort (cs.map .comment) >>= dropRepeated) =
      if cs.all Comment.hasKey then .ok (normalForm cs) else .error .wrongKind := by
  have hperm : (sortByLine cs).Perm cs := List.mergeSort_perm cs _
  rw [sort_comments, ← hperm.all_eq]
  rfl

/-- The items of a run go through merging, sorting and dropping repetitions, one after another. -/
theorem result_runParsers {overrides catalogue : Catalogue} {custom : List Data}
    {names : List String} {content : String} {file : Data} {extractors : List Extractor}
    {outputs : List (List Item)} {merged : List Item}
    (hsetUp : setUp overrides catalogue custom names = .ok extractors)
    (hrun : (extractors.mapM fun x => x content file) = .ok outputs)
    (hmerge : merge outputs = .ok merged) :
    (runParsers overrides catalogue custom names content file).result =
      sort merged >>= dropRepeated := by
  -- The steps before merging succeed, and the log does not matter for the result.
  rw [runParsers, collect, hsetUp]
  simp only [bind, Except.bind, hrun, hmerge]
  cases hsort : sort merged with
  | error e => rfl
  | ok sorted =>
    simp only
    cases dropRepeated sorted <;> rfl

/-- **The output of parsers.** When all items are comments or mappings from which comments are
read, a run returns the one list that meets the conditions, unless the message of a mapping cannot
be part of a key. Sorting and dropping repetitions may be exchanged. -/
theorem runParsers_exact (outputs : List (List Item))
    (hitems : ∀ items ∈ outputs, ∀ i ∈ items, ∃ c, Describes i c) :
    ∃ merged, List.Forall₂ Describes outputs.flatten merged
      ∧ merge outputs = .ok (merged.map .comment)
      ∧ (sort (merged.map .comment) >>= dropRepeated) =
          (if merged.all fun c => c.text.isKey then .ok (normalForm merged)
            else .error .wrongKind)
      ∧ (∀ overrides catalogue custom names content file extractors,
          setUp overrides catalogue custom names = .ok extractors →
          (extractors.mapM fun x => x content file) = .ok outputs →
          (runParsers overrides catalogue custom names content file).result =
            if merged.all fun c => c.text.isKey then .ok (normalForm merged)
            else .error .wrongKind)
      ∧ IsAggregate merged (normalForm merged)
      ∧ (∀ out, IsAggregate merged out → out = normalForm merged)
      ∧ ∀ cs, firstOfKey (sortByLine cs) = sortByLine (firstOfKey cs) := by
  obtain ⟨merged, hmerged⟩ : ∃ merged, List.Forall₂ Describes outputs.flatten merged := by
    apply exists_describes
    intro i hi
    obtain ⟨items, hitems', hmem⟩ := List.mem_flatten.mp hi
    exact hitems items hitems' i hmem
  have hmerge : merge outputs = .ok (merged.map .comment) := mapM_readItem hmerged
  have hsteps : (sort (merged.map .comment) >>= dropRepeated) =
      (if merged.all fun c => c.text.isKey then .ok (normalForm merged)
        else .error .wrongKind) := by
    rw [sort_dropRepeated, all_hasKey hmerged]
  refine ⟨merged, hmerged, hmerge, hsteps, ?_, isAggregate_normalForm merged,
    fun out h => h.eq_normalForm, firstOfKey_sortByLine⟩
  intro overrides catalogue custom names content file extractors hsetUp hrun
  rw [result_runParsers hsetUp hrun hmerge]
  exact hsteps

/-- A mapping and a comment that has its key: the mapping comes first and is kept. -/
theorem runParsers_exact_mapping :
    let mapping := Data.mapping [(.text "tag", .text "TODO"), (.text "line", .int 2)]
    let fromMapping : Comment := ⟨.text "TODO", .number 2 (by decide), .text "", .text "", .null⟩
    let other : Comment := ⟨.text "TODO", .number 2 (by decide), .text "", .text "r", .null⟩
    ∃ merged, merge [[.value mapping], [.comment other]] = .ok (merged.map .comment)
      ∧ merged = [fromMapping, other] ∧ normalForm merged = [fromMapping]
      ∧ IsAggregate merged (normalForm merged) := by
  intro mapping fromMapping other
  have hmapping : Describes (.value mapping) fromMapping := .mapping _ _ rfl
  have hother : Describes (.comment other) other :=
    .comment other ⟨⟨_, rfl⟩, ⟨_, _, rfl⟩, ⟨_, rfl⟩, ⟨_, rfl⟩, .inl rfl⟩
  obtain ⟨merged, -, hmerge, -, -, hspec, -⟩ :=
    runParsers_exact [[.value mapping], [.comment other]] (by
      intro items hitems i hi
      simp only [List.mem_cons, List.not_mem_nil, or_false] at hitems
      rcases hitems with rfl | rfl
      · exact ⟨fromMapping, List.mem_singleton.mp hi ▸ hmapping⟩
      · exact ⟨other, List.mem_singleton.mp hi ▸ hother⟩)
  have hmerged : merged = [fromMapping, other] := by
    have hread : merge [[.value mapping], [.comment other]] =
      .ok ([fromMapping, other].map .comment) := rfl
    rw [hread] at hmerge
    have hinjective : Function.Injective Item.comment := fun _ _ h => Item.comment.inj h
    exact (hinjective.list_map (Except.ok.inj hmerge)).symm
  have hsorted : sortByLine [fromMapping, other] = [fromMapping, other] :=
    List.mergeSort_of_pairwise (List.pairwise_pair.mpr rfl)
  refine ⟨merged, hmerge, hmerged, ?_, hspec⟩
  rw [hmerged, normalForm, hsorted]
  rfl

end Aggregate

end TaggedComments
