import TaggedComments.Extract.Finding
import TaggedComments.Proofs.Extract.Body
import TaggedComments.Proofs.Extract.Reading

/-!
# Blocks and their comments

Blocks are searched from left to right: an opener without a closer behind it is passed over, a
block ends at the first closer, and the search goes on after it.

- `Delimiters.FitsAt` says that an opener stands at a position and its closer somewhere behind it,
  `Grammar.OpensBlock` that a block may open there.
- `Grammar.BlockAt` describes one block, `Grammar.Scan` the blocks of a text.
- `Grammar.blocksOf_scan` says that the search finds these, `Grammar.blockPass_exact` what follows
  for the builtin grammars and which comments their blocks hold.
-/

namespace TaggedComments

/-! ## Section 1: One pair of delimiters -/

/-- An opener stands at a position, and somewhere at or behind its end stands a closer. -/
def Delimiters.FitsAt (d : Delimiters) (text : List Char) (p : Nat) : Prop :=
  ∃ q r s, d.opener.ReadsAt text p q ∧ q ≤ r ∧ r ≤ text.length ∧ d.closer.ReadsAt text r s

/-- The first closer at or behind a position: where it starts and ends, and what stands before. -/
structure Pattern.FirstFrom (closer : Pattern) (text : List Char) (q : Nat) (inner : List Char)
    (e s : Nat) : Prop where
  inner_eq : text.drop q = inner ++ text.drop e
  start_eq : e = q + inner.length
  reads : closer.ReadsAt text e s
  nearest : ∀ r, q ≤ r → r < e → ∀ t, ¬ closer.ReadsAt text r t

theorem Pattern.FirstFrom.le_length {closer : Pattern} {text inner : List Char} {q e s : Nat}
    (h : closer.FirstFrom text q inner e s) (hq : q ≤ text.length) : e ≤ text.length := by
  have hlen := congrArg List.length h.inner_eq
  have hstart := h.start_eq
  simp only [List.length_drop, List.length_append] at hlen
  omega

theorem Pattern.ends_eq_nil_iff {xs : Pattern} {text : List Char} {p : Nat}
    (hp : p ≤ text.length) :
    xs.ends (.after text p) = [] ↔ ∀ q, ¬ xs.ReadsAt text p q := by
  constructor
  · intro h q hq
    have hmem := (Pattern.mem_ends_iff hp).mpr ⟨q, hq, rfl⟩
    simp [h] at hmem
  · intro h
    rw [List.eq_nil_iff_forall_not_mem]
    intro c hc
    obtain ⟨q, hq, -⟩ := (Pattern.mem_ends_iff hp).mp hc
    exact h q hq

/-- The search for a closer finds the first one, if there is one at all. -/
theorem untilPattern_spec (closer : Pattern) {text : List Char} {q : Nat} (hq : q ≤ text.length) :
    match untilPattern closer (Cursor.after text q).before (text.drop q) with
    | some (inner, rest) => ∃ e s, closer.FirstFrom text q inner e s ∧ rest = text.drop s
    | none => ∀ r, q ≤ r → r ≤ text.length → ∀ s, ¬ closer.ReadsAt text r s := by
  induction hn : text.length - q generalizing q with
  | zero =>
    -- At the end of the text only an empty closer is left to be found.
    obtain rfl : q = text.length := by omega
    have hrest : text.drop text.length = [] := List.drop_length
    have hcursor : (⟨(Cursor.after text text.length).before, []⟩ : Cursor) =
        .after text text.length := by rw [← hrest]; rfl
    rw [hrest, untilPattern, hcursor]
    cases hends : closer.ends (.after text text.length) with
    | nil =>
      intro r hr hr'
      obtain rfl : r = text.length := by omega
      exact (Pattern.ends_eq_nil_iff hq).mp hends
    | cons c cs =>
      obtain ⟨s, hs, rfl⟩ := (Pattern.mem_ends_iff hq).mp (hends ▸ List.mem_cons_self)
      exact ⟨text.length, s, ⟨by simp, by simp, hs, by omega⟩, rfl⟩
  | succ n ih =>
    have hd : text[q]? = some text[q] := List.getElem?_eq_getElem (by omega)
    have hrec := ih (q := q + 1) (by omega) (by omega)
    rw [Cursor.after_succ hd] at hrec
    rw [List.drop_eq_getElem_cons (by omega), untilPattern, ← Cursor.after_eq_cons hd]
    cases hends : closer.ends (.after text q) with
    | cons c cs =>
      -- A closer stands here, so nothing is inside.
      obtain ⟨s, hs, rfl⟩ := (Pattern.mem_ends_iff hq).mp (hends ▸ List.mem_cons_self)
      exact ⟨q, s, ⟨by simp, by simp, hs, by omega⟩, rfl⟩
    | nil =>
      -- No closer stands here, so the first one from the next position on is the first one.
      have hnone := (Pattern.ends_eq_nil_iff hq).mp hends
      have hfirst : ∀ r, q ≤ r → (q + 1 ≤ r → ∀ t, ¬ closer.ReadsAt text r t) →
          ∀ t, ¬ closer.ReadsAt text r t := by
        intro r hqr hlater
        rcases Nat.eq_or_lt_of_le hqr with rfl | hlt
        · exact hnone
        · exact hlater hlt
      cases hfound : untilPattern closer (some text[q]) (text.drop (q + 1)) with
      | none =>
        rw [hfound] at hrec
        exact fun r hqr hr => hfirst r hqr fun hlt => hrec r hlt hr
      | some x =>
        obtain ⟨inner, rest⟩ := x
        rw [hfound] at hrec
        obtain ⟨e, s, ⟨hinner, hstart, hreads, hnearest⟩, rfl⟩ := hrec
        refine ⟨e, s, ⟨?_, ?_, hreads, fun r hqr hre => ?_⟩, rfl⟩
        · rw [List.drop_eq_getElem_cons (by omega), hinner]
          rfl
        · simp only [List.length_cons]
          omega
        · exact hfirst r hqr fun hlt => hnearest r hlt hre

namespace Grammar

theorem readDelimited?_eq_some {d : Delimiters} {text : List Char} {p : Nat}
    (hp : p ≤ text.length) {x : BlockReading} (h : readDelimited? d (.after text p) = some x) :
    ∃ q e s, d.opener.ReadsAt text p q ∧ d.closer.FirstFrom text q x.inner e s
      ∧ p + x.openerLength = q ∧ p + x.length = s := by
  obtain ⟨c, hc, hread⟩ := List.exists_of_findSome?_eq_some h
  obtain ⟨q, hopener, rfl⟩ := (Pattern.mem_ends_iff hp).mp hc
  have hq := hopener.le_length hp
  obtain ⟨⟨inner, rest⟩, hfound, rfl⟩ := Option.map_eq_some_iff.mp hread
  have hspec := untilPattern_spec d.closer hq
  rw [Cursor.rest_after] at hfound
  rw [hfound] at hspec
  obtain ⟨e, s, hfirst, rfl⟩ := hspec
  refine ⟨q, e, s, hopener, hfirst, ?_, ?_⟩
  · have := hopener.le
    simp only [Cursor.rest_after, List.length_drop]
    omega
  · -- The closer is read from `e` on, behind the opener.
    have hstart := hfirst.start_eq
    have := hopener.le
    have := hfirst.reads.le
    have := hfirst.reads.le_length (hfirst.le_length hq)
    simp only [Cursor.rest_after, List.length_drop]
    omega

theorem readDelimited?_isSome_iff {d : Delimiters} {text : List Char} {p : Nat}
    (hp : p ≤ text.length) :
    (readDelimited? d (.after text p)).isSome = true ↔ d.FitsAt text p := by
  constructor
  · intro h
    obtain ⟨x, hx⟩ := Option.isSome_iff_exists.mp h
    obtain ⟨q, e, s, hopener, hfirst, -, -⟩ := readDelimited?_eq_some hp hx
    have hstart := hfirst.start_eq
    exact ⟨q, e, s, hopener, by omega, hfirst.le_length (hopener.le_length hp), hfirst.reads⟩
  · rintro ⟨q, r, s, hopener, hqr, hr, hcloser⟩
    have hspec := untilPattern_spec d.closer (hopener.le_length hp)
    rw [readDelimited?, List.findSome?_isSome_iff]
    refine ⟨.after text q, (Pattern.mem_ends_iff hp).mpr ⟨q, hopener, rfl⟩, ?_⟩
    rw [Option.isSome_map, Cursor.rest_after]
    cases hfound : untilPattern d.closer (Cursor.after text q).before (text.drop q) with
    | some x => rfl
    | none =>
      rw [hfound] at hspec
      exact absurd hcloser (hspec r hqr hr s)

/-! ## Section 2: One block -/

/-- A block may open at a position: it is a boundary if blocks need one, and some pair of
delimiters fits. -/
structure OpensBlock (g : Grammar) (text : List Char) (p : Nat) : Prop where
  le_length : p ≤ text.length
  boundary : g.anchored = true → Text.AtBoundary text p
  fits : ∃ d ∈ g.blocks, d.FitsAt text p

/-- A block of a text between a pair of delimiters, of which the closer starts at `e`. -/
structure BlockAt (g : Grammar) (text : List Char) (b : Block) (d : Delimiters) (e : Nat) :
    Prop where
  start_le_length : b.start ≤ text.length
  boundary : g.anchored = true → Text.AtBoundary text b.start
  opener : d.opener.ReadsAt text b.start b.innerStart
  closer : d.closer.FirstFrom text b.innerStart b.inner e b.stop
  /-- No pair that is declared before fits. -/
  first : ∃ before after, g.blocks = before ++ d :: after
    ∧ ∀ d' ∈ before, ¬ d'.FitsAt text b.start

theorem blockAt?_eq_some {g : Grammar} {text : List Char} {p : Nat} (hp : p ≤ text.length)
    {x : BlockReading} (h : g.blockAt? (.after text p) = some x) :
    ∃ d e, g.BlockAt text ⟨p, p + x.openerLength, x.inner, p + x.length⟩ d e := by
  unfold blockAt? at h
  split at h
  · simp at h
  · next hanchored =>
    -- The pairs before the one that is taken could not be read.
    obtain ⟨before, d, after, hblocks, hread, hbefore⟩ := List.findSome?_eq_some_iff.mp h
    obtain ⟨q, e, s, hopener, hfirst, rfl, rfl⟩ := readDelimited?_eq_some hp hread
    refine ⟨d, e, ⟨hp, fun hg => ?_, hopener, hfirst, before, after, hblocks,
      fun d' hd' hfits => ?_⟩⟩
    · rw [← Cursor.atBoundary_after hp]
      simpa [hg] using hanchored
    · have hsome := (readDelimited?_isSome_iff hp).mpr hfits
      simp [hbefore d' hd'] at hsome

theorem blockAt?_eq_none {g : Grammar} {text : List Char} {p : Nat} (hp : p ≤ text.length)
    (h : g.blockAt? (.after text p) = none) : ¬ g.OpensBlock text p := by
  rintro ⟨-, hboundary, d, hd, hfits⟩
  unfold blockAt? at h
  split at h
  · next hanchored =>
    rw [Bool.and_eq_true, Bool.not_eq_true'] at hanchored
    have := (Cursor.atBoundary_after hp).mpr (hboundary hanchored.1)
    simp [hanchored.2] at this
  · have hnone := List.findSome?_eq_none_iff.mp h d hd
    have hsome := (readDelimited?_isSome_iff hp).mpr hfits
    simp [hnone] at hsome

/-! ## Section 3: The blocks of a text -/

/-- The blocks of a text from a position on: none can open before the first, and behind it the
search goes on at its end. -/
inductive Scan (g : Grammar) (text : List Char) : Nat → List Block → Prop where
  | done {o : Nat} (h : ∀ p, o ≤ p → ¬ g.OpensBlock text p) : Scan g text o []
  | block {o e : Nat} {b : Block} {d : Delimiters} {bs : List Block} (hle : o ≤ b.start)
      (hgap : ∀ p, o ≤ p → p < b.start → ¬ g.OpensBlock text p) (hblock : g.BlockAt text b d e)
      (hlt : b.start < b.stop) (rest : Scan g text b.stop bs) : Scan g text o (b :: bs)

namespace Scan

variable {g : Grammar} {text : List Char} {o : Nat} {bs : List Block}

/-- A position where no block opens may be put in front. -/
theorem skip (h : Scan g text (o + 1) bs) (hnot : ¬ g.OpensBlock text o) : Scan g text o bs := by
  have hfrom : ∀ p, o ≤ p → (o + 1 ≤ p → ¬ g.OpensBlock text p) → ¬ g.OpensBlock text p := by
    intro p hp hlater
    rcases Nat.eq_or_lt_of_le hp with rfl | hlt
    · exact hnot
    · exact hlater hlt
  cases h with
  | done h => exact .done fun p hp => hfrom p hp (h p)
  | block hle hgap hblock hlt rest =>
    exact .block (by omega) (fun p hp hb => hfrom p hp fun h => hgap p h hb) hblock hlt rest

theorem start_le (h : Scan g text o bs) : ∀ b ∈ bs, o ≤ b.start := by
  induction h with
  | done => simp
  | block hle _ _ hlt _ ih =>
    intro b hb
    rcases List.mem_cons.mp hb with rfl | hb
    · exact hle
    · have := ih b hb
      omega

theorem pairwise (h : Scan g text o bs) : bs.Pairwise fun a b => a.stop ≤ b.start := by
  induction h with
  | done => exact .nil
  | block _ _ _ _ rest ih => exact .cons rest.start_le ih

theorem blockAt (h : Scan g text o bs) :
    ∀ b ∈ bs, b.start < b.stop ∧ ∃ d e, g.BlockAt text b d e := by
  induction h with
  | done => simp
  | block _ _ hblock hlt _ ih =>
    intro b hb
    rcases List.mem_cons.mp hb with rfl | hb
    · exact ⟨hlt, _, _, hblock⟩
    · exact ih b hb

theorem not_opensBlock (h : Scan g text o bs) {p : Nat} (hp : o ≤ p)
    (hout : ∀ b ∈ bs, ¬ (b.start ≤ p ∧ p < b.stop)) : ¬ g.OpensBlock text p := by
  induction h with
  | done h => exact h p hp
  | @block _ _ b _ _ _ hgap _ _ _ ih =>
    rcases Nat.lt_or_ge p b.start with hlt | hge
    · exact hgap p hp hlt
    · -- The position lies outside of this block, hence behind it.
      have hstop : ¬ p < b.stop := fun hlt => hout b List.mem_cons_self ⟨hge, hlt⟩
      exact ih (by omega) fun b' hb' => hout b' (List.mem_cons_of_mem _ hb')

end Scan

/-- Every opener of the grammar has a fixed character, so that no block is empty. -/
def HasOpeners (g : Grammar) : Prop :=
  ∀ d ∈ g.blocks, d.opener.hasFixed = true

theorem hasOpeners_of_mem_builtin : ∀ g ∈ builtin, g.HasOpeners := by
  unfold HasOpeners
  decide

theorem BlockAt.innerStart_le_length {g : Grammar} {text : List Char} {b : Block}
    {d : Delimiters} {e : Nat} (h : g.BlockAt text b d e) : b.innerStart ≤ text.length :=
  h.opener.le_length h.start_le_length

theorem BlockAt.stop_le_length {g : Grammar} {text : List Char} {b : Block} {d : Delimiters}
    {e : Nat} (h : g.BlockAt text b d e) : b.stop ≤ text.length :=
  h.closer.reads.le_length (h.closer.le_length h.innerStart_le_length)

theorem BlockAt.start_lt_stop {g : Grammar} (hg : g.HasOpeners) {text : List Char} {b : Block}
    {d : Delimiters} {e : Nat} (h : g.BlockAt text b d e) : b.start < b.stop := by
  obtain ⟨before, after, hblocks, -⟩ := h.first
  have hmem : d ∈ g.blocks := hblocks ▸ List.mem_append_right _ List.mem_cons_self
  have hopener := h.opener.lt_of_hasFixed (hg d hmem)
  have hstart := h.closer.start_eq
  have hcloser := h.closer.reads.le
  omega

theorem blocksFrom_scan {g : Grammar} (hg : g.HasOpeners) {text : List Char} {o k : Nat}
    (hk : o + k ≤ text.length) :
    Scan g text (o + k) (g.blocksFrom k o (Cursor.after text o).before (text.drop o)) := by
  -- The characters of the block that was found last are passed over one by one.
  induction hn : text.length - o generalizing o k with
  | zero =>
    have hrest : text.drop o = [] := List.drop_eq_nil_of_le (by omega)
    rw [hrest, blocksFrom]
    refine .done fun p hp hopens => ?_
    -- An opener takes at least one character, and none is left.
    obtain ⟨d, hd, q, r, s, hopener, -⟩ := hopens.fits
    have := hopener.lt_of_hasFixed (hg d hd)
    have := hopener.le_length hopens.le_length
    omega
  | succ n ih =>
    have hd : text[o]? = some text[o] := List.getElem?_eq_getElem (by omega)
    have hrec : ∀ k, o + 1 + k ≤ text.length → Scan g text (o + 1 + k)
        (g.blocksFrom k (o + 1) (some text[o]) (text.drop (o + 1))) := by
      intro k hk
      have h := ih (o := o + 1) (k := k) hk (by omega)
      rwa [Cursor.after_succ hd] at h
    rw [List.drop_eq_getElem_cons (by omega)]
    cases k with
    | succ k =>
      have h := hrec k (by omega)
      rwa [show o + 1 + k = o + (k + 1) by omega] at h
    | zero =>
      have ho : o ≤ text.length := by omega
      rw [blocksFrom, ← Cursor.after_eq_cons hd, Nat.add_zero]
      cases hat : g.blockAt? (.after text o) with
      | none => exact (hrec 0 (by omega)).skip (blockAt?_eq_none ho hat)
      | some x =>
        -- The block is not empty, so its end lies further on and the search is resumed there.
        obtain ⟨d, e, hblock⟩ := blockAt?_eq_some ho hat
        have hlt := hblock.start_lt_stop hg
        have hstop : o + x.length ≤ text.length := hblock.stop_le_length
        have hrest := hrec (x.length - 1) (by simp only at hlt; omega)
        rw [show o + 1 + (x.length - 1) = o + x.length by simp only at hlt; omega] at hrest
        exact .block (Nat.le_refl o) (by simp only; omega) hblock hlt hrest

/-- The search finds the blocks of a text. -/
theorem blocksOf_scan {g : Grammar} (hg : g.HasOpeners) (text : List Char) :
    Scan g text 0 (g.blocksOf text) := by
  have h : Scan g text (0 + 0)
      (g.blocksFrom 0 0 (Cursor.after text 0).before (text.drop 0)) :=
    blocksFrom_scan hg (Nat.zero_le _)
  simpa [Cursor.start, blocksOf] using h

/-! ## Section 4: The comments of blocks -/

/-- A comment stands at the start of a line of a block: behind decoration follows a tag. -/
def OpensPiece (g : Grammar) (tags : List String) (piece tag rest : List Char) : Prop :=
  ∃ q, g.decoration.ReadsAt piece 0 q ∧ Body.Tagged tags (piece.drop q) tag rest

theorem pieceBody?_eq_some {g : Grammar} {tags : List String} {piece : List Char} {b : Body}
    (h : g.pieceBody? (Tags.byLength tags) piece = some b) :
    ∃ rest, g.OpensPiece tags piece b.tag rest ∧ b = Body.afterTag b.tag rest := by
  obtain ⟨c, hc, hread⟩ := List.exists_of_findSome?_eq_some h
  rw [← Cursor.after_zero] at hc
  obtain ⟨q, hdecoration, rfl⟩ := (Pattern.mem_ends_iff (Nat.zero_le _)).mp hc
  obtain ⟨rest, htagged, hb⟩ := Body.read?_eq_some hread
  exact ⟨rest, ⟨q, hdecoration, htagged⟩, hb⟩

theorem pieceBody?_isSome_iff {g : Grammar} {tags : List String} {piece : List Char} :
    (g.pieceBody? (Tags.byLength tags) piece).isSome = true ↔
      ∃ tag rest, g.OpensPiece tags piece tag rest := by
  constructor
  · intro h
    obtain ⟨b, hb⟩ := Option.isSome_iff_exists.mp h
    obtain ⟨rest, hopens, -⟩ := pieceBody?_eq_some hb
    exact ⟨b.tag, rest, hopens⟩
  · rintro ⟨tag, rest, q, hdecoration, htagged⟩
    rw [pieceBody?, List.findSome?_isSome_iff, ← Cursor.after_zero]
    refine ⟨.after piece q, (Pattern.mem_ends_iff (Nat.zero_le _)).mpr ⟨q, hdecoration, rfl⟩, ?_⟩
    exact Body.read?_isSome_iff.mpr ⟨tag, rest, htagged⟩

/-- The comment of a line of a block, for the number of that line in the text. -/
def pieceFinding? (g : Grammar) (tags : List String) (line : Nat) (piece : List Char) :
    Option Finding :=
  (g.pieceBody? (Tags.byLength tags) piece).map (Finding.ofBody line)

/-- **The block pass.** Blocks follow one another without overlap. Each is the block that opens at
its place, and at no place outside of them a block could open. In each line of each block there is
one comment if decoration and a tag stand at its start, and none otherwise. -/
theorem blockPass_exact (g : Grammar) (hg : g ∈ builtin) (custom : List String)
    (text : List Char) :
    let tags := Tags.all custom
    let blocks := g.blocksOf text
    (blocks.Pairwise fun a b => a.stop ≤ b.start)
      ∧ (∀ b ∈ blocks, b.start < b.stop ∧ b.stop ≤ text.length ∧ ∃ d e, g.BlockAt text b d e)
      ∧ (∀ p, (∀ b ∈ blocks, ¬ (b.start ≤ p ∧ p < b.stop)) → ¬ g.OpensBlock text p)
      ∧ (g.blockFindings (Tags.byLength tags) text blocks = blocks.flatMap fun b =>
          (Text.lines b.inner).zipIdx.flatMap fun x =>
            (g.pieceFinding? tags (Text.lineOf text b.innerStart + x.2) x.1).toList)
      ∧ ∀ line piece,
          ((g.pieceFinding? tags line piece).isSome = true ↔
            ∃ tag rest, g.OpensPiece tags piece tag rest)
          ∧ ∀ f, g.pieceFinding? tags line piece = some f → ∃ b rest,
              g.OpensPiece tags piece b.tag rest ∧ b = Body.afterTag b.tag rest
                ∧ f = Finding.ofBody line b := by
  intro tags blocks
  have hscan : Scan g text 0 blocks := blocksOf_scan (hasOpeners_of_mem_builtin g hg) text
  refine ⟨hscan.pairwise, fun b hb => ?_, fun p hout => hscan.not_opensBlock (Nat.zero_le p) hout,
    ?_, fun line piece => ⟨?_, fun f hf => ?_⟩⟩
  · obtain ⟨hlt, d, e, hblock⟩ := hscan.blockAt b hb
    exact ⟨hlt, hblock.stop_le_length, d, e, hblock⟩
  · unfold blockFindings innerFindings pieceFinding?
    simp only [List.filterMap_eq_flatMap_toList]
  · rw [pieceFinding?, Option.isSome_map]
    exact pieceBody?_isSome_iff
  · obtain ⟨b, hb, rfl⟩ := Option.map_eq_some_iff.mp hf
    obtain ⟨rest, hopens, hrest⟩ := pieceBody?_eq_some hb
    exact ⟨b, rest, hopens, hrest, rfl⟩

/-- Behind the only block of a text no other can open. -/
theorem blockPass_exact_slashes :
    slashes ∈ builtin ∧ ∀ p, 7 ≤ p → ¬ slashes.OpensBlock "/* a */ b".toList p := by
  have hmem : slashes ∈ builtin := by decide
  have hblocks : slashes.blocksOf "/* a */ b".toList = [⟨0, 2, " a ".toList, 7⟩] := by decide
  refine ⟨hmem, fun p hp => (blockPass_exact slashes hmem [] "/* a */ b".toList).2.2.1 p ?_⟩
  rw [hblocks]
  intro b hb
  obtain rfl := List.mem_singleton.mp hb
  simp only
  omega

end Grammar

end TaggedComments
