import TaggedComments.Proofs.Extract.Marker
import TaggedComments.Proofs.Extract.RoundTrip

/-!
# Texts below other text

Of what stands before a place a pattern sees one character, and a line feed tells it no more than
the start of a text. So what is read of a text is read as well if the text starts on a later line.

- `Cursor.fresh` forgets a line feed before a place; `Pattern.ends_fresh` says that patterns do not
  see the difference, and `Grammar.blockAt?_fresh` that blocks do not.
- `Grammar.Above` says that a text ends its last line and that no block starts in it when another
  text stands below; `Grammar.above_of_blank` says so of blank lines.
- `Grammar.Above.blocksOf_append` gives the blocks of the two texts together, and
  `Grammar.Above.blocksOf_front` says that the first by itself has none either.
-/

namespace TaggedComments

/-! ## Section 1: Places at the start of a line -/

namespace Cursor

/-- A place without the line feed before it, if there is one. -/
def fresh (p : Cursor) : Cursor :=
  ⟨if p.before = some '\n' then none else p.before, p.rest⟩

@[simp] theorem rest_fresh (p : Cursor) : p.fresh.rest = p.rest := rfl

@[simp] theorem atLineStart_fresh (p : Cursor) : p.fresh.atLineStart = p.atLineStart := by
  obtain ⟨before, rest⟩ := p
  cases before with
  | none => rfl
  | some c => by_cases hc : c = '\n' <;> simp [fresh, atLineStart, hc]

@[simp] theorem atLineEnd_fresh (p : Cursor) : p.fresh.atLineEnd = p.atLineEnd := rfl

@[simp] theorem atBoundary_fresh (p : Cursor) : p.fresh.atBoundary = p.atBoundary := by
  obtain ⟨before, rest⟩ := p
  cases before with
  | none => rfl
  | some c =>
    -- The line feed is white space.
    have hfeed : Text.isSpace '\n' = true := rfl
    by_cases hc : c = '\n' <;> simp [fresh, atBoundary, hc, hfeed]

@[simp] theorem fresh_fresh (p : Cursor) : p.fresh.fresh = p.fresh := by
  by_cases hc : p.before = some '\n' <;> simp [fresh, hc]

theorem overMany_fresh (cs : List Char) (p : Cursor) :
    (overMany cs p.fresh.before p.fresh.rest).map fresh =
      (overMany cs p.before p.rest).map fresh := by
  have hhere : ∀ rest, p.rest = rest →
      fresh ⟨p.fresh.before, rest⟩ = fresh ⟨p.before, rest⟩ := by
    rintro rest rfl
    exact p.fresh_fresh
  rw [rest_fresh]
  -- Only the place where nothing is passed has the same character before it.
  cases hrest : p.rest with
  | nil => simp [overMany, hhere [] hrest]
  | cons c rest =>
    simp only [overMany]
    split
    · simp [hhere _ hrest]
    · simp [hhere _ hrest]

end Cursor

theorem Piece.ends_fresh (x : Piece) (p : Cursor) :
    (x.ends p.fresh).map Cursor.fresh = (x.ends p).map Cursor.fresh := by
  cases x with
  | one c => rfl
  | many cs => exact Cursor.overMany_fresh cs p
  | optional c =>
    have hone : p.fresh.overOne c = p.overOne c := rfl
    simp [ends, hone]
  | lineStart =>
    simp only [ends, Cursor.atLineStart_fresh]
    split <;> simp
  | lineEnd =>
    rw [ends, ends, Cursor.atLineEnd_fresh]
    split <;> simp

/-- A pattern does not see whether a line or the whole text starts at a place. -/
theorem Pattern.ends_fresh (xs : Pattern) (p : Cursor) :
    (xs.ends p.fresh).map Cursor.fresh = (xs.ends p).map Cursor.fresh := by
  induction xs generalizing p with
  | nil => simp
  | cons x xs ih =>
    -- The parts behind the first one start from its ends.
    have hlater : ∀ cs : List Cursor, (cs.flatMap (ends xs)).map Cursor.fresh =
        (cs.map Cursor.fresh).flatMap fun q => (ends xs q).map Cursor.fresh := by
      intro cs
      rw [List.map_flatMap, List.flatMap_map]
      exact congrArg (List.flatMap · cs) (funext fun q => (ih q).symm)
    rw [ends_cons, ends_cons, hlater, hlater, Piece.ends_fresh]

/-- Before and after forgetting a line feed a pattern cannot be read, or it leaves the same rest. -/
theorem Pattern.ends_fresh_cases (xs : Pattern) (p : Cursor) :
    (xs.ends p.fresh = [] ∧ xs.ends p = []) ∨ ∃ q qs q' qs', xs.ends p.fresh = q :: qs
      ∧ xs.ends p = q' :: qs' ∧ q.rest = q'.rest := by
  have hends := xs.ends_fresh p
  cases hfresh : xs.ends p.fresh with
  | nil =>
    rw [hfresh, List.map_nil, eq_comm, List.map_eq_nil_iff] at hends
    exact .inl ⟨rfl, hends⟩
  | cons q qs =>
    rw [hfresh, List.map_cons, eq_comm, List.map_eq_cons_iff] at hends
    obtain ⟨q', qs', hends, hq, -⟩ := hends
    exact .inr ⟨q, qs, q', qs', rfl, hends, (congrArg Cursor.rest hq).symm⟩

theorem untilPattern_fresh (closer : Pattern) (before : Option Char) (s : List Char) :
    untilPattern closer (Cursor.fresh ⟨before, s⟩).before s = untilPattern closer before s := by
  cases s with
  | nil =>
    have hcursor : (⟨(Cursor.fresh ⟨before, []⟩).before, []⟩ : Cursor) = .fresh ⟨before, []⟩ := rfl
    rw [untilPattern, untilPattern, hcursor]
    rcases closer.ends_fresh_cases ⟨before, []⟩ with ⟨h, h'⟩ | ⟨q, qs, q', qs', h, h', hrest⟩
    · rw [h, h']
    · simp [h, h', hrest]
  | cons c s =>
    have hcursor : (⟨(Cursor.fresh ⟨before, c :: s⟩).before, c :: s⟩ : Cursor) =
        .fresh ⟨before, c :: s⟩ := rfl
    rw [untilPattern, untilPattern, hcursor]
    rcases closer.ends_fresh_cases ⟨before, c :: s⟩ with ⟨h, h'⟩ | ⟨q, qs, q', qs', h, h', hrest⟩
    · rw [h, h']
    · simp [h, h', hrest]

namespace Grammar

theorem readDelimited?_fresh (d : Delimiters) (p : Cursor) :
    readDelimited? d p.fresh = readDelimited? d p := by
  let readFrom (q : Cursor) : Option BlockReading :=
    (untilPattern d.closer q.before q.rest).map fun x =>
      ⟨p.rest.length - q.rest.length, x.1, p.rest.length - x.2.length⟩
  have hfresh : ∀ q, readFrom q.fresh = readFrom q := by
    intro q
    simp only [readFrom, Cursor.rest_fresh]
    rw [untilPattern_fresh d.closer q.before q.rest]
  have hforget : ∀ qs : List Cursor, (qs.map Cursor.fresh).findSome? readFrom =
      qs.findSome? readFrom := by
    intro qs
    rw [List.findSome?_map]
    exact congrArg (List.findSome? · qs) (funext hfresh)
  show (d.opener.ends p.fresh).findSome? readFrom = (d.opener.ends p).findSome? readFrom
  rw [← hforget, Pattern.ends_fresh, hforget]

theorem blockAt?_fresh (g : Grammar) (p : Cursor) : g.blockAt? p.fresh = g.blockAt? p := by
  simp [blockAt?, readDelimited?_fresh]

/-- The search for blocks does not see whether a line or the whole text starts. -/
theorem blocksFrom_feed (g : Grammar) (offset : Nat) (s : List Char) :
    g.blocksFrom 0 offset (some '\n') s = g.blocksFrom 0 offset none s := by
  cases s with
  | nil => rfl
  | cons c s =>
    rw [blocksFrom, blocksFrom, ← blockAt?_fresh g ⟨some '\n', c :: s⟩]
    rfl

end Grammar

/-! ## Section 2: Blocks further down -/

/-- A block with its place further on. -/
def Block.shift (n : Nat) (b : Block) : Block :=
  ⟨n + b.start, n + b.innerStart, b.inner, n + b.stop⟩

namespace Grammar

theorem blocksFrom_shift (g : Grammar) (n skip offset : Nat) (before : Option Char)
    (s : List Char) :
    g.blocksFrom skip (n + offset) before s =
      (g.blocksFrom skip offset before s).map (Block.shift n) := by
  induction s generalizing skip offset before with
  | nil => cases skip <;> rfl
  | cons c s ih =>
    cases skip with
    | succ skip =>
      rw [blocksFrom, blocksFrom, Nat.add_assoc, ih]
    | zero =>
      rw [blocksFrom, blocksFrom]
      cases g.blockAt? ⟨before, c :: s⟩ with
      | none =>
        simp only
        rw [Nat.add_assoc, ih]
      | some x =>
        simp only [List.map_cons, Block.shift]
        rw [Nat.add_assoc n offset 1, ih, Nat.add_assoc n offset x.openerLength,
          Nat.add_assoc n offset x.length]

/-- Where no block starts the search goes on behind. -/
theorem blocksFrom_append (g : Grammar) {front back : List Char} {offset : Nat}
    {before : Option Char}
    (h : ∀ b ∈ g.blocksFrom 0 offset before (front ++ back), offset + front.length ≤ b.start) :
    g.blocksFrom 0 offset before (front ++ back) =
      g.blocksFrom 0 (offset + front.length) (front.getLast?.or before) back := by
  induction front generalizing offset before with
  | nil => rfl
  | cons c front ih =>
    rw [List.cons_append, blocksFrom] at h ⊢
    cases hat : g.blockAt? ⟨before, c :: (front ++ back)⟩ with
    | some x =>
      -- A block would start here.
      rw [hat] at h
      have hstart : offset + (front.length + 1) ≤ offset := h _ List.mem_cons_self
      omega
    | none =>
      simp only [hat] at h ⊢
      have hlength : offset + 1 + front.length = offset + (c :: front).length := by
        rw [List.length_cons]
        omega
      have hlast : front.getLast?.or (some c) = (c :: front).getLast?.or before := by
        rw [List.getLast?_cons]
        cases front.getLast? <;> rfl
      rw [ih fun b hb => hlength ▸ h b hb, hlength, hlast]

/-- A text stands above another: it ends its last line, and in the two together no block starts in
it. -/
structure Above (g : Grammar) (front back : List Char) : Prop where
  /-- The text is empty or ends in a line feed. -/
  endsLine : Text.EndsLine front
  /-- Every block starts in the text below. -/
  le_start : ∀ b ∈ g.blocksOf (front ++ back), front.length ≤ b.start

/-- The blocks of two texts are those of the one below, further on. -/
theorem Above.blocksOf_append {g : Grammar} {front back : List Char} (h : g.Above front back) :
    g.blocksOf (front ++ back) = (g.blocksOf back).map (Block.shift front.length) := by
  have hbehind : g.blocksFrom 0 0 none (front ++ back) =
      g.blocksFrom 0 (0 + front.length) (front.getLast?.or none) back := by
    apply g.blocksFrom_append
    simpa [blocksOf] using h.le_start
  rw [blocksOf, hbehind, Nat.zero_add, ← Nat.add_zero front.length, blocksOf, ← blocksFrom_shift]
  rcases h.endsLine with rfl | ⟨front, rfl⟩
  · rfl
  · rw [List.getLast?_append, List.getLast?_singleton, Option.some_or, Option.some_or,
      blocksFrom_feed]

end Grammar

/-! ## Section 3: What is read in a text that ends a line -/

namespace Pattern

/-- No part of a pattern takes a line feed. -/
def sparesFeeds (xs : Pattern) : Bool :=
  xs.all fun
    | .one c | .optional c => c != '\n'
    | .many cs => !cs.contains '\n'
    | .lineStart | .lineEnd => true

/-- A fixed character that is no white space is among the parts. -/
def hasVisible (xs : Pattern) : Bool :=
  xs.any fun
    | .one c => !Text.isSpace c
    | _ => false

theorem ReadsAt.not_feed {s : List Char} {xs : Pattern} {p q : Nat} (h : xs.ReadsAt s p q)
    (hxs : xs.sparesFeeds = true) {i : Nat} (hpi : p ≤ i) (hiq : i < q) : s[i]? ≠ some '\n' := by
  induction h with
  | nil => omega
  | @cons x xs p q r hx _ ih =>
    obtain ⟨hfirst, hlater⟩ : _ ∧ xs.sparesFeeds = true := by
      simpa [sparesFeeds] using hxs
    rcases Nat.lt_or_ge i q with hlt | hge
    · cases hx with
      | one hc | present hc =>
        obtain rfl : i = p := by omega
        rw [hc]
        simpa using hfirst
      | many hle hall =>
        obtain ⟨c, hc, hget⟩ := hall i hpi hlt
        rw [hget]
        rintro ⟨⟩
        simp [hc] at hfirst
      | absent | lineStart | lineEnd => omega
    · exact ih hlater hge hiq

theorem ReadsAt.exists_visible {s : List Char} {xs : Pattern} {p q : Nat} (h : xs.ReadsAt s p q)
    (hxs : xs.hasVisible = true) :
    ∃ i c, p ≤ i ∧ i < q ∧ s[i]? = some c ∧ Text.isSpace c = false := by
  induction h with
  | nil => cases hxs
  | @cons x xs p q r hx hrest ih =>
    have hle := hrest.le
    have hlater : xs.hasVisible = true →
        ∃ i c, p ≤ i ∧ i < r ∧ s[i]? = some c ∧ Text.isSpace c = false := by
      intro hxs
      obtain ⟨i, c, hqi, hir, hget, hspace⟩ := ih hxs
      exact ⟨i, c, Nat.le_trans hx.le hqi, hir, hget, hspace⟩
    cases hx with
    | @one c _ hc =>
      by_cases hspace : Text.isSpace c = true
      · exact hlater (by simpa [hasVisible, hspace] using hxs)
      · exact ⟨p, c, Nat.le_refl p, hle, hc, by simpa using hspace⟩
    | many | present | absent | lineStart | lineEnd =>
      exact hlater (by simpa [hasVisible] using hxs)

/-- A reading that ends before the end of a text is one as well if the text goes on. -/
theorem ReadsAt.append_of_lt {s : List Char} {xs : Pattern} {p q : Nat} (h : xs.ReadsAt s p q)
    (hq : q < s.length) (t : List Char) : xs.ReadsAt (s ++ t) p q := by
  have hkeep : ∀ {i : Nat} {c : Char}, s[i]? = some c → (s ++ t)[i]? = some c := by
    intro i c hi
    rw [List.getElem?_append_left (List.getElem?_eq_some_iff.mp hi).1, hi]
  induction h with
  | nil => exact .nil
  | @cons x xs p q r hx hrest ih =>
    have hle := hrest.le
    refine .cons ?_ (ih hq)
    cases hx with
    | one hc => exact .one (hkeep hc)
    | many hle hall =>
      refine .many hle ?_
      intro i hpi hiq
      obtain ⟨c, hc, hget⟩ := hall i hpi hiq
      exact ⟨c, hc, hkeep hget⟩
    | present hc => exact .present (hkeep hc)
    | absent => exact .absent
    | lineStart hstart => exact .lineStart (hstart.imp_right hkeep)
    | lineEnd hend => exact .lineEnd (.inr (hkeep (hend.resolve_left (by omega))))

/-- A pattern that takes no line feed stops before the line feed at the end of a text. -/
theorem ReadsAt.lt_length {s : List Char} {xs : Pattern} {p q : Nat}
    (h : xs.ReadsAt (s ++ ['\n']) p q) (hp : p ≤ (s ++ ['\n']).length)
    (hspares : xs.sparesFeeds = true) (hvisible : xs.hasVisible = true) :
    q < (s ++ ['\n']).length := by
  have hq := h.le_length hp
  obtain ⟨i, c, hpi, hiq, -⟩ := h.exists_visible hvisible
  apply Nat.lt_of_le_of_ne hq
  rintro rfl
  rw [List.length_append, List.length_singleton] at hiq
  apply h.not_feed hspares (i := s.length) (by omega) (by simp)
  simp

end Pattern

namespace Grammar

/-- The delimiters of blocks take no line feeds, and each has a visible character. -/
def PlainDelimiters (g : Grammar) : Prop :=
  ∀ d ∈ g.blocks, ∀ m ∈ [d.opener, d.closer], m.sparesFeeds = true ∧ m.hasVisible = true

theorem plainDelimiters_of_mem_builtin : ∀ g ∈ builtin, g.PlainDelimiters := by
  unfold PlainDelimiters
  decide

/-- A block that opens in a text that ends a line opens there as well if the text goes on. -/
theorem OpensBlock.append {g : Grammar} (hg : g.PlainDelimiters) {s : List Char} {p : Nat}
    (h : g.OpensBlock (s ++ ['\n']) p) (t : List Char) :
    p < (s ++ ['\n']).length ∧ g.OpensBlock (s ++ ['\n'] ++ t) p := by
  obtain ⟨hp, hboundary, d, hd, q, r, e, hopener, hqr, hr, hcloser⟩ := h
  obtain ⟨hspares, hvisible⟩ := hg d hd d.opener (by simp)
  obtain ⟨hspares', hvisible'⟩ := hg d hd d.closer (by simp)
  have hq := hopener.lt_length hp hspares hvisible
  have he := hcloser.lt_length hr hspares' hvisible'
  have hlt : p < (s ++ ['\n']).length := Nat.lt_of_le_of_lt hopener.le hq
  refine ⟨hlt, ?_, ?_, d, hd, q, r, e, hopener.append_of_lt hq t, hqr, ?_,
    hcloser.append_of_lt he t⟩
  · rw [List.length_append]
    omega
  · intro hanchored
    rcases hboundary hanchored with h | ⟨c, hc, hspace⟩
    · exact .inl h
    · refine .inr ⟨c, ?_, hspace⟩
      rw [List.getElem?_append_left (List.getElem?_eq_some_iff.mp hc).1, hc]
  · rw [List.length_append]
    omega

/-- A text in which no block starts when another stands below has no blocks by itself. -/
theorem Above.blocksOf_front {g : Grammar} (hg : g ∈ builtin) {front back : List Char}
    (h : g.Above front back) : g.blocksOf front = [] := by
  have hopeners := hasOpeners_of_mem_builtin g hg
  rcases h with ⟨rfl | ⟨s, rfl⟩, hstart⟩
  · rfl
  · apply (blocksOf_eq_nil_iff hopeners).mpr
    intro p hp
    obtain ⟨hlt, hopens⟩ := hp.append (plainDelimiters_of_mem_builtin g hg) back
    -- Some block of the whole text would lie there.
    apply (blocksOf_scan hopeners _).not_opensBlock (Nat.zero_le p) _ hopens
    intro b hb
    have hle := hstart b hb
    omega

/-- In blank lines no block starts. -/
theorem above_of_blank {g : Grammar} (hg : g ∈ builtin) {front : List Char}
    (hfront : Text.EndsLine front) (hblank : ∀ c ∈ front, Text.isSpace c = true)
    (back : List Char) : g.Above front back := by
  refine ⟨hfront, ?_⟩
  intro b hb
  obtain ⟨-, d, e, hblock⟩ := (blocksOf_scan (hasOpeners_of_mem_builtin g hg) _).blockAt b hb
  obtain ⟨before, after, hblocks, -⟩ := hblock.first
  have hd : d ∈ g.blocks := hblocks ▸ List.mem_append_right _ List.mem_cons_self
  obtain ⟨hspares, hvisible⟩ := plainDelimiters_of_mem_builtin g hg d hd d.opener (by simp)
  obtain ⟨i, c, hstart, hinner, hget, hspace⟩ := hblock.opener.exists_visible hvisible
  apply Nat.le_of_not_lt
  intro hlt
  rcases hfront with rfl | ⟨s, rfl⟩
  · cases hlt
  rw [List.length_append, List.length_singleton] at hlt
  rcases Nat.lt_or_ge i (s ++ ['\n']).length with hi | hi
  · -- The visible character of the opener would stand among blanks.
    rw [List.getElem?_append_left hi] at hget
    rw [hblank c (List.mem_of_getElem? hget)] at hspace
    cases hspace
  · -- The opener would take the last line feed.
    rw [List.length_append, List.length_singleton] at hi
    apply hblock.opener.not_feed hspares (i := s.length) (by omega) (by omega)
    simp

end Grammar

end TaggedComments
