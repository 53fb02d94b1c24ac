import TaggedComments.Proofs.Extract.LinePass

/-!
# The preferred reading of a marker

Of all readings of a pattern the search tries the one first that takes as many characters as it
can. Behind a marker that is written out and followed by a blank, this one ends at the blank.

- `Pattern.isMarker` is the form that all line markers of the builtin grammars have.
- `Pattern.head?_ends_marker` says where the preferred reading of a marker ends.
- `Grammar.commentAt?_written` says that the body behind a marker and a blank is the one that is
  read.
-/

namespace TaggedComments

/-! ## Section 1: The first of the ends -/

/-- A repetition goes on as far as it can first. -/
theorem Piece.head?_ends_many {s : List Char} {cs : List Char} {p q : Nat}
    (h : (many cs).ReadsAt s p q) (hstop : ∀ c, s[q]? = some c → c ∉ cs) :
    ((many cs).ends (.after s p)).head? = some (.after s q) := by
  induction hn : q - p generalizing p with
  | zero =>
    have hle := h.le
    obtain rfl : p = q := by omega
    rw [ends]
    cases hd : s[p]? with
    | none =>
      have hrest : (Cursor.after s p).rest = [] :=
        List.drop_eq_nil_of_le (List.getElem?_eq_none_iff.mp hd)
      rw [hrest, Cursor.overMany, ← hrest]
      rfl
    | some c =>
      rw [Cursor.overMany_after hd, if_neg (by simpa using hstop c hd)]
      rfl
  | succ n ih =>
    cases h with
    | many hle hall =>
      -- The character here is passed, and the rest of the run behind it.
      obtain ⟨c, hc, hd⟩ := hall p (Nat.le_refl p) (by omega)
      have hrest : (many cs).ReadsAt s (p + 1) q :=
        .many (by omega) fun i hi hiq => hall i (by omega) hiq
      have hfirst := ih hrest (by omega)
      rw [ends] at hfirst ⊢
      rw [Cursor.overMany_after hd, if_pos (by simpa using hc), List.head?_append, hfirst]
      rfl

theorem Piece.ends_one {s : List Char} {c : Char} {p : Nat} (h : s[p]? = some c) :
    (one c).ends (.after s p) = [.after s (p + 1)] := by
  rw [ends, Cursor.after_eq_cons h, Cursor.after_succ h]
  simp [Cursor.overOne]

/-- A character that may be missing is taken first if it is there. -/
theorem Piece.head?_ends_optional {s : List Char} {c : Char} {p q : Nat}
    (h : (optional c).ReadsAt s p q) (hstop : s[q]? ≠ some c) :
    ((optional c).ends (.after s p)).head? = some (.after s q) := by
  rw [ends, List.head?_append]
  cases h with
  | present h =>
    have hone := ends_one h
    rw [ends] at hone
    rw [hone]
    rfl
  | absent =>
    have hnone : (Cursor.after s p).overOne c = [] := by
      rw [List.eq_nil_iff_forall_not_mem]
      intro x hx
      exact hstop (Cursor.mem_overOne_iff.mp hx).1
    rw [hnone]
    rfl

namespace Pattern

/-- The preferred reading of two patterns takes the preferred reading of the first. -/
theorem head?_ends_append {xs ys : Pattern} {p q r : Cursor} (hxs : (xs.ends p).head? = some q)
    (hys : (ys.ends q).head? = some r) : ((xs ++ ys).ends p).head? = some r := by
  obtain ⟨later, hlater⟩ := List.head?_eq_some_iff.mp hxs
  rw [ends_append, hlater, List.flatMap_cons, List.head?_append, hys]
  rfl

theorem ends_singleton (x : Piece) (p : Cursor) : ends [x] p = x.ends p := by
  rw [ends_cons]
  exact List.flatMap_pure_eq_map id _ |>.trans (List.map_id _)

/-- Whether a pattern reads a text from one position up to another can be looked up in its ends. -/
theorem readsAt_iff_mem_ends {m : Pattern} {s : List Char} {p q : Nat} (hp : p ≤ s.length)
    (hq : q ≤ s.length) : m.ReadsAt s p q ↔ .after s q ∈ m.ends (.after s p) := by
  rw [mem_ends_iff hp]
  constructor
  · intro h
    exact ⟨q, h, rfl⟩
  · rintro ⟨n, hn, hcursor⟩
    -- Places of a text that leave the same rest are the same.
    have hlen := congrArg (fun c : Cursor => c.rest.length) hcursor
    have hle := hn.le_length hp
    simp only [Cursor.rest_after, List.length_drop] at hlen
    obtain rfl : q = n := by omega
    exact hn

/-! ## Section 2: Markers -/

theorem readsAt_one_cons_iff {s : List Char} {c : Char} {xs : Pattern} {p q : Nat} :
    ReadsAt s (.one c :: xs) p q ↔ s[p]? = some c ∧ xs.ReadsAt s (p + 1) q := by
  constructor
  · intro h
    cases h with
    | cons hx hxs =>
      cases hx with
      | one hc => exact ⟨hc, hxs⟩
  · rintro ⟨hc, hxs⟩
    exact .cons (.one hc) hxs

theorem readsAt_singleton_iff {s : List Char} {x : Piece} {p q : Nat} :
    ReadsAt s [x] p q ↔ x.ReadsAt s p q := by
  constructor
  · intro h
    cases h with
    | cons hx hnil =>
      cases hnil
      exact hx
  · intro h
    exact .cons h .nil

/-- A marker consists of fixed characters, the last of which may be missing or repeat. None of them
is white space. -/
def isMarker : Pattern → Bool
  | [] => true
  | [.many cs] => cs.all (!Text.isSpace ·)
  | [.optional c] => !Text.isSpace c
  | .one c :: xs => !Text.isSpace c && isMarker xs
  | _ => false

/-- The fixed character that a pattern starts with. -/
def first? : Pattern → Option Char
  | .one c :: _ => some c
  | _ => none

theorem ReadsAt.first?_eq {m : Pattern} {s : List Char} {p q : Nat} {c : Char}
    (h : m.ReadsAt s p q) (hfirst : m.first? = some c) : s[p]? = some c := by
  unfold first? at hfirst
  split at hfirst
  · cases hfirst
    exact (readsAt_one_cons_iff.mp h).1
  · cases hfirst

/-- A marker reads no white space. -/
theorem ReadsAt.not_isSpace {m : Pattern} (hm : m.isMarker = true) {s : List Char} {p q : Nat}
    (h : m.ReadsAt s p q) {i : Nat} (hpi : p ≤ i) (hiq : i < q) :
    ∃ c, s[i]? = some c ∧ Text.isSpace c = false := by
  -- The induction is on the form of the marker, here and below.
  fun_induction isMarker m generalizing p with
  | case1 =>
    cases h
    omega
  | case2 cs =>
    cases readsAt_singleton_iff.mp h with
    | many _ hall =>
      obtain ⟨c, hc, hd⟩ := hall i hpi hiq
      have hspace := List.all_eq_true.mp hm c hc
      exact ⟨c, hd, by simpa using hspace⟩
  | case3 c =>
    cases readsAt_singleton_iff.mp h with
    | present hc =>
      obtain rfl : i = p := by omega
      exact ⟨c, hc, by simpa using hm⟩
    | absent => omega
  | case4 c xs ih =>
    rw [Bool.and_eq_true] at hm
    obtain ⟨hc, hxs⟩ := readsAt_one_cons_iff.mp h
    -- The position is that of the fixed character, or it lies behind it.
    rcases Nat.eq_or_lt_of_le hpi with rfl | hlt
    · exact ⟨c, hc, by simpa using hm.1⟩
    · exact ih hm.2 hxs hlt
  | case5 => cases hm

/-- A marker that is read in a text is read there as well if the text goes on. -/
theorem ReadsAt.append {m : Pattern} (hm : m.isMarker = true) {s : List Char} {p q : Nat}
    (h : m.ReadsAt s p q) (t : List Char) : m.ReadsAt (s ++ t) p q := by
  have hkeep : ∀ {i : Nat} {c : Char}, s[i]? = some c → (s ++ t)[i]? = some c := by
    intro i c hi
    rw [List.getElem?_append_left (List.getElem?_eq_some_iff.mp hi).1, hi]
  fun_induction isMarker m generalizing p with
  | case1 =>
    cases h
    exact .nil
  | case2 cs =>
    cases readsAt_singleton_iff.mp h with
    | many hle hall =>
      refine readsAt_singleton_iff.mpr (.many hle fun i hpi hiq => ?_)
      obtain ⟨c, hc, hd⟩ := hall i hpi hiq
      exact ⟨c, hc, hkeep hd⟩
  | case3 c =>
    cases readsAt_singleton_iff.mp h with
    | present hc => exact readsAt_singleton_iff.mpr (.present (hkeep hc))
    | absent => exact readsAt_singleton_iff.mpr .absent
  | case4 c xs ih =>
    rw [Bool.and_eq_true] at hm
    obtain ⟨hc, hxs⟩ := readsAt_one_cons_iff.mp h
    exact readsAt_one_cons_iff.mpr ⟨hkeep hc, ih hm.2 hxs⟩
  | case5 => cases hm

/-- The preferred reading of a marker is the one that ends at white space. -/
theorem head?_ends_marker {m : Pattern} (hm : m.isMarker = true) {s : List Char} {p q : Nat}
    (h : m.ReadsAt s p q) {d : Char} (hd : s[q]? = some d) (hspace : Text.isSpace d = true) :
    (m.ends (.after s p)).head? = some (.after s q) := by
  fun_induction isMarker m generalizing p with
  | case1 =>
    cases h
    rfl
  | case2 cs =>
    rw [ends_singleton]
    apply Piece.head?_ends_many (readsAt_singleton_iff.mp h)
    -- The white space is not among the characters that repeat.
    intro c hc hmem
    obtain rfl : d = c := Option.some.inj (hd.symm.trans hc)
    simpa [hspace] using List.all_eq_true.mp hm d hmem
  | case3 c =>
    rw [ends_singleton]
    apply Piece.head?_ends_optional (readsAt_singleton_iff.mp h)
    intro hc
    obtain rfl : d = c := Option.some.inj (hd.symm.trans hc)
    simp [hspace] at hm
  | case4 c xs ih =>
    rw [Bool.and_eq_true] at hm
    obtain ⟨hc, hxs⟩ := readsAt_one_cons_iff.mp h
    rw [ends_cons, Piece.ends_one hc, List.flatMap_singleton]
    exact ih hm.2 hxs
  | case5 => cases hm

end Pattern

/-! ## Section 3: A marker, a blank, a body -/

namespace Grammar

/-- The line markers of a grammar have the form of markers, and no two of them start alike. -/
structure PlainMarkers (g : Grammar) : Prop where
  isMarker : ∀ m ∈ g.lineMarkers, m.isMarker = true
  apart : ∀ m ∈ g.lineMarkers, ∀ m' ∈ g.lineMarkers, m.first? = m'.first? → m = m'
  fixed : ∀ m ∈ g.lineMarkers, m.first?.isSome = true

theorem plainMarkers_of_mem_builtin : ∀ g ∈ builtin, g.PlainMarkers := by
  have hmarkers : ∀ g ∈ builtin, (∀ m ∈ g.lineMarkers, m.isMarker = true)
      ∧ (∀ m ∈ g.lineMarkers, ∀ m' ∈ g.lineMarkers, m.first? = m'.first? → m = m')
      ∧ ∀ m ∈ g.lineMarkers, m.first?.isSome = true := by
    decide
  intro g hg
  obtain ⟨hform, hapart, hfixed⟩ := hmarkers g hg
  exact ⟨hform, hapart, hfixed⟩

/-- Markers that can be read at one position are the same. -/
theorem PlainMarkers.eq_of_readsAt {g : Grammar} (hg : g.PlainMarkers) {m m' : Pattern}
    (hm : m ∈ g.lineMarkers) (hm' : m' ∈ g.lineMarkers) {s : List Char} {p q q' : Nat}
    (h : m.ReadsAt s p q) (h' : m'.ReadsAt s p q') : m = m' := by
  obtain ⟨c, hc⟩ := Option.isSome_iff_exists.mp (hg.fixed m hm)
  obtain ⟨c', hc'⟩ := Option.isSome_iff_exists.mp (hg.fixed m' hm')
  apply hg.apart m hm m' hm'
  rw [hc, hc', ← h.first?_eq hc, h'.first?_eq hc']

/-- The preferred reading of a marker with blanks takes the marker that is written and one blank. -/
theorem head?_ends_written {m : Pattern} (hm : m.isMarker = true) {mark body : List Char}
    (hmark : m.ReadsAt mark 0 mark.length)
    (hbody : ∀ c, body.head? = some c → Text.isSpace c = false) :
    (Pattern.ends (m ++ [blanks]) (.after (mark ++ ' ' :: body) 0)).head? =
      some (.after (mark ++ ' ' :: body) (mark.length + 1)) := by
  generalize htext : mark ++ ' ' :: body = text
  have hmarker : m.ReadsAt text 0 mark.length := htext ▸ hmark.append hm (' ' :: body)
  have hblank : text[mark.length]? = some ' ' := by simp [← htext]
  have hgap : (Piece.many [' ', '\t']).ReadsAt text mark.length (mark.length + 1) := by
    refine .many (Nat.le_succ _) fun i hle hlt => ⟨' ', by simp, ?_⟩
    obtain rfl : i = mark.length := by omega
    exact hblank
  have hstop : ∀ c, text[mark.length + 1]? = some c → c ∉ [' ', '\t'] := by
    intro c hc hmem
    have hfirst : body.head? = some c := by
      rw [← hc, ← List.head?_drop]
      simp [← htext, List.drop_append]
    have hspace : Text.isSpace c = true :=
      Text.isSpace_of_isBlank (by simpa [Text.isBlank] using hmem)
    simp [hbody c hfirst] at hspace
  apply Pattern.head?_ends_append (Pattern.head?_ends_marker hm hmarker hblank rfl)
  rw [Pattern.ends_singleton]
  exact Piece.head?_ends_many hgap hstop

/-- Behind a marker and a blank the body is read that stands there. -/
theorem commentAt?_written {g : Grammar} (hg : g.PlainMarkers) {names : List (List Char)}
    {m : Pattern} (hm : m ∈ g.lineMarkers) {mark body : List Char}
    (hmark : m.ReadsAt mark 0 mark.length)
    (hbody : ∀ c, body.head? = some c → Text.isSpace c = false) {b : Body}
    (hread : Body.read? names body = some b) :
    g.commentAt? names (.start (mark ++ ' ' :: body)) = some b := by
  have hform := hg.isMarker m hm
  have hends := head?_ends_written hform hmark hbody
  have hmarker := hmark.append hform (' ' :: body)
  have hrest : (mark ++ ' ' :: body).drop (mark.length + 1) = body := by simp [List.drop_append]
  rw [← Cursor.after_zero, commentAt?,
    if_pos ((Cursor.atBoundary_after (Nat.zero_le _)).mpr (.inl rfl))]
  generalize mark ++ ' ' :: body = text at hends hmarker hrest ⊢
  -- What follows the preferred reading is the body.
  let readBehind (m : Pattern) : Option Body :=
    (Pattern.ends (m ++ [blanks]) (.after text 0)).findSome? fun q => Body.read? names q.rest
  have hfirst : readBehind m = some b := by
    obtain ⟨later, hlater⟩ := List.head?_eq_some_iff.mp hends
    show (Pattern.ends (m ++ [blanks]) (.after text 0)).findSome? _ = some b
    rw [hlater, List.findSome?_cons, Cursor.rest_after, hrest, hread]
  -- No other marker can be read there, so this one decides.
  have hsome : (g.lineMarkers.findSome? readBehind).isSome = true :=
    List.findSome?_isSome_iff.mpr ⟨m, hm, by rw [hfirst]; rfl⟩
  obtain ⟨b', hb'⟩ := Option.isSome_iff_exists.mp hsome
  obtain ⟨m', hm', hfound⟩ := List.exists_of_findSome?_eq_some hb'
  obtain ⟨c, hc, -⟩ := List.exists_of_findSome?_eq_some hfound
  obtain ⟨q, -, hmarker', -⟩ := (mem_ends_marker_iff (Nat.zero_le _)).mp hc
  obtain rfl := hg.eq_of_readsAt hm hm' hmarker hmarker'
  show g.lineMarkers.findSome? readBehind = some b
  rw [hb', ← hfound, hfirst]

end Grammar

end TaggedComments
