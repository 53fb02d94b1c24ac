/-!
# Splitting and joining

Texts are cut at every occurrence of one separator character. A text always has at least one
piece, and joining the pieces gives the text back.

- `splitOn` cuts, `joinWith` puts together.
- `joinWith_splitOn` says that cutting loses nothing.
- `not_mem_of_mem_splitOn` says that no piece holds the separator, and `exists_mem_splitOn` that every
  other character is in some piece.
- `splitOn_joinWith` says that cutting gives back pieces without the separator.
- `toList_intercalate` says that strings are joined in the same way, `splitString_intercalate` that they
  are cut apart again.
-/

namespace TaggedComments.Text

/-- The pieces of a text between the occurrences of a separator. -/
def splitOn (sep : Char) : List Char → List (List Char)
  | [] => [[]]
  | c :: s =>
    if c = sep then [] :: splitOn sep s
    else match splitOn sep s with
      | [] => [[c]]
      | piece :: pieces => (c :: piece) :: pieces

/-- The pieces put together again, the separator between each two. -/
def joinWith (sep : Char) : List (List Char) → List Char
  | [] => []
  | [piece] => piece
  | piece :: next :: pieces => piece ++ sep :: joinWith sep (next :: pieces)

/-- The pieces of a string between the occurrences of a separator. -/
def splitString (sep : Char) (s : String) : List String :=
  (splitOn sep s.toList).map String.ofList

theorem splitOn_ne_nil (sep : Char) (s : List Char) : splitOn sep s ≠ [] := by
  cases s with
  | nil => simp [splitOn]
  | cons c s =>
    simp only [splitOn]
    split
    · simp
    · split <;> simp

/-- Joining the pieces gives the text back. -/
theorem joinWith_splitOn (sep : Char) (s : List Char) : joinWith sep (splitOn sep s) = s := by
  induction s with
  | nil => rfl
  | cons c s ih =>
    simp only [splitOn]
    split
    · next h =>
      cases hs : splitOn sep s with
      | nil => exact absurd hs (splitOn_ne_nil sep s)
      | cons piece pieces =>
        rw [hs] at ih
        simp [joinWith, h, ih]
    · split
      · next hs => exact absurd hs (splitOn_ne_nil sep s)
      · next piece pieces hs =>
        rw [hs] at ih
        cases pieces with
        | nil => simp only [joinWith] at ih ⊢; rw [ih]
        | cons p ps => simp only [joinWith, List.cons_append] at ih ⊢; rw [ih]

/-- No piece holds the separator. -/
theorem not_mem_of_mem_splitOn {sep : Char} {s piece : List Char} (h : piece ∈ splitOn sep s) :
    sep ∉ piece := by
  induction s generalizing piece with
  | nil => simp_all [splitOn]
  | cons c s ih =>
    simp only [splitOn] at h
    split at h
    · rcases List.mem_cons.1 h with rfl | h
      · simp
      · exact ih h
    · next hc =>
      split at h
      · next hs => exact absurd hs (splitOn_ne_nil sep s)
      · next p ps hs =>
        rcases List.mem_cons.1 h with rfl | h
        · simp only [List.mem_cons, not_or]
          exact ⟨fun e => hc e.symm, ih (by simp [hs])⟩
        · exact ih (by simp [hs, h])

/-- A character that does not cut a text is in one of its pieces. -/
theorem exists_mem_splitOn {sep c : Char} {s : List Char} (hc : c ∈ s) (hne : c ≠ sep) :
    ∃ piece ∈ splitOn sep s, c ∈ piece := by
  induction s with
  | nil => cases hc
  | cons d s ih =>
    rw [splitOn]
    split
    · next hd =>
      obtain ⟨piece, hpiece, hmem⟩ := ih ((List.mem_cons.mp hc).resolve_left (by rwa [hd]))
      exact ⟨piece, List.mem_cons_of_mem _ hpiece, hmem⟩
    · cases hs : splitOn sep s with
      | nil => exact absurd hs (splitOn_ne_nil sep s)
      | cons first pieces =>
        rcases List.mem_cons.mp hc with rfl | hc
        · exact ⟨c :: first, by simp, by simp⟩
        · obtain ⟨piece, hpiece, hmem⟩ := ih hc
          rw [hs] at hpiece
          rcases List.mem_cons.mp hpiece with rfl | hpiece
          · exact ⟨d :: piece, by simp, List.mem_cons_of_mem d hmem⟩
          · exact ⟨piece, List.mem_cons_of_mem _ hpiece, hmem⟩

theorem splitOn_of_not_mem {sep : Char} {s : List Char} (h : sep ∉ s) : splitOn sep s = [s] := by
  induction s with
  | nil => rfl
  | cons c s ih =>
    obtain ⟨hc, hs⟩ := not_or.1 (mt List.mem_cons.2 h)
    rw [splitOn, if_neg (Ne.symm hc), ih hs]

/-- The pieces of a string do not hold the separator either. -/
theorem not_mem_of_mem_splitString {sep : Char} {s piece : String}
    (h : piece ∈ splitString sep s) : sep ∉ piece.toList := by
  obtain ⟨piece, hpiece, rfl⟩ := List.mem_map.mp h
  rw [String.toList_ofList]
  exact not_mem_of_mem_splitOn hpiece

theorem splitString_of_not_mem {sep : Char} {s : String} (h : sep ∉ s.toList) :
    splitString sep s = [s] := by
  rw [splitString, splitOn_of_not_mem h, List.map_singleton, String.ofList_toList]

theorem splitOn_append_cons {sep : Char} {piece : List Char} (h : sep ∉ piece) (s : List Char) :
    splitOn sep (piece ++ sep :: s) = piece :: splitOn sep s := by
  induction piece with
  | nil => rw [List.nil_append, splitOn, if_pos rfl]
  | cons c piece ih =>
    obtain ⟨hc, hs⟩ := not_or.1 (mt List.mem_cons.2 h)
    rw [List.cons_append, splitOn, if_neg (Ne.symm hc), ih hs]

/-- What stands before a separator and what stands behind it are cut apart. -/
theorem splitOn_append_sep (sep : Char) (s t : List Char) :
    splitOn sep (s ++ sep :: t) = splitOn sep s ++ splitOn sep t := by
  induction s with
  | nil => simp [splitOn]
  | cons c s ih =>
    rw [List.cons_append, splitOn, splitOn, ih]
    split
    · rfl
    · cases hs : splitOn sep s with
      | nil => exact absurd hs (splitOn_ne_nil sep s)
      | cons piece pieces => rfl

/-- Cutting gives back the pieces of a text if none of them holds the separator. -/
theorem splitOn_joinWith {sep : Char} {pieces : List (List Char)} (hne : pieces ≠ [])
    (h : ∀ piece ∈ pieces, sep ∉ piece) : splitOn sep (joinWith sep pieces) = pieces := by
  induction pieces with
  | nil => exact absurd rfl hne
  | cons piece pieces ih =>
    cases pieces with
    | nil => exact splitOn_of_not_mem (h piece (by simp))
    | cons next pieces =>
      rw [joinWith, splitOn_append_cons (h piece (by simp)),
        ih (by simp) fun p hp => h p (List.mem_cons_of_mem _ hp)]

theorem joinWith_append {sep : Char} {ps qs : List (List Char)} (hps : ps ≠ []) (hqs : qs ≠ []) :
    joinWith sep (ps ++ qs) = joinWith sep ps ++ sep :: joinWith sep qs := by
  induction ps with
  | nil => exact absurd rfl hps
  | cons p ps ih =>
    cases ps with
    | nil =>
      obtain ⟨q, qs, rfl⟩ := List.exists_cons_of_ne_nil hqs
      rfl
    | cons next ps =>
      rw [List.cons_append, List.cons_append, joinWith, ← List.cons_append, ih (by simp), joinWith,
        List.append_assoc, List.cons_append]

/-- Strings with a string of one character between them are joined by this character. -/
theorem toList_intercalate {between : String} {sep : Char} (h : between.toList = [sep])
    (pieces : List String) :
    (between.intercalate pieces).toList = joinWith sep (pieces.map String.toList) := by
  rw [String.toList_intercalate, h]
  generalize pieces.map String.toList = pieces
  induction pieces with
  | nil => rfl
  | cons piece pieces ih =>
    cases pieces with
    | nil => simp [List.intercalate, joinWith]
    | cons next pieces =>
      rw [joinWith, ← ih]
      simp [List.intercalate, List.intersperse]

/-- Strings that were joined by a character are cut apart again if none of them holds it. -/
theorem splitString_intercalate {between : String} {sep : Char} (h : between.toList = [sep])
    {pieces : List String} (hne : pieces ≠ []) (hpieces : ∀ piece ∈ pieces, sep ∉ piece.toList) :
    splitString sep (between.intercalate pieces) = pieces := by
  have hlists : ∀ piece ∈ pieces.map String.toList, sep ∉ piece := by
    intro piece hpiece
    obtain ⟨s, hs, rfl⟩ := List.mem_map.mp hpiece
    exact hpieces s hs
  rw [splitString, toList_intercalate h, splitOn_joinWith (by simpa using hne) hlists, List.map_map]
  exact (List.map_congr_left fun _ _ => String.ofList_toList).trans (List.map_id _)

end TaggedComments.Text
